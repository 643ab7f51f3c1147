/-
Which user datagrams the datagram layer hands on: complete ones whose checksum is absent or
verifies, to a port that belongs to a layer (`Takes`). A sound datagram is handed on without its
header and without what follows it, or ends here (`receivePass_of_sound`), and so does any other one
(`receivePass_of_not_sound`). A datagram that is written here is sound itself (`sound_segment`).
-/
import UdpStack.Proofs.Checksum
import UdpStack.Proofs.Octets
import UdpStack.Proofs.Packet
import UdpStack.Udp.Ports

namespace UdpStack.Udp

open Octets

namespace Header

/-- The sum over pseudo header and datagram that a checksum makes all ones. -/
def sumOf (b : Octets) (src dst : Ipv4.Address) : UInt16 :=
  Checksum.combine [Checksum.pseudoHeader src dst Ipv4.Protocol.udp.toByte (UInt16.ofNat (word b 4)),
    Checksum.ofBytes (b.take (word b 4))]

/-- Bytes that start with a user datagram: it ends inside them, and its checksum is absent or
verifies, unless that is left out. -/
structure Sound (b : Octets) (src dst : Ipv4.Address) (unverified : Bool) : Prop where
  least : 8 ≤ word b 4
  available : word b 4 ≤ b.length
  checksum : unverified = true ∨ word b 6 = 0 ∨ sumOf b src dst = 0xffff

theorem read?_of_le {b : Octets} (h : 8 ≤ b.length) : read? b = some
    ⟨UInt16.ofNat (word b 0), UInt16.ofNat (word b 2), UInt16.ofNat (word b 4), UInt16.ofNat (word b 6)⟩ := by
  unfold read?
  simp only [word16?_of_le (by omega : 0 + 2 ≤ b.length), word16?_of_le (by omega : 2 + 2 ≤ b.length),
    word16?_of_le (by omega : 4 + 2 ≤ b.length), word16?_of_le (by omega : 6 + 2 ≤ b.length)]
  rfl

theorem checkLength_eq_ok {b : Octets} (h1 : 8 ≤ word b 4) (h2 : word b 4 ≤ b.length) :
    checkLength b = .ok () := by
  have hs : size = 8 := rfl
  unfold checkLength
  rw [if_neg (by omega), word16?_of_le (by omega)]
  dsimp only
  rw [toNat_ofNat_word, if_neg (by omega), if_neg (by omega)]

theorem checkLength_eq_error {b : Octets} (h : ¬ (8 ≤ word b 4 ∧ word b 4 ≤ b.length)) :
    ∃ f, checkLength b = .error f := by
  have hs : size = 8 := rfl
  unfold checkLength
  split
  · exact ⟨_, rfl⟩
  · rw [word16?_of_le (by omega)]
    dsimp only
    rw [toNat_ofNat_word]
    split
    · exact ⟨_, rfl⟩
    · split
      · exact ⟨_, rfl⟩
      · exact absurd ⟨by omega, by omega⟩ h

theorem sum?_eq_some {b : Octets} (h1 : 6 ≤ b.length) (h2 : word b 4 ≤ b.length) (src dst : Ipv4.Address) :
    sum? b src dst = some (sumOf b src dst) := by
  unfold sum?
  rw [word16?_of_le (by omega)]
  simp only [Bind.bind, Option.bind]
  rw [toNat_ofNat_word, slice?_of_le (by omega), List.drop_zero]
  rfl

theorem verifyChecksum?_eq_some {b : Octets} (h1 : 8 ≤ word b 4) (h2 : word b 4 ≤ b.length)
    (src dst : Ipv4.Address) : ∃ valid, verifyChecksum? b src dst = some valid ∧
      (valid = true ↔ word b 6 = 0 ∨ sumOf b src dst = 0xffff) := by
  unfold verifyChecksum?
  rw [word16?_of_le (by omega)]
  simp only [Bind.bind, Option.bind]
  have hz : UInt16.ofNat (word b 6) = 0 ↔ word b 6 = 0 := by
    rw [← UInt16.toNat_inj, toNat_ofNat_word]; rfl
  by_cases h0 : word b 6 = 0
  · rw [if_pos (hz.2 h0)]
    exact ⟨true, rfl, by simp [h0]⟩
  · rw [if_neg fun h => h0 (hz.1 h)]
    rw [sum?_eq_some (by omega) h2]
    exact ⟨_, rfl, by simp [h0]⟩

/-- The sums of both parts add up as the bytes of both parts do, also behind an odd length. -/
theorem toNat_sumOf (b : Octets) (src dst : Ipv4.Address) : (sumOf b src dst).toNat = Checksum.carried
    (Checksum.total (Checksum.pseudoOctets src dst 17 (UInt16.ofNat (word b 4))) +
      Checksum.total (b.take (word b 4))) := by
  have hlen : (b.take (word b 4)).length ≤ 65535 := by
    have := word_lt b 4
    rw [List.length_take]
    omega
  unfold sumOf
  rw [Checksum.toNat_combine (by simp), List.map_cons, List.map_singleton, List.sum_cons, List.sum_singleton,
    Checksum.toNat_pseudoHeader, Checksum.toNat_ofBytes hlen, Checksum.carried_add_left,
    Checksum.carried_add_right]
  rfl

/-- The checksum that goes into a datagram whose checksum is still zero. -/
def checksumFor (b : Octets) (src dst : Ipv4.Address) : UInt16 :=
  if ~~~sumOf b src dst = 0 then 0xffff else ~~~sumOf b src dst

/-- As a number, the checksum is not zero and cancels the sum modulo 65535. -/
theorem checksumFor_mod (b : Octets) (src dst : Ipv4.Address) : (checksumFor b src dst).toNat ≠ 0 ∧
    (checksumFor b src dst).toNat % 65535 = (65535 - (sumOf b src dst).toNat) % 65535 := by
  have hnot := Checksum.toNat_complement (sumOf b src dst)
  unfold checksumFor
  by_cases hz : ~~~sumOf b src dst = 0
  · rw [if_pos hz, ← hnot, hz]
    exact ⟨by decide, rfl⟩
  · rw [if_neg hz, hnot]
    exact ⟨fun h => hz (UInt16.toNat_inj.1 (hnot.trans h)), rfl⟩

/-! ## Headers that are written here -/

/-- The bytes of a header. -/
def octets (srcPort dstPort len checksum : UInt16) : Octets :=
  ofWord16 srcPort ++ ofWord16 dstPort ++ ofWord16 len ++ ofWord16 checksum

/-- The bytes of a datagram with its checksum. -/
def segment (srcPort dstPort : UInt16) (src dst : Ipv4.Address) (payload : Octets) : Octets :=
  octets srcPort dstPort (UInt16.ofNat (payload.length + 8)) (checksumFor
    (octets srcPort dstPort (UInt16.ofNat (payload.length + 8)) 0 ++ payload) src dst) ++ payload

section octets

variable (srcPort dstPort len : UInt16) (payload : Octets) (src dst : Ipv4.Address)

@[simp] theorem length_octets (checksum : UInt16) : (octets srcPort dstPort len checksum).length = 8 := rfl

theorem word_src_octets (checksum : UInt16) : word (octets srcPort dstPort len checksum ++ payload) 0 =
    srcPort.toNat := toNat_ofWord16 srcPort

theorem word_dst_octets (checksum : UInt16) : word (octets srcPort dstPort len checksum ++ payload) 2 =
    dstPort.toNat := toNat_ofWord16 dstPort

theorem word_len_octets (checksum : UInt16) : word (octets srcPort dstPort len checksum ++ payload) 4 =
    len.toNat := toNat_ofWord16 len

/-- The checksum is one of the words that a datagram adds up. -/
theorem total_octets (checksum : UInt16) :
    Checksum.total (octets srcPort dstPort len checksum ++ payload) =
      Checksum.total (octets srcPort dstPort len 0 ++ payload) + checksum.toNat := by
  have hsplit : ∀ c, Checksum.total (octets srcPort dstPort len c ++ payload) =
      Checksum.total (ofWord16 srcPort ++ ofWord16 dstPort ++ ofWord16 len) +
        (c.toNat + Checksum.total payload) := by
    intro c
    have hw : (ofWord16 c).length % 2 = 0 := by rw [length_ofWord16]
    have hfront : (ofWord16 srcPort ++ ofWord16 dstPort ++ ofWord16 len).length % 2 = 0 := by simp
    rw [← Checksum.total_ofWord16 c, ← Checksum.total_append _ hw, ← Checksum.total_append _ hfront]
    rfl
  rw [hsplit checksum, hsplit 0]
  show _ = _ + (0 + _) + _
  omega

variable {len payload}

theorem toNat_sumOf_octets (hl : len.toNat = payload.length + 8) (checksum : UInt16) :
    (sumOf (octets srcPort dstPort len checksum ++ payload) src dst).toNat =
      Checksum.carried (Checksum.total (Checksum.pseudoOctets src dst 17 len) +
        (Checksum.total (octets srcPort dstPort len 0 ++ payload) + checksum.toNat)) := by
  have hlen : (octets srcPort dstPort len checksum ++ payload).length = len.toNat := by
    rw [List.length_append, length_octets, hl, Nat.add_comm]
  rw [toNat_sumOf, word_len_octets, UInt16.ofNat_toNat, List.take_of_length_le hlen.le, total_octets]

/-- The checksum is never zero, and with it the sum is all ones. -/
theorem sumOf_checksumFor (hl : len.toNat = payload.length + 8) :
    checksumFor (octets srcPort dstPort len 0 ++ payload) src dst ≠ 0 ∧
      sumOf (octets srcPort dstPort len (checksumFor (octets srcPort dstPort len 0 ++ payload) src dst) ++
        payload) src dst = 0xffff := by
  have hsum := toNat_sumOf_octets srcPort dstPort src dst hl 0
  obtain ⟨hpos, hmod⟩ := checksumFor_mod (octets srcPort dstPort len 0 ++ payload) src dst
  have hzero : (0 : UInt16).toNat = 0 := rfl
  refine ⟨fun h => hpos (congrArg UInt16.toNat h), ?_⟩
  rw [← UInt16.toNat_inj, toNat_sumOf_octets srcPort dstPort src dst hl]
  refine (Checksum.carried_eq_max_iff _).2 ⟨by omega, ?_⟩
  have hcarried := Checksum.carried_mod (Checksum.total (Checksum.pseudoOctets src dst 17 len) +
    (Checksum.total (octets srcPort dstPort len 0 ++ payload) + (0 : UInt16).toNat))
  have hlt := (sumOf (octets srcPort dstPort len 0 ++ payload) src dst).toNat_lt
  omega

end octets

/-- A datagram with its checksum is sound, and what it carries is found again. -/
theorem sound_segment {payload : Octets} (hl : payload.length + 8 ≤ 65535) (srcPort dstPort : UInt16)
    (src dst : Ipv4.Address) : Sound (segment srcPort dstPort src dst payload) src dst false ∧
      ((segment srcPort dstPort src dst payload).take (word (segment srcPort dstPort src dst payload) 4)).drop 8 =
        payload := by
  have hn : (UInt16.ofNat (payload.length + 8)).toNat = payload.length + 8 := by
    rw [UInt16.toNat_ofNat', Nat.mod_eq_of_lt (by omega)]
  obtain ⟨hne, hsum⟩ := sumOf_checksumFor srcPort dstPort src dst hn
  have hlen : (segment srcPort dstPort src dst payload).length = payload.length + 8 := by
    unfold segment; rw [List.length_append, length_octets, Nat.add_comm]
  have hword : word (segment srcPort dstPort src dst payload) 4 = payload.length + 8 := by
    unfold segment; rw [word_len_octets, hn]
  refine ⟨⟨by omega, by omega, .inr (.inr hsum)⟩, ?_⟩
  rw [hword, List.take_of_length_le hlen.le]
  rfl

/-- The fields of a datagram with its checksum, whatever stands behind it. -/
theorem read?_segment {payload : Octets} (hl : payload.length + 8 ≤ 65535) (srcPort dstPort : UInt16)
    (src dst : Ipv4.Address) (trailing : Octets) : ∃ checksum, checksum ≠ 0 ∧
      read? (segment srcPort dstPort src dst payload ++ trailing) =
        some ⟨srcPort, dstPort, UInt16.ofNat (payload.length + 8), checksum⟩ ∧
      verifyChecksum? (segment srcPort dstPort src dst payload ++ trailing) src dst = some true := by
  have hn : (UInt16.ofNat (payload.length + 8)).toNat = payload.length + 8 := by
    rw [UInt16.toNat_ofNat', Nat.mod_eq_of_lt (by omega)]
  obtain ⟨hne, hsum⟩ := sumOf_checksumFor srcPort dstPort src dst hn
  have hlen : (segment srcPort dstPort src dst payload).length = payload.length + 8 := by
    unfold segment; rw [List.length_append, length_octets, Nat.add_comm]
  generalize hc : checksumFor (octets srcPort dstPort (UInt16.ofNat (payload.length + 8)) 0 ++ payload) src dst = c
    at hne hsum
  have hs : segment srcPort dstPort src dst payload ++ trailing =
      octets srcPort dstPort (UInt16.ofNat (payload.length + 8)) c ++ (payload ++ trailing) := by
    unfold segment
    rw [hc, List.append_assoc]
  have hword : word (segment srcPort dstPort src dst payload ++ trailing) 4 = payload.length + 8 := by
    rw [hs, word_len_octets, hn]
  obtain ⟨valid, hv, hvalid⟩ := verifyChecksum?_eq_some (b := segment srcPort dstPort src dst payload ++ trailing)
    (by omega) (by rw [List.length_append]; omega) src dst
  refine ⟨c, hne, ?_, ?_⟩
  · rw [read?_of_le (by rw [List.length_append]; omega), hs, word_src_octets, word_dst_octets, word_len_octets,
      show word (octets srcPort dstPort (UInt16.ofNat (payload.length + 8)) c ++ (payload ++ trailing)) 6 = c.toNat
        from toNat_ofWord16 c]
    simp only [UInt16.ofNat_toNat]
  · rw [hv, hvalid.2 (.inr ?_)]
    have hsound : sumOf (segment srcPort dstPort src dst payload ++ trailing) src dst =
        sumOf (segment srcPort dstPort src dst payload) src dst := by
      unfold sumOf
      rw [hword, show word (segment srcPort dstPort src dst payload) 4 = payload.length + 8 by
        unfold segment; rw [word_len_octets, hn], ← hlen, List.take_left, List.take_length]
    rw [hsound]
    unfold segment
    rw [hc]
    exact hsum

/-- The checksum is written over the zero that stands in its place. -/
theorem fillChecksum?_octets {len : UInt16} {payload : Octets} (hl : len.toNat = payload.length + 8)
    (srcPort dstPort : UInt16) (src dst : Ipv4.Address) :
    fillChecksum? (octets srcPort dstPort len 0 ++ payload) src dst = some (octets srcPort dstPort len
      (checksumFor (octets srcPort dstPort len 0 ++ payload) src dst) ++ payload) := by
  have hset : ∀ c, setChecksum? (octets srcPort dstPort len 0 ++ payload) c =
      some (octets srcPort dstPort len c ++ payload) := fun c => by
    unfold setChecksum? write?
    rw [if_pos (by rw [List.length_append, length_octets, length_ofWord16]; omega)]
    rfl
  have hlen : (octets srcPort dstPort len 0 ++ payload).length = payload.length + 8 := by
    rw [List.length_append, length_octets, Nat.add_comm]
  unfold fillChecksum?
  rw [hset]
  simp only [Bind.bind, Option.bind]
  rw [sum?_eq_some (by omega) (by rw [word_len_octets]; omega)]
  exact hset _

end Header

namespace Ports

/-- A user datagram that is handed to a layer above. -/
structure Takes (u : Ports) (b : Octets) (src dst : Ipv4.Address) (unverified : Bool) (upper : Layer) :
    Prop where
  sound : Header.Sound b src dst unverified
  port : u.layerOf? (UInt16.ofNat (word b 2)) = some upper

/-- The packet of a user datagram with just its payload left to read, and the ports of its header. -/
def opened (t : Transit) (w : Octets) : Transit where
  packet := { t.packet with
    read := t.packet.read + 8
    write := t.packet.read + word w 4 }
  info := { t.info with srcPort := UInt16.ofNat (word w 0), dstPort := UInt16.ofNat (word w 2) }

/-- The payload is what stands between the header and the end that the header tells. -/
theorem unread?_opened {t : Transit} {w : Octets} (hu : t.packet.unread? = some w) (hleast : 8 ≤ word w 4)
    (hcomplete : word w 4 ≤ w.length) :
    (opened t w).packet.unread? = some ((w.take (word w 4)).drop 8) :=
  Packet.unread?_enclosed hu hleast hcomplete

/-- A sound datagram is handed on if its port is bound. -/
theorem receivePass_of_sound {u : Ports} {t : Transit} {w : Octets} (hu : t.packet.unread? = some w)
    (hs : Header.Sound w t.info.srcAddr t.info.dstAddr t.info.skipChecksum) :
    u.receivePass t = some (match u.layerOf? (UInt16.ofNat (word w 2)) with
      | some upper => (.ok (.layer upper), opened t w)
      | none => (.error .unreachable, t)) := by
  obtain ⟨hleast, havailable, hsum⟩ := hs
  have hlen := (Packet.unread?_eq_some hu).2.2.2
  obtain ⟨valid, hv, hvalid⟩ := Header.verifyChecksum?_eq_some hleast havailable t.info.srcAddr t.info.dstAddr
  have hpassed : ¬ (!t.info.skipChecksum && !valid) = true := by
    rw [← hvalid] at hsum
    rcases hsum with hskip | hvalid
    · simp [hskip]
    · simp [hvalid]
  unfold receivePass
  rw [hu]
  simp only [Bind.bind, Option.bind]
  rw [Header.checkLength_eq_ok hleast havailable, Header.read?_of_le (by omega), hv]
  dsimp only
  rw [if_neg hpassed]
  cases u.layerOf? (UInt16.ofNat (word w 2)) with
  | none => rfl
  | some upper =>
    have hskip : t.packet.skip Header.size = .ok { t.packet with read := t.packet.read + Header.size } :=
      Packet.skip_of_le (by show 8 ≤ _; omega)
    have htruncate := Packet.truncate_skipped (p := t.packet) (show Header.size ≤ word w 4 from hleast)
      (by omega)
    dsimp only
    rw [hskip]
    dsimp only
    rw [toNat_ofNat_word, htruncate]
    rfl

/-- Bytes that do not begin with a sound datagram are refused as malformed. -/
theorem receivePass_of_not_sound {u : Ports} {t : Transit} {w : Octets} (hu : t.packet.unread? = some w)
    (hs : ¬ Header.Sound w t.info.srcAddr t.info.dstAddr t.info.skipChecksum) :
    u.receivePass t = some (.error .malformed, t) := by
  unfold receivePass
  rw [hu]
  simp only [Bind.bind, Option.bind]
  by_cases hc : 8 ≤ word w 4 ∧ word w 4 ≤ w.length
  · obtain ⟨hleast, havailable⟩ := hc
    obtain ⟨valid, hv, hvalid⟩ := Header.verifyChecksum?_eq_some hleast havailable t.info.srcAddr t.info.dstAddr
    have hfailed : (!t.info.skipChecksum && !valid) = true := by
      have hsum : ¬ (t.info.skipChecksum = true ∨ valid = true) := by
        rw [hvalid]
        exact fun h => hs ⟨hleast, havailable, h⟩
      simpa using hsum
    rw [Header.checkLength_eq_ok hleast havailable, Header.read?_of_le (by omega), hv]
    dsimp only
    rw [if_pos hfailed]
    rfl
  · obtain ⟨f, hf⟩ := Header.checkLength_eq_error hc
    rw [hf]
    cases f <;> rfl

/-- A user datagram is handed on without its header, or ends here. -/
theorem receivePass_cases {u : Ports} {t : Transit} {b : Octets} (hu : t.packet.unread? = some b) :
    (∃ upper p, u.Takes b t.info.srcAddr t.info.dstAddr t.info.skipChecksum upper ∧
      u.receivePass t = some (.ok (.layer upper), ⟨p, { t.info with
        srcPort := UInt16.ofNat (word b 0), dstPort := UInt16.ofNat (word b 2) }⟩) ∧
      p.unread? = some ((b.take (word b 4)).drop 8) ∧ p.bytes = t.packet.bytes) ∨
    (∃ f t', u.receivePass t = some (.error f, t') ∧ t'.packet.bytes = t.packet.bytes ∧
      ∀ upper, ¬ u.Takes b t.info.srcAddr t.info.dstAddr t.info.skipChecksum upper) := by
  by_cases hs : Header.Sound b t.info.srcAddr t.info.dstAddr t.info.skipChecksum
  · rw [receivePass_of_sound hu hs]
    cases hp : u.layerOf? (UInt16.ofNat (word b 2)) with
    | some upper => exact .inl ⟨upper, _, ⟨hs, hp⟩, rfl, unread?_opened hu hs.least hs.available, rfl⟩
    | none =>
      refine .inr ⟨_, _, rfl, rfl, fun upper ht => ?_⟩
      have hport := ht.port
      rw [hp] at hport
      cases hport
  · rw [receivePass_of_not_sound hu hs]
    exact .inr ⟨_, _, rfl, rfl, fun upper ht => hs ht.sound⟩

theorem receivePass_bytes {u : Ports} {t t' : Transit} {x : Except Fault Next}
    (h : u.receivePass t = some (x, t')) : t'.packet.bytes = t.packet.bytes := by
  cases hu : t.packet.unread? with
  | none => unfold receivePass at h; rw [hu] at h; cases h
  | some b =>
    rcases receivePass_cases (u := u) hu with ⟨_, p, -, he, -, hb⟩ | ⟨_, t'', he, hb, -⟩
    · rw [he] at h; cases h; exact hb
    · rw [he] at h; cases h; exact hb

/-! ## Sending -/

/-- A datagram from a layer with a port is stacked, its checksum still zero. -/
theorem transmitPass_of_port {u : Ports} {t : Transit} {caller : Layer} {port : UInt16}
    {front payload back : Octets} (hl : t.packet.Layout front [] payload back)
    (hp : u.portOf? caller = some port) (hlen : payload.length + 8 ≤ 65535) (hroom : 8 ≤ front.length) :
    ∃ p, u.transmitPass t caller = (.ok (.layer u.lower), ⟨p, { t.info with srcPort := port }⟩) ∧
      p.Layout (front.take (front.length - 8))
        (Header.octets port t.info.dstPort (UInt16.ofNat (payload.length + 8)) 0) payload back := by
  have hh : t.packet.headerLen = 0 := by
    unfold Packet.headerLen; rw [hl.boundary, hl.header, List.length_nil]; omega
  have hpl : t.packet.payloadLen = payload.length := by
    unfold Packet.payloadLen; rw [hl.write, hl.boundary]; omega
  have hs : Header.size = 8 := rfl
  obtain ⟨p, hx, hpl'⟩ := hl.pushHeader
    (Header.octets port t.info.dstPort (UInt16.ofNat (payload.length + 8)) 0) hroom
  rw [List.append_nil] at hpl'
  refine ⟨p, ?_, hpl'⟩
  unfold transmitPass
  rw [hh, hp]
  dsimp only
  rw [hpl, hs, if_neg (by decide), if_neg (by omega)]
  unfold Header.octets at hx
  rw [hx]

/-- The checksum is written into the header in front of the payload. -/
theorem finishPass_of_layout {t : Transit} {front outer payload back : Octets} {srcPort dstPort len : UInt16}
    (hl : t.packet.Layout front (outer ++ Header.octets srcPort dstPort len 0) payload back)
    (hlen : len.toNat = payload.length + 8) :
    ∃ p, finishPass t = some (.ok .pass, p) ∧
      p.Layout front (outer ++ Header.octets srcPort dstPort len (Header.checksumFor
        (Header.octets srcPort dstPort len 0 ++ payload) t.info.srcAddr t.info.dstAddr)) payload back := by
  obtain ⟨hr, hc⟩ := hl.stacked
  refine ⟨_, ?_, hl.restack (Header.octets srcPort dstPort len (Header.checksumFor
    (Header.octets srcPort dstPort len 0 ++ payload) t.info.srcAddr t.info.dstAddr)) payload rfl rfl⟩
  unfold finishPass
  rw [show Header.size = (Header.octets srcPort dstPort len 0).length from rfl, hr]
  simp only [Bind.bind, Option.bind]
  rw [hc]
  dsimp only
  rw [Header.fillChecksum?_octets hlen]
  rfl

end Ports

end UdpStack.Udp
