/-
Which datagrams the internet layer hands on: sound ones to an address of this host that come
through the right layer and whose protocol has a layer above (`Takes`). Soundness is said of the
bytes alone (`Header.Sound`). A sound datagram is handed on without its header and without what
follows it, or ends here (`receivePass_of_sound`), and so does any other one
(`receivePass_of_not_sound`). A header that is written here is sound itself (`sound_sealedHeader`).
-/
import UdpStack.Ipv4.Router
import UdpStack.Proofs.Checksum
import UdpStack.Proofs.Octets
import UdpStack.Proofs.Packet
import Mathlib.Data.Nat.Bitwise

namespace UdpStack.Ipv4

open Octets

namespace Header

/-- The length of the header with its options that the first byte declares. -/
def lengthOf (b : Octets) : Nat := 4 * (byte b 0 % 16)

/-- Bytes that start with a datagram of version 4: its header is complete, it is no fragment, its
header verifies, unless that is left out, and it ends inside the bytes. -/
structure Sound (b : Octets) (unverified : Bool) : Prop where
  complete : 20 ≤ b.length
  version : byte b 0 / 16 = 4
  headerLen : 5 ≤ byte b 0 % 16
  options : lengthOf b ≤ b.length
  last : word b 6 / 8192 % 2 = 0
  first : word b 6 % 8192 = 0
  checksum : unverified = true ∨ Checksum.ofBytes (b.take (lengthOf b)) = 0xffff
  least : lengthOf b ≤ word b 2
  available : word b 2 ≤ b.length

/-! ## Reading the fields -/

/-- The fields of a header of at least 20 bytes. -/
def fields (b : Octets) : Header where
  version := b.getD 0 0 >>> 4
  headerLen := declaredLen (b.getD 0 0)
  totalLen := UInt16.ofNat (word b 2)
  ident := UInt16.ofNat (word b 4)
  moreFrags := UInt16.ofNat (word b 6) &&& 0x2000 != 0
  fragOffset := UInt16.ofNat (word b 6) <<< 3
  hopLimit := b.getD 8 0
  protocol := .ofByte (b.getD 9 0)
  checksum := UInt16.ofNat (word b 10)
  src := .stored b 12
  dst := .stored b 16

theorem read?_of_le {b : Octets} (h : 20 ≤ b.length) : read? b = some (fields b) := by
  unfold read?
  simp only [getElem?_of_lt (by omega : 0 < b.length), word16?_of_le (by omega : 2 + 2 ≤ b.length),
    word16?_of_le (by omega : 4 + 2 ≤ b.length), word16?_of_le (by omega : 6 + 2 ≤ b.length),
    getElem?_of_lt (by omega : 8 < b.length), getElem?_of_lt (by omega : 9 < b.length),
    word16?_of_le (by omega : 10 + 2 ≤ b.length), Address.read?_of_le (by omega : 12 + 4 ≤ b.length),
    Address.read?_of_le (by omega : 16 + 4 ≤ b.length)]
  rfl

theorem declaredLen_eq (b : Octets) : declaredLen (b.getD 0 0) = lengthOf b := by
  unfold declaredLen lengthOf byte; omega

theorem version_eq_iff (b : Octets) : (b.getD 0 0 >>> 4 != 4) = false ↔ byte b 0 / 16 = 4 := by
  rw [bne_eq_false_iff_eq, ← UInt8.toNat_inj]
  unfold byte
  simp [Nat.shiftRight_eq_div_pow]

theorem moreFrags_eq_iff (w : UInt16) : (w &&& 0x2000 != 0) = false ↔ w.toNat / 8192 % 2 = 0 := by
  rw [bne_eq_false_iff_eq, ← UInt16.toNat_inj, UInt16.toNat_and]
  have h := Nat.and_two_pow w.toNat 13
  rw [Nat.toNat_testBit] at h
  show w.toNat &&& 8192 = 0 ↔ _
  rw [show (8192 : Nat) = 2 ^ 13 from rfl, h]
  simp

theorem fragOffset_eq_iff (w : UInt16) : (w <<< 3 != 0) = false ↔ w.toNat % 8192 = 0 := by
  have hs : (w <<< 3).toNat = w.toNat * 8 % 65536 := by
    rw [UInt16.toNat_shiftLeft]; simp [Nat.shiftLeft_eq]
  rw [bne_eq_false_iff_eq, ← UInt16.toNat_inj, hs]
  show w.toNat * 8 % 65536 = 0 ↔ _
  omega

theorem checkLength_eq_ok {b : Octets} (h : 20 ≤ b.length) (hl : 5 ≤ byte b 0 % 16)
    (ho : lengthOf b ≤ b.length) : checkLength b = .ok () := by
  have hd := declaredLen_eq b
  have hs : size = 20 := rfl
  unfold lengthOf at ho hd
  unfold checkLength
  rw [if_neg (by omega)]
  cases b with
  | nil => simp at h
  | cons first rest =>
    dsimp only
    change declaredLen first = _ at hd
    rw [if_neg (by omega), if_neg (by omega)]

theorem checkLength_eq_error {b : Octets} (h : ¬ (20 ≤ b.length ∧ 5 ≤ byte b 0 % 16 ∧
    lengthOf b ≤ b.length)) : ∃ f, checkLength b = .error f := by
  have hd := declaredLen_eq b
  have hs : size = 20 := rfl
  unfold lengthOf at h hd
  unfold checkLength
  split
  · exact ⟨_, rfl⟩
  · cases b with
    | nil => exact ⟨_, rfl⟩
    | cons first rest =>
      dsimp only
      change declaredLen first = _ at hd
      split
      · exact ⟨_, rfl⟩
      · split
        · exact ⟨_, rfl⟩
        · exact absurd ⟨by omega, by omega, by omega⟩ h

/-- A length is accepted if there is a whole header. -/
theorem checkLength_eq_ok_iff {b : Octets} :
    checkLength b = .ok () ↔ 20 ≤ b.length ∧ 5 ≤ byte b 0 % 16 ∧ lengthOf b ≤ b.length := by
  constructor
  · intro h
    by_contra hn
    obtain ⟨f, hf⟩ := checkLength_eq_error hn
    cases h.symm.trans hf
  · rintro ⟨hl, hi, ho⟩
    exact checkLength_eq_ok hl hi ho

theorem verifyChecksum?_of_le {b : Octets} (h : 20 ≤ b.length) (ho : lengthOf b ≤ b.length) :
    verifyChecksum? b = some (Checksum.ofBytes (b.take (lengthOf b)) == 0xffff) := by
  unfold verifyChecksum? region?
  rw [getElem?_of_lt (by omega : 0 < b.length)]
  show Option.map _ (slice? b 0 (declaredLen (b.getD 0 0))) = _
  rw [declaredLen_eq, slice?_of_le (by omega), List.drop_zero]
  rfl

/-- On a header that is complete the comparisons of the router are the conditions. -/
theorem sound_iff_checks {b : Octets} {unverified : Bool} (hl : 20 ≤ b.length) (hi : 5 ≤ byte b 0 % 16)
    (ho : lengthOf b ≤ b.length) :
    Sound b unverified ↔ ¬ (b.getD 0 0 >>> 4 != 4) = true ∧
      ¬ ((UInt16.ofNat (word b 6) &&& 0x2000 != 0) || UInt16.ofNat (word b 6) <<< 3 != 0) = true ∧
      ¬ (!unverified && !(Checksum.ofBytes (b.take (lengthOf b)) == 0xffff)) = true ∧
      ¬ word b 2 < lengthOf b ∧ ¬ b.length - lengthOf b < word b 2 - lengthOf b := by
  have hc : (!unverified && !(Checksum.ofBytes (b.take (lengthOf b)) == 0xffff)) = false ↔
      unverified = true ∨ Checksum.ofBytes (b.take (lengthOf b)) = 0xffff := by
    cases unverified <;> simp
  simp only [Bool.not_eq_true]
  rw [version_eq_iff, Bool.or_eq_false_iff, moreFrags_eq_iff, fragOffset_eq_iff, toNat_ofNat_word, hc]
  constructor
  · intro hs
    have h1 := hs.least
    have h2 := hs.available
    exact ⟨hs.version, ⟨hs.last, hs.first⟩, hs.checksum, by omega, by omega⟩
  · rintro ⟨hversion, ⟨hlast, hfirst⟩, hchecksum, hleast, havailable⟩
    exact ⟨hl, hversion, hi, ho, hlast, hfirst, hchecksum, by omega, by omega⟩

end Header

namespace Router

/-- A datagram that is handed to a layer above. -/
structure Takes (r : Router) (b : Octets) (caller : Layer) (unverified : Bool) (upper : Layer) : Prop where
  sound : Header.Sound b unverified
  dst : r.accepts (.stored b 16) caller = true
  content : r.protocols.get? (.ofByte (b.getD 9 0)) = some upper

/-- The packet of a datagram with just its content left to read, and the addresses of its header. -/
def opened (t : Transit) (w : Octets) : Transit where
  packet := { t.packet with
    read := t.packet.read + Header.lengthOf w
    write := t.packet.read + word w 2 }
  info := { t.info with srcAddr := .stored w 12, dstAddr := .stored w 16 }

/-- The content of a datagram is what its header and its declared length enclose. -/
theorem unread?_opened {t : Transit} {w : Octets} {unverified : Bool} (hu : t.packet.unread? = some w)
    (hs : Header.Sound w unverified) :
    (opened t w).packet.unread? = some ((w.take (word w 2)).drop (Header.lengthOf w)) :=
  Packet.unread?_enclosed hu hs.least hs.available

/-- A well-formed datagram is handed on if its address is taken here and its protocol has a layer. -/
theorem receivePass_of_sound {r : Router} {t : Transit} {w : Octets} (hu : t.packet.unread? = some w)
    (hs : Header.Sound w t.info.skipChecksum) (caller : Layer) :
    r.receivePass t caller = some (
      if r.accepts (.stored w 16) caller then
        match r.protocols.get? (.ofByte (w.getD 9 0)) with
        | some upper => (.ok (.layer upper), opened t w)
        | none => (.error .unreachable, t)
      else (.error .dropped, t)) := by
  have ho := hs.options
  have hleast := hs.least
  have havailable := hs.available
  have hlen := (Packet.unread?_eq_some hu).2.2.2
  obtain ⟨h1, h2, h3, h4, h5⟩ := (Header.sound_iff_checks hs.complete hs.headerLen ho).1 hs
  unfold receivePass
  rw [hu]
  simp only [bind, Option.bind]
  rw [Header.checkLength_eq_ok hs.complete hs.headerLen ho, Header.read?_of_le hs.complete,
    Header.verifyChecksum?_of_le hs.complete ho]
  unfold Header.fields
  dsimp only
  rw [Header.declaredLen_eq, toNat_ofNat_word, ← hlen, if_neg h1, if_neg h2, if_neg h3, if_neg h4, if_neg h5]
  cases ha : r.accepts (.stored w 16) caller with
  | false => rfl
  | true =>
    cases r.protocols.get? (.ofByte (w.getD 9 0)) with
    | none => rfl
    | some upper =>
      have hskip : t.packet.skip (Header.lengthOf w) =
          .ok { t.packet with read := t.packet.read + Header.lengthOf w } := Packet.skip_of_le (by omega)
      have htruncate := Packet.truncate_skipped (p := t.packet) hleast (by omega)
      dsimp only
      rw [hskip]
      dsimp only
      rw [htruncate]
      rfl

/-- Bytes that are no datagram are refused as such. -/
theorem receivePass_of_not_sound {r : Router} {t : Transit} {w : Octets} (hu : t.packet.unread? = some w)
    (hs : ¬ Header.Sound w t.info.skipChecksum) (caller : Layer) :
    r.receivePass t caller = some (.error .malformed, t) := by
  have hlen := (Packet.unread?_eq_some hu).2.2.2
  unfold receivePass
  rw [hu]
  simp only [bind, Option.bind]
  by_cases hc : 20 ≤ w.length ∧ 5 ≤ byte w 0 % 16 ∧ Header.lengthOf w ≤ w.length
  · obtain ⟨hl, hi, ho⟩ := hc
    rw [Header.sound_iff_checks hl hi ho] at hs
    rw [Header.checkLength_eq_ok hl hi ho, Header.read?_of_le hl, Header.verifyChecksum?_of_le hl ho]
    unfold Header.fields
    dsimp only
    rw [Header.declaredLen_eq, toNat_ofNat_word, ← hlen]
    -- one of the comparisons refuses the header
    split
    · rfl
    split
    · rfl
    split
    · rfl
    split
    · rfl
    split
    · rfl
    exact absurd ⟨‹_›, ‹_›, ‹_›, ‹_›, ‹_›⟩ hs
  · obtain ⟨f, hf⟩ := Header.checkLength_eq_error hc
    rw [hf]
    rfl

/-- A datagram is handed on, or ends here. -/
theorem receivePass_cases {r : Router} {t : Transit} {b : Octets} (hu : t.packet.unread? = some b)
    (caller : Layer) :
    (∃ upper p, r.Takes b caller t.info.skipChecksum upper ∧
      r.receivePass t caller = some (.ok (.layer upper), ⟨p, { t.info with
        srcAddr := .stored b 12, dstAddr := .stored b 16 }⟩) ∧
      p.unread? = some ((b.take (word b 2)).drop (Header.lengthOf b)) ∧ p.bytes = t.packet.bytes) ∨
    (∃ f t', r.receivePass t caller = some (.error f, t') ∧ t'.packet.bytes = t.packet.bytes ∧
      ∀ upper, ¬ r.Takes b caller t.info.skipChecksum upper) := by
  by_cases hs : Header.Sound b t.info.skipChecksum
  · rw [receivePass_of_sound hu hs]
    by_cases hdst : r.accepts (.stored b 16) caller = true
    · rw [if_pos hdst]
      cases hp : r.protocols.get? (.ofByte (b.getD 9 0)) with
      | some upper => exact .inl ⟨upper, _, ⟨hs, hdst, hp⟩, rfl, unread?_opened hu hs, rfl⟩
      | none =>
        refine .inr ⟨_, _, rfl, rfl, fun upper ht => ?_⟩
        have hcontent := ht.content
        rw [hp] at hcontent
        cases hcontent
    · rw [if_neg hdst]
      exact .inr ⟨_, _, rfl, rfl, fun upper ht => hdst ht.dst⟩
  · rw [receivePass_of_not_sound hu hs]
    exact .inr ⟨_, _, rfl, rfl, fun upper ht => hs ht.sound⟩

theorem receivePass_bytes {r : Router} {t t' : Transit} {caller : Layer} {x : Except Fault Next}
    (h : r.receivePass t caller = some (x, t')) : t'.packet.bytes = t.packet.bytes := by
  cases hu : t.packet.unread? with
  | none => unfold receivePass at h; rw [hu] at h; cases h
  | some b =>
    rcases receivePass_cases (r := r) hu caller with ⟨_, p, -, he, -, hb⟩ | ⟨_, t'', he, hb, -⟩
    · rw [he] at h; cases h; exact hb
    · rw [he] at h; cases h; exact hb

/-! ## Sending -/

section sealed

variable (len ident : UInt16) (protocol : Protocol) (src dst : Address)

@[simp] theorem length_headerOctets (checksum : UInt16) :
    (headerOctets len ident protocol src dst checksum).length = 20 := rfl

@[simp] theorem length_sealedHeader : (sealedHeader len ident protocol src dst).length = 20 := rfl

theorem lengthOf_sealedHeader (rest : Octets) :
    Header.lengthOf (sealedHeader len ident protocol src dst ++ rest) = 20 :=
  show 4 * ((0x45 : UInt8).toNat % 16) = 20 by decide

theorem src_sealedHeader (rest : Octets) :
    Address.stored (sealedHeader len ident protocol src dst ++ rest) 12 = src := rfl

theorem dst_sealedHeader (rest : Octets) :
    Address.stored (sealedHeader len ident protocol src dst ++ rest) 16 = dst := rfl

theorem protocol_sealedHeader (rest : Octets) :
    byte (sealedHeader len ident protocol src dst ++ rest) 9 = protocol.toByte.toNat := rfl

/-- The checksum is one of the words that a header adds up. -/
theorem total_headerOctets (checksum : UInt16) :
    Checksum.total (headerOctets len ident protocol src dst checksum) =
      Checksum.total (headerOctets len ident protocol src dst 0) + checksum.toNat := by
  have hsplit : ∀ c, Checksum.total (headerOctets len ident protocol src dst c) =
      Checksum.total ([0x45, 0] ++ ofWord16 len ++ ofWord16 ident ++ ofWord16 0 ++
        [Header.defaultHopLimit, protocol.toByte]) + (c.toNat + Checksum.total (src.octets ++ dst.octets)) := by
    intro c
    have hw : (ofWord16 c).length % 2 = 0 := by rw [length_ofWord16]
    have hfront : ([0x45, 0] ++ ofWord16 len ++ ofWord16 ident ++ ofWord16 0 ++
        [Header.defaultHopLimit, protocol.toByte]).length % 2 = 0 := by simp
    rw [← Checksum.total_ofWord16 c, ← Checksum.total_append _ hw, ← Checksum.total_append _ hfront]
    rfl
  rw [hsplit checksum, hsplit 0]
  show _ = _ + (0 + _) + _
  omega

/-- A header verifies with the checksum that it is given. -/
theorem ofBytes_sealedHeader : Checksum.ofBytes (sealedHeader len ident protocol src dst) = 0xffff := by
  have hsize : ∀ c, (headerOctets len ident protocol src dst c).length ≤ 65535 := fun c => by
    rw [length_headerOctets]; decide
  rw [← UInt16.toNat_inj]
  unfold sealedHeader
  rw [Checksum.toNat_ofBytes (hsize _), total_headerOctets, Checksum.toNat_complement,
    Checksum.toNat_ofBytes (hsize _)]
  refine (Checksum.carried_eq_max_iff _).2 ⟨?_, Checksum.add_complement_mod _⟩
  -- the first word is not zero
  have hfirst : Checksum.total (headerOctets len ident protocol src dst 0) = 0x4500 + _ := rfl
  omega

/-- The fields of a header that is written here. -/
theorem read?_sealedHeader (trailing : Octets) : ∃ checksum,
    Header.read? (sealedHeader len ident protocol src dst ++ trailing) =
      some ⟨4, 20, len, ident, false, 0, Header.defaultHopLimit, .ofByte protocol.toByte, checksum, src, dst⟩ := by
  have hl : 20 ≤ (sealedHeader len ident protocol src dst ++ trailing).length := by
    rw [List.length_append, length_sealedHeader]
    omega
  have hfirst : (sealedHeader len ident protocol src dst ++ trailing).getD 0 0 = 0x45 := rfl
  have hprotocol : (sealedHeader len ident protocol src dst ++ trailing).getD 9 0 = protocol.toByte := rfl
  have hlen : word (sealedHeader len ident protocol src dst ++ trailing) 2 = len.toNat := toNat_ofWord16 len
  have hident : word (sealedHeader len ident protocol src dst ++ trailing) 4 = ident.toNat := toNat_ofWord16 ident
  have hflags : word (sealedHeader len ident protocol src dst ++ trailing) 6 = 0 := toNat_ofWord16 0
  refine ⟨UInt16.ofNat (word (sealedHeader len ident protocol src dst ++ trailing) 10), ?_⟩
  rw [Header.read?_of_le hl]
  unfold Header.fields
  rw [hfirst, hprotocol, hlen, hident, hflags, src_sealedHeader, dst_sealedHeader, UInt16.ofNat_toNat,
    UInt16.ofNat_toNat]
  generalize UInt16.ofNat (word (sealedHeader len ident protocol src dst ++ trailing) 10) = checksum
  rfl

theorem verifyChecksum?_sealedHeader (trailing : Octets) :
    Header.verifyChecksum? (sealedHeader len ident protocol src dst ++ trailing) = some true := by
  have hof := lengthOf_sealedHeader len ident protocol src dst trailing
  have hl : (sealedHeader len ident protocol src dst ++ trailing).length = 20 + trailing.length := by
    rw [List.length_append, length_sealedHeader]
  rw [Header.verifyChecksum?_of_le (by omega) (by omega), hof, ← length_sealedHeader len ident protocol src dst,
    List.take_left, ofBytes_sealedHeader]
  rfl

/-- A datagram with a header that is written here is sound. -/
theorem sound_sealedHeader {content : Octets} (hl : len.toNat = 20 + content.length) (trailing : Octets) :
    Header.Sound (sealedHeader len ident protocol src dst ++ (content ++ trailing)) false := by
  have hlen : (sealedHeader len ident protocol src dst ++ (content ++ trailing)).length =
      20 + content.length + trailing.length := by
    rw [List.length_append, List.length_append, length_sealedHeader, Nat.add_assoc]
  have hword : word (sealedHeader len ident protocol src dst ++ (content ++ trailing)) 2 = len.toNat :=
    toNat_ofWord16 len
  have hof := lengthOf_sealedHeader len ident protocol src dst (content ++ trailing)
  have hfirst : byte (sealedHeader len ident protocol src dst ++ (content ++ trailing)) 0 = 69 := rfl
  have hflags : word (sealedHeader len ident protocol src dst ++ (content ++ trailing)) 6 = 0 :=
    toNat_ofWord16 0
  refine ⟨by omega, by rw [hfirst], by rw [hfirst], by omega, by rw [hflags], by rw [hflags], .inr ?_,
    by omega, by omega⟩
  rw [hof, ← length_sealedHeader len ident protocol src dst, List.take_left]
  exact ofBytes_sealedHeader len ident protocol src dst

theorem content_sealedHeader {content : Octets} (hl : len.toNat = 20 + content.length) (trailing : Octets) :
    ((sealedHeader len ident protocol src dst ++ (content ++ trailing)).take
      (word (sealedHeader len ident protocol src dst ++ (content ++ trailing)) 2)).drop
      (Header.lengthOf (sealedHeader len ident protocol src dst ++ (content ++ trailing))) = content := by
  have hword : word (sealedHeader len ident protocol src dst ++ (content ++ trailing)) 2 = len.toNat :=
    toNat_ofWord16 len
  have hof := lengthOf_sealedHeader len ident protocol src dst (content ++ trailing)
  rw [hword, hof, hl, ← length_sealedHeader len ident protocol src dst, List.take_length_add_append,
    List.drop_left, List.take_left]

end sealed

theorem chooseSource_dst (r : Router) (info : Info) (lower : Layer) :
    (r.chooseSource info lower).dstAddr = info.dstAddr := by
  unfold chooseSource
  split
  · split <;> rfl
  · rfl

/-- A datagram to a destination with a route is stacked and goes where the route leads. -/
theorem transmitPass_of_route {r : Router} {t : Transit} {caller : Layer} {protocol : Protocol} {route : Route}
    {front headers payload back : Octets} (hl : t.packet.Layout front headers payload back)
    (hp : r.protocols.keyOf? caller = some protocol) (hr : r.routes.lookup t.info.dstAddr = some route)
    (hlen : headers.length + payload.length + 20 ≤ 65535) (hroom : 20 ≤ front.length) :
    ∃ p, r.transmitPass t caller = (.ok (.layer route.layer), { r with ident := r.ident + 1 },
        ⟨p, r.chooseSource t.info route.layer⟩) ∧
      p.Layout (front.take (front.length - 20)) (sealedHeader
        (UInt16.ofNat (headers.length + payload.length + 20)) r.ident protocol
        (r.chooseSource t.info route.layer).srcAddr t.info.dstAddr ++ headers) payload back := by
  have hh : t.packet.headerLen = headers.length := by
    unfold Packet.headerLen; rw [hl.boundary, hl.header]; omega
  have hpl : t.packet.payloadLen = payload.length := by
    unfold Packet.payloadLen; rw [hl.write, hl.boundary]; omega
  have hs : Header.size = 20 := rfl
  obtain ⟨p, hx, hpl'⟩ := hl.pushHeader (sealedHeader
    (UInt16.ofNat (headers.length + payload.length + 20)) r.ident protocol
    (r.chooseSource t.info route.layer).srcAddr t.info.dstAddr) hroom
  refine ⟨p, ?_, hpl'⟩
  unfold transmitPass
  rw [hp, hr]
  dsimp only
  rw [hh, hpl, hs, if_neg (by omega), chooseSource_dst, hx]

end Router

end UdpStack.Ipv4
