/-
Which frames the Ethernet layer hands on: complete ones to an accepted address whose content has a
layer above, with the right check sequence if that is verified here (`Takes`). Every frame is either
handed on without its header and its check sequence, or ends here (`receivePass_cases`). What is put
behind a frame when it is sent, padding and check sequence, is what a receiver verifies and cuts off
(`intact_trailer`, `body_trailer`).
-/
import UdpStack.Ethernet.Endpoint
import UdpStack.Proofs.Octets
import UdpStack.Proofs.Packet

namespace UdpStack.Ethernet.Endpoint

open Octets

/-- A frame without its check sequence, if that is cut off here. -/
def body (e : Endpoint) (frame : Octets) : Octets :=
  if e.checked then frame.take (frame.length - CheckSequence.size) else frame

/-- A frame that is complete and, if that is verified here, ends in its check sequence. -/
def Intact (e : Endpoint) (frame : Octets) : Prop :=
  if e.checked then
    18 ≤ frame.length ∧
      frame.drop (frame.length - 4) = CheckSequence.octets (CheckSequence.compute (e.body frame))
  else 14 ≤ frame.length

/-- A frame that is handed to a layer above. -/
structure Takes (e : Endpoint) (frame : Octets) (upper : Layer) : Prop where
  intact : e.Intact frame
  dst : e.accepts (.stored frame 0) = true
  content : e.etherTypes.get? (.ofWord (UInt16.ofNat (word frame 12))) = some upper

theorem Intact.length_ge {e : Endpoint} {frame : Octets} (h : e.Intact frame) : 14 ≤ frame.length := by
  unfold Intact at h
  split at h
  · omega
  · exact h

theorem Intact.length_body {e : Endpoint} {frame : Octets} (h : e.Intact frame) :
    14 ≤ (e.body frame).length := by
  unfold Intact at h
  unfold body
  split at h
  · rename_i hc
    rw [if_pos hc, List.length_take]
    have : CheckSequence.size = 4 := rfl
    omega
  · rename_i hc
    rw [if_neg hc]; exact h

/-! ## Receiving -/

/-- A frame loses its check sequence exactly if it is intact. -/
theorem stripCheck_cases {e : Endpoint} {p : Packet} {w : Octets} (hu : p.unread? = some w)
    (hl : 14 ≤ w.length) :
    (e.Intact w ∧ ∃ q, e.stripCheck w p = .ok q ∧ q.unread? = some (e.body w) ∧ q.bytes = p.bytes) ∨
      (¬ e.Intact w ∧ ∃ f, e.stripCheck w p = .error f) := by
  have hlen := (Packet.unread?_eq_some hu).2.2.2
  unfold stripCheck Intact body
  cases hc : e.checked with
  | false => exact .inl ⟨hl, p, rfl, hu, rfl⟩
  | true =>
    simp only [Bool.not_true, Bool.false_eq_true, if_false, if_true]
    split
    · rename_i hlt
      refine .inr ⟨?_, _, rfl⟩
      intro h
      have : Header.size + CheckSequence.size = 18 := rfl
      omega
    · rename_i hge
      have hge : 18 ≤ w.length := by
        have : Header.size + CheckSequence.size = 18 := rfl
        omega
      have hv : CheckSequence.verify w = if CheckSequence.octets (CheckSequence.compute
          (w.take (w.length - CheckSequence.size))) = w.drop (w.length - CheckSequence.size) then .ok ()
          else .error .wrongChecksum := by
        unfold CheckSequence.verify
        rw [if_neg (by have : CheckSequence.size = 4 := rfl; omega)]
      -- the last four bytes are compared with the check sequence of the rest
      rw [hv]
      by_cases hm : CheckSequence.octets (CheckSequence.compute
          (w.take (w.length - CheckSequence.size))) = w.drop (w.length - CheckSequence.size)
      · rw [if_pos hm, ← hlen]
        obtain ⟨q, hq, hqu, hqb⟩ := Packet.unread?_truncate hu
          (show w.length - CheckSequence.size ≤ _ by omega)
        exact .inl ⟨⟨hge, hm.symm⟩, q, hq, hqu, hqb⟩
      · rw [if_neg hm]
        exact .inr ⟨fun h => hm h.2.symm, _, rfl⟩

/-- A frame is handed on without its header, or ends here. -/
theorem receivePass_cases {e : Endpoint} {t : Transit} {w : Octets} (hu : t.packet.unread? = some w) :
    (∃ upper p, e.Takes w upper ∧
      e.receivePass t = some (.ok (.layer upper), ⟨p, { t.info with
        srcLink := some (.stored w 6), dstLink := some (.stored w 0) }⟩) ∧
      p.unread? = some ((e.body w).drop 14) ∧ p.bytes = t.packet.bytes) ∨
    (∃ r t', e.receivePass t = some (r, t') ∧ (∀ upper, r ≠ .ok (.layer upper)) ∧
      t'.packet.bytes = t.packet.bytes ∧ ∀ upper, ¬ e.Takes w upper) := by
  unfold receivePass
  rw [hu]
  simp only [bind, Option.bind]
  by_cases hl : w.length < 14
  · have hc : Header.checkLength w = .error .truncated := by
      unfold Header.checkLength; exact if_pos hl
    rw [hc]
    refine .inr ⟨_, _, rfl, nofun, rfl, ?_⟩
    intro upper ht
    have := ht.intact.length_ge
    omega
  · have hl : 14 ≤ w.length := by omega
    have hc : Header.checkLength w = .ok () := by
      unfold Header.checkLength; exact if_neg (by have : Header.size = 14 := rfl; omega)
    rw [hc, Header.read?_of_le hl]
    dsimp only
    by_cases ha : e.accepts (.stored w 0) = true
    · rw [if_pos ha]
      rcases stripCheck_cases (e := e) hu hl with ⟨hi, q, hq, hqu, hqb⟩ | ⟨hi, f, hf⟩
      · rw [hq]
        dsimp only
        cases he : e.etherTypes.get? (.ofWord (UInt16.ofNat (word w 12))) with
        | none =>
          refine .inr ⟨_, _, rfl, nofun, hqb, ?_⟩
          intro upper ht
          rw [ht.content] at he; cases he
        | some upper =>
          dsimp only
          obtain ⟨p, hp, hpu, hpb⟩ := Packet.unread?_skip hqu
            (show Header.size ≤ _ from hi.length_body)
          rw [hp]
          exact .inl ⟨upper, p, ⟨hi, ha, he⟩, rfl, hpu, hpb.trans hqb⟩
      · rw [hf]
        exact .inr ⟨_, _, rfl, nofun, rfl, fun upper ht => hi ht.intact⟩
    · rw [if_neg ha]
      have hn : ∀ upper, ¬ e.Takes w upper := fun upper ht => ha ht.dst
      split
      · exact .inr ⟨_, _, rfl, nofun, rfl, hn⟩
      · exact .inr ⟨_, _, rfl, nofun, rfl, hn⟩

theorem receivePass_bytes {e : Endpoint} {t t' : Transit} {r : Except Fault Next}
    (h : e.receivePass t = some (r, t')) : t'.packet.bytes = t.packet.bytes := by
  cases hu : t.packet.unread? with
  | none => unfold receivePass at h; rw [hu] at h; cases h
  | some w =>
    rcases receivePass_cases (e := e) hu with ⟨_, p, -, he, -, hb⟩ | ⟨_, t'', he, -, hb, -⟩
    · rw [he] at h; cases h; exact hb
    · rw [he] at h; cases h; exact hb

/-! ## Sending -/

/-- The zero bytes behind a short frame. -/
def padding (frame : Octets) : Octets := List.replicate (Header.minFrame - frame.length) 0

/-- What is put behind a frame. -/
def trailer (checked : Bool) (frame : Octets) : Octets :=
  if checked then
    padding frame ++ CheckSequence.octets (CheckSequence.compute (frame ++ padding frame))
  else padding frame

theorem length_trailer_le (checked : Bool) (frame : Octets) : (trailer checked frame).length ≤ 64 := by
  have hp : (padding frame).length ≤ 60 := by
    unfold padding
    rw [List.length_replicate]
    exact Nat.sub_le ..
  have hc : (CheckSequence.octets (CheckSequence.compute (frame ++ padding frame))).length = 4 := by
    unfold CheckSequence.octets
    rw [List.length_reverse, Octets.length_ofWord32]
  unfold trailer
  split
  · rw [List.length_append]; omega
  · omega

section Framed

variable {e : Endpoint} {p : Packet} {t : Transit} {r r' : Arp.Resolver} {now : Instant} {caller : Layer}
  {etherType : EtherType} {hardware : Address} {front headers payload frame back : Octets}

theorem transmitPass_of_framed (hf : t.packet.Framed front frame back)
    (ht : e.etherTypes.keyOf? caller = some etherType) (hr : resolve r t.info now = (.ok hardware, r'))
    (hroom : 14 ≤ front.length) :
    ∃ q, e.transmitPass r now t caller = (.ok (.layer .device), r',
        ⟨q, { t.info with srcLink := some e.addr, dstLink := some hardware }⟩) ∧
      q.Framed (front.take (front.length - 14)) (Header.octets ⟨hardware, e.addr, etherType⟩ ++ frame) back ∧
      q.boundary = t.packet.boundary := by
  obtain ⟨q, hx, hq⟩ := hf.pushHeader (Header.octets ⟨hardware, e.addr, etherType⟩) hroom
  refine ⟨q, ?_, hq⟩
  unfold transmitPass
  rw [ht]
  dsimp only
  rw [hr]
  dsimp only
  rw [hx]

theorem transmitPass_of_known (hl : t.packet.Layout front headers payload back)
    (ht : e.etherTypes.keyOf? caller = some etherType) (hr : resolve r t.info now = (.ok hardware, r'))
    (hroom : 14 ≤ front.length) :
    ∃ q, e.transmitPass r now t caller = (.ok (.layer .device), r',
        ⟨q, { t.info with srcLink := some e.addr, dstLink := some hardware }⟩) ∧
      q.Layout (front.take (front.length - 14)) (Header.octets ⟨hardware, e.addr, etherType⟩ ++ headers)
        payload back := by
  obtain ⟨q, hx, hq, hb⟩ := transmitPass_of_framed hl.framed ht hr hroom
  rw [← List.append_assoc] at hq
  refine ⟨q, hx, hq.layout ?_⟩
  have hsize : Header.size = 14 := rfl
  rw [hb, hl.boundary, List.length_take, List.length_append, Header.length_octets]
  omega

/-- A short frame is padded up to the least length, a long one stays as it is. -/
theorem pad_of_framed (hf : p.Framed front frame back) (hroom : (padding frame).length ≤ back.length) :
    ∃ q, pad p frame.length = .ok q ∧
      q.Framed front (frame ++ padding frame) (back.drop (padding frame).length) ∧ q.boundary = p.boundary := by
  unfold pad
  split
  · obtain ⟨q, hq, hqf, hb⟩ := hf.push (padding frame) hroom
    have hle := (Packet.push_eq_ok hq).1
    have hlen : (padding frame).length = Header.minFrame - frame.length := List.length_replicate ..
    refine ⟨q, ?_, hqf, hb⟩
    unfold Packet.pushZeros Packet.capacity
    rw [if_neg (by omega)]
    exact hq
  · have hz : padding frame = [] := by
      unfold padding
      rw [Nat.sub_eq_zero_of_le (by omega)]
      rfl
    rw [hz, List.append_nil]
    exact ⟨p, rfl, hf, rfl⟩

/-- What is put behind a frame, if there is room for it. -/
theorem finishPass_of_framed (hf : p.Framed front frame back)
    (hroom : (trailer e.checked frame).length ≤ back.length) :
    ∃ q, e.finishPass p = some (.ok .pass, q) ∧
      q.Framed front (frame ++ trailer e.checked frame) (back.drop (trailer e.checked frame).length) ∧
      q.boundary = p.boundary := by
  unfold finishPass
  unfold trailer at hroom ⊢
  rw [hf.frame?]
  simp only [Bind.bind, Option.bind]
  cases hc : e.checked with
  | false =>
    rw [hc] at hroom
    obtain ⟨q, hq, hqf, hb⟩ := pad_of_framed hf hroom
    rw [hq]
    exact ⟨q, rfl, hqf, hb⟩
  | true =>
    rw [hc, if_pos rfl, List.length_append] at hroom
    obtain ⟨q, hq, hqf, hb⟩ := pad_of_framed hf (by omega)
    obtain ⟨q', hq', hqf', hb'⟩ := hqf.push
      (CheckSequence.octets (CheckSequence.compute (frame ++ padding frame))) (by rw [List.length_drop]; omega)
    rw [hq]
    dsimp only
    rw [hqf.frame?]
    dsimp only
    rw [hq']
    rw [List.append_assoc, List.drop_drop, ← List.length_append] at hqf'
    exact ⟨q', rfl, hqf', hb'.trans hb⟩

theorem finishPass_of_layout (hl : p.Layout front headers payload back) (hroom : 64 ≤ back.length) :
    ∃ q back', e.finishPass p = some (.ok .pass, q) ∧
      q.Layout front headers (payload ++ trailer e.checked (headers ++ payload)) back' := by
  obtain ⟨q, hq, hqf, hb⟩ := finishPass_of_framed (e := e) hl.framed
    ((length_trailer_le e.checked (headers ++ payload)).trans hroom)
  rw [List.append_assoc] at hqf
  exact ⟨q, _, hq, hqf.layout (hb.trans hl.boundary)⟩

end Framed

/-! ## Receiving what was sent -/

/-- Without its check sequence, a frame is what was framed, with the padding. -/
theorem body_trailer (e : Endpoint) (frame : Octets) :
    e.body (frame ++ trailer e.checked frame) = frame ++ padding frame := by
  unfold body trailer
  cases e.checked with
  | false => rfl
  | true =>
    have hc : (CheckSequence.octets (CheckSequence.compute (frame ++ padding frame))).length =
      CheckSequence.size := rfl
    rw [if_pos rfl, if_pos rfl, ← List.append_assoc, List.length_append, hc, Nat.add_sub_cancel, List.take_left]

theorem intact_trailer (e : Endpoint) {frame : Octets} (hl : 14 ≤ frame.length) :
    e.Intact (frame ++ trailer e.checked frame) := by
  have hb := body_trailer e frame
  unfold Intact
  split
  · rename_i hc
    rw [hb]
    rw [hc]
    unfold trailer
    have hlen : (CheckSequence.octets (CheckSequence.compute (frame ++ padding frame))).length = 4 := rfl
    rw [if_pos rfl, ← List.append_assoc, List.length_append, hlen, Nat.add_sub_cancel, List.drop_left]
    exact ⟨by rw [List.length_append]; omega, rfl⟩
  · rw [List.length_append]; omega

theorem verify_trailer (frame : Octets) : CheckSequence.verify (frame ++ trailer true frame) = .ok () := by
  have hlen : (CheckSequence.octets (CheckSequence.compute (frame ++ padding frame))).length =
    CheckSequence.size := rfl
  unfold CheckSequence.verify trailer
  rw [if_pos rfl, ← List.append_assoc, List.length_append, hlen, if_neg (by omega), Nat.add_sub_cancel, List.take_left,
    List.drop_left, if_pos rfl]

/-- A frame of this layer to an address that is accepted is handed on by a layer like it. -/
theorem takes_trailer {e : Endpoint} {hardware src : Address} {etherType : EtherType} {upper : Layer}
    {content frame : Octets} (hf : frame = Header.octets ⟨hardware, src, etherType⟩ ++ content)
    (hd : e.accepts hardware = true) (ht : e.etherTypes.get? (.ofWord etherType.toWord) = some upper) :
    e.Takes (frame ++ trailer e.checked frame) upper := by
  have hl : 14 ≤ frame.length := by
    rw [hf, List.length_append, Header.length_octets]
    exact Nat.le_add_right ..
  refine ⟨intact_trailer e hl, ?_, ?_⟩
  · subst hf; exact hd
  · have hw : word (frame ++ trailer e.checked frame) 12 = etherType.toWord.toNat := by
      subst hf; exact toNat_ofWord16 _
    rw [hw, UInt16.ofNat_toNat]
    exact ht

end UdpStack.Ethernet.Endpoint
