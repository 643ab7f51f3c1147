/-
The parts of a packet. A buffer is what precedes the frame, the frame and what follows (`Framed`), and
when the cursors are in order the frame is the headers and the payload (`Layout`); appending to the
payload and stacking a header extend the parts and never move a byte or change the size of the buffer.
-/
import UdpStack.Packet
import Mathlib.Tactic

namespace UdpStack.Packet

open Octets

/-! ## Writing into a region -/

theorem length_fill {p : Packet} {r : Region} (data : Octets)
    (h : r.start + (data.take r.len).length ≤ p.bytes.length) :
    (p.fill r data).bytes.length = p.bytes.length := by
  simp only [fill, List.length_append, List.length_drop, List.length_take] at h ⊢
  omega

/-- Writing as many bytes as a region has replaces the content of the region. -/
theorem fill_bytes {p : Packet} {front old back data : Octets} (h : p.bytes = front ++ old ++ back)
    (hl : data.length = old.length) :
    (p.fill ⟨front.length, old.length⟩ data).bytes = front ++ data ++ back := by
  show p.bytes.take front.length ++ data.take old.length ++
    p.bytes.drop (front.length + (data.take old.length).length) = _
  rw [List.take_of_length_le hl.le, hl, ← List.length_append, h, List.drop_left, List.append_assoc front,
    List.take_left]

/-! ## The parts of a packet -/

/-- The cursors delimit headers and payload inside the buffer. -/
structure InOrder (p : Packet) : Prop where
  header_le : p.header ≤ p.boundary
  boundary_le : p.boundary ≤ p.write
  write_le : p.write ≤ p.bytes.length

/-- A packet whose frame stands between two other parts of its buffer, wherever the payload starts. -/
structure Framed (p : Packet) (front frame back : Octets) : Prop where
  bytes : p.bytes = front ++ frame ++ back
  header : p.header = front.length
  write : p.write = front.length + frame.length

/-- A packet whose buffer consists of four parts, delimited by its cursors. -/
structure Layout (p : Packet) (front headers payload back : Octets) : Prop where
  bytes : p.bytes = front ++ headers ++ payload ++ back
  header : p.header = front.length
  boundary : p.boundary = front.length + headers.length
  write : p.write = front.length + headers.length + payload.length

variable {p : Packet} {front headers payload frame back : Octets}

theorem Framed.frame? (h : p.Framed front frame back) : p.frame? = some frame := by
  unfold Packet.frame? range? slice?
  rw [if_pos (by rw [h.header, h.write]; omega),
    if_pos (by rw [h.header, h.write, h.bytes]; simp only [List.length_append]; omega), h.header, h.write,
    Nat.add_sub_cancel_left, h.bytes, List.append_assoc, List.drop_left, List.take_left]

theorem framed_of_frame? (h : p.frame? = some frame) :
    p.Framed (p.bytes.take p.header) frame (p.bytes.drop p.write) := by
  unfold Packet.frame? range? at h
  split at h
  · rename_i hle
    have hlen := length_slice? h
    unfold slice? at h
    split at h
    · rename_i hin
      cases h
      refine ⟨?_, ?_, ?_⟩
      · rw [← List.take_add, Nat.add_sub_cancel' hle, List.take_append_drop]
      · rw [List.length_take]
        omega
      · rw [List.length_take, hlen]
        omega
    · cases h
  · cases h

theorem Layout.framed (h : p.Layout front headers payload back) : p.Framed front (headers ++ payload) back :=
  ⟨h.bytes.trans (by rw [List.append_assoc front]), h.header,
    h.write.trans (by rw [List.length_append, Nat.add_assoc])⟩

theorem Framed.layout (h : p.Framed front (headers ++ payload) back)
    (hb : p.boundary = front.length + headers.length) : p.Layout front headers payload back :=
  ⟨h.bytes.trans (by simp only [List.append_assoc]), h.header, hb,
    h.write.trans (by rw [List.length_append, Nat.add_assoc])⟩

theorem Layout.frame? (h : p.Layout front headers payload back) :
    p.frame? = some (headers ++ payload) := h.framed.frame?

theorem Layout.inOrder (h : p.Layout front headers payload back) : p.InOrder := by
  refine ⟨by rw [h.header, h.boundary]; omega, by rw [h.boundary, h.write]; omega, ?_⟩
  rw [h.write, h.bytes]
  simp only [List.length_append]
  omega

theorem InOrder.frame? (h : p.InOrder) : ∃ frame, p.frame? = some frame := by
  obtain ⟨h1, h2, h3⟩ := h
  unfold Packet.frame? range? slice?
  rw [if_pos (by omega), if_pos (by omega)]
  exact ⟨_, rfl⟩

theorem create_layout (front back : Octets) :
    ∃ p, create (front ++ back) front.length = .ok p ∧ p.Layout front [] [] back := by
  unfold create
  rw [if_neg (by simp)]
  exact ⟨_, rfl, by simp, rfl, rfl, rfl⟩

/-! ## Appending to the payload -/

theorem push_eq_ok {q : Packet} {data : Octets} (h : p.push data = .ok q) :
    p.write + data.length ≤ p.bytes.length ∧
      q = ({ p with write := p.write + data.length } : Packet).fill ⟨p.write, data.length⟩ data := by
  unfold push claim at h
  split at h
  · cases h
  · rename_i hc
    cases h
    unfold capacity at hc
    exact ⟨by omega, rfl⟩

theorem push_of_le {data : Octets} (h : p.write + data.length ≤ p.bytes.length) :
    p.push data = .ok (({ p with write := p.write + data.length } : Packet).fill
      ⟨p.write, data.length⟩ data) := by
  unfold push claim
  rw [if_neg (by unfold capacity; omega)]
  rfl

theorem push_inOrder {q : Packet} {data : Octets} (hp : p.InOrder) (h : p.push data = .ok q) :
    q.InOrder ∧ q.bytes.length = p.bytes.length := by
  obtain ⟨hle, rfl⟩ := push_eq_ok h
  have hl := length_fill (p := { p with write := p.write + data.length })
    (r := ⟨p.write, data.length⟩) data (by simpa using hle)
  refine ⟨⟨hp.header_le, ?_, ?_⟩, hl⟩
  · show p.boundary ≤ p.write + data.length
    have := hp.boundary_le
    omega
  · rw [hl]; exact hle

/-- Appended bytes take the place of the first ones behind the frame. -/
theorem Framed.push (h : p.Framed front frame back) (data : Octets) (hl : data.length ≤ back.length) :
    ∃ q, p.push data = .ok q ∧ q.Framed front (frame ++ data) (back.drop data.length) ∧
      q.boundary = p.boundary := by
  have hw : p.write = (front ++ frame).length := by rw [h.write, List.length_append]
  have htake : (back.take data.length).length = data.length := by rw [List.length_take]; omega
  have hb : p.bytes = front ++ frame ++ back.take data.length ++ back.drop data.length := by
    rw [h.bytes, List.append_assoc _ (back.take _), List.take_append_drop]
  refine ⟨_, push_of_le (by rw [hw, h.bytes]; simp only [List.length_append]; omega), ⟨?_, h.header, ?_⟩, rfl⟩
  · have := fill_bytes (p := { p with write := p.write + data.length }) hb htake.symm
    rw [htake, ← hw] at this
    rw [this]; simp only [List.append_assoc]
  · show p.write + data.length = _
    rw [h.write, List.length_append]; omega

theorem Layout.push (h : p.Layout front headers payload back) (data : Octets)
    (hl : data.length ≤ back.length) :
    ∃ q, p.push data = .ok q ∧ q.Layout front headers (payload ++ data) (back.drop data.length) := by
  obtain ⟨q, hq, hf, hb⟩ := h.framed.push data hl
  rw [List.append_assoc] at hf
  exact ⟨q, hq, hf.layout (hb.trans h.boundary)⟩

/-! ## Stacking a header -/

theorem pushHeader_eq_ok {q : Packet} {data : Octets} (h : p.pushHeader data = .ok q) :
    data.length ≤ p.header ∧ q = ({ p with header := p.header - data.length } : Packet).fill
      ⟨p.header - data.length, data.length⟩ data := by
  unfold pushHeader allocHeader at h
  split at h
  · cases h
  · cases h; exact ⟨by omega, rfl⟩

theorem pushHeader_of_le {data : Octets} (h : data.length ≤ p.header) :
    p.pushHeader data = .ok (({ p with header := p.header - data.length } : Packet).fill
      ⟨p.header - data.length, data.length⟩ data) := by
  unfold pushHeader allocHeader
  rw [if_neg (by omega)]
  rfl

theorem pushHeader_inOrder {q : Packet} {data : Octets} (hp : p.InOrder) (h : p.pushHeader data = .ok q) :
    q.InOrder ∧ q.bytes.length = p.bytes.length := by
  obtain ⟨hle, rfl⟩ := pushHeader_eq_ok h
  obtain ⟨h1, h2, h3⟩ := hp
  have hl := length_fill (p := { p with header := p.header - data.length })
    (r := ⟨p.header - data.length, data.length⟩) data (by simp; omega)
  refine ⟨⟨?_, h2, ?_⟩, hl⟩
  · show p.header - data.length ≤ p.boundary; omega
  · rw [hl]; exact h3

/-- A stacked header takes the place of the last bytes in front of the frame. -/
theorem Framed.pushHeader (h : p.Framed front frame back) (data : Octets) (hl : data.length ≤ front.length) :
    ∃ q, p.pushHeader data = .ok q ∧
      q.Framed (front.take (front.length - data.length)) (data ++ frame) back ∧ q.boundary = p.boundary := by
  have htake : (front.take (front.length - data.length)).length = front.length - data.length := by
    rw [List.length_take]; omega
  have hdrop : (front.drop (front.length - data.length)).length = data.length := by
    rw [List.length_drop]; omega
  have hb : p.bytes = front.take (front.length - data.length) ++ front.drop (front.length - data.length) ++
      (frame ++ back) := by
    rw [h.bytes, List.take_append_drop, List.append_assoc]
  refine ⟨_, pushHeader_of_le (by rw [h.header]; exact hl), ⟨?_, ?_, ?_⟩, rfl⟩
  · have := fill_bytes (p := { p with header := p.header - data.length }) hb hdrop.symm
    rw [htake, hdrop, ← h.header] at this
    rw [h.header] at this ⊢
    rw [this]; simp only [List.append_assoc]
  · show p.header - data.length = _
    rw [htake, h.header]
  · show p.write = _
    rw [h.write, htake, List.length_append]; omega

theorem Layout.pushHeader (h : p.Layout front headers payload back) (data : Octets)
    (hl : data.length ≤ front.length) :
    ∃ q, p.pushHeader data = .ok q ∧
      q.Layout (front.take (front.length - data.length)) (data ++ headers) payload back := by
  obtain ⟨q, hq, hf, hb⟩ := h.framed.pushHeader data hl
  rw [← List.append_assoc] at hf
  refine ⟨q, hq, hf.layout ?_⟩
  rw [hb, h.boundary, List.length_take, List.length_append]
  omega

/-! ## Writing into stacked headers -/

/-- The last headers with the payload are a stretch of the buffer. -/
theorem Layout.stacked {outer inner : Octets} (h : p.Layout front (outer ++ inner) payload back) :
    p.stackedRegion? inner.length =
        some (.ok ⟨(front ++ outer).length, (inner ++ payload).length⟩) ∧
      p.content? ⟨(front ++ outer).length, (inner ++ payload).length⟩ = some (inner ++ payload) := by
  have hb := h.boundary
  have hw := h.write
  rw [List.length_append] at hb hw
  have hlen : p.bytes.length = front.length + outer.length + inner.length + payload.length + back.length := by
    rw [h.bytes]; simp only [List.length_append]; omega
  constructor
  · unfold stackedRegion? headerLen between? capacity
    rw [if_neg (by rw [h.header]; omega), if_pos ⟨by omega, by omega⟩, Option.map_some]
    simp only [List.length_append, Option.some.injEq, Except.ok.injEq, Region.mk.injEq]
    omega
  · have hparts : p.bytes = front ++ outer ++ (inner ++ payload ++ back) := by
      rw [h.bytes]; simp only [List.append_assoc]
    unfold content?
    dsimp only
    unfold slice?
    rw [if_pos (by simp only [List.length_append]; omega), hparts, List.drop_left, List.take_left]

/-- Writing over the last headers and the payload changes just these. -/
theorem Layout.restack {outer inner : Octets} (h : p.Layout front (outer ++ inner) payload back)
    (inner' payload' : Octets) (hi : inner'.length = inner.length)
    (hp : payload'.length = payload.length) :
    (p.fill ⟨(front ++ outer).length, (inner ++ payload).length⟩ (inner' ++ payload')).Layout front
      (outer ++ inner') payload' back := by
  have hb : p.bytes = front ++ outer ++ (inner ++ payload) ++ back := by
    rw [h.bytes]; simp only [List.append_assoc]
  have hfill : (p.fill ⟨(front ++ outer).length, (inner ++ payload).length⟩ (inner' ++ payload')).bytes =
      front ++ outer ++ (inner' ++ payload') ++ back :=
    fill_bytes hb (by rw [List.length_append, List.length_append, hi, hp])
  refine ⟨?_, h.header, ?_, ?_⟩
  · rw [hfill]; simp only [List.append_assoc]
  · show p.boundary = _
    rw [h.boundary, List.length_append, List.length_append, hi]
  · show p.write = _
    rw [h.write, List.length_append, List.length_append, hi, hp]

/-! ## Reading -/

theorem skip_of_le {len : Nat} (h : len ≤ p.available) : p.skip len = .ok { p with read := p.read + len } := by
  unfold skip; rw [if_neg (by omega)]

theorem truncate_of_le {len : Nat} (h : len ≤ p.available) :
    p.truncate len = .ok { p with write := p.read + len } := by
  unfold truncate; rw [if_neg (by omega)]

/-- What is left to read is the stretch of the buffer between the two cursors. -/
theorem unread?_eq_some {w : Octets} (h : p.unread? = some w) :
    p.read ≤ p.write ∧ p.write ≤ p.bytes.length ∧ w = (p.bytes.drop p.read).take (p.write - p.read) ∧
      w.length = p.available := by
  unfold unread? range? at h
  split at h
  · rename_i hle
    have hl := length_slice? h
    unfold slice? at h
    split at h
    · cases h; exact ⟨hle, by omega, rfl, hl⟩
    · cases h
  · cases h

theorem unread?_of_le (h1 : p.read ≤ p.write) (h2 : p.write ≤ p.bytes.length) :
    p.unread? = some ((p.bytes.drop p.read).take (p.write - p.read)) := by
  unfold unread? range? slice?
  rw [if_pos h1, if_pos (by omega)]

/-- Skipping takes bytes from the front of what is left to read. -/
theorem unread?_skip {w : Octets} {len : Nat} (h : p.unread? = some w) (hl : len ≤ w.length) :
    ∃ q, p.skip len = .ok q ∧ q.unread? = some (w.drop len) ∧ q.bytes = p.bytes := by
  obtain ⟨h1, h2, rfl, hlen⟩ := unread?_eq_some h
  have ha : len ≤ p.available := by omega
  refine ⟨_, skip_of_le ha, ?_, rfl⟩
  unfold available at ha
  rw [unread?_of_le (p := { p with read := p.read + len }) (by dsimp only; omega) h2]
  dsimp only
  rw [List.drop_take, List.drop_drop, Nat.sub_sub]

/-- Cutting off keeps the front of what is left to read. -/
theorem unread?_truncate {w : Octets} {len : Nat} (h : p.unread? = some w) (hl : len ≤ w.length) :
    ∃ q, p.truncate len = .ok q ∧ q.unread? = some (w.take len) ∧ q.bytes = p.bytes := by
  obtain ⟨h1, h2, rfl, hlen⟩ := unread?_eq_some h
  have ha : len ≤ p.available := by omega
  refine ⟨_, truncate_of_le ha, ?_, rfl⟩
  unfold available at ha
  rw [unread?_of_le (p := { p with write := p.read + len }) (by dsimp only; omega) (by dsimp only; omega)]
  dsimp only
  rw [List.take_take, Nat.add_sub_cancel_left, min_eq_left (by omega)]

/-- Cutting off behind a header that was skipped, by a length that includes the header. -/
theorem truncate_skipped {start stop : Nat} (hle : start ≤ stop) (hstop : stop ≤ p.available) :
    ({ p with read := p.read + start } : Packet).truncate (stop - start) =
      .ok { p with read := p.read + start, write := p.read + stop } := by
  rw [truncate_of_le (by unfold available at hstop ⊢; dsimp only; omega)]
  dsimp only
  rw [Nat.add_assoc, Nat.add_sub_cancel' hle]

/-- What two lengths enclose of what is left to read. -/
theorem unread?_enclosed {w : Octets} {start stop : Nat} (h : p.unread? = some w) (hle : start ≤ stop)
    (hstop : stop ≤ w.length) :
    ({ p with read := p.read + start, write := p.read + stop } : Packet).unread? =
      some ((w.take stop).drop start) := by
  obtain ⟨h1, h2, hw, hlen⟩ := unread?_eq_some h
  unfold available at hlen
  rw [unread?_of_le (by dsimp only; omega) (by dsimp only; omega), hw]
  dsimp only
  rw [List.take_take, min_eq_left (by omega), List.drop_take, List.drop_drop, Nat.add_sub_add_left]

theorem ofFrame_eq {bytes : Octets} {len : Nat} (h : len ≤ bytes.length) :
    ofFrame bytes len = .ok ⟨bytes, 0, 0, 0, len⟩ := by
  unfold ofFrame create advance claim capacity
  rw [if_neg (by omega)]
  dsimp only [Except.bind]
  rw [if_neg (by omega), Nat.zero_add]
  rfl

end UdpStack.Packet
