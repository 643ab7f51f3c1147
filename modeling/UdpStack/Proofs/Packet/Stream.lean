/-
The payload of a packet as a stream of bytes. Bytes are pushed at the end, consumed at the front and cut off at the
end, in any order and with any lengths, and headers are allocated in between. An access is refused exactly if it would
leave the room for headers, the room for payload or what is left to read, and then nothing changes (`Streams.access`).
So after any accesses what is left to read is the bytes that were pushed and not cut off, without those that were
consumed (`payload_streams`). Numbers stand in the stream with their most significant byte first, so a number that was
pushed is the number that is read (`bigEndian_octets`).
-/
import UdpStack.Proofs.Packet.Stacking

namespace UdpStack.Packet

open Octets

/-! ## Numbers in network byte order -/

/-- A number of one, two or four bytes. -/
inductive Word where
  | one (v : UInt8)
  | two (v : UInt16)
  | four (v : UInt32)
  deriving DecidableEq, Repr

namespace Word

/-- The bytes that are pushed for a number. -/
def octets : Word → Octets
  | one v => [v]
  | two v => ofWord16 v
  | four v => ofWord32 v

def toNat : Word → Nat
  | one v => v.toNat
  | two v => v.toNat
  | four v => v.toNat

end Word

/-- The number whose digits to the base 256 are bytes, the most significant one first. -/
def bigEndian (data : Octets) : Nat := Nat.ofDigits 256 (data.reverse.map UInt8.toNat)

theorem bigEndian_append_singleton (data : Octets) (o : UInt8) :
    bigEndian (data ++ [o]) = bigEndian data * 256 + o.toNat := by
  unfold bigEndian
  rw [List.reverse_append, List.reverse_singleton, List.singleton_append, List.map_cons, Nat.ofDigits_cons,
    Nat.mul_comm, Nat.add_comm]

theorem number_eq_bigEndian (data : Octets) : number data = bigEndian data := by
  induction data using List.reverseRecOn with
  | nil => rfl
  | append_singleton data o ih =>
    rw [bigEndian_append_singleton, ← ih]
    unfold number
    rw [List.foldl_append]
    rfl

theorem number_octets (w : Word) : number w.octets = w.toNat := by
  cases w with
  | one v => exact Nat.zero_add _
  | two v =>
    have h := congrArg UInt16.toNat (word16_ofWord16 v)
    rw [toNat_word16] at h
    simpa [number, Word.octets, ofWord16, Word.toNat] using h
  | four v =>
    have h := congrArg UInt32.toNat (word32_ofWord32 v)
    rw [toNat_word32] at h
    simpa [number, Word.octets, ofWord32, Word.toNat] using h

/-- The bytes that are pushed for a number denote it. -/
theorem bigEndian_octets (w : Word) : bigEndian w.octets = w.toNat :=
  (number_eq_bigEndian _).symm.trans (number_octets w)

/-! ## Accesses -/

/-- An access to the payload, or the allocation of a header that is then written. -/
inductive Access where
  | push (data : Octets)
  | pushWord (w : Word)
  | pushZeros (len : Nat)
  | allocHeader (len : Nat) (data : Octets)
  | take (len : Nat)
  | takeNumber (len : Nat)
  | peek (len : Nat)
  | skip (len : Nat)
  | truncate (len : Nat)
  deriving DecidableEq, Repr

/-- What an access hands out. -/
inductive Answer where
  | done
  | bytes (data : Octets)
  | number (n : Nat)
  deriving DecidableEq, Repr

/-- What an access hands out and the packet after it. One that fails changes nothing. -/
def outcome (p : Packet) : Except Fault (Answer × Packet) → Except Fault Answer × Packet
  | .ok (a, q) => (.ok a, q)
  | .error f => (.error f, p)

/-- Access a packet, none if this reached for bytes that do not exist. -/
def access (p : Packet) : Access → Option (Except Fault Answer × Packet)
  | .push data => some (p.outcome ((p.push data).map (.done, ·)))
  | .pushWord w => some (p.outcome ((p.push w.octets).map (.done, ·)))
  | .pushZeros len => some (p.outcome ((p.pushZeros len).map (.done, ·)))
  | .allocHeader len data => (p.perform (.allocHeader len data)).map fun (r, q) => (r.map .bytes, q)
  | .take len => some (p.outcome ((p.take len).map fun (data, q) => (.bytes data, q)))
  | .takeNumber len => some (p.outcome ((p.takeNumber len).map fun (n, q) => (.number n, q)))
  | .peek len => some (p.outcome ((p.peek len).map fun data => (.bytes data, p)))
  | .skip len => some (p.outcome ((p.skip len).map (.done, ·)))
  | .truncate len => some (p.outcome ((p.truncate len).map (.done, ·)))

/-- The packet after accesses, none if one reached for bytes that do not exist. -/
def accessAll? (p : Packet) (xs : List Access) : Option Packet :=
  xs.foldlM (fun p x => (p.access x).map Prod.snd) p

/-! ## Streams -/

/-- What accesses made of a new packet. -/
structure Stream where
  /-- The bytes that were pushed and not cut off. -/
  pushed : Octets
  /-- How many of them were consumed, from the front. -/
  consumed : Nat
  /-- How many bytes of headers were allocated. -/
  headers : Nat
  deriving DecidableEq, Repr

namespace Stream

/-- The bytes that were pushed and neither cut off nor consumed. -/
def unread (s : Stream) : Octets := s.pushed.drop s.consumed

/-- Whether an access stays in the room for headers, in the room for payload and in what is left to read. -/
def Fits (headerRoom payloadRoom : Nat) (s : Stream) : Access → Prop
  | .push data => s.pushed.length + data.length ≤ payloadRoom
  | .pushWord w => s.pushed.length + w.octets.length ≤ payloadRoom
  | .pushZeros len => s.pushed.length + len ≤ payloadRoom
  | .allocHeader len _ => s.headers + len ≤ headerRoom
  | .take len | .takeNumber len | .peek len | .skip len | .truncate len => len ≤ s.unread.length

instance (headerRoom payloadRoom : Nat) (s : Stream) : DecidablePred (s.Fits headerRoom payloadRoom)
  | .push _ | .pushWord _ | .pushZeros _ | .allocHeader .. | .take _ | .takeNumber _ | .peek _ | .skip _ |
    .truncate _ => Nat.decLe ..

/-- The stream after an access that fits. -/
def step (s : Stream) : Access → Stream
  | .push data => { s with pushed := s.pushed ++ data }
  | .pushWord w => { s with pushed := s.pushed ++ w.octets }
  | .pushZeros len => { s with pushed := s.pushed ++ List.replicate len 0 }
  | .allocHeader len _ => { s with headers := s.headers + len }
  | .take len | .takeNumber len | .skip len => { s with consumed := s.consumed + len }
  | .peek _ => s
  | .truncate len => { s with pushed := s.pushed.take (s.consumed + len) }

/-- What an access that fits hands out. A header is handed out with the bytes it had before. -/
def Answers (s : Stream) : Access → Answer → Prop
  | .push _, a | .pushWord _, a | .pushZeros _, a | .skip _, a | .truncate _, a => a = .done
  | .allocHeader len _, a => ∃ old : Octets, old.length = len ∧ a = .bytes old
  | .take len, a | .peek len, a => a = .bytes (s.unread.take len)
  | .takeNumber len, a => a = .number (bigEndian (s.unread.take len))

/-- The stream after an access, that changes nothing unless it fits. -/
def after (headerRoom payloadRoom : Nat) (s : Stream) (x : Access) : Stream :=
  if s.Fits headerRoom payloadRoom x then s.step x else s

/-- The stream after accesses to a new packet. -/
def ofAccesses (headerRoom payloadRoom : Nat) (xs : List Access) : Stream :=
  xs.foldl (after headerRoom payloadRoom) ⟨[], 0, 0⟩

end Stream

/-! ## Single operations -/

variable {p q : Packet} {front headers payload back : Octets}

theorem push_of_lt {data : Octets} (h : p.capacity < p.write + data.length) : p.push data = .error .badSize := by
  unfold push claim
  rw [if_pos h]
  rfl

theorem pushZeros_eq (p : Packet) (len : Nat) : p.pushZeros len = p.push (List.replicate len 0) := by
  unfold pushZeros
  split
  · rename_i h
    rw [push_of_lt (by rwa [List.length_replicate])]
  · rfl

/-- Writing into a region replaces as many of its first bytes as are written. -/
theorem fill_bytes_le {old : Octets} (h : p.bytes = front ++ old ++ back) (data : Octets) :
    (p.fill ⟨front.length, old.length⟩ data).bytes =
      front ++ (data.take old.length ++ old.drop (data.take old.length).length) ++ back := by
  have hle : (data.take old.length).length ≤ old.length := List.length_take_le ..
  show p.bytes.take front.length ++ data.take old.length ++
    p.bytes.drop (front.length + (data.take old.length).length) = _
  rw [h, List.append_assoc front old back, List.take_left, ← List.drop_drop, List.drop_left,
    List.drop_append_of_le_length hle]
  simp only [List.append_assoc]

/-- An allocated header takes the last bytes in front of the headers, whatever is written into it. -/
theorem Layout.allocHeader {kept old : Octets} (h : p.Layout (kept ++ old) headers payload back) (data : Octets) :
    ∃ q new, p.perform (.allocHeader old.length data) = some (.ok old, q) ∧ new.length = old.length ∧
      q.Layout kept (new ++ headers) payload back ∧ q.read = p.read := by
  have hb : p.bytes = kept ++ old ++ (headers ++ payload ++ back) := by
    rw [h.bytes]
    simp only [List.append_assoc]
  have hstart : p.header - old.length = kept.length := by
    rw [h.header, List.length_append, Nat.add_sub_cancel]
  have halloc : p.allocHeader old.length = .ok (⟨kept.length, old.length⟩, { p with header := kept.length }) := by
    unfold Packet.allocHeader
    rw [if_neg (by rw [h.header, List.length_append]; omega), hstart]
  have hcontent : ({ p with header := kept.length } : Packet).content? ⟨kept.length, old.length⟩ = some old := by
    show slice? p.bytes kept.length old.length = some old
    unfold slice?
    rw [hb, List.append_assoc, List.drop_left, List.take_left, if_pos (by simp only [List.length_append]; omega)]
  have hfill := fill_bytes_le (p := { p with header := kept.length }) hb data
  have hnew : (data.take old.length ++ old.drop (data.take old.length).length).length = old.length := by
    simp only [List.length_append, List.length_take, List.length_drop]
    omega
  refine ⟨({ p with header := kept.length } : Packet).fill ⟨kept.length, old.length⟩ data, _, ?_, hnew,
    ⟨?_, rfl, ?_, ?_⟩, rfl⟩
  · simp only [perform, halloc, writeTo, hcontent]
    rfl
  · rw [hfill]
    simp only [List.append_assoc]
  · show p.boundary = _
    rw [h.boundary, List.length_append, List.length_append, hnew]
    omega
  · show p.write = _
    rw [h.write, List.length_append, List.length_append, hnew]
    omega

theorem peek_of_unread? {w : Octets} {len : Nat} (h : p.unread? = some w) (hl : len ≤ w.length) :
    p.peek len = .ok (w.take len) := by
  obtain ⟨-, -, hw, hlen⟩ := unread?_eq_some h
  unfold peek
  rw [if_neg (by omega), hw, List.take_take, min_eq_left (by unfold available at hlen; omega)]

theorem peek_of_lt {len : Nat} (h : p.available < len) : p.peek len = .error .badSize := if_pos h

/-! ## The payload as a stream -/

/-- A packet whose payload is a stream. What precedes its frame is left of the room for headers, and what follows is
left of the room for payload. -/
def Streams (p : Packet) (headerRoom payloadRoom : Nat) (s : Stream) : Prop :=
  ∃ front headers back, p.Layout front headers s.pushed back ∧ p.read = p.boundary + s.consumed ∧
    s.consumed ≤ s.pushed.length ∧ headers.length = s.headers ∧ front.length + s.headers = headerRoom ∧
    s.pushed.length + back.length = payloadRoom

theorem streams_create {bytes : Octets} {room : Nat} (h : create bytes room = .ok p) :
    p.Streams room (bytes.length - room) ⟨[], 0, 0⟩ := by
  obtain ⟨front, back, hl, hfront, hback⟩ := holds_create h
  have hread : p.read = p.boundary := by
    unfold create at h
    split at h
    · cases h
    · cases h
      rfl
  exact ⟨front, [], back, hl, hread, le_rfl, rfl, hfront, hback⟩

namespace Streams

variable {headerRoom payloadRoom : Nat} {s : Stream}

theorem unread? (h : p.Streams headerRoom payloadRoom s) : p.unread? = some s.unread := by
  obtain ⟨front, headers, back, hl, hread, hle, -⟩ := h
  have hwrite := hl.inOrder.write_le
  have hstart : p.read = (front ++ headers).length + s.consumed := by
    rw [hread, hl.boundary, List.length_append]
  have hend : p.write = p.read + s.unread.length := by
    rw [hread, hl.boundary, hl.write]
    unfold Stream.unread
    rw [List.length_drop]
    omega
  rw [unread?_of_le (by omega) hwrite, hend, Nat.add_sub_cancel_left, hl.bytes, hstart, ← List.drop_drop,
    List.append_assoc, List.drop_left, List.drop_append_of_le_length hle]
  exact congrArg some List.take_left

theorem available (h : p.Streams headerRoom payloadRoom s) : p.available = s.unread.length :=
  (unread?_eq_some h.unread?).2.2.2.symm

/-- Consuming moves only the cursor that reads. -/
theorem consume (h : p.Streams headerRoom payloadRoom s) {len : Nat} (hlen : len ≤ s.unread.length) :
    ({ p with read := p.read + len } : Packet).Streams headerRoom payloadRoom { s with consumed := s.consumed + len } := by
  obtain ⟨front, headers, back, hl, hread, hle, hrest⟩ := h
  unfold Stream.unread at hlen
  rw [List.length_drop] at hlen
  refine ⟨front, headers, back, ⟨hl.bytes, hl.header, hl.boundary, hl.write⟩, ?_, ?_, hrest⟩
  · show p.read + len = p.boundary + (s.consumed + len)
    omega
  · show s.consumed + len ≤ s.pushed.length
    omega

/-- What is cut off is left of the room for payload. -/
theorem cut (h : p.Streams headerRoom payloadRoom s) {len : Nat} (hlen : len ≤ s.unread.length) :
    ({ p with write := p.read + len } : Packet).Streams headerRoom payloadRoom
      { s with pushed := s.pushed.take (s.consumed + len) } := by
  obtain ⟨front, headers, back, hl, hread, hle, hheaders, hfront, hback⟩ := h
  unfold Stream.unread at hlen
  rw [List.length_drop] at hlen
  have htake : (s.pushed.take (s.consumed + len)).length = s.consumed + len := by
    rw [List.length_take]
    omega
  refine ⟨front, headers, s.pushed.drop (s.consumed + len) ++ back, ⟨?_, hl.header, hl.boundary, ?_⟩, hread, ?_,
    hheaders, hfront, ?_⟩
  · show p.bytes = _
    rw [hl.bytes, List.append_assoc _ (s.pushed.take _), ← List.append_assoc (s.pushed.take _),
      List.take_append_drop, ← List.append_assoc]
  · show p.read + len = _
    rw [hread, hl.boundary, htake]
    omega
  · show s.consumed ≤ (s.pushed.take (s.consumed + len)).length
    omega
  · show (s.pushed.take (s.consumed + len)).length + _ = payloadRoom
    rw [htake, List.length_append, List.length_drop]
    omega

theorem push (h : p.Streams headerRoom payloadRoom s) {data : Octets}
    (hdata : s.pushed.length + data.length ≤ payloadRoom) :
    ∃ q, p.push data = .ok q ∧ q.Streams headerRoom payloadRoom { s with pushed := s.pushed ++ data } := by
  obtain ⟨front, headers, back, hl, hread, hle, hheaders, hfront, hback⟩ := h
  obtain ⟨q, hq, hlq⟩ := hl.push data (by omega)
  have hcursors : q.read = p.read ∧ q.boundary = p.boundary := by
    obtain ⟨-, rfl⟩ := push_eq_ok hq
    exact ⟨rfl, rfl⟩
  refine ⟨q, hq, front, headers, _, hlq, ?_, ?_, hheaders, hfront, ?_⟩
  · rw [hcursors.1, hcursors.2]
    exact hread
  · show s.consumed ≤ (s.pushed ++ data).length
    rw [List.length_append]
    omega
  · show (s.pushed ++ data).length + _ = payloadRoom
    rw [List.length_append, List.length_drop]
    omega

theorem push_unfit (h : p.Streams headerRoom payloadRoom s) {data : Octets}
    (hdata : payloadRoom < s.pushed.length + data.length) : p.push data = .error .badSize := by
  obtain ⟨front, headers, back, hl, -, -, -, -, hback⟩ := h
  apply push_of_lt
  unfold capacity
  rw [hl.bytes, hl.write]
  simp only [List.length_append]
  omega

theorem allocHeader (h : p.Streams headerRoom payloadRoom s) {len : Nat} (hlen : s.headers + len ≤ headerRoom)
    (data : Octets) : ∃ old q, p.perform (.allocHeader len data) = some (.ok old, q) ∧ old.length = len ∧
      q.Streams headerRoom payloadRoom { s with headers := s.headers + len } := by
  obtain ⟨front, headers, back, hl, hread, hle, hheaders, hfront, hback⟩ := h
  have hold : (front.drop (front.length - len)).length = len := by
    rw [List.length_drop]
    omega
  rw [← List.take_append_drop (front.length - len) front] at hl
  obtain ⟨q, new, hq, hnew, hlq, hreadq⟩ := hl.allocHeader data
  rw [hold] at hq hnew
  refine ⟨_, q, hq, hold, front.take (front.length - len), new ++ headers, back, hlq, ?_, hle, ?_, ?_, hback⟩
  · rw [hreadq, hread, hl.boundary, hlq.boundary]
    simp only [List.length_append]
    omega
  · show (new ++ headers).length = s.headers + len
    rw [List.length_append]
    omega
  · show (front.take (front.length - len)).length + (s.headers + len) = headerRoom
    rw [List.length_take]
    omega

theorem allocHeader_unfit (h : p.Streams headerRoom payloadRoom s) {len : Nat} (hlen : headerRoom < s.headers + len)
    (data : Octets) : p.perform (.allocHeader len data) = some (.error .badSize, p) := by
  obtain ⟨front, headers, back, hl, -, -, -, hfront, -⟩ := h
  have halloc : p.allocHeader len = .error .badSize := if_pos (by rw [hl.header]; omega)
  simp only [Packet.perform, halloc]

/-! ## Single accesses -/

/-- An access that fits does to a packet what it does to a stream. -/
theorem access_fit (h : p.Streams headerRoom payloadRoom s) {x : Access} (hx : s.Fits headerRoom payloadRoom x) :
    ∃ a q, p.access x = some (.ok a, q) ∧ q.Streams headerRoom payloadRoom (s.step x) ∧ s.Answers x a := by
  cases x with
  | push data =>
    obtain ⟨q, hq, hs⟩ := h.push hx
    exact ⟨.done, q, by rw [access, hq]; rfl, hs, rfl⟩
  | pushWord w =>
    obtain ⟨q, hq, hs⟩ := h.push hx
    exact ⟨.done, q, by rw [access, hq]; rfl, hs, rfl⟩
  | pushZeros len =>
    have hroom : s.pushed.length + (List.replicate len (0 : UInt8)).length ≤ payloadRoom := by
      rw [List.length_replicate]
      exact hx
    obtain ⟨q, hq, hs⟩ := h.push hroom
    exact ⟨.done, q, by rw [access, pushZeros_eq, hq]; rfl, hs, rfl⟩
  | allocHeader len data =>
    obtain ⟨old, q, hq, hold, hs⟩ := h.allocHeader hx data
    exact ⟨.bytes old, q, by rw [access, hq]; rfl, hs, old, hold, rfl⟩
  | take len =>
    have hpeek := peek_of_unread? h.unread? hx
    exact ⟨.bytes (s.unread.take len), _, by rw [access, Packet.take, hpeek]; rfl, h.consume hx, rfl⟩
  | takeNumber len =>
    have hpeek := peek_of_unread? h.unread? hx
    refine ⟨.number (number (s.unread.take len)), _, by rw [access, takeNumber, Packet.take, hpeek]; rfl,
      h.consume hx, ?_⟩
    exact congrArg Answer.number (number_eq_bigEndian _)
  | peek len =>
    have hpeek := peek_of_unread? h.unread? hx
    exact ⟨.bytes (s.unread.take len), p, by rw [access, hpeek]; rfl, h, rfl⟩
  | skip len => exact ⟨.done, _, by rw [access, skip_of_le (h.available ▸ hx)]; rfl, h.consume hx, rfl⟩
  | truncate len => exact ⟨.done, _, by rw [access, truncate_of_le (h.available ▸ hx)]; rfl, h.cut hx, rfl⟩

/-- An access that does not fit is refused. -/
theorem access_unfit (h : p.Streams headerRoom payloadRoom s) {x : Access}
    (hx : ¬ s.Fits headerRoom payloadRoom x) : p.access x = some (.error .badSize, p) := by
  have hlt : ∀ {len : Nat}, ¬ len ≤ s.unread.length → p.available < len := by
    intro len hlen
    rw [h.available]
    exact Nat.not_le.1 hlen
  cases x with
  | push data =>
    rw [access, h.push_unfit (Nat.not_le.1 hx)]
    rfl
  | pushWord w =>
    rw [access, h.push_unfit (Nat.not_le.1 hx)]
    rfl
  | pushZeros len =>
    rw [access, pushZeros_eq, h.push_unfit (by rw [List.length_replicate]; exact Nat.not_le.1 hx)]
    rfl
  | allocHeader len data =>
    rw [access, h.allocHeader_unfit (Nat.not_le.1 hx)]
    rfl
  | take len =>
    rw [access, Packet.take, peek_of_lt (hlt hx)]
    rfl
  | takeNumber len =>
    rw [access, takeNumber, Packet.take, peek_of_lt (hlt hx)]
    rfl
  | peek len =>
    rw [access, peek_of_lt (hlt hx)]
    rfl
  | skip len =>
    rw [access, skip, if_pos (hlt hx)]
    rfl
  | truncate len =>
    rw [access, truncate, if_pos (hlt hx)]
    rfl

theorem access (h : p.Streams headerRoom payloadRoom s) (x : Access) :
    ∃ a q, p.access x = some (a, q) ∧ q.Streams headerRoom payloadRoom (s.after headerRoom payloadRoom x) := by
  unfold Stream.after
  split
  · rename_i hx
    obtain ⟨a, q, hq, hs, -⟩ := h.access_fit hx
    exact ⟨.ok a, q, hq, hs⟩
  · rename_i hx
    exact ⟨_, p, h.access_unfit hx, h⟩

/-- A number that was pushed is read where its bytes are next. -/
theorem access_word (h : p.Streams headerRoom payloadRoom s) {w : Word} {rest : Octets}
    (hw : s.unread = w.octets ++ rest) :
    ∃ r, p.access (.takeNumber w.octets.length) = some (.ok (.number w.toNat), r) ∧ r.unread? = some rest := by
  have hfits : s.Fits headerRoom payloadRoom (.takeNumber w.octets.length) := by
    show w.octets.length ≤ s.unread.length
    rw [hw, List.length_append]
    exact Nat.le_add_right ..
  obtain ⟨a, r, hr, hs, ha⟩ := h.access_fit hfits
  have hfront : s.unread.take w.octets.length = w.octets := by rw [hw, List.take_left]
  replace ha : a = .number (bigEndian (s.unread.take w.octets.length)) := ha
  rw [hfront, bigEndian_octets] at ha
  refine ⟨r, by rw [hr, ha], ?_⟩
  rw [hs.unread?]
  show some (s.pushed.drop (s.consumed + w.octets.length)) = some rest
  rw [← List.drop_drop]
  show some (s.unread.drop w.octets.length) = some rest
  rw [hw, List.drop_left]

/-! ## Many accesses -/

theorem accessAll? (h : p.Streams headerRoom payloadRoom s) (xs : List Access) :
    ∃ q, p.accessAll? xs = some q ∧
      q.Streams headerRoom payloadRoom (xs.foldl (Stream.after headerRoom payloadRoom) s) := by
  induction xs generalizing p s with
  | nil => exact ⟨p, rfl, h⟩
  | cons x xs ih =>
    obtain ⟨a, q, hq, hs⟩ := h.access x
    obtain ⟨r, hr, hs⟩ := ih hs
    refine ⟨r, ?_, hs⟩
    unfold Packet.accessAll?
    rw [List.foldlM_cons, hq]
    exact hr

end Streams

/-- From a new packet, after any accesses in any order, what is left to read is the bytes that were pushed and not cut
off, without those that were consumed. An access is taken exactly if it stays in the room for headers, in the room for
payload and in what is left to read, and then it hands out what is next to read, numbers with their most significant
byte first; otherwise it is refused and nothing changes. So a number that was pushed is the number that is read where
its bytes are next. -/
theorem payload_streams {bytes : Octets} {room : Nat} (hp : create bytes room = .ok p) (xs : List Access) :
    ∃ q, p.accessAll? xs = some q ∧
      let s := Stream.ofAccesses room (bytes.length - room) xs
      q.unread? = some s.unread ∧
      (∀ x, if s.Fits room (bytes.length - room) x then ∃ a r, q.access x = some (.ok a, r) ∧ s.Answers x a
        else q.access x = some (.error .badSize, q)) ∧
      ∀ (w : Word) (rest : Octets), s.unread = w.octets ++ rest →
        ∃ r, q.access (.takeNumber w.octets.length) = some (.ok (.number w.toNat), r) ∧ r.unread? = some rest := by
  obtain ⟨q, hq, hs⟩ := (streams_create hp).accessAll? xs
  refine ⟨q, hq, hs.unread?, ?_, ?_⟩
  · intro x
    split
    · rename_i hx
      obtain ⟨a, r, hr, -, ha⟩ := hs.access_fit hx
      exact ⟨a, r, hr, ha⟩
    · rename_i hx
      exact hs.access_unfit hx
  · exact fun w rest hrest => hs.access_word hrest

/-- Words and bytes are pushed, cut off and read across each other, and what does not fit is refused. -/
theorem payload_streams_mixed : ∃ p q : Packet, create (List.replicate 16 0xee) 4 = .ok p ∧
    p.accessAll? [.push [1, 2, 3], .pushWord (.two 0x1234), .allocHeader 3 [0xaa], .takeNumber 2, .pushZeros 3,
      .truncate 4, .pushWord (.four 0xdeadbeef), .skip (2 ^ 64 - 1), .allocHeader 2 [], .take 1, .pushZeros 3,
      .peek 2] = some q ∧
    q.unread? = some [0x12, 0x34, 0, 0xde, 0xad, 0xbe, 0xef] ∧
    (∃ r, q.access (.takeNumber 2) = some (.ok (.number 0x1234), r) ∧
      r.unread? = some [0, 0xde, 0xad, 0xbe, 0xef]) ∧
    q.access (.pushZeros (2 ^ 64 - 1)) = some (.error .badSize, q) := by
  have hp : create (List.replicate 16 0xee) 4 = .ok ⟨List.replicate 16 0xee, 4, 4, 4, 4⟩ := rfl
  obtain ⟨q, hq, hunread, haccess, hword⟩ := payload_streams hp [.push [1, 2, 3], .pushWord (.two 0x1234),
    .allocHeader 3 [0xaa], .takeNumber 2, .pushZeros 3, .truncate 4, .pushWord (.four 0xdeadbeef),
    .skip (2 ^ 64 - 1), .allocHeader 2 [], .take 1, .pushZeros 3, .peek 2]
  have hlong := haccess (.pushZeros (2 ^ 64 - 1))
  rw [if_neg (by decide)] at hlong
  exact ⟨_, q, hp, hq, hunread, hword (.two 0x1234) _ rfl, hlong⟩

end UdpStack.Packet
