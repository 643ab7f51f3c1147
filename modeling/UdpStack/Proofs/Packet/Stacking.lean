/-
Headers and payload in one buffer. Headers are stacked downwards from the boundary and payload is appended upwards
from it, in any order and with any sizes. A piece is taken exactly if it fits, and then it is added to what the packet
holds; otherwise nothing changes (`Holds.perform`). So after any pieces the frame is the headers that fitted, the last
one first, with the payload behind them, and every layer finds its header by the length of the headers behind it
(`headers_stack`). No byte of the frame changes with a piece that comes later (`Extends`).
-/
import UdpStack.Proofs.Octets
import UdpStack.Proofs.Packet.Cursors

namespace UdpStack.Packet

open Octets

/-! ## Pieces -/

/-- A header to stack or payload to append. -/
inductive Piece where
  | header (data : Octets)
  | payload (data : Octets)
  deriving DecidableEq, Repr

/-- A header is allocated and then filled. -/
def Piece.operation : Piece → Operation
  | header data => .allocHeader data.length data
  | payload data => .push data

/-- The packet after pieces, none if an operation reached for bytes that do not exist. -/
def assemble? (p : Packet) (xs : List Piece) : Option Packet :=
  xs.foldlM (fun p x => (p.perform x.operation).map Prod.snd) p

/-- What a packet holds: headers, the last one first, and payload. -/
structure Contents where
  headers : List Octets
  payload : Octets
  deriving DecidableEq, Repr

namespace Contents

/-- Whether a piece can be added where there is room for so many bytes of headers and so many of payload. -/
def Fits (headerRoom payloadRoom : Nat) (c : Contents) : Piece → Prop
  | .header data => c.headers.flatten.length + data.length ≤ headerRoom
  | .payload data => c.payload.length + data.length ≤ payloadRoom

instance (headerRoom payloadRoom : Nat) (c : Contents) : DecidablePred (c.Fits headerRoom payloadRoom)
  | .header _ => Nat.decLe ..
  | .payload _ => Nat.decLe ..

/-- Add a piece if it fits. -/
def add (headerRoom payloadRoom : Nat) (c : Contents) (x : Piece) : Contents :=
  if c.Fits headerRoom payloadRoom x then
    match x with
    | .header data => { c with headers := data :: c.headers }
    | .payload data => { c with payload := c.payload ++ data }
  else c

/-- All pieces that fit, one after another. -/
def ofPieces (headerRoom payloadRoom : Nat) (xs : List Piece) : Contents :=
  xs.foldl (add headerRoom payloadRoom) ⟨[], []⟩

end Contents

/-! ## Bytes that stay -/

/-- A packet whose frame holds the frame of another one, byte for byte and in the same place. -/
structure Extends (p q : Packet) : Prop where
  header : q.header ≤ p.header
  write : p.write ≤ q.write
  byte : ∀ i, p.header ≤ i → i < p.write → q.bytes[i]? = p.bytes[i]?

variable {p q : Packet} {front frame back : Octets} {headerRoom payloadRoom : Nat} {c : Contents}

theorem Extends.refl (p : Packet) : p.Extends p := ⟨le_rfl, le_rfl, fun _ _ _ => rfl⟩

theorem Extends.trans {r : Packet} (h : p.Extends q) (h' : q.Extends r) : p.Extends r where
  header := h'.header.trans h.header
  write := h.write.trans h'.write
  byte i hi hw := (h'.byte i (h.header.trans hi) (hw.trans_le h.write)).trans (h.byte i hi hw)

/-- Bytes that are added on either side of a frame leave it in its place. -/
theorem Framed.extends {front' outer inner back' : Octets} (h : p.Framed front frame back)
    (h' : q.Framed front' (outer ++ frame ++ inner) back') (hl : front'.length + outer.length = front.length) :
    p.Extends q := by
  refine ⟨by rw [h.header, h'.header]; omega, ?_, fun i hi hw => ?_⟩
  · rw [h.write, h'.write]
    simp only [List.length_append]
    omega
  · rw [h.header] at hi
    rw [h.write] at hw
    have hbytes : q.bytes = front' ++ outer ++ (frame ++ (inner ++ back')) := by
      rw [h'.bytes]
      simp only [List.append_assoc]
    have hfront : (front' ++ outer).length = front.length := by
      rw [List.length_append, hl]
    rw [hbytes, h.bytes, List.append_assoc front, List.getElem?_append_right (by omega), hfront,
      List.getElem?_append_left (by omega), List.getElem?_append_right hi, List.getElem?_append_left (by omega)]

/-! ## One piece -/

/-- The frame of a packet is made of contents. What precedes it is left of the room for headers, and what follows is
left of the room for payload. -/
def Holds (p : Packet) (headerRoom payloadRoom : Nat) (c : Contents) : Prop :=
  ∃ front back, p.Layout front c.headers.flatten c.payload back ∧
    front.length + c.headers.flatten.length = headerRoom ∧ c.payload.length + back.length = payloadRoom

theorem holds_create {bytes : Octets} {room : Nat} (h : create bytes room = .ok p) :
    p.Holds room (bytes.length - room) ⟨[], []⟩ := by
  unfold create at h
  split at h
  · cases h
  · rename_i hroom
    cases h
    have hlen : (bytes.take room).length = room := by
      rw [List.length_take]
      omega
    exact ⟨bytes.take room, bytes.drop room, ⟨by simp, hlen.symm, hlen.symm, hlen.symm⟩, by simpa using hroom, by simp⟩

theorem perform_allocHeader_of_lt {data : Octets} (h : p.header < data.length) :
    p.perform (.allocHeader data.length data) = some (.error .badSize, p) := by
  have halloc : p.allocHeader data.length = .error .badSize := if_pos h
  simp only [perform, halloc]

theorem perform_push_of_lt {data : Octets} (h : p.capacity < p.write + data.length) :
    p.perform (.push data) = some (.error .badSize, p) := by
  have hclaim : p.claim data.length = .error .badSize := if_pos h
  simp only [perform, Packet.push, hclaim]
  rfl

theorem perform_allocHeader_of_pushHeader {data : Octets} (hp : p.InOrder) (h : p.pushHeader data = .ok q) :
    ∃ old, p.perform (.allocHeader data.length data) = some (.ok old, q) := by
  obtain ⟨hle, rfl⟩ := pushHeader_eq_ok h
  obtain ⟨hheader, hboundary, hwrite⟩ := hp
  have halloc : p.allocHeader data.length =
      .ok (⟨p.header - data.length, data.length⟩, { p with header := p.header - data.length }) :=
    if_neg (Nat.not_lt.2 hle)
  have hcontent : ({ p with header := p.header - data.length } : Packet).content?
      ⟨p.header - data.length, data.length⟩ = some _ := slice?_of_le (by dsimp only; omega)
  simp only [perform, halloc, writeTo, hcontent]
  exact ⟨_, rfl⟩

namespace Holds

theorem header {data : Octets} (h : p.Holds headerRoom payloadRoom c)
    (hfits : c.headers.flatten.length + data.length ≤ headerRoom) :
    ∃ old q, p.perform (.allocHeader data.length data) = some (.ok old, q) ∧
      q.Holds headerRoom payloadRoom { c with headers := data :: c.headers } ∧ p.Extends q := by
  obtain ⟨front, back, hl, hfront, hback⟩ := h
  have hroom : data.length ≤ front.length := by omega
  have hrest : (front.take (front.length - data.length)).length + data.length = front.length := by
    rw [List.length_take]
    omega
  obtain ⟨q, hq, hlq⟩ := hl.pushHeader data hroom
  obtain ⟨old, hperform⟩ := perform_allocHeader_of_pushHeader hl.inOrder hq
  have hframed : q.Framed (front.take (front.length - data.length)) (data ++ (c.headers.flatten ++ c.payload) ++ [])
      back := by
    simpa using hlq.framed
  refine ⟨old, q, hperform, ⟨_, _, hlq, ?_, hback⟩, hl.framed.extends hframed hrest⟩
  rw [List.flatten_cons, List.length_append]
  omega

theorem payload {data : Octets} (h : p.Holds headerRoom payloadRoom c)
    (hfits : c.payload.length + data.length ≤ payloadRoom) :
    ∃ old q, p.perform (.push data) = some (.ok old, q) ∧
      q.Holds headerRoom payloadRoom { c with payload := c.payload ++ data } ∧ p.Extends q := by
  obtain ⟨front, back, hl, hfront, hback⟩ := h
  obtain ⟨q, hq, hlq⟩ := hl.push data (by omega)
  have hperform : p.perform (.push data) = some (.ok [], q) := by
    simp only [perform, hq]
    rfl
  have hframed : q.Framed front ([] ++ (c.headers.flatten ++ c.payload) ++ data) (back.drop data.length) := by
    simpa using hlq.framed
  refine ⟨[], q, hperform, ⟨_, _, hlq, hfront, ?_⟩, hl.framed.extends hframed rfl⟩
  rw [List.length_append, List.length_drop]
  omega

theorem unfit (h : p.Holds headerRoom payloadRoom c) {x : Piece} (hx : ¬ c.Fits headerRoom payloadRoom x) :
    p.perform x.operation = some (.error .badSize, p) := by
  obtain ⟨front, back, hl, hfront, hback⟩ := h
  cases x with
  | header data =>
    have hlt : headerRoom < c.headers.flatten.length + data.length := Nat.not_le.1 hx
    exact perform_allocHeader_of_lt (by rw [hl.header]; omega)
  | payload data =>
    have hlt : payloadRoom < c.payload.length + data.length := Nat.not_le.1 hx
    have hbytes := congrArg List.length hl.bytes
    simp only [List.length_append] at hbytes
    exact perform_push_of_lt (by rw [hl.write]; unfold capacity; omega)

/-- A piece is added if it fits, and otherwise nothing changes. No byte of the frame changes either way. -/
theorem perform (h : p.Holds headerRoom payloadRoom c) (x : Piece) :
    ∃ a q, p.perform x.operation = some (a, q) ∧ q.Holds headerRoom payloadRoom (c.add headerRoom payloadRoom x) ∧
      p.Extends q ∧ if c.Fits headerRoom payloadRoom x then ∃ old, a = .ok old else a = .error .badSize ∧ q = p := by
  unfold Contents.add
  split
  · rename_i hx
    cases x with
    | header data =>
      obtain ⟨old, q, hq, hholds, hext⟩ := h.header hx
      exact ⟨_, q, hq, hholds, hext, old, rfl⟩
    | payload data =>
      obtain ⟨old, q, hq, hholds, hext⟩ := h.payload hx
      exact ⟨_, q, hq, hholds, hext, old, rfl⟩
  · rename_i hx
    exact ⟨_, p, h.unfit hx, h, .refl p, rfl, rfl⟩

theorem answer (h : p.Holds headerRoom payloadRoom c) (x : Piece) :
    if c.Fits headerRoom payloadRoom x then ∃ old q, p.perform x.operation = some (.ok old, q)
    else p.perform x.operation = some (.error .badSize, p) := by
  obtain ⟨a, q, hq, -, -, hanswer⟩ := h.perform x
  split at hanswer <;> rename_i hx
  · obtain ⟨old, rfl⟩ := hanswer
    rw [if_pos hx]
    exact ⟨old, q, hq⟩
  · obtain ⟨rfl, rfl⟩ := hanswer
    rw [if_neg hx]
    exact hq

/-! ## Many pieces -/

theorem assemble? (h : p.Holds headerRoom payloadRoom c) (xs : List Piece) :
    ∃ q, p.assemble? xs = some q ∧ q.Holds headerRoom payloadRoom (xs.foldl (Contents.add headerRoom payloadRoom) c) ∧
      p.Extends q := by
  induction xs generalizing p c with
  | nil => exact ⟨p, rfl, h, .refl p⟩
  | cons x xs ih =>
    obtain ⟨a, q, hq, hholds, hext, -⟩ := h.perform x
    obtain ⟨r, hr, hholds, hext'⟩ := ih hholds
    refine ⟨r, ?_, hholds, hext.trans hext'⟩
    unfold Packet.assemble?
    rw [List.foldlM_cons, hq]
    exact hr

theorem frame? (h : p.Holds headerRoom payloadRoom c) : p.frame? = some (c.headers.flatten ++ c.payload) := by
  obtain ⟨front, back, hl, -⟩ := h
  exact hl.frame?

/-- A header is found by the length of the headers behind it. -/
theorem stacked (h : p.Holds headerRoom payloadRoom c) {outer inner : List Octets} (hc : c.headers = outer ++ inner) :
    ∃ r, p.stackedRegion? inner.flatten.length = some (.ok r) ∧ p.content? r = some (inner.flatten ++ c.payload) := by
  obtain ⟨front, back, hl, -⟩ := h
  rw [hc, List.flatten_append] at hl
  exact ⟨_, hl.stacked⟩

end Holds

/-- From a new packet, after any headers and payload in any order, the frame is the headers that fitted, the last one
first, and behind them the payload that fitted. A header is allocated exactly if all headers together stay in the room
for them, payload is appended exactly if it stays in the buffer, and otherwise nothing changes. The innermost headers
are found by their length, with the payload behind them. From the outermost header on the whole frame is read. Whatever
comes later, no byte of the frame changes. -/
theorem headers_stack {bytes : Octets} {room : Nat} (hp : create bytes room = .ok p) (xs : List Piece) :
    ∃ q, p.assemble? xs = some q ∧
      let c := Contents.ofPieces room (bytes.length - room) xs
      q.frame? = some (c.headers.flatten ++ c.payload) ∧
      (∀ data, if c.headers.flatten.length + data.length ≤ room
        then ∃ old r, q.perform (.allocHeader data.length data) = some (.ok old, r)
        else q.perform (.allocHeader data.length data) = some (.error .badSize, q)) ∧
      (∀ data, if c.payload.length + data.length ≤ bytes.length - room
        then ∃ old r, q.perform (.push data) = some (.ok old, r)
        else q.perform (.push data) = some (.error .badSize, q)) ∧
      (∀ outer inner, c.headers = outer ++ inner → ∃ r, q.stackedRegion? inner.flatten.length = some (.ok r) ∧
        q.content? r = some (inner.flatten ++ c.payload)) ∧
      q.resetReadHeaders.unread? = q.resetReadHeaders.frame? ∧ q.resetReadHeaders.frame? = q.frame? ∧
      ∀ ys, ∃ r, p.assemble? (xs ++ ys) = some r ∧ ∀ i, q.header ≤ i → i < q.write → r.bytes[i]? = q.bytes[i]? := by
  obtain ⟨q, hq, hholds, -⟩ := (holds_create hp).assemble? xs
  refine ⟨q, hq, hholds.frame?, fun data => hholds.answer (.header data), fun data => hholds.answer (.payload data),
    fun outer inner => hholds.stacked, rfl, rfl, fun ys => ?_⟩
  obtain ⟨r, hr, -, hext⟩ := hholds.assemble? ys
  refine ⟨r, ?_, hext.byte⟩
  unfold Packet.assemble? at hq hr ⊢
  rw [List.foldlM_append, hq]
  exact hr

/-- A header and payload that are too long are left out, and an empty header and one that just fits are not. -/
theorem headers_stack_full : ∃ p q : Packet, create (List.replicate 12 0xee) 8 = .ok p ∧
    p.assemble? [.payload [1, 2], .header [0xa1, 0xa2], .header (List.replicate 7 0xff), .payload [3],
      .header [], .payload [4, 5], .header [0xb1, 0xb2, 0xb3, 0xb4, 0xb5, 0xb6]] = some q ∧
    q.frame? = some [0xb1, 0xb2, 0xb3, 0xb4, 0xb5, 0xb6, 0xa1, 0xa2, 1, 2, 3] ∧
    q.perform (.allocHeader 1 [0xff]) = some (.error .badSize, q) ∧
    ∃ r, q.stackedRegion? 2 = some (.ok r) ∧ q.content? r = some [0xa1, 0xa2, 1, 2, 3] := by
  have hp : create (List.replicate 12 0xee) 8 = .ok ⟨List.replicate 12 0xee, 8, 8, 8, 8⟩ := rfl
  obtain ⟨q, hq, hframe, halloc, -, hstacked, -⟩ := headers_stack hp [.payload [1, 2], .header [0xa1, 0xa2],
    .header (List.replicate 7 0xff), .payload [3], .header [], .payload [4, 5],
    .header [0xb1, 0xb2, 0xb3, 0xb4, 0xb5, 0xb6]]
  exact ⟨_, q, hp, hq, hframe, halloc [0xff],
    hstacked [[0xb1, 0xb2, 0xb3, 0xb4, 0xb5, 0xb6], []] [[0xa1, 0xa2]] rfl⟩

end UdpStack.Packet
