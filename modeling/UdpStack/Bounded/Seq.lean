/-
Sequences of at most `n` elements in `n` slots. The elements fill the first `size` slots, so an
insertion moves all later ones back by one slot and a removal moves them forward again.
-/
import UdpStack.Fault
import UdpStack.Text

namespace UdpStack.Bounded

/-- A sequence of at most `n` elements. -/
structure Seq (α : Type) (n : Nat) where
  slots : Vector (Option α) n
  size : Nat
  deriving Repr

namespace Seq

variable {α : Type} {n : Nat}

/-- The sequence without elements. -/
def empty : Seq α n := ⟨Vector.replicate n none, 0⟩

instance : Inhabited (Seq α n) := ⟨empty⟩

/-- The elements in order. -/
def toList (s : Seq α n) : List α := (s.slots.toList.take s.size).filterMap id

/-- The elements for reports. -/
def describe [ToString α] (s : Seq α n) : String := Text.bracketed (s.toList.map toString)

/-- Whether there is no element. -/
def isEmpty (s : Seq α n) : Bool := s.size == 0

/-- Whether there is no room for another element. -/
def isFull (s : Seq α n) : Bool := s.size == n

/-- The element at a position. -/
def get? (s : Seq α n) (i : Nat) : Option α := s.slots[i]?.join

/-- Insert an element before the one at position `i`, which may be the position behind the last. -/
def insert (s : Seq α n) (i : Nat) (a : α) : Except Fault (Seq α n) :=
  if s.size < i then .error .badSize
  else if s.isFull then .error .exhausted
  else .ok {
    slots := Vector.ofFn fun k : Fin n =>
      if k.val < i then s.slots.get k
      else if k.val = i then some a
      else if k.val ≤ s.size then s.slots.get ⟨k.val - 1, by omega⟩
      else s.slots.get k
    size := s.size + 1 }

/-- Append an element. -/
def push (s : Seq α n) (a : α) : Except Fault (Seq α n) := s.insert s.size a

/-- Take out the element at position `i`. -/
def remove (s : Seq α n) (i : Nat) : Option α × Seq α n :=
  if s.size ≤ i then (none, s)
  else (s.get? i, {
    slots := Vector.ofFn fun k : Fin n =>
      if k.val < i then s.slots.get k
      else if h : k.val + 1 < s.size ∧ k.val + 1 < n then s.slots.get ⟨k.val + 1, h.2⟩
      else if k.val < s.size then none
      else s.slots.get k
    size := s.size - 1 })

/-- Replace the element at position `i`, if there is one. -/
def set (s : Seq α n) (i : Nat) (a : α) : Seq α n :=
  match s.get? i with
  | some _ => { s with slots := s.slots.setIfInBounds i (some a) }
  | none => s

/-- Replace every element by its image. -/
def mapElems (f : α → α) (s : Seq α n) : Seq α n :=
  { s with slots := Vector.ofFn fun k : Fin n =>
      if k.val < s.size then (s.slots.get k).map f else s.slots.get k }

/-- Take out all elements. -/
def clear (s : Seq α n) : Seq α n :=
  { slots := Vector.ofFn fun k : Fin n => if k.val < s.size then none else s.slots.get k
    size := 0 }

/-- The position of the first element that satisfies `p`. -/
def findIdx? (p : α → Bool) (s : Seq α n) : Option Nat := s.toList.findIdx? p

end Seq

end UdpStack.Bounded
