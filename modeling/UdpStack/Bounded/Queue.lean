/-
First-in first-out queues of at most `n` elements in a ring of `n` slots. An element can be placed
behind the last one without being counted, be changed there, and be counted later.
-/
import UdpStack.Fault
import UdpStack.Text

namespace UdpStack.Bounded

/-- A queue of at most `n` elements. -/
structure Queue (α : Type) (n : Nat) where
  slots : Vector (Option α) n
  /-- The slot of the oldest element. -/
  head : Nat
  size : Nat
  deriving Repr

namespace Queue

variable {α : Type} {n : Nat}

/-- The queue without elements. -/
def empty : Queue α n := ⟨Vector.replicate n none, 0, 0⟩

instance : Inhabited (Queue α n) := ⟨empty⟩

/-- The slot `k` places behind the oldest element, around the ring. -/
def slotAt (q : Queue α n) (k : Nat) : Nat := (q.head + k) % n

/-- The element `k` places behind the oldest. -/
def cell? (q : Queue α n) (k : Nat) : Option α := q.slots[q.slotAt k]?.join

/-- The elements from the oldest to the newest. -/
def toList (q : Queue α n) : List α := (List.range q.size).filterMap q.cell?

/-- The elements for reports. -/
def describe [ToString α] (q : Queue α n) : String := Text.bracketed (q.toList.map toString)

/-- Whether there is no element. -/
def isEmpty (q : Queue α n) : Bool := q.size == 0

/-- Whether there is no room for another element. -/
def isFull (q : Queue α n) : Bool := q.size == n

/-- The oldest element. -/
def front? (q : Queue α n) : Option α := if q.isEmpty then none else q.slots[q.head]?.join

/-- Fill the slot behind the last element, or vacate it. -/
def putBack (q : Queue α n) (a : Option α) : Queue α n :=
  { q with slots := q.slots.setIfInBounds (q.slotAt q.size) a }

/-- Add a newest element. -/
def push (q : Queue α n) (a : α) : Except Fault (Queue α n) :=
  if q.isFull then .error .exhausted
  else .ok { q.putBack (some a) with size := q.size + 1 }

/-- Take out the oldest element. -/
def pop (q : Queue α n) : Option α × Queue α n :=
  if q.isEmpty then (none, q)
  else (q.slots[q.head]?.join, {
    slots := q.slots.setIfInBounds q.head none
    head := q.slotAt 1
    size := q.size - 1 })

/-- Add a newest element, and take out the oldest one first if there is no room. A queue for no
elements at all stays empty. -/
def forcePush (q : Queue α n) (a : α) : Option α × Queue α n :=
  let (evicted, rest) := if q.isFull then q.pop else (none, q)
  match rest.push a with
  | .ok pushed => (evicted, pushed)
  | .error _ => (none, rest)

/-- Place an element behind the last one without counting it. -/
def reserve (q : Queue α n) (a : α) : Except Fault (Queue α n) :=
  if q.isFull then .error .exhausted else .ok (q.putBack (some a))

/-- The element behind the last one that is not counted. -/
def reserved? (q : Queue α n) : Option α := q.cell? q.size

/-- Change the element behind the last one that is not counted. -/
def modifyReserved (f : α → α) (q : Queue α n) : Queue α n := q.putBack (q.reserved?.map f)

/-- Count the element behind the last one, if there is one and it fits. -/
def commit (q : Queue α n) : Queue α n :=
  if !q.isFull && q.reserved?.isSome then { q with size := q.size + 1 } else q

/-- Like `commit`, for rings of any number of slots: none for a ring without slots, which has no
place behind the last element. -/
def commit? (q : Queue α n) : Option (Queue α n) := if n = 0 then none else some q.commit

end Queue

end UdpStack.Bounded
