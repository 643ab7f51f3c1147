/-
Pools of `n` slots that hand out handles. A handle names a slot and how often the slot had been
vacated before, counted modulo 256, and refers to nothing once that number has changed.
-/
import UdpStack.Fault
import UdpStack.Text

namespace UdpStack.Bounded

/-- A reference to the value in a slot of a pool. -/
structure Handle where
  index : UInt8
  /-- How often the slot was vacated before. -/
  generation : UInt8
  deriving DecidableEq, Repr, Inhabited

/-- A pool of at most `n` values. -/
structure Pool (α : Type) (n : Nat) where
  slots : Vector (Option α) n
  generations : Vector UInt8 n
  deriving Repr

namespace Pool

variable {α : Type} {n : Nat}

/-- The pool without values. -/
def empty : Pool α n := ⟨Vector.replicate n none, Vector.replicate n 0⟩

instance : Inhabited (Pool α n) := ⟨empty⟩

/-- The values in the order of their slots. -/
def toList (p : Pool α n) : List α := p.slots.toList.filterMap id

/-- The values for reports. -/
def describe [ToString α] (p : Pool α n) : String := Text.bracketed (p.toList.map toString)

/-- The number of values. -/
def size (p : Pool α n) : Nat := p.toList.length

/-- Whether a handle is of the current generation of its slot. -/
def isCurrent (p : Pool α n) (h : Handle) : Bool :=
  p.generations[h.index.toNat]? == some h.generation

/-- The value that a handle refers to. -/
def get? (p : Pool α n) (h : Handle) : Option α :=
  if p.isCurrent h then p.slots[h.index.toNat]?.join else none

/-- Put a value into the first vacant slot. Slots beyond the range of handles are never used. -/
def acquire (p : Pool α n) (a : α) : Except Fault (Handle × Pool α n) :=
  match p.slots.toList.findIdx? Option.isNone with
  | none => .error .exhausted
  | some i =>
    if 255 < i then .error .exhausted
    else match p.generations[i]? with
      | none => .error .exhausted
      | some g => .ok (⟨UInt8.ofNat i, g⟩, { p with slots := p.slots.setIfInBounds i (some a) })

/-- Vacate the slot of a handle. -/
def release (p : Pool α n) (h : Handle) : Option α × Pool α n :=
  match p.get? h with
  | none => (none, p)
  | some a => (some a, {
      slots := p.slots.setIfInBounds h.index.toNat none
      generations := p.generations.setIfInBounds h.index.toNat (h.generation + 1) })

/-- Replace the value that a handle refers to, if there is one. -/
def set (p : Pool α n) (h : Handle) (a : α) : Pool α n :=
  match p.get? h with
  | none => p
  | some _ => { p with slots := p.slots.setIfInBounds h.index.toNat (some a) }

/-- The current handles with their values, in the order of their slots. -/
def entries (p : Pool α n) : List (Handle × α) :=
  (List.range (min n 256)).filterMap fun i =>
    match p.generations[i]?, p.slots[i]?.join with
    | some g, some a => some (⟨UInt8.ofNat i, g⟩, a)
    | _, _ => none

end Pool

end UdpStack.Bounded
