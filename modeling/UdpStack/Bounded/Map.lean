/-
Maps with at most `n` keys, kept as pairs in the order of their insertion. An occupied key is
refused, so no key occurs twice.
-/
import UdpStack.Bounded.Seq

namespace UdpStack.Bounded

/-- A map with at most `n` keys. -/
structure Map (κ α : Type) (n : Nat) where
  pairs : Seq (κ × α) n
  deriving Repr

namespace Map

variable {κ α : Type} {n : Nat} [DecidableEq κ]

/-- The map without keys. -/
def empty : Map κ α n := ⟨.empty⟩

instance : Inhabited (Map κ α n) := ⟨empty⟩

/-- The pairs in the order of their insertion. -/
def toList (m : Map κ α n) : List (κ × α) := m.pairs.toList

/-- The pairs for reports. -/
def describe [ToString κ] [ToString α] (m : Map κ α n) : String :=
  Text.braced (m.toList.map fun p => toString p.1 ++ ": " ++ toString p.2)

/-- The number of keys. -/
def size (m : Map κ α n) : Nat := m.pairs.size

/-- The value of a key. -/
def get? (m : Map κ α n) (k : κ) : Option α :=
  (m.toList.find? fun p => decide (p.1 = k)).map (·.2)

/-- Whether a key has a value. -/
def contains (m : Map κ α n) (k : κ) : Bool := (m.get? k).isSome

/-- Add a value for a key that has none yet. -/
def insert (m : Map κ α n) (k : κ) (a : α) : Except Fault (Map κ α n) :=
  if m.contains k then .error .illegal
  else (m.pairs.push (k, a)).map (⟨·⟩)

/-- Take out a key with its value. -/
def remove (m : Map κ α n) (k : κ) : Option α × Map κ α n :=
  match m.pairs.findIdx? fun p => decide (p.1 = k) with
  | none => (none, m)
  | some i =>
    let (pair, rest) := m.pairs.remove i
    (pair.map (·.2), ⟨rest⟩)

/-- Replace the value of a key, if it has one. -/
def set (m : Map κ α n) (k : κ) (a : α) : Map κ α n :=
  match m.pairs.findIdx? fun p => decide (p.1 = k) with
  | none => m
  | some i => ⟨m.pairs.set i (k, a)⟩

/-- The first key with a value. -/
def keyOf? [DecidableEq α] (m : Map κ α n) (a : α) : Option κ :=
  (m.toList.find? fun p => decide (p.2 = a)).map (·.1)

end Map

end UdpStack.Bounded
