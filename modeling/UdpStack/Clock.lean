/-
Instants, durations and expiry. An instant is a whole number of milliseconds and may lie before
the origin; its seconds and its rest both carry its sign. A duration is added in whole
milliseconds, taken as a signed word of 64 bits, and what comes of a calculation with instants is
such a word again: behind the last moment follows the first one.
-/
import UdpStack.Text

namespace UdpStack

/-- A length of time. -/
structure Duration where
  secs : Nat
  /-- Billionths of a second, less than one second. -/
  nanos : Nat
  deriving DecidableEq, Repr

namespace Duration

/-- A duration of seconds and any number of nanoseconds, none beyond the range of the seconds. -/
def ofParts? (secs nanos : Nat) : Option Duration :=
  if secs + nanos / 1000000000 < UInt64.size then
    some ⟨secs + nanos / 1000000000, nanos % 1000000000⟩
  else none

/-- A duration of milliseconds. -/
def ofMillis (n : Nat) : Duration := ⟨n / 1000, n % 1000 * 1000000⟩

/-- The whole milliseconds of a duration. -/
def toMillis (d : Duration) : Nat := d.secs * 1000 + d.nanos / 1000000

/-- The whole milliseconds of a duration as a signed word of 64 bits. -/
def toWord (d : Duration) : Int := Int.bmod d.toMillis UInt64.size

theorem toMillis_ofMillis (n : Nat) : (ofMillis n).toMillis = n := by
  simp [ofMillis, toMillis]
  omega

end Duration

/-- A moment, in milliseconds since an arbitrary origin: a signed word of 64 bits. -/
structure Instant where
  total : Int
  deriving DecidableEq, Repr, Inhabited

namespace Instant

/-- The first moment. -/
def first : Instant := ⟨-9223372036854775808⟩

/-- The last moment. -/
def last : Instant := ⟨9223372036854775807⟩

/-- The moment some seconds after the origin. -/
def ofSecs (s : Int) : Instant := ⟨Int.bmod (s * 1000) UInt64.size⟩

/-- The whole seconds since the origin. -/
def secs (t : Instant) : Int := t.total.tdiv 1000

/-- The milliseconds beyond the whole seconds. -/
def millis (t : Instant) : Int := t.total.tmod 1000

/-- A later moment. -/
def add (t : Instant) (d : Duration) : Instant := ⟨Int.bmod (t.total + d.toWord) UInt64.size⟩

/-- An earlier moment. -/
def sub (t : Instant) (d : Duration) : Instant := ⟨Int.bmod (t.total - d.toWord) UInt64.size⟩

/-- The time between two moments, in either order. -/
def distance (t u : Instant) : Duration :=
  Duration.ofMillis (Int.bmod (t.total - u.total) UInt64.size).natAbs

/-- Seconds and three places for the rest. -/
def text (t : Instant) : String := toString t.secs ++ "." ++ Text.zeroPadded 3 t.millis ++ "s"

/-- A moment after which there is at least a duration left. -/
structure Leaves (t : Instant) (d : Duration) : Prop where
  first_le : first.total ≤ t.total
  le_last : t.total + d.toMillis ≤ last.total

/-- A sum is exact as long as it does not pass the last moment. -/
theorem Leaves.total_add {t : Instant} {d : Duration} (h : t.Leaves d) :
    (t.add d).total = t.total + d.toMillis := by
  have hfirst : -9223372036854775808 ≤ t.total := h.first_le
  have hlast : t.total + d.toMillis ≤ 9223372036854775807 := h.le_last
  show Int.bmod (t.total + Int.bmod d.toMillis UInt64.size) UInt64.size = _
  rw [Int.add_bmod_bmod]
  apply Int.bmod_eq_of_le
  · simp only [UInt64.size]
    omega
  · simp only [UInt64.size]
    omega

theorem Leaves.mono {t : Instant} {d e : Duration} (h : t.Leaves d) (hle : e.toMillis ≤ d.toMillis) :
    t.Leaves e :=
  ⟨h.first_le, Int.le_trans (Int.add_le_add_left (Int.ofNat_le.2 hle) _) h.le_last⟩

end Instant

/-- The moment at which something ends, if it does. -/
inductive Expiry where
  | due (time : Instant)
  | never
  deriving DecidableEq, Repr

namespace Expiry

/-- Whether the end is reached. -/
def isExpired : Expiry → Instant → Bool
  | due t, now => decide (t.total ≤ now.total)
  | never, _ => false

/-- An expiry at a moment, if one is given. -/
def ofOption : Option Instant → Expiry
  | some t => .due t
  | none => .never

/-- The moment of an expiry. -/
def toOption : Expiry → Option Instant
  | due t => some t
  | never => none

/-- Earlier ends first, and what never ends last. -/
def order : Expiry → Expiry → Ordering
  | never, never => .eq
  | never, due _ => .gt
  | due _, never => .lt
  | due t, due u => compare t.total u.total

/-- The earlier end, the first of equal ones. -/
def earlier (x y : Expiry) : Expiry := if order y x = .lt then y else x

end Expiry

end UdpStack
