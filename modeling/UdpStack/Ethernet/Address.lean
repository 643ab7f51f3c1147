/-
Hardware addresses: their kinds, the addresses derived from internet addresses, and their text. A
text is six components joined by colons. Reading takes each component as a hexadecimal number of
one octet, so leading zeros and a leading plus sign are allowed; writing uses two lower case digits.
-/
import UdpStack.Ipv4.Address
import UdpStack.Text

namespace UdpStack.Ethernet

open Octets

/-- A hardware address of six octets. -/
structure Address where
  a : UInt8
  b : UInt8
  c : UInt8
  d : UInt8
  e : UInt8
  f : UInt8
  deriving DecidableEq, Repr, Inhabited

namespace Address

/-- The address that every device receives. -/
def broadcast : Address := ⟨255, 255, 255, 255, 255, 255⟩

/-- The address of six zero octets. -/
def zero : Address := ⟨0, 0, 0, 0, 0, 0⟩

/-- The octets in wire order. -/
def octets (x : Address) : Octets := [x.a, x.b, x.c, x.d, x.e, x.f]

/-- The address of exactly six octets. -/
def ofOctets? : Octets → Option Address
  | [a, b, c, d, e, f] => some ⟨a, b, c, d, e, f⟩
  | _ => none

/-- The address at `start` in a header. -/
def read? (bytes : Octets) (start : Nat) : Option Address := (slice? bytes start 6).bind ofOctets?

/-- The locally administered address derived from an internet address. -/
def ofIpv4 (x : Ipv4.Address) : Address := ⟨2, 0, x.a, x.b, x.c, x.d⟩

/-- The address of an internet multicast group: its low 23 bits behind a fixed block. -/
def ofGroup (x : Ipv4.Address) : Address := ⟨1, 0, 0x5e, x.b &&& 0x7f, x.c, x.d⟩

@[simp] theorem length_octets (x : Address) : x.octets.length = 6 := rfl

@[simp] theorem ofOctets?_octets (x : Address) : ofOctets? x.octets = some x := rfl

/-! ## Kinds -/

/-- The address that every device receives. -/
def isBroadcast (x : Address) : Bool := x == broadcast

/-- An address with the group bit. -/
def isMulticast (x : Address) : Bool := x.a &&& 1 != 0

/-- An address with the bit for local administration. -/
def isLocal (x : Address) : Bool := x.a &&& 2 != 0

/-- An address of one device. -/
def isUnicast (x : Address) : Bool := !(x.isBroadcast || x.isMulticast)

/-! ## Text -/

/-- Why a text is not an address. -/
inductive TextFault where
  /-- A component is not a hexadecimal number of one octet. -/
  | component
  /-- The number of components is not six. -/
  | separator
  deriving DecidableEq, Repr

/-- The report of a fault. -/
def TextFault.message : TextFault → String
  | component => "invalid ethernet component"
  | separator => "unexpected number of ethernet address components (should be 6)"

/-- Two digits for each octet, joined by colons. -/
def text (x : Address) : String :=
  String.intercalate ":" (x.octets.map fun o => String.ofList (Text.hexDigits 2 o.toNat))

/-- Read hexadecimal digits on top of the value `acc`, none beyond one octet. -/
def octetFrom? (acc : Nat) : List Char → Option Nat
  | [] => some acc
  | c :: rest =>
    match Text.hexValue? c with
    | none => none
    | some v => if acc * 16 + v < 256 then octetFrom? (acc * 16 + v) rest else none

/-- The number of at least one hexadecimal digit, after a plus sign if there is one. -/
def octet? : List Char → Option UInt8
  | [] => none
  | ['+'] => none
  | '+' :: digits => (octetFrom? 0 digits).map UInt8.ofNat
  | digits => (octetFrom? 0 digits).map UInt8.ofNat

/-- Exactly `n` octets from components. The first fault in reading order is reported. -/
def octetsOf : Nat → List (List Char) → Except TextFault Octets
  | 0, [] => .ok []
  | 0, _ :: _ => .error .separator
  | _ + 1, [] => .error .separator
  | n + 1, s :: ss =>
    match octet? s with
    | none => .error .component
    | some o => (octetsOf n ss).map (o :: ·)

/-- Read an address. -/
def ofText (s : String) : Except TextFault Address :=
  match octetsOf 6 (Text.splitOn ':' s.toList) with
  | .error e => .error e
  | .ok os => match ofOctets? os with
    | some x => .ok x
    | none => .error .separator

end Address

end UdpStack.Ethernet
