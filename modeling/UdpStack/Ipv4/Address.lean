/-
Addresses of the internet protocol, version 4: their kinds, their integer form, and subnet masks.
Main statements: the integer form loses nothing (`ofWord_toWord`, `toWord_ofWord`).
-/
import UdpStack.Octets
import UdpStack.Text

namespace UdpStack.Ipv4

open Octets

/-- An address of four octets. -/
structure Address where
  a : UInt8
  b : UInt8
  c : UInt8
  d : UInt8
  deriving DecidableEq, Repr, Inhabited

namespace Address

/-- The address that stands for any address when a socket is bound. -/
def unspecified : Address := ⟨0, 0, 0, 0⟩

/-- The limited broadcast address. -/
def broadcast : Address := ⟨255, 255, 255, 255⟩

/-- The address of this host on its loopback. -/
def loopback : Address := ⟨127, 0, 0, 1⟩

/-- The octets, most significant first. -/
def octets (x : Address) : Octets := [x.a, x.b, x.c, x.d]

/-- The address of exactly four octets. -/
def ofOctets? : Octets → Option Address
  | [a, b, c, d] => some ⟨a, b, c, d⟩
  | _ => none

/-- The integer form. -/
def toWord (x : Address) : UInt32 := word32 x.a x.b x.c x.d

/-- The address of an integer form. -/
def ofWord (w : UInt32) : Address :=
  ⟨UInt8.ofNat (w.toNat / 16777216), UInt8.ofNat (w.toNat / 65536), UInt8.ofNat (w.toNat / 256),
    UInt8.ofNat w.toNat⟩

/-- The address at `start` in a header. -/
def read? (bytes : Octets) (start : Nat) : Option Address := (slice? bytes start 4).bind ofOctets?

/-- The number of one octet in one to three digits, without a leading zero. -/
def decimalOctet? (s : List Char) : Option UInt8 :=
  if s.length = 0 ∨ 3 < s.length then none
  else if s.head? = some '0' ∧ s.length ≠ 1 then none
  else ((Text.decimalFrom? 0 s).filter fun n => decide (n < 256)).map UInt8.ofNat

/-- Read dotted decimal text. -/
def ofText? (s : String) : Option Address :=
  ((Text.splitOn '.' s.toList).mapM decimalOctet?).bind ofOctets?

/-- Dotted decimal text. -/
def text (x : Address) : String :=
  String.intercalate "." (x.octets.map fun o => toString o.toNat)

@[simp] theorem length_octets (x : Address) : x.octets.length = 4 := rfl

@[simp] theorem ofOctets?_octets (x : Address) : ofOctets? x.octets = some x := rfl

theorem toWord_ofWord (w : UInt32) : (ofWord w).toWord = w := word32_ofWord32 w

theorem ofWord_toWord (x : Address) : ofWord x.toWord = x := by
  obtain ⟨a, b, c, d⟩ := x
  have := a.toNat_lt
  have := b.toNat_lt
  have := c.toNat_lt
  have := d.toNat_lt
  simp only [ofWord, toWord, toNat_word32, mk.injEq]
  refine ⟨?_, ?_, ?_, ?_⟩ <;> apply UInt8.toNat_inj.mp <;> simp <;> omega

/-! ## Kinds -/

/-- The limited broadcast address. -/
def isBroadcast (x : Address) : Bool := x == broadcast

/-- An address of a multicast group, 224.0.0.0 to 239.255.255.255. -/
def isMulticast (x : Address) : Bool := x.a &&& 0xf0 == 224

/-- An address of this network, 0.0.0.0 to 0.255.255.255. -/
def isUnspecified (x : Address) : Bool := x.a == 0

/-- An address of this host, 127.0.0.0 to 127.255.255.255. -/
def isLoopback (x : Address) : Bool := x.a == 127

/-- An address of one host. -/
def isUnicast (x : Address) : Bool := !(x.isBroadcast || x.isMulticast || x.isUnspecified)

/-! ## Masks -/

/-- Only the bits that are set in `m`. -/
def mask (x m : Address) : Address := ofWord (x.toWord &&& m.toWord)

/-- The mask with `n` leading one bits, at most 32. -/
def netmask : Nat → Address
  | 0 => unspecified
  | n + 1 => ofWord (0xffffffff <<< UInt32.ofNat (32 - min (n + 1) 32))

/-- The number of one bits before the first zero bit, going down from bit `k - 1` to bit 0. -/
def leadingOnes (w : Nat) : Nat → Nat
  | 0 => 0
  | k + 1 => if w.testBit k then leadingOnes w k + 1 else 0

/-- The number of leading one bits of a mask that has no one bit behind them. -/
def prefixLen? (m : Address) : Option Nat :=
  let ones := leadingOnes m.toWord.toNat 32
  if m.toWord.toNat <<< ones % UInt32.size = 0 then some ones else none

/-- The last address of the subnet of `x` under the mask `m`. -/
def subnetBroadcast (x m : Address) : Address := ofWord (x.toWord ||| ~~~m.toWord)

/-- Addresses in the order of their integer forms. -/
def before (x y : Address) : Bool := x.toWord < y.toWord

end Address

end UdpStack.Ipv4
