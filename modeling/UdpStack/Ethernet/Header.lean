/-
The header of an Ethernet frame, 14 bytes: destination, source and the type of the content.
Types without a meaning here keep their number (`EtherType.toWord_ofWord`).
-/
import UdpStack.Ethernet.Address
import UdpStack.Fault

namespace UdpStack.Ethernet

open Octets

/-- What a frame carries. -/
inductive EtherType where
  | ipv4
  | arp
  /-- A number without a meaning here. -/
  | unknown (number : UInt16)
  deriving DecidableEq, Repr

namespace EtherType

/-- The type of a number. -/
def ofWord (w : UInt16) : EtherType :=
  if w = 0x0800 then .ipv4 else if w = 0x0806 then .arp else .unknown w

/-- The number of a type. -/
def toWord : EtherType → UInt16
  | ipv4 => 0x0800
  | arp => 0x0806
  | unknown w => w

theorem toWord_ofWord (w : UInt16) : (ofWord w).toWord = w := by
  unfold ofWord
  split
  · simp_all [toWord]
  · split <;> simp_all [toWord]

theorem ofWord_inj (v w : UInt16) : ofWord v = ofWord w ↔ v = w := by
  constructor
  · intro h
    rw [← toWord_ofWord v, h, toWord_ofWord]
  · rintro rfl
    rfl

/-- The name for reports. -/
def name : EtherType → String
  | ipv4 => "IPv4"
  | arp => "ARP"
  | unknown w => Text.hexLiteral 4 w.toNat

/-- The name of the alternative. -/
def label : EtherType → String
  | ipv4 => "Ipv4"
  | arp => "Arp"
  | unknown w => "Unknown(" ++ toString w.toNat ++ ")"

end EtherType

/-- The fields of a frame header. -/
structure Header where
  dst : Address
  src : Address
  etherType : EtherType
  deriving DecidableEq, Repr

namespace Header

/-- The length of the header. -/
def size : Nat := 14

/-- The least length of a frame, its check sequence not counted. -/
def minFrame : Nat := 60

/-- All fields, none unless the header is complete. -/
def read? (frame : Octets) : Option Header := do
  let dst ← Address.read? frame 0
  let src ← Address.read? frame 6
  let w ← word16? frame 12
  return ⟨dst, src, EtherType.ofWord w⟩

/-- Accept bytes that hold a complete header. -/
def checkLength (frame : Octets) : Except HeaderFault Unit :=
  if frame.length < size then .error .truncated else .ok ()

/-- Write the destination. -/
def setDst? (frame : Octets) (x : Address) : Option Octets := write? frame 0 x.octets

/-- Write the source. -/
def setSrc? (frame : Octets) (x : Address) : Option Octets := write? frame 6 x.octets

/-- Write the type of the content. -/
def setEtherType? (frame : Octets) (t : EtherType) : Option Octets :=
  write? frame 12 (ofWord16 t.toWord)

/-- The bytes of a header. -/
def octets (h : Header) : Octets := h.dst.octets ++ h.src.octets ++ ofWord16 h.etherType.toWord

@[simp] theorem length_octets (h : Header) : h.octets.length = size := by
  simp [octets, size]

end Header

end UdpStack.Ethernet
