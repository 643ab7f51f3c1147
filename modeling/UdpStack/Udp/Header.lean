/-
The header of a user datagram, 8 bytes: two ports, the length with the header, and a checksum that
covers the datagram and the addresses of the internet header. A checksum of zero means that there
is none, so a computed zero is written as all ones.
-/
import UdpStack.Ipv4.Header

namespace UdpStack.Udp

open Octets

/-- The fields of a datagram header. -/
structure Header where
  srcPort : UInt16
  dstPort : UInt16
  /-- Length of the header and the payload. -/
  len : UInt16
  checksum : UInt16
  deriving DecidableEq, Repr

namespace Header

/-- The length of the header. -/
def size : Nat := 8

/-- All fields, none unless the header is complete. -/
def read? (b : Octets) : Option Header := do
  let srcPort ← word16? b 0
  let dstPort ← word16? b 2
  let len ← word16? b 4
  let checksum ← word16? b 6
  return ⟨srcPort, dstPort, len, checksum⟩

/-- Accept bytes that hold a complete datagram. -/
def checkLength (b : Octets) : Except HeaderFault Unit :=
  if b.length < size then .error .truncated
  else match word16? b 4 with
    | none => .error .truncated
    | some len =>
      if len.toNat < size then .error .malformed
      else if b.length < len.toNat then .error .truncated
      else .ok ()

/-- The bytes behind the header that belong to the datagram. -/
def payload? (b : Octets) : Option Octets := do
  let len ← word16? b 4
  range? b size len.toNat

/-- The checksum over pseudo header and datagram, not yet complemented. -/
def sum? (b : Octets) (src dst : Ipv4.Address) : Option UInt16 := do
  let len ← word16? b 4
  let segment ← slice? b 0 len.toNat
  return Checksum.combine
    [Checksum.pseudoHeader src dst Ipv4.Protocol.udp.toByte len, Checksum.ofBytes segment]

/-- Whether there is no checksum or it matches. -/
def verifyChecksum? (b : Octets) (src dst : Ipv4.Address) : Option Bool := do
  let checksum ← word16? b 6
  if checksum = 0 then return true
  return (← sum? b src dst) == 0xffff

/-! ## Writing single fields -/

/-- Write the source port. -/
def setSrcPort? (b : Octets) (v : UInt16) : Option Octets := write? b 0 (ofWord16 v)

/-- Write the destination port. -/
def setDstPort? (b : Octets) (v : UInt16) : Option Octets := write? b 2 (ofWord16 v)

/-- Write the length of the datagram. -/
def setLen? (b : Octets) (v : UInt16) : Option Octets := write? b 4 (ofWord16 v)

/-- Write the checksum. -/
def setChecksum? (b : Octets) (v : UInt16) : Option Octets := write? b 6 (ofWord16 v)

/-- Compute and write the checksum, a zero as all ones. -/
def fillChecksum? (b : Octets) (src dst : Ipv4.Address) : Option Octets := do
  let cleared ← setChecksum? b 0
  let sum ← sum? cleared src dst
  setChecksum? cleared (if ~~~sum = 0 then 0xffff else ~~~sum)

end Header

end UdpStack.Udp
