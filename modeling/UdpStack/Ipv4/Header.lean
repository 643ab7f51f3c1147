/-
The header of an internet datagram, version 4, at least 20 bytes, with its own checksum. Numbers
of protocols without a meaning here are kept (`Protocol.toByte_ofByte`).
-/
import UdpStack.Checksum
import UdpStack.Fault
import UdpStack.Text

namespace UdpStack.Ipv4

open Octets

/-- What a datagram carries. -/
inductive Protocol where
  | icmp
  | tcp
  | udp
  /-- A number without a meaning here. -/
  | unknown (number : UInt8)
  deriving DecidableEq, Repr

namespace Protocol

/-- The protocol of a number. -/
def ofByte (n : UInt8) : Protocol :=
  if n = 1 then .icmp else if n = 6 then .tcp else if n = 17 then .udp else .unknown n

/-- The number of a protocol. -/
def toByte : Protocol → UInt8
  | icmp => 1
  | tcp => 6
  | udp => 17
  | unknown n => n

theorem toByte_ofByte (n : UInt8) : (ofByte n).toByte = n := by
  unfold ofByte
  split
  · simp_all [toByte]
  · split
    · simp_all [toByte]
    · split <;> simp_all [toByte]

theorem ofByte_inj (m n : UInt8) : ofByte m = ofByte n ↔ m = n := by
  constructor
  · intro h
    rw [← toByte_ofByte m, h, toByte_ofByte]
  · rintro rfl
    rfl

/-- The name for reports. -/
def name : Protocol → String
  | icmp => "ICMP"
  | tcp => "TCP"
  | udp => "UDP"
  | unknown n => Text.hexLiteral 2 n.toNat

/-- The name of the alternative. -/
def label : Protocol → String
  | icmp => "Icmp"
  | tcp => "Tcp"
  | udp => "Udp"
  | unknown n => "Unknown(" ++ toString n.toNat ++ ")"

end Protocol

/-- The fields of a datagram header, without options. -/
structure Header where
  version : UInt8
  /-- Length of the header with its options, in bytes. -/
  headerLen : Nat
  totalLen : UInt16
  ident : UInt16
  moreFrags : Bool
  /-- Place of a fragment, in bytes. -/
  fragOffset : UInt16
  hopLimit : UInt8
  protocol : Protocol
  checksum : UInt16
  src : Address
  dst : Address
  deriving DecidableEq, Repr

namespace Header

/-- The length of the header without options. -/
def size : Nat := 20

/-- The hop limit of datagrams sent from here. -/
def defaultHopLimit : UInt8 := 64

/-- The header length that the first byte declares. -/
def declaredLen (first : UInt8) : Nat := first.toNat % 16 * 4

/-- All fields, none unless the first 20 bytes exist. -/
def read? (b : Octets) : Option Header := do
  let first : UInt8 ← b[0]?
  let totalLen ← word16? b 2
  let ident ← word16? b 4
  let flags ← word16? b 6
  let hopLimit : UInt8 ← b[8]?
  let protocol : UInt8 ← b[9]?
  let checksum ← word16? b 10
  let src ← Address.read? b 12
  let dst ← Address.read? b 16
  return {
    version := first >>> 4
    headerLen := declaredLen first
    totalLen := totalLen
    ident := ident
    moreFrags := flags &&& 0x2000 != 0
    fragOffset := flags <<< 3
    hopLimit := hopLimit
    protocol := Protocol.ofByte protocol
    checksum := checksum
    src := src
    dst := dst }

/-- Accept bytes that hold a complete header with its options. -/
def checkLength (b : Octets) : Except HeaderFault Unit :=
  if b.length < size then .error .truncated
  else match b with
    | [] => .error .truncated
    | first :: _ =>
      if declaredLen first < size then .error .malformed
      else if b.length < declaredLen first then .error .truncated
      else .ok ()

/-- The bytes of the header with its options. -/
def region? (b : Octets) : Option Octets := do
  let first : UInt8 ← b[0]?
  slice? b 0 (declaredLen first)

/-- Whether the words of the header add up to all ones. -/
def verifyChecksum? (b : Octets) : Option Bool :=
  (region? b).map fun h => Checksum.ofBytes h == 0xffff

/-! ## Writing single fields -/

/-- Write the version and the length of a header without options, and no service class. -/
def setVersionAndLen? (b : Octets) : Option Octets := write? b 0 [0x45, 0]

/-- Write the length of the datagram. -/
def setTotalLen? (b : Octets) (v : UInt16) : Option Octets := write? b 2 (ofWord16 v)

/-- Write the number that the fragments of a datagram share. -/
def setIdent? (b : Octets) (v : UInt16) : Option Octets := write? b 4 (ofWord16 v)

/-- Write a datagram that is no fragment. -/
def clearFlags? (b : Octets) : Option Octets := write? b 6 (ofWord16 0)

/-- Write whether more fragments follow. -/
def setMoreFrags? (b : Octets) (v : Bool) : Option Octets := do
  let raw ← word16? b 6
  write? b 6 (ofWord16 (if v then raw ||| 0x2000 else raw &&& 0xdfff))

/-- Write the place of a fragment, rounded down to eight bytes. -/
def setFragOffset? (b : Octets) (v : UInt16) : Option Octets := do
  let raw ← word16? b 6
  write? b 6 (ofWord16 ((raw &&& (0xe000 : UInt16)) ||| (v >>> (3 : UInt16))))

/-- Write the hop limit. -/
def setHopLimit? (b : Octets) (v : UInt8) : Option Octets := write? b 8 [v]

/-- Write the protocol. -/
def setProtocol? (b : Octets) (p : Protocol) : Option Octets := write? b 9 [p.toByte]

/-- Write the checksum. -/
def setChecksum? (b : Octets) (v : UInt16) : Option Octets := write? b 10 (ofWord16 v)

/-- Write the source. -/
def setSrc? (b : Octets) (x : Address) : Option Octets := write? b 12 x.octets

/-- Write the destination. -/
def setDst? (b : Octets) (x : Address) : Option Octets := write? b 16 x.octets

/-- Compute and write the checksum. -/
def fillChecksum? (b : Octets) : Option Octets := do
  let cleared ← setChecksum? b 0
  let h ← region? cleared
  setChecksum? cleared (~~~Checksum.ofBytes h)

end Header

end UdpStack.Ipv4
