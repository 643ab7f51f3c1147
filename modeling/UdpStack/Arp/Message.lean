/-
Messages that ask for and tell hardware addresses, 28 bytes. A message is read from bytes that
speak of Ethernet and internet addresses and hold a request or a reply, and from no others.
-/
import UdpStack.Ethernet.Header

namespace UdpStack.Arp

open Octets

/-- The kind of hardware that a message speaks of. -/
inductive Hardware where
  | ethernet
  /-- A number without a meaning here. -/
  | unknown (number : UInt16)
  deriving DecidableEq, Repr

/-- What a message does. -/
inductive Operation where
  | request
  | reply
  /-- A number without a meaning here. -/
  | unknown (number : UInt16)
  deriving DecidableEq, Repr

/-- The kind of a number. -/
def Hardware.ofWord (w : UInt16) : Hardware := if w = 1 then .ethernet else .unknown w

/-- The number of a kind. -/
def Hardware.toWord : Hardware → UInt16
  | ethernet => 1
  | unknown w => w

/-- The name of the alternative. -/
def Hardware.label : Hardware → String
  | ethernet => "Ethernet"
  | unknown w => "Unknown(" ++ toString w.toNat ++ ")"

/-- The operation of a number. -/
def Operation.ofWord (w : UInt16) : Operation :=
  if w = 1 then .request else if w = 2 then .reply else .unknown w

/-- The number of an operation. -/
def Operation.toWord : Operation → UInt16
  | request => 1
  | reply => 2
  | unknown w => w

/-- The name of the alternative. -/
def Operation.label : Operation → String
  | request => "Request"
  | reply => "Reply"
  | unknown w => "Unknown(" ++ toString w.toNat ++ ")"

theorem Operation.toWord_ofWord (w : UInt16) : (ofWord w).toWord = w := by
  unfold ofWord
  split
  · simp_all [toWord]
  · split <;> simp_all [toWord]

/-- A message about hardware addresses of Ethernet and addresses of the internet protocol. -/
structure Message where
  operation : Operation
  srcHardware : Ethernet.Address
  srcAddr : Ipv4.Address
  /-- Without a meaning in a request. -/
  dstHardware : Ethernet.Address
  dstAddr : Ipv4.Address
  deriving DecidableEq, Repr

/-- The fields of a message of any kind. -/
structure Header where
  hardware : Hardware
  protocol : Ethernet.EtherType
  hardwareLen : UInt8
  protocolLen : UInt8
  message : Message
  deriving DecidableEq, Repr

/-- The length of a message. -/
def Message.size : Nat := 28

/-- All fields, none unless the message is complete. -/
def Header.read? (b : Octets) : Option Header := do
  let hardware ← word16? b 0
  let protocol ← word16? b 2
  let hardwareLen ← b[4]?
  let protocolLen ← b[5]?
  let operation ← word16? b 6
  let srcHardware ← Ethernet.Address.read? b 8
  let srcAddr ← Ipv4.Address.read? b 14
  let dstHardware ← Ethernet.Address.read? b 18
  let dstAddr ← Ipv4.Address.read? b 24
  return {
    hardware := Hardware.ofWord hardware
    protocol := Ethernet.EtherType.ofWord protocol
    hardwareLen := hardwareLen
    protocolLen := protocolLen
    message := ⟨Operation.ofWord operation, srcHardware, srcAddr, dstHardware, dstAddr⟩ }

namespace Message

/-- Accept bytes that hold a complete message. -/
def checkLength (b : Octets) : Except HeaderFault Unit :=
  if b.length < size then .error .truncated else .ok ()

/-- Read a request or a reply. -/
def parse (b : Octets) : Except HeaderFault Message :=
  match Header.read? b with
  | none => .error .truncated
  | some h =>
    if h.hardware = .ethernet ∧ h.protocol = .ipv4 ∧ h.hardwareLen = 6 ∧ h.protocolLen = 4 then
      match h.message.operation with
      | .unknown _ => .error .unrecognized
      | _ => .ok h.message
    else .error .unrecognized

/-- The bytes of a message. -/
def octets (m : Message) : Octets :=
  ofWord16 Hardware.ethernet.toWord ++ ofWord16 Ethernet.EtherType.ipv4.toWord ++ [6, 4] ++
    ofWord16 m.operation.toWord ++ m.srcHardware.octets ++ m.srcAddr.octets ++
    m.dstHardware.octets ++ m.dstAddr.octets

@[simp] theorem length_octets (m : Message) : m.octets.length = size := by
  simp [octets, size]

/-- Write a message over the first bytes. -/
def emit? (m : Message) (b : Octets) : Option Octets := write? b 0 m.octets

end Message

end UdpStack.Arp
