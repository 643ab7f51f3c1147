/-
The two ways of finding hardware addresses: deriving them from internet addresses, which needs no
messages, and the table of neighbors, which asks. As a layer the resolver only receives.
-/
import UdpStack.Arp.Table
import UdpStack.Layer

namespace UdpStack.Arp

/-- A way of finding hardware addresses. -/
inductive Resolver where
  /-- Hardware addresses follow from internet addresses. -/
  | derived
  | table (t : Table)
  deriving Repr

namespace Resolver

/-- The derived hardware address: that of one host, or broadcast for all other addresses. -/
def derive (x : Ipv4.Address) : Ethernet.Address :=
  if x.isUnicast then .ofIpv4 x else .broadcast

/-- The table, if there is one. -/
def table? : Resolver → Option Table
  | derived => none
  | table t => some t

/-- Find the hardware address of an address, or let a task wait for it. -/
def lookup (r : Resolver) (x : Ipv4.Address) (task : Option Task) (now : Instant) :
    Except Fault Ethernet.Address × Resolver :=
  match r with
  | derived => (.ok (derive x), r)
  | table t =>
    let (result, t) := t.lookup x task now
    (result, .table t)

/-- Ask again and give up where that is due. -/
def expire (r : Resolver) (now : Instant) (wakeups : Wakeups) : Resolver × Wakeups :=
  match r with
  | derived => (r, wakeups)
  | table t =>
    let (t, wakeups) := t.expire now wakeups
    (.table t, wakeups)

/-- Where a message is sent: an answer to its target, a question to all. -/
def destination (m : Message) : Ethernet.Address :=
  match m.operation with
  | .reply => m.dstHardware
  | _ => .broadcast

/-- Take the next message to send, with its destination. -/
def outgoing (r : Resolver) : Option (Message × Ethernet.Address) × Resolver :=
  match r with
  | derived => (none, r)
  | table t =>
    let (m, t) := t.outgoing
    (m.map fun m => (m, destination m), .table t)

/-- Receive a message. -/
def receivePass (r : Resolver) (p : Packet) (now : Instant) (wakeups : Wakeups) :
    Option (Except Fault Next × Resolver × Wakeups) :=
  match r with
  | derived => some (.error .dropped, r, wakeups)
  | table t =>
    p.unread?.map fun bytes =>
      match Message.parse bytes with
      | .error e => (.error e.toFault, r, wakeups)
      | .ok m =>
        let (result, t, wakeups) := t.receive m now wakeups
        (result.map fun _ => .done, .table t, wakeups)

/-- Nothing is sent through the resolver. -/
def transmitPass : Except Fault Next := .error .illegal

/-- Nothing is sent through the resolver. -/
def finishPass : Except Fault Finish := .error .illegal

end Resolver

end UdpStack.Arp
