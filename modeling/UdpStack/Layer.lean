/-
What all layers share: their names, the addresses that travel with a packet, the ways in which a
pass goes on, and the counters. Receiving runs upwards; transmitting runs downwards twice, first to
stack the headers and then to finish what depends on the whole packet.
-/
import UdpStack.Bounded.Pool
import UdpStack.Ethernet.Address
import UdpStack.Packet
import UdpStack.Task

namespace UdpStack

/-- The layers of one host. -/
inductive Layer where
  /-- The network device below everything. -/
  | device
  | ethernet
  /-- The layer that finds hardware addresses. -/
  | resolver
  | ipv4
  | udp
  /-- The turning point of packets to this host. -/
  | loopback
  | socket (handle : Bounded.Handle)
  /-- The program above everything. -/
  | user
  deriving DecidableEq, Repr, Inhabited

/-- The name for reports. -/
def Layer.name : Layer → String
  | device => "device"
  | ethernet => "eth"
  | resolver => "arp"
  | ipv4 => "ipv4"
  | udp => "udp"
  | loopback => "lo"
  | socket h => "socket" ++ toString h.index.toNat
  | user => "user"

/-- The addresses of a packet, filled in on its way. -/
structure Info where
  srcLink : Option Ethernet.Address := none
  /-- If it is set, a packet is sent to this hardware address and none is looked up. -/
  dstLink : Option Ethernet.Address := none
  srcAddr : Ipv4.Address := .unspecified
  dstAddr : Ipv4.Address := .unspecified
  srcPort : UInt16 := 0
  dstPort : UInt16 := 0
  /-- Whether the packet never left this host. -/
  skipChecksum : Bool := false
  /-- The task that waits if a layer has to wait. -/
  task : Option Task := none
  deriving DecidableEq, Repr, Inhabited

/-- How a pass goes on behind a layer. -/
inductive Next where
  | layer (next : Layer)
  | done
  deriving DecidableEq, Repr

/-- How the second transmit pass goes on behind a layer. -/
inductive Finish where
  | pass
  /-- Receive the packet again, from this layer on. -/
  | bounce (target : Layer)
  deriving DecidableEq, Repr

/-- Packets that a layer accepted, sent and refused. -/
structure Counters where
  rx : UInt32 := 0
  tx : UInt32 := 0
  dropped : UInt32 := 0
  deriving DecidableEq, Repr, Inhabited

/-- Count an accepted packet. -/
def Counters.countRx (c : Counters) : Counters := { c with rx := c.rx + 1 }

/-- Count a sent packet. -/
def Counters.countTx (c : Counters) : Counters := { c with tx := c.tx + 1 }

/-- Count a refused packet. -/
def Counters.countDropped (c : Counters) : Counters := { c with dropped := c.dropped + 1 }

/-- A packet with its addresses. -/
structure Transit where
  packet : Packet
  info : Info
  deriving DecidableEq, Repr

end UdpStack
