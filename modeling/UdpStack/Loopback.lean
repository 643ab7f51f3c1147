/-
The turning point of packets to this host. Nothing is stacked here; the finished packet is received
again from its outermost header on, without checksums, by the layer that sent it here.
-/
import UdpStack.Layer

namespace UdpStack

/-- The loopback of one host. -/
structure Loopback where
  counters : Counters
  deriving Repr

namespace Loopback

/-- A loopback that has counted nothing. -/
def empty : Loopback := ⟨{}⟩

/-- Nothing comes from below. -/
def receivePass : Except Fault Next := .error .illegal

/-- The first transmit pass ends here. -/
def transmitPass : Except Fault Next := .ok .done

/-- Turn the packet around. -/
def finishPass (t : Transit) (caller : Layer) : Except Fault Finish × Transit :=
  (.ok (.bounce caller), ⟨t.packet.resetReadHeaders, { t.info with skipChecksum := true }⟩)

end Loopback

end UdpStack
