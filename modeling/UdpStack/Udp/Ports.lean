/-
The datagram layer: which layer each port belongs to. A port belongs to one layer and a layer has
one port. The checksum covers addresses that the layers below choose, so it is written in the
second transmit pass, where the header is found right in front of the payload.
-/
import UdpStack.Bounded.Map
import UdpStack.Layer
import UdpStack.Udp.Header

namespace UdpStack.Udp

open Bounded Octets

/-- The ports of one host. -/
structure Ports where
  /-- The layer of each port. -/
  table : Map UInt16 Layer Limits.sockets
  /-- The layer that datagrams are sent through. -/
  lower : Layer
  counters : Counters
  deriving Repr

namespace Ports

/-- No ports. -/
def create (lower : Layer) : Ports := ⟨.empty, lower, {}⟩

/-- The port of a layer. -/
def portOf? (u : Ports) (layer : Layer) : Option UInt16 := u.table.keyOf? layer

/-- The layer of a port. -/
def layerOf? (u : Ports) (port : UInt16) : Option Layer := u.table.get? port

/-- Give a port to a layer. -/
def bind (u : Ports) (port : UInt16) (layer : Layer) : Except Fault Ports :=
  if port == 0 || (u.portOf? layer).isSome then .error .illegal
  else (u.table.insert port layer).map fun m => { u with table := m }

/-- Take a port from its layer. -/
def unbind (u : Ports) (port : UInt16) : Except Fault (Layer × Ports) :=
  match u.table.remove port with
  | (some layer, m) => .ok (layer, { u with table := m })
  | (none, _) => .error .unreachable

/-- Take a datagram and name the layer of its port. -/
def receivePass (u : Ports) (t : Transit) : Option (Except Fault Next × Transit) := do
  let bytes ← t.packet.unread?
  match Header.checkLength bytes with
  | .error f => return (.error f.toFault, t)
  | .ok () =>
    let h ← Header.read? bytes
    let valid ← Header.verifyChecksum? bytes t.info.srcAddr t.info.dstAddr
    if !t.info.skipChecksum && !valid then return (.error .malformed, t)
    else match u.layerOf? h.dstPort with
      | none => return (.error .unreachable, t)
      | some upper =>
        let info := { t.info with srcPort := h.srcPort, dstPort := h.dstPort }
        match t.packet.skip Header.size with
        | .error f => return (.error f, ⟨t.packet, info⟩)
        | .ok p =>
          match p.truncate (h.len.toNat - Header.size) with
          | .error f => return (.error f, ⟨p, info⟩)
          | .ok p => return (.ok (.layer upper), ⟨p, info⟩)

/-- Stack the header of a datagram from the port of a layer. -/
def transmitPass (u : Ports) (t : Transit) (caller : Layer) : Except Fault Next × Transit :=
  if t.packet.headerLen != 0 then (.error .illegal, t)
  else match u.portOf? caller with
    | none => (.error .unreachable, t)
    | some port =>
      let len := t.packet.payloadLen + Header.size
      if 65535 < len then (.error .badSize, t)
      else
        let header := ofWord16 port ++ ofWord16 t.info.dstPort ++ ofWord16 (UInt16.ofNat len) ++
          ofWord16 0
        match t.packet.pushHeader header with
        | .error f => (.error f, t)
        | .ok p => (.ok (.layer u.lower), ⟨p, { t.info with srcPort := port }⟩)

/-- Write the checksum. -/
def finishPass (t : Transit) : Option (Except Fault Finish × Packet) := do
  match ← t.packet.stackedRegion? Header.size with
  | .error f => return (.error f, t.packet)
  | .ok r =>
    let bytes ← t.packet.content? r
    let filled ← Header.fillChecksum? bytes t.info.srcAddr t.info.dstAddr
    return (.ok .pass, t.packet.fill r filled)

end Ports

end UdpStack.Udp
