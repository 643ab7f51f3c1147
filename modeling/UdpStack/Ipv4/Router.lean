/-
The internet layer: which datagrams a host takes and through which layer, which layer handles
their content, and where datagrams go. Fragments are refused. The whole header is written in the
first transmit pass, since nothing in it depends on the layers below.
-/
import UdpStack.Bounded.Map
import UdpStack.Ipv4.Header
import UdpStack.Ipv4.Routes

namespace UdpStack.Ipv4

open Bounded Octets

/-- The internet state of one host. -/
structure Router where
  routes : Routes
  /-- Addresses of this host, with the layer that datagrams to them must come through. -/
  incoming : Map Address Layer Limits.incoming
  /-- The layer above for each protocol. -/
  protocols : Map Protocol Layer Limits.protocols
  /-- The number of the next datagram. -/
  ident : UInt16
  counters : Counters
  deriving Repr

namespace Router

/-- A host without routes, addresses or protocols. -/
def empty : Router := ⟨.empty, .empty, .empty, 0, {}⟩

/-- Add a route. -/
def addRoute (r : Router) (route : Route) : Except Fault Router :=
  (r.routes.add route).map fun routes => { r with routes := routes }

/-- Take out the first route with exactly this network and mask. -/
def removeRoute (r : Router) (net mask : Address) : Except Fault (Route × Router) :=
  (r.routes.remove net mask).map fun (route, routes) => (route, { r with routes := routes })

/-- Take datagrams to an address when they come through a layer. -/
def addIncoming (r : Router) (x : Address) (layer : Layer) : Except Fault Router :=
  (r.incoming.insert x layer).map fun m => { r with incoming := m }

/-- Take no datagrams to an address. -/
def removeIncoming (r : Router) (x : Address) : Except Fault (Layer × Router) :=
  match r.incoming.remove x with
  | (some layer, m) => .ok (layer, { r with incoming := m })
  | (none, _) => .error .unreachable

/-- Whether datagrams to an address are taken when they come through a layer. -/
def accepts (r : Router) (x : Address) (layer : Layer) : Bool := r.incoming.get? x == some layer

/-- Let a layer handle, and send, a protocol. -/
def register (r : Router) (p : Protocol) (layer : Layer) : Except Fault Router :=
  (r.protocols.insert p layer).map fun m => { r with protocols := m }

/-- Let no layer handle a protocol. -/
def unregister (r : Router) (p : Protocol) : Except Fault (Layer × Router) :=
  match r.protocols.remove p with
  | (some layer, m) => .ok (layer, { r with protocols := m })
  | (none, _) => .error .unreachable

/-- The first address of a single host that datagrams through a layer may be sent from. -/
def sourceFor (r : Router) (layer : Layer) : Option Address :=
  (r.incoming.toList.find? fun entry => entry.2 == layer && entry.1.isUnicast).map (·.1)

/-! ## Receiving -/

/-- Take a datagram and name the layer that handles its content. -/
def receivePass (r : Router) (t : Transit) (caller : Layer) :
    Option (Except Fault Next × Transit) := do
  let bytes ← t.packet.unread?
  match Header.checkLength bytes with
  | .error f => return (.error f.toFault, t)
  | .ok () =>
    let h ← Header.read? bytes
    let valid ← Header.verifyChecksum? bytes
    if h.version != 4 then return (.error .malformed, t)
    else if h.moreFrags || h.fragOffset != 0 then return (.error .malformed, t)
    else if !t.info.skipChecksum && !valid then return (.error .malformed, t)
    else if h.totalLen.toNat < h.headerLen then return (.error .malformed, t)
    else if t.packet.available - h.headerLen < h.totalLen.toNat - h.headerLen then
      return (.error .malformed, t)
    else if !r.accepts h.dst caller then return (.error .dropped, t)
    else match r.protocols.get? h.protocol with
      | none => return (.error .unreachable, t)
      | some upper =>
        let info := { t.info with srcAddr := h.src, dstAddr := h.dst }
        match t.packet.skip h.headerLen with
        | .error f => return (.error f, ⟨t.packet, info⟩)
        | .ok p =>
          match p.truncate (h.totalLen.toNat - h.headerLen) with
          | .error f => return (.error f, ⟨p, info⟩)
          | .ok p => return (.ok (.layer upper), ⟨p, info⟩)

/-! ## Transmitting -/

/-- The bytes of a header with a given checksum. -/
def headerOctets (totalLen ident : UInt16) (protocol : Protocol) (src dst : Address)
    (checksum : UInt16) : Octets :=
  [0x45, 0] ++ ofWord16 totalLen ++ ofWord16 ident ++ ofWord16 0 ++
    [Header.defaultHopLimit, protocol.toByte] ++ ofWord16 checksum ++ src.octets ++ dst.octets

/-- The bytes of a header with its checksum. -/
def sealedHeader (totalLen ident : UInt16) (protocol : Protocol) (src dst : Address) : Octets :=
  headerOctets totalLen ident protocol src dst
    (~~~Checksum.ofBytes (headerOctets totalLen ident protocol src dst 0))

/-- The addresses of a packet once its source is chosen. -/
def chooseSource (r : Router) (info : Info) (lower : Layer) : Info :=
  if info.srcAddr.isUnspecified then
    match r.sourceFor lower with
    | some x => { info with srcAddr := x }
    | none => info
  else info

/-- Stack the header of a datagram for the content of a layer. -/
def transmitPass (r : Router) (t : Transit) (caller : Layer) :
    Except Fault Next × Router × Transit :=
  match r.protocols.keyOf? caller with
  | none => (.error .unreachable, r, t)
  | some protocol =>
    match r.routes.lookup t.info.dstAddr with
    | none => (.error .unreachable, r, t)
    | some route =>
      let info := r.chooseSource t.info route.layer
      let totalLen := t.packet.headerLen + t.packet.payloadLen + Header.size
      if 65535 < totalLen then (.error .badSize, r, { t with info := info })
      else
        let header :=
          sealedHeader (UInt16.ofNat totalLen) r.ident protocol info.srcAddr info.dstAddr
        let numbered := { r with ident := r.ident + 1 }
        match t.packet.pushHeader header with
        | .error f => (.error f, numbered, { t with info := info })
        | .ok p => (.ok (.layer route.layer), numbered, ⟨p, info⟩)

end Router

end UdpStack.Ipv4
