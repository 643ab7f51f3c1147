/-
The Ethernet layer: which frames a device takes, which layer handles their content, and framing.
Groups are joined and left by count. A frame for another group ends here without a complaint, one
for another device is refused.
-/
import UdpStack.Arp.Resolver
import UdpStack.Ethernet.CheckSequence

namespace UdpStack.Ethernet

open Bounded

/-- The Ethernet state of one device. -/
structure Endpoint where
  addr : Address
  /-- Whether check sequences are written and verified here. -/
  checked : Bool
  /-- The layer above for each type of content. -/
  etherTypes : Map EtherType Layer Limits.etherTypes
  /-- Joined groups and how often each was joined. -/
  groups : Map Address UInt8 Limits.groups
  counters : Counters
  deriving Repr

namespace Endpoint

/-- A device that leaves check sequences to its hardware. -/
def create (addr : Address) : Endpoint := ⟨addr, false, .empty, .empty, {}⟩

/-- Let a layer handle, and send, a type of content. -/
def register (e : Endpoint) (t : EtherType) (layer : Layer) : Except Fault Endpoint :=
  (e.etherTypes.insert t layer).map fun m => { e with etherTypes := m }

/-- Let no layer handle a type of content. -/
def unregister (e : Endpoint) (t : EtherType) : Except Fault (Layer × Endpoint) :=
  match e.etherTypes.remove t with
  | (some layer, m) => .ok (layer, { e with etherTypes := m })
  | (none, _) => .error .unreachable

/-- Join a group once more. -/
def join (e : Endpoint) (group : Address) : Except Fault Endpoint :=
  if !group.isMulticast || group.isBroadcast then .error .illegal
  else match e.groups.get? group with
    | some count =>
      if count = 255 then .error .exhausted
      else .ok { e with groups := e.groups.set group (count + 1) }
    | none => (e.groups.insert group 1).map fun m => { e with groups := m }

/-- Undo joining a group once. -/
def leave (e : Endpoint) (group : Address) : Except Fault Endpoint :=
  match e.groups.get? group with
  | none => .error .unreachable
  | some count =>
    if count = 1 then .ok { e with groups := (e.groups.remove group).2 }
    else .ok { e with groups := e.groups.set group (count - 1) }

/-- Whether frames to an address are taken. -/
def accepts (e : Endpoint) (dst : Address) : Bool :=
  dst == e.addr || dst.isBroadcast || e.groups.contains dst

/-! ## Receiving -/

/-- Verify the check sequence and cut it off, if that is done here. -/
def stripCheck (e : Endpoint) (bytes : Octets) (p : Packet) : Except Fault Packet :=
  if !e.checked then .ok p
  else if p.available < Header.size + CheckSequence.size then .error .malformed
  else match CheckSequence.verify bytes with
    | .error f => .error f.toFault
    | .ok () => p.truncate (p.available - CheckSequence.size)

/-- Take a frame and name the layer that handles its content. -/
def receivePass (e : Endpoint) (t : Transit) : Option (Except Fault Next × Transit) := do
  let bytes ← t.packet.unread?
  match Header.checkLength bytes with
  | .error f => return (.error f.toFault, t)
  | .ok () =>
    let h ← Header.read? bytes
    if e.accepts h.dst then
      match e.stripCheck bytes t.packet with
      | .error f => return (.error f, t)
      | .ok p =>
        match e.etherTypes.get? h.etherType with
        | none => return (.error .unreachable, { t with packet := p })
        | some upper =>
          let info := { t.info with srcLink := some h.src, dstLink := some h.dst }
          match p.skip Header.size with
          | .error f => return (.error f, ⟨p, info⟩)
          | .ok p => return (.ok (.layer upper), ⟨p, info⟩)
    else if h.dst.isMulticast then return (.ok .done, t)
    else return (.error .dropped, t)

/-! ## Transmitting -/

/-- The hardware address that a packet is sent to. -/
def resolve (r : Arp.Resolver) (info : Info) (now : Instant) :
    Except Fault Address × Arp.Resolver :=
  match info.dstLink with
  | some x => (.ok x, r)
  | none => r.lookup info.dstAddr info.task now

/-- Stack the header of a frame for the content of a layer. -/
def transmitPass (e : Endpoint) (r : Arp.Resolver) (now : Instant) (t : Transit) (caller : Layer) :
    Except Fault Next × Arp.Resolver × Transit :=
  match e.etherTypes.keyOf? caller with
  | none => (.error .unreachable, r, t)
  | some etherType =>
    match resolve r t.info now with
    | (.error f, r) => (.error f, r, t)
    | (.ok dst, r) =>
      match t.packet.pushHeader (Header.octets ⟨dst, e.addr, etherType⟩) with
      | .error f => (.error f, r, t)
      | .ok p =>
        let info := { t.info with srcLink := some e.addr, dstLink := some dst }
        (.ok (.layer .device), r, ⟨p, info⟩)

/-- Append zero bytes up to the least length of a frame. -/
def pad (p : Packet) (len : Nat) : Except Fault Packet :=
  if len < Header.minFrame then p.pushZeros (Header.minFrame - len) else .ok p

/-- Append padding and the check sequence. -/
def finishPass (e : Endpoint) (p : Packet) : Option (Except Fault Finish × Packet) := do
  let frame ← p.frame?
  match pad p frame.length with
  | .error f => return (.error f, p)
  | .ok p =>
    if !e.checked then return (.ok .pass, p)
    let padded ← p.frame?
    match p.push (CheckSequence.octets (CheckSequence.compute padded)) with
    | .error f => return (.error f, p)
    | .ok p => return (.ok .pass, p)

end Endpoint

end UdpStack.Ethernet
