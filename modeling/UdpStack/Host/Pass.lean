/-
Passes of a packet through the layers of a host. No layer calls another: each names the next one.
Transmitting records the layers of the first pass and goes through them again to finish the
packet; a loopback on the way turns the packet around. A pass has no value if a layer touched
bytes that do not exist.
-/
import UdpStack.Host.Basic

namespace UdpStack.Host

open Device

variable {δ : Type} [Nic δ]

/-! ## One layer -/

/-- Let a layer receive a packet. -/
def receiveAt (h : Host δ) (layer caller : Layer) (t : Transit) :
    Option (Except Fault Next × Host δ × Transit) :=
  match layer with
  | .device => some (Device.receivePass, h, t)
  | .ethernet => (h.endpoint.receivePass t).map fun (result, t) => (result, h, t)
  | .resolver =>
    (h.resolver.receivePass t.packet h.now h.wakeups).map fun (result, resolver, wakeups) =>
      (result, { h with resolver := resolver, wakeups := wakeups }, t)
  | .ipv4 => (h.router.receivePass t caller).map fun (result, t) => (result, h, t)
  | .udp => (h.ports.receivePass t).map fun (result, t) => (result, h, t)
  | .loopback => some (Loopback.receivePass, h, t)
  | .socket s =>
    match h.sockets.get? s with
    | none => some (.error .unreachable, h, t)
    | some socket =>
      let (result, socket, p, wakeups) := socket.receivePass t h.wakeups
      some (result, { h with sockets := h.sockets.set s socket, wakeups := wakeups },
        { t with packet := p })
  | .user => some (.error .illegal, h, t)

/-- Let a layer stack its header. -/
def transmitAt (h : Host δ) (layer caller : Layer) (t : Transit) :
    Option (Except Fault Next × Host δ × Transit) :=
  match layer with
  | .device => (Device.transmitPass h.device t.packet).map fun result => (result, h, t)
  | .ethernet =>
    let (result, resolver, t) := h.endpoint.transmitPass h.resolver h.now t caller
    some (result, { h with resolver := resolver }, t)
  | .resolver => some (Arp.Resolver.transmitPass, h, t)
  | .ipv4 =>
    let (result, router, t) := h.router.transmitPass t caller
    some (result, { h with router := router }, t)
  | .udp =>
    let (result, t) := h.ports.transmitPass t caller
    some (result, h, t)
  | .loopback => some (Loopback.transmitPass, h, t)
  | .socket s =>
    match h.sockets.get? s with
    | none => some (.error .unreachable, h, t)
    | some socket =>
      let (result, info) := socket.transmitPass t.info
      some (result, h, { t with info := info })
  | .user => some (.error .illegal, h, t)

/-- Let a layer finish a packet. -/
def finishAt (h : Host δ) (layer caller : Layer) (t : Transit) :
    Option (Except Fault Finish × Host δ × Transit) :=
  match layer with
  | .device =>
    (Device.finishPass h.device t.packet).map fun (result, device) =>
      (result, { h with device := device }, t)
  | .ethernet =>
    (h.endpoint.finishPass t.packet).map fun (result, p) => (result, h, { t with packet := p })
  | .resolver => some (Arp.Resolver.finishPass, h, t)
  | .ipv4 => some (.ok .pass, h, t)
  | .udp => (Udp.Ports.finishPass t).map fun (result, p) => (result, h, { t with packet := p })
  | .loopback =>
    let (result, t) := Loopback.finishPass t caller
    some (result, h, t)
  | .socket s =>
    match h.sockets.get? s with
    | none => some (.error .unreachable, h, t)
    | some _ => some (.ok .pass, h, t)
  | .user => some (.error .illegal, h, t)

/-! ## Whole passes -/

/-- Receive a packet through at most `depth` layers, from `layer` on. -/
def receive (h : Host δ) (t : Transit) :
    (depth : Nat) → (layer caller : Layer) → Option (Except Fault Unit × Host δ × Transit)
  | 0, _, _ => some (.error .illegal, h, t)
  | depth + 1, layer, caller =>
    match h.receiveAt layer caller t with
    | none => none
    | some (.error f, h, t) => some (.error f, h.count layer .countDropped, t)
    | some (.ok .done, h, t) => some (.ok (), h.count layer .countRx, t)
    | some (.ok (.layer upper), h, t) => receive (h.count layer .countRx) t depth upper layer

/-- Stack headers through at most `depth` layers, from `layer` on. The result is the path taken,
each layer with its caller. A layer that has to wait drops nothing. -/
def descend (h : Host δ) (t : Transit) :
    (depth : Nat) → (layer caller : Layer) →
      Option (Except Fault (List (Layer × Layer)) × Host δ × Transit)
  | 0, _, _ => some (.error .illegal, h, t)
  | depth + 1, layer, caller =>
    match h.transmitAt layer caller t with
    | none => none
    | some (.error .wouldBlock, h, t) => some (.error .wouldBlock, h, t)
    | some (.error f, h, t) => some (.error f, h.count layer .countDropped, t)
    | some (.ok .done, h, t) => some (.ok [(layer, caller)], h, t)
    | some (.ok (.layer lower), h, t) =>
      match descend h t depth lower layer with
      | none => none
      | some (.error f, h, t) => some (.error f, h, t)
      | some (.ok path, h, t) => some (.ok ((layer, caller) :: path), h, t)

/-- Finish a packet along a path. What happens to a packet that was turned around is no failure of
sending it. -/
def finish (h : Host δ) (t : Transit) :
    List (Layer × Layer) → Option (Except Fault Unit × Host δ × Transit)
  | [] => some (.ok (), h, t)
  | (layer, caller) :: rest =>
    match h.finishAt layer caller t with
    | none => none
    | some (.error f, h, t) => some (.error f, h.count layer .countDropped, t)
    | some (.ok .pass, h, t) => finish (h.count layer .countTx) t rest
    | some (.ok (.bounce target), h, t) =>
      (receive (h.count layer .countTx) t Limits.depth target layer).map fun (_, h, t) =>
        (.ok (), h, t)

/-- Send a packet, from `layer` on. -/
def transmit (h : Host δ) (t : Transit) (layer caller : Layer) :
    Option (Except Fault Unit × Host δ × Transit) :=
  match descend h t Limits.depth layer caller with
  | none => none
  | some (.error f, h, t) => some (.error f, h, t)
  | some (.ok path, h, t) => finish h t path

end UdpStack.Host
