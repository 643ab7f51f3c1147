/-
The sockets of a host, named by handles. A handle of a released socket is refused by every call.
The port of a socket is kept twice, in the socket and among the ports, and both change together.
-/
import UdpStack.Host.Poll

namespace UdpStack.Host

open Bounded Device

variable {δ : Type}

/-- The address and port of a socket. -/
def binding? (h : Host δ) (s : Handle) : Option Udp.Binding :=
  (h.sockets.get? s).bind (·.binding)

/-- The number of datagrams that wait in a socket. -/
def available (h : Host δ) (s : Handle) : Except Fault Nat :=
  match h.sockets.get? s with
  | none => .error .illegal
  | some socket => .ok socket.available

/-- The largest payload that can be sent, and received without being cut. -/
def mtu [Nic δ] (h : Host δ) : Nat :=
  let content := Limits.frameBuffer - Limits.headerRoom - Ethernet.CheckSequence.size
  min (min (Nic.personality h.device).mtu content - (Ipv4.Header.size + Udp.Header.size))
    Limits.datagramBytes

/-- A new socket. -/
def acquire (h : Host δ) : Except Fault Handle × Host δ :=
  match h.sockets.acquire .empty with
  | .error f => (.error f, h)
  | .ok (s, sockets) => (.ok s, { h with sockets := sockets })

/-- Receive on an address and a port that no other socket has. -/
def bind (h : Host δ) (s : Handle) (addr : Ipv4.Address) (port : UInt16) :
    Except Fault Unit × Host δ :=
  match h.sockets.get? s with
  | none => (.error .illegal, h)
  | some socket =>
    if socket.binding.isSome then (.error .illegal, h)
    else match h.ports.bind port (.socket s) with
      | .error f => (.error f, h)
      | .ok ports =>
        match socket.bind ⟨addr, port⟩ with
        | .error f => (.error f, { h with ports := ports })
        | .ok socket => (.ok (), { h with ports := ports, sockets := h.sockets.set s socket })

/-- Give up the port of a socket. The waiting task is notified. -/
def unbind (h : Host δ) (s : Handle) : Except Fault Unit × Host δ :=
  match h.sockets.get? s with
  | none => (.error .illegal, h)
  | some socket =>
    match socket.unbind h.wakeups with
    | .error f => (.error f, h)
    | .ok (binding, socket, wakeups) =>
      let h := { h with sockets := h.sockets.set s socket, wakeups := wakeups }
      match h.ports.unbind binding.port with
      | .error f => (.error f, h)
      | .ok (_, ports) => (.ok (), deliver { h with ports := ports })

/-- Take the slot of a socket back. -/
def vacate (h : Host δ) (s : Handle) : Except Fault Unit × Host δ :=
  match h.sockets.release s with
  | (none, _) => (.error .illegal, h)
  | (some _, sockets) => (.ok (), { h with sockets := sockets })

/-- Give a socket back, and its port first. -/
def release (h : Host δ) (s : Handle) : Except Fault Unit × Host δ :=
  if (h.binding? s).isSome then
    match h.unbind s with
    | (.error f, h) => (.error f, h)
    | (.ok (), h) => h.vacate s
  else h.vacate s

/-- Send a datagram from a socket. If the hardware address of the destination has to be found
first, the task is notified once it should try again. -/
def send [Nic δ] (h : Host δ) (s : Handle) (task : Task) (dst : Ipv4.Address) (port : UInt16)
    (payload : Octets) : Option (Poll Nat × Host δ) :=
  if h.mtu < payload.length then some (.ready (.error .badSize), h)
  else if (h.sockets.get? s).isNone then some (.ready (.error .illegal), h)
  else
    match (Packet.create h.txBuffer Limits.headerRoom).bind fun p => p.push payload with
    | .error f => (flush h).map fun h => (.ready (.error f), h)
    | .ok p =>
      let info : Info := { dstAddr := dst, dstPort := port, task := some task }
      match h.transmit ⟨p, info⟩ (.socket s) .user with
      | none => none
      | some (result, h, t) =>
        (flush { h with txBuffer := t.packet.bytes }).map fun h =>
          match result with
          | .ok () => (.ready (.ok payload.length), h)
          | .error .wouldBlock => (.pending, h)
          | .error f => (.ready (.error f), h)

/-- Receive the oldest datagram of a socket as far as it fits `room` bytes, or wait for one. -/
def recv (h : Host δ) (s : Handle) (task : Task) (room : Nat) : Poll Udp.Received × Host δ :=
  match h.sockets.get? s with
  | none => (.ready (.error .illegal), h)
  | some socket =>
    let (answer, socket) := socket.recv task room
    (answer, { h with sockets := h.sockets.set s socket })

/-- Let a task wait no longer for a datagram. -/
def cancel (h : Host δ) (s : Handle) (task : Task) : Host δ :=
  h.modifySocket s fun socket => socket.cancel task

end UdpStack.Host
