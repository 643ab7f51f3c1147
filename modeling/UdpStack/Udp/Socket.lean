/-
Sockets: a queue of received datagrams, and at most one task that waits for the next one. When a
datagram arrives for a waiting task, the queue is held for that task until it receives or gives
up. A full queue gives up its oldest datagram.
-/
import UdpStack.Bounded.Queue
import UdpStack.Layer

namespace UdpStack.Udp

open Bounded

/-- The address and port that a socket receives on. -/
structure Binding where
  addr : Ipv4.Address
  port : UInt16
  deriving DecidableEq, Repr, Inhabited

/-- A datagram that waits in a socket. -/
structure Datagram where
  srcAddr : Ipv4.Address
  srcPort : UInt16
  /-- The length of the payload on the wire. -/
  origLen : Nat
  /-- The payload as far as it is kept. -/
  payload : Octets
  deriving DecidableEq, Repr

namespace Datagram

/-- The datagram that a slot starts with. -/
def empty : Datagram := ⟨.unspecified, 0, 0, []⟩

/-- Whether payload was cut off. -/
def isTruncated (d : Datagram) : Bool := d.payload.length < d.origLen

/-- The datagram for reports, without its payload. -/
def describe (d : Datagram) : String :=
  let addr := "Address(" ++ Text.bracketed (d.srcAddr.octets.map fun o => toString o.toNat) ++ ")"
  Text.record "Datagram" [("src_addr", addr), ("src_port", toString d.srcPort.toNat),
    ("len", toString d.payload.length), ("orig_len", toString d.origLen)]

end Datagram

/-- What a task receives. -/
structure Received where
  data : Octets
  /-- The length of the payload on the wire. -/
  origLen : Nat
  srcAddr : Ipv4.Address
  srcPort : UInt16
  deriving DecidableEq, Repr

/-- The state of one socket. -/
structure Socket where
  binding : Option Binding
  queue : Queue Datagram Limits.socketQueue
  waiter : WaitCell
  /-- The task that the queue is held for. -/
  reserved : Option Task
  /-- The number of datagrams given up. -/
  evicted : UInt32
  counters : Counters
  deriving Repr

namespace Socket

/-- A socket that receives nothing. -/
def empty : Socket := ⟨none, .empty, .empty, none, 0, {}⟩

/-- Receive on an address and a port. -/
def bind (s : Socket) (b : Binding) : Except Fault Socket :=
  if s.binding.isSome then .error .illegal else .ok { s with binding := some b }

/-- Receive nothing more. The waiting task is woken. -/
def unbind (s : Socket) (wakeups : Wakeups) : Except Fault (Binding × Socket × Wakeups) :=
  match s.binding with
  | none => .error .illegal
  | some b =>
    let (waiter, cell) := s.waiter.take
    let wakeups := match waiter with
      | some task => wakeups.wake task
      | none => wakeups
    .ok (b, { s with binding := none, reserved := none, waiter := cell }, wakeups)

/-- Whether datagrams to an address are for this socket. -/
def accepts (s : Socket) (dst : Ipv4.Address) : Bool :=
  match s.binding with
  | some b => b.addr.isUnspecified || b.addr == dst
  | none => false

/-- The number of waiting datagrams. -/
def available (s : Socket) : Nat := s.queue.size

/-- Take the oldest datagram, as far as it fits `room` bytes, or wait for one. -/
def recv (s : Socket) (task : Task) (room : Nat) : Poll Received × Socket :=
  match s.reserved with
  | some owner => if owner = task then next { s with reserved := none } else (.ready (.error .busy), s)
  | none => next s
where
  /-- Take the oldest datagram of a queue that is not held for another task. -/
  next (s : Socket) : Poll Received × Socket :=
    match s.queue.pop with
    | (some d, queue) =>
      (.ready (.ok ⟨d.payload.take room, d.origLen, d.srcAddr, d.srcPort⟩),
        { s with queue := queue, waiter := s.waiter.cancel task })
    | (none, _) =>
      if s.binding.isNone then (.ready (.error .illegal), s)
      else match s.waiter.register task with
        | (.waiting, cell) => (.pending, { s with waiter := cell })
        | (.occupied _, _) => (.ready (.error .busy), s)

/-- Wait no longer, and let go of the queue. -/
def cancel (s : Socket) (task : Task) : Socket :=
  { s with
    waiter := s.waiter.cancel task
    reserved := if s.reserved = some task then none else s.reserved }

/-- Put the unread bytes of a packet into the queue. -/
def enqueue (s : Socket) (t : Transit) : Except Fault Unit × Socket × Packet :=
  let s := if s.queue.isFull then { s with queue := s.queue.pop.2, evicted := s.evicted + 1 } else s
  let origLen := t.packet.available
  match s.queue.reserve .empty with
  | .error f => (.error f, s, t.packet)
  | .ok queue =>
    match t.packet.take (min origLen Limits.datagramBytes) with
    | .error f => (.error f, { s with queue := queue }, t.packet)
    | .ok (data, p) =>
      let d : Datagram := ⟨t.info.srcAddr, t.info.srcPort, origLen, data⟩
      (.ok (), { s with queue := (queue.modifyReserved fun _ => d).commit }, p)

/-- Take a datagram, and hold the queue for the task that waits. -/
def receivePass (s : Socket) (t : Transit) (wakeups : Wakeups) :
    Except Fault Next × Socket × Packet × Wakeups :=
  if !s.accepts t.info.dstAddr then (.error .dropped, s, t.packet, wakeups)
  else match s.enqueue t with
    | (.error f, s, p) => (.error f, s, p, wakeups)
    | (.ok (), s, p) =>
      match s.waiter.take with
      | (some task, cell) =>
        (.ok .done, { s with waiter := cell, reserved := some task }, p, wakeups.wake task)
      | (none, _) => (.ok .done, s, p, wakeups)

/-- Choose the bound address as the source. -/
def transmitPass (s : Socket) (info : Info) : Except Fault Next × Info :=
  match s.binding with
  | none => (.error .illegal, info)
  | some b =>
    (.ok (.layer .udp), if b.addr.isUnspecified then info else { info with srcAddr := b.addr })

end Socket

end UdpStack.Udp
