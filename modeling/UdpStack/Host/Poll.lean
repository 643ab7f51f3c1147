/-
What a host does on its own: sending the messages of its resolver, and taking received frames from
its device until there are none.
-/
import UdpStack.Host.Pass

namespace UdpStack.Host

open Device

variable {δ : Type} [Nic δ]

/-- Send one message of the resolver. -/
def sendMessage (h : Host δ) (m : Arp.Message) (dst : Ethernet.Address) : Option (Host δ) :=
  match (Packet.create h.txBuffer Limits.headerRoom).bind fun p => p.push m.octets with
  | .error _ => some (h.count .resolver .countDropped)
  | .ok p =>
    match h.transmit ⟨p, { dstLink := some dst }⟩ .ethernet .resolver with
    | none => none
    | some (result, h, t) =>
      let h := { h with txBuffer := t.packet.bytes }
      match result with
      | .ok () => some (h.count .resolver .countTx)
      | .error _ => some (h.count .resolver .countDropped)

/-- Send up to `k` messages of the resolver. -/
def sendMessages (h : Host δ) : Nat → Option (Host δ)
  | 0 => some h
  | k + 1 =>
    match h.resolver.outgoing with
    | (none, _) => some h
    | (some (m, dst), resolver) =>
      match sendMessage { h with resolver := resolver } m dst with
      | none => none
      | some h => sendMessages h k

/-- Send all messages of the resolver, and notify all tasks whose wake-up is recorded. Sending a
message never queues another one. -/
def flush (h : Host δ) : Option (Host δ) :=
  let waiting := match h.resolver with
    | .derived => 0
    | .table t => t.outbox.size
  (sendMessages h waiting).map deliver

/-- Take one frame from the buffer through the layers. -/
def receiveFrame (h : Host δ) (frame : Octets) : Option (Host δ) :=
  let h := h.count .device .countRx
  let buffer := frame ++ h.rxBuffer.drop frame.length
  match Packet.ofFrame buffer frame.length with
  | .error _ => some { h with rxBuffer := buffer }
  | .ok p =>
    match h.receive ⟨p, {}⟩ Limits.depth .ethernet .device with
    | none => none
    | some (_, h, t) => some { h with rxBuffer := t.packet.bytes }

/-- Take up to `k` frames from the device. -/
def receiveFrames (h : Host δ) (received : Nat) : Nat → Option (Except Fault Nat × Host δ)
  | 0 => some (.ok received, h)
  | k + 1 =>
    match Nic.receive h.device h.rxBuffer.length with
    | (.ok none, device) => some (.ok received, { h with device := device })
    | (.error f, device) =>
      (flush { h with device := device, deviceCounters := h.deviceCounters.countDropped }).map
        fun h => (.error f, h)
    | (.ok (some frame), device) =>
      match (receiveFrame { h with device := device } frame).bind flush with
      | none => none
      | some h => receiveFrames h (received + 1) k

/-- Let the resolver act, and receive all frames that the device has, also those that the host
itself sends meanwhile. Each frame makes the host send at most one message, and no message makes it
send another, so the bound is not reached. -/
def poll (h : Host δ) (now : Instant) : Option (Except Fault Nat × Host δ) :=
  let (resolver, wakeups) := h.resolver.expire now h.wakeups
  match flush { h with now := now, resolver := resolver, wakeups := wakeups } with
  | none => none
  | some h => receiveFrames h 0 (2 * Nic.pending h.device + Limits.outbox + 1)

end UdpStack.Host
