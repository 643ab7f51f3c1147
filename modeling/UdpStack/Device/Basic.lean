/-
Network devices: what a stack asks of one, and three of them. A loopback receives what it sent, an
external device keeps its frames for someone else, and a failing device wraps another one. Both
queues of frames are filled in place: a frame that turns out to be too large stays behind
uncounted.
-/
import UdpStack.Bounded.Queue
import UdpStack.Device.Frame
import UdpStack.Ethernet.Header
import UdpStack.Layer

namespace UdpStack.Device

open Bounded

/-- Who takes care of check sequences. -/
inductive CheckMode where
  /-- The software writes and verifies them. -/
  | manual
  /-- The device does. -/
  | ignored
  deriving DecidableEq, Repr, Inhabited

/-- The name for reports. -/
def CheckMode.name : CheckMode → String
  | manual => "Manual"
  | ignored => "Ignored"

/-- What a device is able to do. -/
structure Personality where
  /-- The largest content of a frame, its header not counted. -/
  mtu : Nat := 1500
  check : CheckMode := .ignored
  deriving DecidableEq, Repr, Inhabited

/-- A device that sends and receives whole frames. -/
class Nic (δ : Type) where
  personality : δ → Personality
  /-- Send a frame. -/
  transmit : δ → Octets → Except Fault Unit × δ
  /-- Take the next received frame, if there is one, into a buffer of some room. -/
  receive : δ → Nat → Except Fault (Option Octets) × δ
  /-- The number of received frames. -/
  pending : δ → Nat

/-- Add a frame to a queue, in place. -/
def enqueue {n : Nat} (q : Queue Frame n) (bytes : Octets) : Except Fault Unit × Queue Frame n :=
  match q.reserve .empty with
  | .error e => (.error e, q)
  | .ok reserved =>
    match Frame.ofOctets bytes with
    | .error e => (.error e, reserved)
    | .ok frame => (.ok (), (reserved.modifyReserved fun _ => frame).commit)

/-- A device that receives every frame it sent. -/
structure Loopback (n : Nat) where
  frames : Queue Frame n
  personality : Personality

/-- A loopback without frames. -/
def Loopback.create (n : Nat) (p : Personality) : Loopback n := ⟨.empty, p⟩

instance (n : Nat) : Nic (Loopback n) where
  personality d := d.personality
  transmit d bytes :=
    let (result, frames) := enqueue d.frames bytes
    (result, { d with frames := frames })
  receive d room :=
    match d.frames.front? with
    | none => (.ok none, d)
    | some frame =>
      if room < frame.bytes.length then (.error .badSize, d)
      else
        let (taken, frames) := d.frames.pop
        (.ok (taken.map (·.bytes)), { d with frames := frames })
  pending d := d.frames.size

/-- A device between two queues that someone else fills and empties. -/
structure External (n : Nat) where
  /-- Frames for the stack. -/
  inbound : Queue Frame n
  /-- Frames of the stack. -/
  outbound : Queue Frame n
  personality : Personality

namespace External

/-- A device without frames. -/
def create (n : Nat) (p : Personality) : External n := ⟨.empty, .empty, p⟩

/-- Queue a frame for the stack. -/
def inject {n : Nat} (d : External n) (bytes : Octets) : Except Fault Unit × External n :=
  let (result, frames) := enqueue d.inbound bytes
  (result, { d with inbound := frames })

/-- Take the oldest frame of the stack. -/
def takeSent {n : Nat} (d : External n) : Option Frame × External n :=
  let (frame, frames) := d.outbound.pop
  (frame, { d with outbound := frames })

end External

/-- A frame that does not fit the room is discarded. -/
instance (n : Nat) : Nic (External n) where
  personality d := d.personality
  transmit d bytes :=
    let (result, frames) := enqueue d.outbound bytes
    (result, { d with outbound := frames })
  receive d room :=
    match d.inbound.front? with
    | none => (.ok none, d)
    | some frame =>
      let (taken, frames) := d.inbound.pop
      if room < frame.bytes.length then (.error .badSize, { d with inbound := frames })
      else (.ok (taken.map (·.bytes)), { d with inbound := frames })
  pending d := d.inbound.size

/-- A device whose next receptions fail. -/
structure Failing (δ : Type) where
  device : δ
  /-- The failures to come, the next one first. -/
  faults : List Fault

instance {δ : Type} [Nic δ] : Nic (Failing δ) where
  personality d := Nic.personality d.device
  transmit d bytes :=
    let (result, device) := Nic.transmit d.device bytes
    (result, { d with device := device })
  receive d room :=
    match d.faults with
    | fault :: rest => (.error fault, { d with faults := rest })
    | [] =>
      let (result, device) := Nic.receive d.device room
      (result, { d with device := device })
  pending d := Nic.pending d.device

/-! ## A device as the layer below all others -/

/-- Nothing is received by being handed to a device. -/
def receivePass : Except Fault Next := .error .illegal

/-- Accept a frame whose content the device can carry. -/
def transmitPass {δ : Type} [Nic δ] (d : δ) (p : Packet) : Option (Except Fault Next) :=
  p.frame?.map fun frame =>
    if (Nic.personality d).mtu < frame.length - Ethernet.Header.size then .error .badSize else .ok .done

/-- Send the finished frame. -/
def finishPass {δ : Type} [Nic δ] (d : δ) (p : Packet) : Option (Except Fault Finish × δ) :=
  p.frame?.map fun frame =>
    let (result, d) := Nic.transmit d frame
    (result.map fun _ => .pass, d)

end UdpStack.Device
