/-
What devices take for granted. A device whose queues have slots meets the demands of everything that is done to
it, by the stack or by a program (`Demanding.met_use`): a frame that is stored fits its slot, and a frame that
is handed out fits the buffer.
-/
import UdpStack.Proofs.Demands.Packet
import UdpStack.Proofs.Device.Queueing

namespace UdpStack.Device

open Bounded

/-- What is done to a device. -/
inductive Use where
  | transmit (bytes : Octets)
  | receive (room : Nat)
  | inject (bytes : Octets)
  | takeSent
  /-- All frames are looked at. -/
  | inspect

/-- A device of which it is known what everything that is done to it takes for granted. -/
class Demanding (δ : Type) [Nic δ] [Queueing δ] where
  useDemands : δ → Use → List Demand
  met_use : ∀ {d : δ}, Queueing.Built d → ∀ u, AllMet (useDemands d u)

/-! ## Queues of frames -/

section queues

variable {n : Nat} {q : Queue Frame n}

/-- Looking at the bytes of a frame. -/
def Frame.bytesDemands (f : Frame) : List Demand := [.range 0 f.bytes.length Limits.frameBuffer]

/-- Copying a frame to the place behind the newest one, and counting it. -/
def enqueueDemands (q : Queue Frame n) (bytes : Octets) : List Demand :=
  q.pushDemands ++ match q.reserve .empty with
    | .error _ => []
    | .ok reserved =>
      if Limits.frameBuffer < bytes.length then [] else
        .range 0 bytes.length Limits.frameBuffer :: .copy bytes.length bytes.length :: reserved.commitDemands

/-- Taking the oldest frame. -/
def takeDemands (q : Queue Frame n) : List Demand :=
  q.popDemands ++ match q.pop.1 with
    | none => []
    | some f => f.bytesDemands

/-- Taking the oldest frame, and copying it to a buffer of some room if it fits. -/
def dequeueDemands (q : Queue Frame n) (room : Nat) : List Demand :=
  q.frontDemands ++ takeDemands q ++ match q.pop.1 with
    | none => []
    | some f =>
      if room < f.bytes.length then [] else [.range 0 f.bytes.length room, .copy f.bytes.length f.bytes.length]

def inspectDemands (q : Queue Frame n) : List Demand :=
  (List.range q.size).flatMap q.slotDemands ++ q.toList.flatMap Frame.bytesDemands

theorem met_enqueue (hn : 0 < n) (q : Queue Frame n) (bytes : Octets) : AllMet (enqueueDemands q bytes) := by
  refine allMet_append.2 ⟨Queue.met_push hn q, ?_⟩
  split
  · exact allMet_nil
  · rename_i reserved _
    refine allMet_ite (fun _ => allMet_nil) fun hl => allMet_cons.2 ⟨⟨Nat.zero_le _, Nat.not_lt.1 hl⟩, ?_⟩
    exact allMet_cons.2 ⟨rfl, Queue.met_commit hn reserved⟩

theorem Framed.met_bytes (hq : Framed q) {f : Frame} (hf : f ∈ q.toList) : AllMet f.bytesDemands :=
  allMet_cons.2 ⟨⟨Nat.zero_le _, hq.length_le f hf⟩, allMet_nil⟩

theorem Framed.met_take (hq : Framed q) (hn : 0 < n) : AllMet (takeDemands q) := by
  refine allMet_append.2 ⟨hq.queue.met_pop hn, ?_⟩
  split
  · exact allMet_nil
  · rename_i f hf
    rw [Queue.fst_pop hq.queue] at hf
    exact hq.met_bytes (List.mem_of_mem_head? hf)

theorem Framed.met_dequeue (hq : Framed q) (hn : 0 < n) (room : Nat) : AllMet (dequeueDemands q room) := by
  refine allMet_append.2 ⟨allMet_append.2 ⟨Queue.met_front hn hq.queue, hq.met_take hn⟩, ?_⟩
  split
  · exact allMet_nil
  · refine allMet_ite (fun _ => allMet_nil) fun hl => ?_
    exact allMet_cons.2 ⟨⟨Nat.zero_le _, Nat.not_lt.1 hl⟩, allMet_cons.2 ⟨rfl, allMet_nil⟩⟩

theorem Framed.met_inspect (hq : Framed q) (hn : 0 < n) : AllMet (inspectDemands q) := by
  refine allMet_append.2 ⟨fun d hd => ?_, fun d hd => ?_⟩
  · obtain ⟨k, -, hd⟩ := List.mem_flatMap.1 hd
    exact Queue.met_slot hn q k d hd
  · obtain ⟨f, hf, hd⟩ := List.mem_flatMap.1 hd
    exact hq.met_bytes hf d hd

end queues

/-! ## Devices -/

variable {n : Nat} [NeZero n]

instance : Demanding (External n) where
  useDemands d
    | .transmit bytes => enqueueDemands d.outbound bytes
    | .receive room => dequeueDemands d.inbound room
    | .inject bytes => enqueueDemands d.inbound bytes
    | .takeSent => takeDemands d.outbound
    | .inspect => inspectDemands d.inbound ++ inspectDemands d.outbound
  met_use {d} hd u := by
    have hs : d.Sound := External.Built.sound hd
    have hn := Nat.pos_of_neZero n
    cases u with
    | transmit bytes => exact met_enqueue hn _ bytes
    | receive room => exact hs.inbound.met_dequeue hn room
    | inject bytes => exact met_enqueue hn _ bytes
    | takeSent => exact hs.outbound.met_take hn
    | inspect => exact allMet_append.2 ⟨hs.inbound.met_inspect hn, hs.outbound.met_inspect hn⟩

/-- Nothing is injected into a loopback, and nothing taken from it but by receiving. -/
instance : Demanding (Loopback n) where
  useDemands d
    | .transmit bytes => enqueueDemands d.frames bytes
    | .receive room => dequeueDemands d.frames room
    | .inject _ => []
    | .takeSent => []
    | .inspect => inspectDemands d.frames
  met_use {d} hd u := by
    have hf : Framed d.frames := Loopback.Built.framed hd
    have hn := Nat.pos_of_neZero n
    cases u with
    | transmit bytes => exact met_enqueue hn _ bytes
    | receive room => exact hf.met_dequeue hn room
    | inject _ => exact allMet_nil
    | takeSent => exact allMet_nil
    | inspect => exact hf.met_inspect hn

end UdpStack.Device
