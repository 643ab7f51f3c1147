/-
Devices that queue the frames that they are handed. Whether a device receives its own frames or keeps
them for someone else, a frame that it takes stands behind all others, and one that it refuses leaves
no trace (`Queueing.transmit_cases`).
-/
import UdpStack.Proofs.Device.External

namespace UdpStack.Device

open Bounded

/-- A device that queues the frames that it is handed. -/
class Queueing (δ : Type) [Nic δ] where
  /-- The devices that programs can have. -/
  Built : δ → Prop
  /-- The frames in the queue, the first one first. -/
  queued : δ → List Octets
  built_transmit : ∀ {d : δ} (bytes : Octets), Built d → Built (Nic.transmit d bytes).2
  built_receive : ∀ {d : δ} (room : Nat), Built d → Built (Nic.receive d room).2
  transmit_cases : ∀ {d : δ} (bytes : Octets), Built d →
    ((Nic.transmit d bytes).1 = .ok () ∧ queued (Nic.transmit d bytes).2 = queued d ++ [bytes]) ∨
    ((∃ f, (Nic.transmit d bytes).1 = .error f) ∧ queued (Nic.transmit d bytes).2 = queued d)

variable {n : Nat}

theorem enqueue_bytes {q : Queue Frame n} (hq : Framed q) (bytes : Octets) :
    ((enqueue q bytes).1 = .ok () ∧
      (enqueue q bytes).2.toList.map (·.bytes) = q.toList.map (·.bytes) ++ [bytes]) ∨
    ((∃ f, (enqueue q bytes).1 = .error f) ∧
      (enqueue q bytes).2.toList.map (·.bytes) = q.toList.map (·.bytes)) := by
  rcases enqueue_cases hq bytes with ⟨-, -, hok, he, -⟩ | ⟨hf, he, -⟩
  · exact .inl ⟨hok, by rw [he, List.map_append, List.map_singleton]⟩
  · exact .inr ⟨hf, by rw [he]⟩

/-- An external device keeps the frames for someone else. -/
instance : Queueing (External n) where
  Built := External.Built
  queued d := d.outbound.toList.map (·.bytes)
  built_transmit := .transmit
  built_receive := .receive
  transmit_cases bytes hd := enqueue_bytes hd.sound.outbound bytes

namespace Loopback

/-- The devices that programs can have. -/
inductive Built : Loopback n → Prop where
  | create (p : Personality) : Built (Loopback.create n p)
  | transmit {d : Loopback n} (bytes : Octets) : Built d → Built (Nic.transmit d bytes).2
  | receive {d : Loopback n} (room : Nat) : Built d → Built (Nic.receive d room).2

theorem receive_unfold (d : Loopback n) (room : Nat) : Nic.receive d room =
    match d.frames.front? with
    | none => (.ok none, d)
    | some frame =>
      if room < frame.bytes.length then (.error .badSize, d)
      else (.ok (d.frames.pop.1.map (·.bytes)), { d with frames := d.frames.pop.2 }) := rfl

theorem Built.framed {d : Loopback n} (hd : d.Built) : Framed d.frames := by
  induction hd with
  | create p => exact empty_framed
  | transmit bytes _ ih => exact enqueue_framed ih bytes
  | receive room _ ih =>
    rw [receive_unfold]
    split
    · exact ih
    · split
      · exact ih
      · exact pop_framed ih

end Loopback

/-- A loopback receives the frames again. -/
instance : Queueing (Loopback n) where
  Built := Loopback.Built
  queued d := d.frames.toList.map (·.bytes)
  built_transmit := .transmit
  built_receive := .receive
  transmit_cases bytes hd := enqueue_bytes hd.framed bytes

namespace Loopback

theorem pending_eq {d : Loopback n} (hd : d.Built) : Nic.pending d = (Queueing.queued d).length := by
  show d.frames.size = (d.frames.toList.map (·.bytes)).length
  rw [List.length_map, hd.framed.queue.length_toList]

theorem receive_of_nil {d : Loopback n} (hd : d.Built) (h : Queueing.queued d = []) (room : Nat) :
    Nic.receive d room = (.ok none, d) := by
  have hl : d.frames.toList = [] := List.map_eq_nil_iff.1 h
  rw [receive_unfold, Queue.front?_eq hd.framed.queue, hl]
  rfl

/-- A device without frames has room for one. -/
theorem transmit_of_nil {d : Loopback n} (hd : d.Built) (h : Queueing.queued d = []) (hn : 0 < n) {frame : Octets}
    (hl : frame.length ≤ Limits.frameBuffer) :
    (Nic.transmit d frame).1 = .ok () ∧ Queueing.queued (Nic.transmit d frame).2 = [frame] := by
  have hnil : d.frames.toList = [] := List.map_eq_nil_iff.1 h
  obtain ⟨hok, hframes⟩ := enqueue_of_room hd.framed hl (hd.framed.not_full (by rw [hnil]; exact hn))
  refine ⟨hok, ?_⟩
  show (enqueue d.frames frame).2.toList.map (·.bytes) = [frame]
  rw [hframes, hnil]
  rfl

/-- Receiving hands over the first frame whole. -/
theorem receive_of_cons {d : Loopback n} (hd : d.Built) {frame : Octets} {rest : List Octets}
    (h : Queueing.queued d = frame :: rest) {room : Nat} (hr : Limits.frameBuffer ≤ room) :
    ∃ d' : Loopback n, Nic.receive d room = (.ok (some frame), d') ∧ Queueing.queued d' = rest ∧ d'.Built := by
  obtain ⟨f, l, hl, rfl, rfl⟩ := List.map_eq_cons_iff.1 (show d.frames.toList.map (·.bytes) = frame :: rest from h)
  have hle := hd.framed.length_le f (by rw [hl]; exact List.mem_cons_self ..)
  have htaken : Nic.receive d room = (.ok (some f.bytes), { d with frames := d.frames.pop.2 }) := by
    rw [receive_unfold, Queue.front?_eq hd.framed.queue, Queue.fst_pop hd.framed.queue, hl, List.head?_cons]
    dsimp only
    rw [if_neg (by omega)]
    rfl
  refine ⟨_, htaken, ?_, ?_⟩
  · show d.frames.pop.2.toList.map (·.bytes) = l.map (·.bytes)
    rw [Queue.toList_pop hd.framed.queue, hl, List.tail_cons]
  · have hb := Built.receive room hd
    rwa [htaken] at hb

end Loopback

end UdpStack.Device
