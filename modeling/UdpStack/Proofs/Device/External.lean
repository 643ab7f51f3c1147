/-
The external device as two lists of frames. Every operation that it offers adds a frame behind the
last one of a list or takes the first one, and no frame is larger than a frame buffer
(`Built.sound`); so a stack with a buffer of that size is handed each frame whole (`receive_of_cons`).
-/
import UdpStack.Device.Basic
import UdpStack.Proofs.Bounded.Queue

namespace UdpStack.Device

open Bounded

/-- A queue of frames of which each fits a frame buffer. -/
structure Framed {n : Nat} (q : Queue Frame n) : Prop where
  queue : q.WF
  length_le : ∀ f ∈ q.toList, f.bytes.length ≤ Limits.frameBuffer

theorem Framed.not_full {n : Nat} {q : Queue Frame n} (hq : Framed q) (hlt : q.toList.length < n) : q.isFull = false := by
  rw [hq.queue.length_toList] at hlt
  exact beq_eq_false_iff_ne.2 (Nat.ne_of_lt hlt)

theorem empty_framed {n : Nat} : Framed (.empty : Queue Frame n) :=
  ⟨Queue.empty_wf, nofun⟩

theorem pop_framed {n : Nat} {q : Queue Frame n} (hq : Framed q) : Framed q.pop.2 := by
  exact ⟨Queue.pop_wf hq.queue, fun f hf => hq.length_le f (Queue.mem_of_mem_pop hq.queue hf)⟩

/-- A frame is added behind the last one, or nothing is. -/
theorem enqueue_cases {n : Nat} {q : Queue Frame n} (hq : Framed q) (bytes : Octets) :
    (bytes.length ≤ Limits.frameBuffer ∧ q.isFull = false ∧ (enqueue q bytes).1 = .ok () ∧
      (enqueue q bytes).2.toList = q.toList ++ [⟨bytes⟩] ∧ (enqueue q bytes).2.WF) ∨
    ((∃ f, (enqueue q bytes).1 = .error f) ∧ (enqueue q bytes).2.toList = q.toList ∧
      (enqueue q bytes).2.WF) := by
  unfold enqueue
  cases hr : q.reserve .empty with
  | error f => exact .inr ⟨⟨f, rfl⟩, rfl, hq.queue⟩
  | ok reserved =>
    have hfull := (Queue.reserve_eq_ok hr).1
    have hs := hq.queue.lt_of_not_isFull hfull
    unfold Frame.ofOctets
    by_cases hl : Limits.frameBuffer < bytes.length
    · rw [if_pos hl]
      obtain rfl := (Queue.reserve_eq_ok hr).2
      exact .inr ⟨⟨_, rfl⟩, Queue.toList_putBack q _ hs, Queue.putBack_wf hq.queue _ hs⟩
    · rw [if_neg hl]
      have hp := Queue.push_of_reserve hq.queue hr (⟨bytes⟩ : Frame)
      exact .inl ⟨by omega, hfull, rfl, Queue.toList_push hq.queue hp, Queue.push_wf hq.queue hp⟩

theorem enqueue_framed {n : Nat} {q : Queue Frame n} (hq : Framed q) (bytes : Octets) :
    Framed (enqueue q bytes).2 := by
  rcases enqueue_cases hq bytes with ⟨hl, -, -, he, hw⟩ | ⟨-, he, hw⟩
  · refine ⟨hw, ?_⟩
    intro f hf
    rw [he, List.mem_append, List.mem_singleton] at hf
    rcases hf with hf | rfl
    · exact hq.length_le f hf
    · exact hl
  · exact ⟨hw, fun f hf => hq.length_le f (by rwa [he] at hf)⟩

theorem enqueue_of_room {n : Nat} {q : Queue Frame n} (hq : Framed q) {bytes : Octets}
    (hl : bytes.length ≤ Limits.frameBuffer) (hr : q.isFull = false) :
    (enqueue q bytes).1 = .ok () ∧ (enqueue q bytes).2.toList = q.toList ++ [⟨bytes⟩] := by
  rcases enqueue_cases hq bytes with ⟨-, -, h1, h2, -⟩ | ⟨⟨f, hf⟩, -, -⟩
  · exact ⟨h1, h2⟩
  · exfalso
    unfold enqueue Frame.ofOctets Queue.reserve at hf
    rw [hr] at hf
    simp only [Bool.false_eq_true, if_false] at hf
    rw [if_neg (by omega)] at hf
    cases hf

namespace External

variable {n : Nat}

/-- The devices that programs can have. -/
inductive Built : External n → Prop where
  | create (p : Personality) : Built (External.create n p)
  | inject {d : External n} (bytes : Octets) : Built d → Built (d.inject bytes).2
  | takeSent {d : External n} : Built d → Built d.takeSent.2
  | transmit {d : External n} (bytes : Octets) : Built d → Built (Nic.transmit d bytes).2
  | receive {d : External n} (room : Nat) : Built d → Built (Nic.receive d room).2

/-- Both queues hold frames that fit a frame buffer. -/
structure Sound (d : External n) : Prop where
  inbound : Framed d.inbound
  outbound : Framed d.outbound

theorem sound_transmit {d : External n} (hd : d.Sound) (bytes : Octets) : (Nic.transmit d bytes).2.Sound :=
  ⟨hd.inbound, enqueue_framed hd.outbound bytes⟩

theorem receive_unfold (d : External n) (room : Nat) : Nic.receive d room =
    match d.inbound.front? with
    | none => (.ok none, d)
    | some frame =>
      if room < frame.bytes.length then (.error .badSize, { d with inbound := d.inbound.pop.2 })
      else (.ok (d.inbound.pop.1.map (·.bytes)), { d with inbound := d.inbound.pop.2 }) := rfl

/-- Receiving is about the queue of frames for the stack only. -/
theorem receive_eq (d : External n) (room : Nat) :
    ∃ inbound, (Nic.receive d room).2 = { d with inbound := inbound } := by
  rw [receive_unfold]
  split
  · exact ⟨d.inbound, rfl⟩
  · split <;> exact ⟨_, rfl⟩

theorem sound_receive {d : External n} (hd : d.Sound) (room : Nat) : (Nic.receive d room).2.Sound := by
  rw [receive_unfold]
  split
  · exact hd
  · split <;> exact ⟨pop_framed hd.inbound, hd.outbound⟩

theorem Built.sound {d : External n} (hd : d.Built) : d.Sound := by
  induction hd with
  | create p => exact ⟨empty_framed, empty_framed⟩
  | inject bytes _ ih => exact ⟨enqueue_framed ih.inbound bytes, ih.outbound⟩
  | takeSent _ ih => exact ⟨ih.inbound, pop_framed ih.outbound⟩
  | transmit bytes _ ih => exact sound_transmit ih bytes
  | receive room _ ih => exact sound_receive ih room

/-- The frames that are still to be received. -/
def frames (d : External n) : List Octets := d.inbound.toList.map (·.bytes)

theorem pending_eq {d : External n} (hd : d.Sound) : Nic.pending d = d.frames.length := by
  show d.inbound.size = _
  rw [frames, List.length_map, hd.inbound.queue.length_toList]

theorem receive_of_nil {d : External n} (hd : d.Sound) (h : d.frames = []) (room : Nat) :
    Nic.receive d room = (.ok none, d) := by
  have hl : d.inbound.toList = [] := List.map_eq_nil_iff.1 h
  rw [receive_unfold, Queue.front?_eq hd.inbound.queue, hl]
  rfl

/-- Receiving hands over the first frame whole. -/
theorem receive_of_cons {d : External n} (hd : d.Sound) {frame : Octets} {rest : List Octets}
    (h : d.frames = frame :: rest) {room : Nat} (hr : Limits.frameBuffer ≤ room) :
    ∃ d' : External n, Nic.receive d room = (.ok (some frame), d') ∧ d'.frames = rest ∧ d'.Sound := by
  obtain ⟨f, l, hl, rfl, rfl⟩ := List.map_eq_cons_iff.1 h
  have hle := hd.inbound.length_le f (by rw [hl]; exact List.mem_cons_self ..)
  refine ⟨{ d with inbound := d.inbound.pop.2 }, ?_, ?_, ⟨pop_framed hd.inbound, hd.outbound⟩⟩
  · rw [receive_unfold, Queue.front?_eq hd.inbound.queue, Queue.fst_pop hd.inbound.queue, hl, List.head?_cons]
    dsimp only
    rw [if_neg (by omega)]
    rfl
  · unfold frames
    rw [Queue.toList_pop hd.inbound.queue, hl, List.tail_cons]

/-- A device that nothing waits in takes a frame, if it can hold any. -/
theorem inject_of_nil {d : External n} (hd : d.Sound) (h : d.frames = []) (hn : 0 < n) {frame : Octets}
    (hl : frame.length ≤ Limits.frameBuffer) :
    (d.inject frame).1 = .ok () ∧ (d.inject frame).2.frames = [frame] ∧ (d.inject frame).2.Sound := by
  have hlist : d.inbound.toList = [] := List.map_eq_nil_iff.1 h
  have hsize : d.inbound.size = 0 := by
    rw [← hd.inbound.queue.length_toList, hlist]
    rfl
  have hroom : d.inbound.isFull = false := by
    unfold Queue.isFull
    rw [hsize]
    exact beq_eq_false_iff_ne.2 (by omega)
  obtain ⟨hok, hwaits⟩ := enqueue_of_room hd.inbound hl hroom
  refine ⟨hok, ?_, enqueue_framed hd.inbound frame, hd.outbound⟩
  show (enqueue d.inbound frame).2.toList.map _ = _
  rw [hwaits, hlist]
  rfl

end External

end UdpStack.Device
