/-
Software devices as lists of frames. A frame that a device takes is appended to a list as it is, and the oldest one is
handed over as it is; a loopback keeps a frame that its reader has no room for, and an external device discards it. A
frame is filled in behind the last one before it is known to fit, so a refused one may lie there; but it is not counted,
and the next one is filled in over it (`Lists.enqueue`). So every run of a device answers what the run of a list answers
(`devices_fifo`), and a refused frame is in none of the answers.
-/
import UdpStack.Proofs.Bounded.Replay
import UdpStack.Proofs.Device.Queueing

namespace UdpStack.Device

open Bounded

/-! ## Calls -/

/-- What a stack calls a device for. -/
inductive Call where
  | transmit (bytes : Octets)
  | receive (buffer : Octets)
  deriving DecidableEq, Repr

/-- What an external device is called for, by its stack or by someone else. -/
inductive External.Call where
  | stack (c : Device.Call)
  | inject (bytes : Octets)
  | takeSent
  deriving DecidableEq, Repr

/-- What a call answers. A reception answers the length of the frame and leaves a buffer. -/
inductive Answer where
  | handed (result : Except Fault Unit)
  | received (result : Except Fault (Option Nat)) (buffer : Octets)
  | taken (frame : Option Octets)
  deriving DecidableEq, Repr

/-- Receive a frame into the first bytes of a buffer. -/
def receiveInto {δ : Type} [Nic δ] (d : δ) (buffer : Octets) : Answer × δ :=
  match Nic.receive d buffer.length with
  | (.error f, d) => (.received (.error f) buffer, d)
  | (.ok none, d) => (.received (.ok none) buffer, d)
  | (.ok (some bytes), d) =>
    match (Frame.mk bytes).copyTo buffer with
    | .error f => (.received (.error f) buffer, d)
    | .ok filled => (.received (.ok (some bytes.length)) filled, d)

def perform {δ : Type} [Nic δ] (d : δ) : Call → Answer × δ
  | .transmit bytes => (.handed (Nic.transmit d bytes).1, (Nic.transmit d bytes).2)
  | .receive buffer => receiveInto d buffer

def External.perform {n : Nat} (d : External n) : External.Call → Answer × External n
  | .stack c => Device.perform d c
  | .inject bytes => (.handed (d.inject bytes).1, (d.inject bytes).2)
  | .takeSent => (.taken (d.takeSent.1.map (·.bytes)), d.takeSent.2)

/-! ## Lists of frames -/

namespace Fifo

/-- Append a frame to a list of at most `n` frames. -/
def put (n : Nat) (frames : List Octets) (bytes : Octets) : Answer × List Octets :=
  if n ≤ frames.length then (.handed (.error .exhausted), frames)
  else if Limits.frameBuffer < bytes.length then (.handed (.error .badSize), frames)
  else (.handed (.ok ()), frames ++ [bytes])

/-- Take the first frame into a buffer. One that the buffer has no room for stays if `keep` says so. -/
def take (keep : Bool) (frames : List Octets) (buffer : Octets) : Answer × List Octets :=
  match frames with
  | [] => (.received (.ok none) buffer, [])
  | frame :: rest =>
    if buffer.length < frame.length then (.received (.error .badSize) buffer, if keep then frame :: rest else rest)
    else (.received (.ok (some frame.length)) (frame ++ buffer.drop frame.length), rest)

theorem take_of_lt {frame buffer : Octets} (h : buffer.length < frame.length) (keep : Bool) (rest : List Octets) :
    take keep (frame :: rest) buffer = (.received (.error .badSize) buffer, if keep then frame :: rest else rest) :=
  if_pos h

theorem take_of_not_lt {frame buffer : Octets} (h : ¬ buffer.length < frame.length) (keep : Bool)
    (rest : List Octets) : take keep (frame :: rest) buffer =
      (.received (.ok (some frame.length)) (frame ++ buffer.drop frame.length), rest) :=
  if_neg h

/-- A loopback as one list. -/
def loopback (n : Nat) (frames : List Octets) : Call → Answer × List Octets
  | .transmit bytes => put n frames bytes
  | .receive buffer => take true frames buffer

/-- An external device as two lists. -/
structure Pair where
  inbound : List Octets
  outbound : List Octets
  deriving DecidableEq, Repr

def external (n : Nat) (q : Pair) : External.Call → Answer × Pair
  | .stack (.transmit bytes) => ((put n q.outbound bytes).1, { q with outbound := (put n q.outbound bytes).2 })
  | .stack (.receive buffer) => ((take false q.inbound buffer).1, { q with inbound := (take false q.inbound buffer).2 })
  | .inject bytes => ((put n q.inbound bytes).1, { q with inbound := (put n q.inbound bytes).2 })
  | .takeSent => (.taken q.outbound.head?, { q with outbound := q.outbound.tail })

end Fifo

/-! ## Queues of frames -/

variable {n : Nat}

/-- A queue of frames that fit is a list of at most `n` of them. -/
structure Lists (q : Queue Frame n) (frames : List Octets) : Prop extends Framed q where
  bytes : q.toList.map (·.bytes) = frames

namespace Lists

variable {q : Queue Frame n} {frames : List Octets}

theorem empty : Lists (.empty : Queue Frame n) [] := ⟨empty_framed, rfl⟩

theorem length_eq (h : Lists q frames) : frames.length = q.size := by
  rw [← h.bytes, List.length_map, h.queue.length_toList]

theorem bounded (h : Lists q frames) : frames.length ≤ n := h.length_eq.trans_le h.queue.size_le

theorem isFull_iff (h : Lists q frames) : q.isFull = true ↔ n ≤ frames.length := by
  have := h.queue.size_le
  rw [h.length_eq, Queue.isFull, beq_iff_eq]
  omega

/-- Filling a frame in behind the last one is appending it, and what is left of a refused one is not counted. -/
theorem enqueue (h : Lists q frames) (bytes : Octets) :
    .handed (enqueue q bytes).1 = (Fifo.put n frames bytes).1 ∧
      Lists (enqueue q bytes).2 (Fifo.put n frames bytes).2 := by
  have hframed := enqueue_framed h.toFramed bytes
  unfold Fifo.put
  by_cases hfull : q.isFull = true
  · have hrefused : Device.enqueue q bytes = (.error .exhausted, q) := by
      unfold Device.enqueue Queue.reserve
      rw [hfull]
      rfl
    rw [if_pos (h.isFull_iff.1 hfull), hrefused]
    exact ⟨rfl, h⟩
  · rw [if_neg fun hle => hfull (h.isFull_iff.2 hle)]
    rw [Bool.not_eq_true] at hfull
    split
    · rename_i hlong
      have hrefused : (Device.enqueue q bytes).1 = .error .badSize := by
        unfold Device.enqueue Queue.reserve Frame.ofOctets
        rw [hfull]
        simp [hlong]
      rcases enqueue_bytes h.toFramed bytes with ⟨hok, -⟩ | ⟨-, hsame⟩
      · rw [hrefused] at hok
        cases hok
      · rw [hrefused]
        exact ⟨rfl, hframed, hsame.trans h.bytes⟩
    · rename_i hshort
      obtain ⟨hok, hlist⟩ := enqueue_of_room h.toFramed (Nat.not_lt.1 hshort) hfull
      rw [hok]
      refine ⟨rfl, hframed, ?_⟩
      rw [hlist, List.map_append, h.bytes, List.map_singleton]

theorem pop (h : Lists q frames) : q.pop.1.map (·.bytes) = frames.head? ∧ Lists q.pop.2 frames.tail := by
  refine ⟨?_, pop_framed h.toFramed, ?_⟩
  · rw [Queue.fst_pop h.queue, ← h.bytes, List.head?_map]
  · rw [Queue.toList_pop h.queue, ← h.bytes, List.map_tail]

/-- What can be received from a queue is the first frame of the list. -/
theorem first (h : Lists q frames) : (frames = [] ∧ q.front? = none) ∨
    ∃ frame rest, frames = frame.bytes :: rest ∧ q.front? = some frame ∧ q.pop.1 = some frame ∧ Lists q.pop.2 rest := by
  have hpop := h.pop.2
  rw [Queue.front?_eq h.queue, Queue.fst_pop h.queue]
  rw [← h.bytes] at hpop ⊢
  cases hl : q.toList with
  | nil => exact .inl ⟨rfl, rfl⟩
  | cons frame rest =>
    rw [hl] at hpop
    exact .inr ⟨frame, _, rfl, rfl, rfl, hpop⟩

end Lists

/-! ## Single calls -/

section Reception

variable {δ : Type} [Nic δ] {d d' : δ} {buffer : Octets}

theorem receiveInto_error {f : Fault} (h : Nic.receive d buffer.length = (.error f, d')) :
    receiveInto d buffer = (.received (.error f) buffer, d') := by
  unfold receiveInto
  rw [h]

theorem receiveInto_none (h : Nic.receive d buffer.length = (.ok none, d')) :
    receiveInto d buffer = (.received (.ok none) buffer, d') := by
  unfold receiveInto
  rw [h]

theorem receiveInto_some {bytes : Octets} (h : Nic.receive d buffer.length = (.ok (some bytes), d'))
    (hl : ¬ buffer.length < bytes.length) : receiveInto d buffer =
      (.received (.ok (some bytes.length)) (bytes ++ buffer.drop bytes.length), d') := by
  have hcopy : (Frame.mk bytes).copyTo buffer = .ok (bytes ++ buffer.drop bytes.length) := if_neg hl
  unfold receiveInto
  rw [h]
  dsimp only
  rw [hcopy]

end Reception

/-- A call of a loopback does to its queue what it does to the list. -/
theorem Loopback.perform_lists {d : Loopback n} {frames : List Octets} (h : Lists d.frames frames) (c : Call) :
    (perform d c).1 = (Fifo.loopback n frames c).1 ∧ Lists (perform d c).2.frames (Fifo.loopback n frames c).2 := by
  cases c with
  | transmit bytes => exact h.enqueue bytes
  | receive buffer =>
    have hunfold := Loopback.receive_unfold d buffer.length
    show (receiveInto d buffer).1 = (Fifo.take true frames buffer).1 ∧
      Lists (receiveInto d buffer).2.frames (Fifo.take true frames buffer).2
    rcases h.first with ⟨rfl, hfront⟩ | ⟨frame, rest, rfl, hfront, hpop, hrest⟩
    · rw [hfront] at hunfold
      rw [receiveInto_none hunfold]
      exact ⟨rfl, h⟩
    · rw [hfront, hpop] at hunfold
      dsimp only at hunfold
      by_cases hroom : buffer.length < frame.bytes.length
      · rw [if_pos hroom] at hunfold
        rw [receiveInto_error hunfold, Fifo.take_of_lt hroom]
        exact ⟨rfl, h⟩
      · rw [if_neg hroom] at hunfold
        rw [receiveInto_some hunfold hroom, Fifo.take_of_not_lt hroom]
        exact ⟨rfl, hrest⟩

namespace External

/-- An external device is two lists. -/
structure Pairs (d : External n) (q : Fifo.Pair) : Prop where
  inbound : Lists d.inbound q.inbound
  outbound : Lists d.outbound q.outbound

/-- A call of an external device does to its queues what it does to the lists. -/
theorem perform_pairs {d : External n} {q : Fifo.Pair} (h : d.Pairs q) (c : Call) :
    (d.perform c).1 = (Fifo.external n q c).1 ∧ (d.perform c).2.Pairs (Fifo.external n q c).2 := by
  cases c with
  | inject bytes =>
    obtain ⟨hanswer, hlists⟩ := h.inbound.enqueue bytes
    exact ⟨hanswer, hlists, h.outbound⟩
  | takeSent =>
    obtain ⟨hanswer, hlists⟩ := h.outbound.pop
    exact ⟨congrArg Answer.taken hanswer, h.inbound, hlists⟩
  | stack c =>
    cases c with
    | transmit bytes =>
      obtain ⟨hanswer, hlists⟩ := h.outbound.enqueue bytes
      exact ⟨hanswer, h.inbound, hlists⟩
    | receive buffer =>
      obtain ⟨inbound, outbound⟩ := q
      have hunfold := receive_unfold d buffer.length
      show (receiveInto d buffer).1 = (Fifo.take false inbound buffer).1 ∧
        (receiveInto d buffer).2.Pairs ⟨(Fifo.take false inbound buffer).2, outbound⟩
      rcases h.inbound.first with ⟨he, hfront⟩ | ⟨frame, rest, he, hfront, hpop, hrest⟩
      · dsimp only at he
        subst he
        rw [hfront] at hunfold
        rw [receiveInto_none hunfold]
        exact ⟨rfl, h⟩
      · dsimp only at he
        subst he
        rw [hfront, hpop] at hunfold
        dsimp only at hunfold
        by_cases hroom : buffer.length < frame.bytes.length
        · rw [if_pos hroom] at hunfold
          rw [receiveInto_error hunfold, Fifo.take_of_lt hroom]
          exact ⟨rfl, hrest, h.outbound⟩
        · rw [if_neg hroom] at hunfold
          rw [receiveInto_some hunfold hroom, Fifo.take_of_not_lt hroom]
          exact ⟨rfl, hrest, h.outbound⟩

end External

/-! ## Runs -/

/-- In every run a loopback answers what a list of at most `n` frames answers, and so does an external device for each
of its directions; and what they hold is the list. A frame is appended as it is, is refused as too much if the list is
full and otherwise as too large if it is larger than a frame buffer, and a refused frame changes nothing. The first
frame is handed over as it is and leaves the list; a buffer that is too small for it is left as it was, and then a
loopback keeps the frame and an external device discards it. -/
theorem devices_fifo (n : Nat) (p : Personality) :
    (∀ cs : List Call,
      let run := replay perform (Loopback.create n p) cs
      let list := replay (Fifo.loopback n) [] cs
      run.1 = list.1 ∧ run.2.frames.toList.map (·.bytes) = list.2 ∧ list.2.length ≤ n) ∧
    ∀ cs : List External.Call,
      let run := replay External.perform (External.create n p) cs
      let lists := replay (Fifo.external n) ⟨[], []⟩ cs
      run.1 = lists.1 ∧ run.2.inbound.toList.map (·.bytes) = lists.2.inbound ∧
        run.2.outbound.toList.map (·.bytes) = lists.2.outbound ∧
        lists.2.inbound.length ≤ n ∧ lists.2.outbound.length ≤ n := by
  constructor
  · intro cs
    obtain ⟨hanswers, hlist⟩ := replay_related (R := fun (d : Loopback n) frames => Lists d.frames frames)
      Loopback.perform_lists cs (show Lists (Loopback.create n p).frames [] from .empty)
    exact ⟨hanswers, hlist.bytes, hlist.bounded⟩
  · intro cs
    obtain ⟨hanswers, hlists⟩ := replay_related External.perform_pairs cs
      (show (External.create n p).Pairs ⟨[], []⟩ from ⟨.empty, .empty⟩)
    exact ⟨hanswers, hlists.inbound.bytes, hlists.outbound.bytes, hlists.inbound.bounded, hlists.outbound.bounded⟩

end UdpStack.Device
