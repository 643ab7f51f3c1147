/-
Runs of a socket. A run makes calls in any order: tasks bind the socket, give up its binding, receive and give up
receiving, and datagrams are delivered to it. The wake-ups are delivered after each call, so every call starts
without any. In every state of a run of a new socket a task waits only in front of an empty queue that is not held
for anybody, and a queue that is held holds a datagram (`run_orderly`); in such a state each call does one of a few
things (`perform_step`), from which everything else about runs is shown.
-/
import UdpStack.Proofs.Packet
import UdpStack.Proofs.Udp.Socket

namespace UdpStack.Udp

open Bounded

/-- A packet on its way to a socket, with the bytes that are left to read. -/
structure Delivery where
  transit : Transit
  content : Octets
  unread : transit.packet.unread? = some content

/-- The datagram that is kept of a delivery. -/
def Delivery.datagram (d : Delivery) : Datagram :=
  ⟨d.transit.info.srcAddr, d.transit.info.srcPort, d.content.length, d.content.take Limits.datagramBytes⟩

/-- The delivery of a packet that holds nothing but its content. -/
def Delivery.ofContent (info : Info) (content : Octets) : Delivery where
  transit := ⟨⟨content, 0, 0, 0, content.length⟩, info⟩
  content := content
  unread := by
    rw [Packet.unread?_of_le (Nat.zero_le _) le_rfl]
    simp

/-- What is received of a datagram in a buffer of `room` bytes. -/
def Datagram.read (d : Datagram) (room : Nat) : Received :=
  ⟨d.payload.take room, d.origLen, d.srcAddr, d.srcPort⟩

namespace Socket

/-! ## Calls -/

/-- A call of an operation. -/
inductive Call where
  | bind (b : Binding)
  | unbind
  | recv (task : Task) (room : Nat)
  | cancel (task : Task)
  | deliver (d : Delivery)

/-- The task that receives or gives up receiving. -/
def Call.task? : Call → Option Task
  | recv task _ | cancel task => some task
  | bind _ | unbind | deliver _ => none

/-- The answer to a call. -/
inductive Answer where
  | done
  | failed (f : Fault)
  | pending
  | received (r : Received)
  deriving DecidableEq, Repr

/-- The answer to a call that only succeeds or fails. -/
def Answer.ofExcept {α : Type} : Except Fault α → Answer
  | .ok _ => done
  | .error f => failed f

/-- The answer to a task that receives. -/
def Answer.ofPoll : Poll Received → Answer
  | .pending => pending
  | .ready (.ok r) => received r
  | .ready (.error f) => failed f

/-- The answer to a call, the socket after it, and the tasks to be notified. -/
def perform (s : Socket) : Call → Answer × Socket × Wakeups
  | .bind b => (.ofExcept (s.bind b), (s.bind b).toOption.getD s, .empty)
  | .unbind =>
    match s.unbind .empty with
    | .ok (_, s', w) => (.done, s', w)
    | .error f => (.failed f, s, .empty)
  | .recv task room => (.ofPoll (s.recv task room).1, (s.recv task room).2, .empty)
  | .cancel task => (.done, s.cancel task, .empty)
  | .deliver d =>
    let (r, s', _, w) := s.receivePass d.transit .empty
    (.ofExcept r, s', w)

/-- The answer to a call. -/
def answer (s : Socket) (c : Call) : Answer := (s.perform c).1

/-- The socket after a call. -/
def after (s : Socket) (c : Call) : Socket := (s.perform c).2.1

/-- The tasks that a call wakes. -/
def woken (s : Socket) (c : Call) : List Task := (s.perform c).2.2.tasks

/-- The socket after several calls. -/
def run (s : Socket) (cs : List Call) : Socket := cs.foldl after s

theorem run_cons (s : Socket) (c : Call) (cs : List Call) : s.run (c :: cs) = (s.after c).run cs := rfl

/-! ## What a call does -/

/-- A task waits only in front of an empty queue that is not held, and a queue that is held holds a
datagram. -/
structure Orderly (s : Socket) : Prop extends WF s where
  idle : ∀ task, s.waiter.waiter = some task → s.queue.toList = [] ∧ s.reserved = none
  held : ∀ task, s.reserved = some task → s.queue.toList ≠ []

section Orderly

variable {s : Socket} {task : Task}

theorem waiter_of_held (ho : s.Orderly) (h : s.reserved = some task) : s.waiter.waiter = none := by
  cases hw : s.waiter.waiter with
  | none => rfl
  | some other => rw [(ho.idle other hw).2] at h; cases h

theorem waiter_of_cons (ho : s.Orderly) {x : Datagram} {rest : List Datagram} (h : s.queue.toList = x :: rest) :
    s.waiter.waiter = none := by
  cases hw : s.waiter.waiter with
  | none => rfl
  | some other => rw [(ho.idle other hw).1] at h; cases h

theorem waiter_of_unbound (ho : s.Orderly) (h : s.binding = none) : s.waiter.waiter = none := by
  by_contra hw
  have := ho.bound (Option.isSome_iff_ne_none.2 hw)
  rw [h] at this; cases this

end Orderly

/-- A call with its answer, the socket after it and the tasks that it wakes. -/
inductive Step (s : Socket) : Call → Answer → Socket → List Task → Prop where
  | bind {b : Binding} : s.binding = none → Step s (.bind b) .done { s with binding := some b } []
  /-- The socket is bound already. -/
  | bound {b old : Binding} : s.binding = some old → Step s (.bind b) (.failed .illegal) s []
  | unbind {b : Binding} : s.binding = some b →
      Step s .unbind .done { s with binding := none, reserved := none, waiter := .empty } s.waiters
  | unbound : s.binding = none → Step s .unbind (.failed .illegal) s []
  /-- The oldest datagram is handed out. -/
  | take {task : Task} {room : Nat} {x : Datagram} {q : Queue Datagram Limits.socketQueue} :
      (∀ owner, s.reserved = some owner → owner = task) → s.queue.toList = x :: q.toList → q.WF →
      Step s (.recv task room) (.received (x.read room)) { s with queue := q, reserved := none } []
  | wait {task : Task} {room : Nat} : s.binding.isSome = true → s.queue.toList = [] → s.reserved = none →
      (∀ other, s.waiter.waiter = some other → other = task) →
      Step s (.recv task room) .pending { s with waiter := ⟨some task⟩ } []
  /-- The queue is held for another task, or another one waits. -/
  | busy {task other : Task} {room : Nat} : s.reserved = some other ∨ s.waiter.waiter = some other →
      other ≠ task → Step s (.recv task room) (.failed .busy) s []
  /-- Nothing can arrive any more. -/
  | closed {task : Task} {room : Nat} : s.binding = none → s.queue.toList = [] →
      Step s (.recv task room) (.failed .illegal) s []
  | cancel {task : Task} : Step s (.cancel task) .done (s.cancel task) []
  | arrive {d : Delivery} {q : Queue Datagram Limits.socketQueue} : s.accepts d.transit.info.dstAddr = true →
      q.toList = s.queue.toList.drop (if s.queue.isFull then 1 else 0) ++ [d.datagram] → q.WF →
      Step s (.deliver d) .done { s with
        queue := q
        evicted := if s.queue.isFull then s.evicted + 1 else s.evicted
        waiter := .empty
        reserved := s.waiter.waiter.or s.reserved } s.waiters
  | refuse {d : Delivery} : s.accepts d.transit.info.dstAddr = false →
      Step s (.deliver d) (.failed .dropped) s []

section Steps

variable {s s' : Socket} {c : Call} {a : Answer} {ts : List Task}

theorem arriving_eq (d : Delivery) : arriving d.transit = d.datagram := by
  obtain ⟨-, -, hc, hl⟩ := Packet.unread?_eq_some d.unread
  have hcut : d.content.take Limits.datagramBytes = (d.transit.packet.bytes.drop d.transit.packet.read).take
      (min d.transit.packet.available Limits.datagramBytes) := by
    rw [hc, List.take_take, min_comm]; rfl
  unfold arriving Delivery.datagram
  rw [hcut, hl]

/-! ### Receiving -/

/-- Nobody else keeps a task from the oldest datagram. -/
theorem next_of_cons (hq : s.queue.WF) {x : Datagram} {rest : List Datagram} (h : s.queue.toList = x :: rest)
    (hw : s.waiter.waiter = none) (task : Task) (room : Nat) :
    recv.next task room s = (.ready (.ok (x.read room)), { s with queue := s.queue.pop.2 }) := by
  have hp : s.queue.pop = (some x, s.queue.pop.2) := Prod.ext (by rw [Queue.fst_pop hq, h]; rfl) rfl
  have hc : s.waiter.cancel task = s.waiter := WaitCell.cancel_of_ne (by rw [hw]; nofun)
  unfold recv.next
  rw [hp]
  dsimp only
  rw [hc]; rfl

theorem pop_of_nil (hq : s.queue.WF) (h : s.queue.toList = []) : s.queue.pop = (none, s.queue) :=
  Queue.pop_of_isEmpty (hq.isEmpty_iff.2 h)

theorem next_of_unbound (hq : s.queue.WF) (h : s.queue.toList = []) (hb : s.binding = none) (task : Task)
    (room : Nat) : recv.next task room s = (.ready (.error .illegal), s) := by
  unfold recv.next
  rw [pop_of_nil hq h]
  dsimp only
  rw [if_pos (by rw [hb]; rfl)]

theorem next_of_free (hq : s.queue.WF) (h : s.queue.toList = []) (hb : s.binding ≠ none) {task : Task}
    (hw : ∀ other, s.waiter.waiter = some other → other = task) (room : Nat) :
    recv.next task room s = (.pending, { s with waiter := ⟨some task⟩ }) := by
  unfold recv.next
  rw [pop_of_nil hq h]
  dsimp only
  rw [if_neg (by simpa using hb), WaitCell.register_of_free hw]

theorem next_of_waiter (hq : s.queue.WF) (h : s.queue.toList = []) (hb : s.binding ≠ none) {task other : Task}
    (hw : s.waiter.waiter = some other) (hk : other ≠ task) (room : Nat) :
    recv.next task room s = (.ready (.error .busy), s) := by
  unfold recv.next
  rw [pop_of_nil hq h]
  dsimp only
  rw [if_neg (by simpa using hb), WaitCell.register_of_other hw hk]

theorem recv_of_others {owner task : Task} (h : s.reserved = some owner) (ho : owner ≠ task) (room : Nat) :
    s.recv task room = (.ready (.error .busy), s) := by
  unfold recv
  rw [h]
  dsimp only
  rw [if_neg ho]

theorem recv_of_free {task : Task} (h : ∀ owner, s.reserved = some owner → owner = task) (room : Nat) :
    s.recv task room = recv.next task room { s with reserved := none } := by
  unfold recv
  cases hr : s.reserved with
  | none =>
    have hs : { s with reserved := none } = s := by rw [← hr]
    rw [hs]
  | some owner => dsimp only; rw [if_pos (h owner hr)]

/-- A task receives the oldest datagram unless the queue is held for another one. -/
theorem recv_of_cons (ho : s.Orderly) {x : Datagram} {rest : List Datagram} (h : s.queue.toList = x :: rest)
    {task : Task} (hr : ∀ owner, s.reserved = some owner → owner = task) (room : Nat) :
    s.recv task room = (.ready (.ok (x.read room)), { s with queue := s.queue.pop.2, reserved := none }) := by
  have hw : s.waiter.waiter = none := waiter_of_cons ho h
  rw [recv_of_free hr]
  exact next_of_cons (s := { s with reserved := none }) ho.queue h hw task room

theorem recv_step (ho : s.Orderly) (task : Task) (room : Nat) :
    Step s (.recv task room) (.ofPoll (s.recv task room).1) (s.recv task room).2 [] := by
  by_cases hr : ∀ owner, s.reserved = some owner → owner = task
  · cases hl : s.queue.toList with
    | cons x rest =>
      have hq : s.queue.toList = x :: s.queue.pop.2.toList := by rw [Queue.toList_pop ho.queue, hl]; rfl
      rw [recv_of_cons ho hl hr]
      exact .take hr hq (Queue.pop_wf ho.queue)
    | nil =>
      have hfree : s.reserved = none := by
        cases h : s.reserved with
        | none => rfl
        | some owner => exact absurd hl (ho.held owner h)
      have hs : { s with reserved := none } = s := by rw [← hfree]
      rw [recv_of_free hr, hs]
      by_cases hb : s.binding = none
      · rw [next_of_unbound ho.queue hl hb]
        exact .closed hb hl
      · by_cases hw : ∀ other, s.waiter.waiter = some other → other = task
        · rw [next_of_free ho.queue hl hb hw]
          exact .wait (Option.isSome_iff_ne_none.2 hb) hl hfree hw
        · push Not at hw
          obtain ⟨other, hw, hk⟩ := hw
          rw [next_of_waiter ho.queue hl hb hw hk]
          exact .busy (.inr hw) hk
  · push Not at hr
    obtain ⟨owner, hr, hk⟩ := hr
    rw [recv_of_others hr hk]
    exact .busy (.inl hr) hk

/-! ### All calls -/

theorem tasks_wakeAll_waiters (s : Socket) : (Wakeups.empty.wakeAll s.waiters).tasks = s.waiters := by
  unfold waiters; cases s.waiter.waiter <;> rfl

theorem step_of_perform {w : Wakeups} (hp : s.perform c = (a, s', w)) (hs : Step s c a s' w.tasks) :
    Step s c (s.answer c) (s.after c) (s.woken c) := by
  unfold answer after woken
  rw [hp]; exact hs

theorem deliver_step (ho : s.Orderly) (d : Delivery) :
    Step s (.deliver d) (s.answer (.deliver d)) (s.after (.deliver d)) (s.woken (.deliver d)) := by
  cases hacc : s.accepts d.transit.info.dstAddr with
  | false =>
    have hp : s.perform (.deliver d) = (.failed .dropped, s, .empty) := by
      simp only [perform, receivePass_of_rejects hacc]; rfl
    exact step_of_perform hp (.refuse hacc)
  | true =>
    obtain ⟨q, p, he, -, hq⟩ := receivePass_of_accepts hacc .empty
    have hpush := hq ho.queue
    have hl : q.toList = s.queue.toList.drop (if s.queue.isFull then 1 else 0) ++ [d.datagram] := by
      rw [Queue.toList_push (makeRoom_wf ho.queue) hpush, toList_makeRoom ho.queue, arriving_eq]
    have hp : s.perform (.deliver d) = (.done, { s with
        queue := q
        evicted := if s.queue.isFull then s.evicted + 1 else s.evicted
        waiter := .empty
        reserved := s.waiter.waiter.or s.reserved }, Wakeups.empty.wakeAll s.waiters) := by
      simp only [perform, he]; rfl
    refine step_of_perform hp ?_
    rw [tasks_wakeAll_waiters]
    exact .arrive hacc hl (Queue.push_wf (makeRoom_wf ho.queue) hpush)

/-- What each call does to an orderly socket. -/
theorem perform_step (ho : s.Orderly) (c : Call) : Step s c (s.answer c) (s.after c) (s.woken c) := by
  cases c with
  | bind b =>
    cases hb : s.binding with
    | none =>
      have hp : s.perform (.bind b) = (.done, { s with binding := some b }, .empty) := by
        simp only [perform, bind, hb]; rfl
      exact step_of_perform hp (.bind hb)
    | some old =>
      have hp : s.perform (.bind b) = (.failed .illegal, s, .empty) := by
        simp only [perform, bind, hb]; rfl
      exact step_of_perform hp (.bound hb)
  | unbind =>
    cases hb : s.binding with
    | none =>
      have hp : s.perform .unbind = (.failed .illegal, s, .empty) := by
        simp only [perform, unbind, hb]
      exact step_of_perform hp (.unbound hb)
    | some b =>
      have hp : s.perform .unbind = (.done, { s with binding := none, reserved := none, waiter := .empty },
          Wakeups.empty.wakeAll s.waiters) := by
        simp only [perform, unbind_of_bound hb]
      refine step_of_perform hp ?_
      rw [tasks_wakeAll_waiters]
      exact .unbind hb
  | recv task room => exact recv_step ho task room
  | cancel task => exact .cancel
  | deliver d => exact deliver_step ho d

/-! ## What every state of a run keeps -/

theorem empty_orderly : empty.Orderly := ⟨empty_wf, nofun, nofun⟩

theorem cancel_orderly (ho : s.Orderly) (task : Task) : (s.cancel task).Orderly := by
  have hwaiter : ∀ k, (s.cancel task).waiter.waiter = some k → s.waiter.waiter = some k := by
    intro k hk
    change (s.waiter.cancel task).waiter = some k at hk
    rcases cancel_waiter s.waiter task with he | he
    · rwa [he] at hk
    · rw [he] at hk; cases hk
  have hreserved : ∀ k, (s.cancel task).reserved = some k → s.reserved = some k := by
    intro k hk
    change (if s.reserved = some task then none else s.reserved) = some k at hk
    split at hk
    · cases hk
    · exact hk
  refine ⟨cancel_wf ho.toWF task, ?_, fun k hk => ho.held k (hreserved k hk)⟩
  intro k hk
  obtain ⟨hl, hr⟩ := ho.idle k (hwaiter k hk)
  refine ⟨hl, ?_⟩
  show (if s.reserved = some task then none else s.reserved) = none
  rw [hr]; split <;> rfl

/-- Every call keeps a socket orderly. -/
theorem Step.orderly (h : Step s c a s' ts) (ho : s.Orderly) : s'.Orderly := by
  cases h with
  | bind _ => exact ⟨⟨ho.queue, fun _ => rfl⟩, ho.idle, ho.held⟩
  | bound _ => exact ho
  | unbind _ => exact ⟨⟨ho.queue, nofun⟩, nofun, nofun⟩
  | unbound _ => exact ho
  | take _ hl hq =>
    refine ⟨⟨hq, ho.bound⟩, ?_, nofun⟩
    rintro task hw
    rw [waiter_of_cons ho hl] at hw; cases hw
  | wait hb hl hr _ =>
    refine ⟨⟨ho.queue, fun _ => hb⟩, fun _ _ => ⟨hl, hr⟩, ?_⟩
    intro task h
    rw [show s.reserved = some task from h] at hr; cases hr
  | busy _ _ => exact ho
  | closed _ _ => exact ho
  | cancel => exact cancel_orderly ho _
  | arrive _ hl hq => exact ⟨⟨hq, nofun⟩, nofun, fun _ _ => by rw [hl]; simp⟩
  | refuse _ => exact ho

theorem orderly_after (ho : s.Orderly) (c : Call) : (s.after c).Orderly := (perform_step ho c).orderly ho

theorem run_orderly (ho : s.Orderly) : ∀ cs : List Call, (s.run cs).Orderly := by
  intro cs
  induction cs generalizing s with
  | nil => exact ho
  | cons c cs ih => exact ih (orderly_after ho c)

end Steps

end Socket

end UdpStack.Udp
