/-
What each operation does to a socket. A datagram for another address changes nothing; one for the
socket goes to the end of the queue, from which a full queue gave up the oldest one, and the waiting
task is woken (`receivePass_of_accepts`). A task waits only in a bound socket, so giving up the
binding wakes it (`unbind_eq_ok`).
-/
import UdpStack.Proofs.Bounded.Queue
import UdpStack.Proofs.Task
import UdpStack.Udp.Socket

namespace UdpStack.Udp.Socket

open Bounded

/-- The queue is a proper ring, and a task waits only for what can arrive. -/
structure WF (s : Socket) : Prop where
  queue : s.queue.WF
  bound : s.waiter.waiter.isSome = true → s.binding.isSome = true

theorem empty_wf : empty.WF := ⟨Queue.empty_wf, nofun⟩

/-- The waiting task, if there is one. -/
def waiters (s : Socket) : List Task := s.waiter.waiter.toList

/-- A quantity of the waiting task, nothing if there is none. -/
def waiting (c : Task → Nat) (s : Socket) : Nat := (s.waiters.map c).sum

theorem waiting_one_le (s : Socket) : s.waiting (fun _ => 1) ≤ 1 := by
  unfold waiting waiters; cases s.waiter.waiter <;> simp

/-! ## Giving up the binding -/

theorem bind_eq_ok {s s' : Socket} {b : Binding} (h : s.bind b = .ok s') :
    s.binding = none ∧ s' = { s with binding := some b } := by
  unfold bind at h
  split at h
  · cases h
  · rename_i hb; cases h; exact ⟨by simpa using hb, rfl⟩

theorem unbind_of_bound {s : Socket} {b : Binding} (h : s.binding = some b) (w : Wakeups) :
    s.unbind w = .ok (b, { s with binding := none, reserved := none, waiter := .empty },
      w.wakeAll s.waiters) := by
  obtain ⟨binding, queue, ⟨waiter⟩, reserved, evicted, counters⟩ := s
  unfold unbind; rw [h]
  cases waiter <;> rfl

/-! ## Receiving a datagram -/

/-- A queue with room for one more datagram, the oldest one given up if there was none. -/
def makeRoom (q : Queue Datagram Limits.socketQueue) : Queue Datagram Limits.socketQueue :=
  if q.isFull then q.pop.2 else q

/-- The datagram that a packet holds for a socket. -/
def arriving (t : Transit) : Datagram :=
  ⟨t.info.srcAddr, t.info.srcPort, t.packet.available,
    (t.packet.bytes.drop t.packet.read).take (min t.packet.available Limits.datagramBytes)⟩

theorem makeRoom_not_isFull (q : Queue Datagram Limits.socketQueue) : (makeRoom q).isFull = false := by
  unfold makeRoom
  split
  · rename_i h
    simp only [Queue.isFull, beq_iff_eq, Queue.size_pop, beq_eq_false_iff_ne] at h ⊢
    rw [h]; decide
  · rename_i h; simpa using h

theorem makeRoom_wf {q : Queue Datagram Limits.socketQueue} (hw : q.WF) : (makeRoom q).WF := by
  unfold makeRoom
  split
  · exact Queue.pop_wf hw
  · exact hw

theorem toList_makeRoom {q : Queue Datagram Limits.socketQueue} (hw : q.WF) :
    (makeRoom q).toList = q.toList.drop (if q.isFull then 1 else 0) := by
  unfold makeRoom
  split
  · rw [Queue.toList_pop hw, List.drop_one]
  · rfl

theorem peek_of_le (p : Packet) {len : Nat} (h : len ≤ p.available) :
    p.take len = .ok ((p.bytes.drop p.read).take len, { p with read := p.read + len }) := by
  unfold Packet.take Packet.peek; rw [if_neg (by omega)]; rfl

theorem enqueue_eq (s : Socket) (t : Transit) : ∃ q p,
    s.enqueue t = (.ok (), { s with
      queue := q
      evicted := if s.queue.isFull then s.evicted + 1 else s.evicted }, p) ∧
    p.bytes = t.packet.bytes ∧ (s.queue.WF → (makeRoom s.queue).push (arriving t) = .ok q) := by
  have hr : (makeRoom s.queue).reserve .empty = .ok ((makeRoom s.queue).putBack (some .empty)) := by
    unfold Queue.reserve; rw [makeRoom_not_isFull]; rfl
  have hs : (if s.queue.isFull = true then { s with queue := s.queue.pop.2, evicted := s.evicted + 1 }
      else s) = { s with
        queue := makeRoom s.queue
        evicted := if s.queue.isFull then s.evicted + 1 else s.evicted } := by
    unfold makeRoom; split <;> rfl
  refine ⟨_, { t.packet with read := t.packet.read + min t.packet.available Limits.datagramBytes }, ?_,
    rfl, fun hw => Queue.push_of_reserve (makeRoom_wf hw) hr (arriving t)⟩
  unfold enqueue
  rw [hs]
  dsimp only
  rw [hr]
  dsimp only
  rw [peek_of_le t.packet (Nat.min_le_left ..)]
  rfl

theorem receivePass_of_rejects {s : Socket} {t : Transit} (h : s.accepts t.info.dstAddr = false)
    (w : Wakeups) : s.receivePass t w = (.error .dropped, s, t.packet, w) := by
  unfold receivePass; rw [h]; rfl

/-- A datagram for the socket is queued, and the waiting task is woken. -/
theorem receivePass_of_accepts {s : Socket} {t : Transit} (h : s.accepts t.info.dstAddr = true)
    (w : Wakeups) : ∃ q p,
    s.receivePass t w = (.ok .done, { s with
      queue := q
      evicted := if s.queue.isFull then s.evicted + 1 else s.evicted
      waiter := .empty
      reserved := s.waiter.waiter.or s.reserved }, p, w.wakeAll s.waiters) ∧
    p.bytes = t.packet.bytes ∧ (s.queue.WF → (makeRoom s.queue).push (arriving t) = .ok q) := by
  obtain ⟨q, p, he, hb, hq⟩ := enqueue_eq s t
  refine ⟨q, p, ?_, hb, hq⟩
  obtain ⟨binding, queue, ⟨waiter⟩, reserved, evicted, counters⟩ := s
  unfold receivePass
  rw [h, if_neg (by decide), he]
  cases waiter <;> rfl

theorem receivePass_bytes (s : Socket) (t : Transit) (w : Wakeups) :
    (s.receivePass t w).2.2.1.bytes = t.packet.bytes := by
  cases ha : s.accepts t.info.dstAddr with
  | false => rw [receivePass_of_rejects ha]
  | true =>
    obtain ⟨q, p, he, hb, -⟩ := receivePass_of_accepts ha w
    rw [he]; exact hb

theorem receivePass_wf {s : Socket} (hw : s.WF) (t : Transit) (w : Wakeups) :
    (s.receivePass t w).2.1.WF := by
  cases ha : s.accepts t.info.dstAddr with
  | false => rw [receivePass_of_rejects ha]; exact hw
  | true =>
    obtain ⟨q, p, he, -, hq⟩ := receivePass_of_accepts ha w
    rw [he]
    exact ⟨Queue.push_wf (makeRoom_wf hw.queue) (hq hw.queue), nofun⟩

theorem receivePass_binding (s : Socket) (t : Transit) (w : Wakeups) :
    (s.receivePass t w).2.1.binding = s.binding := by
  cases ha : s.accepts t.info.dstAddr with
  | false => rw [receivePass_of_rejects ha]
  | true =>
    obtain ⟨q, p, he, -⟩ := receivePass_of_accepts ha w
    rw [he]

/-- A socket hands nothing on. -/
theorem receivePass_ends (s : Socket) (t : Transit) (w : Wakeups) (upper : Layer) :
    (s.receivePass t w).1 ≠ .ok (.layer upper) := by
  cases ha : s.accepts t.info.dstAddr with
  | false => rw [receivePass_of_rejects ha]; nofun
  | true =>
    obtain ⟨q, p, he, -⟩ := receivePass_of_accepts ha w
    rw [he]; nofun

/-! ## Waiting for a datagram -/

/-- How a receive may end: the task waits, or the wait and the queue of the socket shrink. -/
structure Answered (s : Socket) (task : Task) (r : Poll Received) (s' : Socket) : Prop where
  binding : s'.binding = s.binding
  queue : s'.queue = s.queue ∨ s'.queue = s.queue.pop.2
  waiter : r = .pending ∧ s.binding.isSome = true ∧ s'.waiter = ⟨some task⟩ ∨
    s'.waiter = s.waiter ∨ s'.waiter = s.waiter.cancel task

theorem next_answered {s s' : Socket} {task : Task} {room : Nat} {r : Poll Received}
    (h : recv.next task room s = (r, s')) : s.Answered task r s' := by
  unfold recv.next at h
  split at h
  · rename_i hp
    cases h
    exact ⟨rfl, .inr (by rw [hp]), .inr (.inr rfl)⟩
  · split at h
    · cases h; exact ⟨rfl, .inl rfl, .inr (.inl rfl)⟩
    · rename_i hb
      rw [Option.isNone_iff_eq_none] at hb
      have hb := Option.isSome_iff_ne_none.2 hb
      unfold WaitCell.register at h
      cases hw : s.waiter.waiter with
      | none => rw [hw] at h; cases h; exact ⟨rfl, .inl rfl, .inl ⟨rfl, hb, rfl⟩⟩
      | some other =>
        rw [hw] at h
        by_cases ho : other = task
        · simp only [if_pos ho] at h; cases h; exact ⟨rfl, .inl rfl, .inl ⟨rfl, hb, rfl⟩⟩
        · simp only [if_neg ho] at h; cases h; exact ⟨rfl, .inl rfl, .inr (.inl rfl)⟩

theorem recv_answered {s s' : Socket} {task : Task} {room : Nat} {r : Poll Received}
    (h : s.recv task room = (r, s')) : s.Answered task r s' := by
  unfold recv at h
  split at h
  · split at h
    · obtain ⟨hb, hq, hw⟩ := next_answered h
      exact ⟨hb, hq, hw⟩
    · cases h; exact ⟨rfl, .inl rfl, .inr (.inl rfl)⟩
  · exact next_answered h

theorem cancel_waiter (c : WaitCell) (t : Task) : c.cancel t = c ∨ c.cancel t = .empty := by
  unfold WaitCell.cancel
  split
  · exact .inr rfl
  · exact .inl rfl

theorem recv_wf {s s' : Socket} (hw : s.WF) {task : Task} {room : Nat} {r : Poll Received}
    (h : s.recv task room = (r, s')) : s'.WF := by
  obtain ⟨hb, hq, hc⟩ := recv_answered h
  constructor
  · rcases hq with hq | hq
    · rw [hq]; exact hw.queue
    · rw [hq]; exact Queue.pop_wf hw.queue
  · intro hs
    rw [hb]
    rcases hc with ⟨-, hb', -⟩ | hc | hc
    · exact hb'
    · rw [hc] at hs; exact hw.bound hs
    · rw [hc] at hs
      rcases cancel_waiter s.waiter task with he | he
      · rw [he] at hs; exact hw.bound hs
      · rw [he] at hs; cases hs

theorem cancel_wf {s : Socket} (hw : s.WF) (task : Task) : (s.cancel task).WF := by
  refine ⟨hw.queue, ?_⟩
  intro hs
  change (s.waiter.cancel task).waiter.isSome = true at hs
  rcases cancel_waiter s.waiter task with he | he
  · rw [he] at hs; exact hw.bound hs
  · rw [he] at hs; cases hs

/-! ## The weight of the waiting task -/

theorem waiting_recv_le (c : Task → Nat) {s s' : Socket} {task : Task} {room : Nat} {r : Poll Received}
    (h : s.recv task room = (r, s')) :
    s'.waiting c ≤ s.waiting c ∨ r = .pending ∧ s'.waiting c = c task := by
  unfold waiting waiters
  rcases (recv_answered h).waiter with ⟨hr, -, hc⟩ | hc | hc
  · rw [hc]; exact .inr ⟨hr, by simp⟩
  · rw [hc]; exact .inl le_rfl
  · rw [hc]
    rcases cancel_waiter s.waiter task with he | he
    · rw [he]; exact .inl le_rfl
    · rw [he]; exact .inl (Nat.zero_le _)

theorem waiting_cancel_le (c : Task → Nat) (s : Socket) (task : Task) :
    (s.cancel task).waiting c ≤ s.waiting c := by
  show ((s.waiter.cancel task).waiter.toList.map c).sum ≤ _
  rcases cancel_waiter s.waiter task with he | he
  · rw [he]; exact le_rfl
  · rw [he]; exact Nat.zero_le _

end UdpStack.Udp.Socket
