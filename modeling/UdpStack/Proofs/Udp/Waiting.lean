/-
Tasks that wait for a datagram. In every run of a socket at most one task is blocked: the task of the last receive
that was told to wait and was neither woken nor gave up (`blocked_run`), and any other task that receives meanwhile
is turned away. Once a delivery wakes the task, the queue is held for it until it receives or gives up or the
binding is given up: any other task is turned away, and the task receives the oldest datagram, whatever arrives or
is given up in between (`wait_protocol`).
-/
import UdpStack.Proofs.Udp.Calls

namespace UdpStack.Udp.Socket

open Bounded

section Waiting

variable {s s' : Socket} {c : Call} {a : Answer} {ts : List Task} {task other : Task} {d : Delivery}

/-! ## The task that is blocked -/

/-- The blocked tasks after a call: a task that receives anew, gives up or is woken is blocked no longer, and a
task that is told to wait is blocked from then on. -/
def stillBlocked (s : Socket) (blocked : List Task) (c : Call) : List Task :=
  blocked.filter (fun t => decide (c.task? ≠ some t ∧ t ∉ s.woken c)) ++
    if s.answer c = .pending then c.task?.toList else []

/-- The blocked tasks after several calls. -/
def blocked (s : Socket) (now : List Task) : List Call → List Task
  | [] => now
  | c :: cs => (s.after c).blocked (s.stillBlocked now c) cs

theorem mem_waiters : task ∈ s.waiters ↔ s.waiter.waiter = some task := Option.mem_toList

theorem waiters_of_none (h : s.waiter.waiter = none) : s.waiters = [] := by unfold waiters; rw [h]; rfl

/-- A call that neither wakes anybody nor is one of the recorded task's leaves that task blocked. -/
theorem filter_waiters (h : ∀ k, s.waiter.waiter = some k → c.task? ≠ some k) :
    (s.waiters.filter fun t => decide (c.task? ≠ some t ∧ t ∉ ([] : List Task))) = s.waiters := by
  rw [List.filter_eq_self]
  intro k hk
  exact decide_eq_true ⟨h k (mem_waiters.1 hk), List.not_mem_nil⟩

/-- Whom a call wakes, it no longer leaves blocked. -/
theorem filter_woken (s : Socket) (c : Call) :
    (s.waiters.filter fun t => decide (c.task? ≠ some t ∧ t ∉ s.waiters)) = [] := by
  rw [List.filter_eq_nil_iff]
  intro k hk
  simp [hk]

theorem filter_own (h : ∀ k, s.waiter.waiter = some k → c.task? = some k) :
    (s.waiters.filter fun t => decide (c.task? ≠ some t ∧ t ∉ ts)) = [] := by
  rw [List.filter_eq_nil_iff]
  intro k hk
  simp [h k (mem_waiters.1 hk)]

/-- The recorded task is the blocked one after a call, if it was before. -/
theorem Step.blocked (h : Step s c a s' ts) (ho : s.Orderly) :
    (s.waiters.filter fun t => decide (c.task? ≠ some t ∧ t ∉ ts)) ++
      (if a = .pending then c.task?.toList else []) = s'.waiters := by
  -- the calls of no task, that wake nobody
  have others : c.task? = none → ts = [] → s'.waiters = s.waiters →
      (s.waiters.filter fun t => decide (c.task? ≠ some t ∧ t ∉ ts)) ++
        (if a = .pending then c.task?.toList else []) = s'.waiters := by
    rintro hc rfl hw
    rw [filter_waiters fun k _ => by rw [hc]; nofun, hc, hw]
    simp
  cases h with
  | bind _ => exact others rfl rfl rfl
  | bound _ => exact others rfl rfl rfl
  | unbind _ => rw [filter_woken]; rfl
  | unbound _ => exact others rfl rfl rfl
  | take _ hl _ =>
    have hw := waiter_of_cons ho hl
    rw [waiters_of_none hw]
    exact (waiters_of_none hw).symm
  | wait _ _ _ hw => rw [filter_own fun k hk => by rw [hw k hk]; rfl]; rfl
  | @busy task other room hr hk =>
    rw [filter_waiters, if_neg (by decide), List.append_nil]
    rintro k hw ht
    obtain rfl : task = k := Option.some.inj ht
    rcases hr with hr | hr
    · rw [waiter_of_held ho hr] at hw; cases hw
    · rw [hw] at hr; exact hk (Option.some.inj hr).symm
  | closed hb _ => rw [waiters_of_none (waiter_of_unbound ho hb)]; rfl
  | @cancel task =>
    rw [if_neg (by decide), List.append_nil]
    by_cases hw : s.waiter.waiter = some task
    · have hc : (s.cancel task).waiter.waiter = none := by
        show (s.waiter.cancel task).waiter = none
        unfold WaitCell.cancel; rw [if_pos hw]
      rw [filter_own (c := .cancel task) fun k hk => hw.symm.trans hk, waiters_of_none hc]
    · have hc : (s.cancel task).waiters = s.waiters := by
        show (s.waiter.cancel task).waiter.toList = _
        rw [WaitCell.cancel_of_ne hw]; rfl
      rw [filter_waiters, hc]
      rintro k hk ht
      exact hw (hk.trans ht.symm)
  | arrive _ _ _ => rw [filter_woken]; rfl
  | refuse _ => exact others rfl rfl rfl

/-- In a run the blocked task is the recorded one. -/
theorem blocked_run : ∀ (cs : List Call) {s : Socket}, s.Orderly → s.blocked s.waiters cs = (s.run cs).waiters
  | [], _, _ => rfl
  | c :: cs, s, ho => by
    have hc : s.stillBlocked s.waiters c = (s.after c).waiters := (perform_step ho c).blocked ho
    show (s.after c).blocked (s.stillBlocked s.waiters c) cs = _
    rw [hc]
    exact blocked_run cs (orderly_after ho c)

theorem recv_of_waiter (ho : s.Orderly) (h : s.waiter.waiter = some other) (hk : other ≠ task) (room : Nat) :
    s.recv task room = (.ready (.error .busy), s) := by
  obtain ⟨hl, hr⟩ := ho.idle other h
  have hs : { s with reserved := none } = s := by rw [← hr]
  have hb : s.binding ≠ none := by
    intro hb
    rw [waiter_of_unbound ho hb] at h; cases h
  rw [recv_of_free (by rw [hr]; nofun), hs, next_of_waiter ho.queue hl hb h hk]

/-! ## The task that the queue is held for -/

theorem Step.held_of_woken (h : Step s (.deliver d) a s' ts) (hm : task ∈ ts) : s'.reserved = some task := by
  cases h with
  | arrive _ _ _ =>
    show s.waiter.waiter.or s.reserved = _
    rw [mem_waiters.1 hm]; rfl
  | refuse _ => cases hm

/-- The queue stays held for a task that neither receives nor gives up, while the socket stays bound. -/
theorem Step.held (h : Step s c a s' ts) (ho : s.Orderly) (hr : s.reserved = some task) (hu : c ≠ .unbind)
    (hc : c.task? ≠ some task) : s'.reserved = some task := by
  cases h with
  | bind _ => exact hr
  | bound _ => exact hr
  | unbind _ => exact absurd rfl hu
  | unbound _ => exact hr
  | take hown _ _ => exact absurd (congrArg some (hown task hr).symm) hc
  | wait _ _ hfree _ => rw [hfree] at hr; cases hr
  | busy _ _ => exact hr
  | closed _ _ => exact hr
  | @cancel other =>
    show (if s.reserved = some other then none else s.reserved) = some task
    rw [if_neg, hr]
    intro ht
    exact hc (ht.symm.trans hr)
  | arrive _ _ _ =>
    show s.waiter.waiter.or s.reserved = some task
    rw [waiter_of_held ho hr]; exact hr
  | refuse _ => exact hr

theorem run_held : ∀ {cs : List Call} {s : Socket}, s.Orderly → s.reserved = some task →
    (∀ c ∈ cs, c ≠ .unbind ∧ c.task? ≠ some task) → (s.run cs).reserved = some task
  | [], _, _, hr, _ => hr
  | c :: cs, s, ho, hr, hc => by
    obtain ⟨hu, ht⟩ := hc c List.mem_cons_self
    rw [run_cons]
    refine run_held (orderly_after ho c) ?_ fun c hm => hc c (List.mem_cons_of_mem _ hm)
    exact (perform_step ho c).held ho hr hu ht

end Waiting

/-- In every run of a socket a waiting task excludes datagrams and a reservation, and a reservation comes with a
datagram. At most one task is blocked, and turns away all others. And a task that a delivery wakes, until it
receives or gives up or the binding is given up, turns away all others, and receives the oldest datagram. -/
theorem wait_protocol (before : List Call) :
    let s := empty.run before
    (∀ task, s.waiter.waiter = some task →
      s.binding.isSome = true ∧ s.queue.toList = [] ∧ s.reserved = none) ∧
    (∀ task, s.reserved = some task → s.queue.toList ≠ [] ∧ s.waiter.waiter = none) ∧
    (empty.blocked [] before).length ≤ 1 ∧
    (∀ task ∈ empty.blocked [] before, ∀ other room, other ≠ task →
      s.recv other room = (.ready (.error .busy), s)) ∧
    ∀ d, ∀ task ∈ s.woken (.deliver d), ∀ cs, (∀ c ∈ cs, c ≠ .unbind ∧ c.task? ≠ some task) →
      let u := (s.after (.deliver d)).run cs
      (∀ other room, other ≠ task → u.recv other room = (.ready (.error .busy), u)) ∧
      ∃ x rest, u.queue.toList = x :: rest ∧ ∀ room,
        (u.recv task room).1 = .ready (.ok (x.read room)) ∧ (u.recv task room).2.queue.toList = rest := by
  intro s
  have ho : s.Orderly := run_orderly empty_orderly before
  have hblocked : empty.blocked [] before = s.waiters := blocked_run before empty_orderly
  refine ⟨?_, ?_, ?_, ?_, ?_⟩
  · intro task hw
    obtain ⟨hl, hr⟩ := ho.idle task hw
    exact ⟨ho.bound (by rw [hw]; rfl), hl, hr⟩
  · intro task hr
    exact ⟨ho.held task hr, waiter_of_held ho hr⟩
  · rw [hblocked]
    unfold waiters; cases s.waiter.waiter <;> simp
  · rintro task hm other room hk
    rw [hblocked, mem_waiters] at hm
    exact recv_of_waiter ho hm hk.symm room
  · intro d task hm cs hcs u
    have hd := perform_step ho (.deliver d)
    have hu : u.Orderly := run_orderly (hd.orderly ho) cs
    have hr : u.reserved = some task := run_held (hd.orderly ho) (hd.held_of_woken hm) hcs
    refine ⟨fun other room hk => recv_of_others hr hk.symm room, ?_⟩
    obtain ⟨x, rest, hl⟩ := List.exists_cons_of_ne_nil (hu.held task hr)
    refine ⟨x, rest, hl, ?_⟩
    intro room
    have hown : ∀ owner, u.reserved = some owner → owner = task := by
      rw [hr]; intro owner h; exact (Option.some.inj h).symm
    rw [recv_of_cons hu hl hown room]
    refine ⟨rfl, ?_⟩
    show u.queue.pop.2.toList = rest
    rw [Queue.toList_pop hu.queue, hl]; rfl

/-- Task 1 is woken by the first of six deliveries. Two datagrams are given up before it receives, task 2 is turned
away, and task 1 receives the third. -/
theorem wait_protocol_evicting :
    let s := empty.run [.bind ⟨.unspecified, 7⟩, .recv ⟨1⟩ 16]
    let d := fun n : UInt8 => Delivery.ofContent {} [n, n]
    let u := (s.after (.deliver (d 1))).run ((List.range 5).map fun n => .deliver (d (UInt8.ofNat (n + 2))))
    u.recv ⟨2⟩ 16 = (.ready (.error .busy), u) ∧
      (u.recv ⟨1⟩ 1).1 = .ready (.ok ⟨[3], 2, .unspecified, 0⟩) ∧ (u.recv ⟨1⟩ 1).2.available = 3 := by
  intro s d u
  have hwoken : ⟨1⟩ ∈ s.woken (.deliver (d 1)) := by decide +kernel
  have hqueue : u.queue.toList = [3, 4, 5, 6].map fun n => ⟨.unspecified, 0, 2, [n, n]⟩ := by decide +kernel
  obtain ⟨-, -, -, -, hpromise⟩ := wait_protocol [.bind ⟨.unspecified, 7⟩, .recv ⟨1⟩ 16]
  obtain ⟨hbusy, x, rest, hl, hrecv⟩ := hpromise (d 1) ⟨1⟩ hwoken
    ((List.range 5).map fun n => .deliver (d (UInt8.ofNat (n + 2)))) (by simp [Call.task?])
  have hx : x = ⟨.unspecified, 0, 2, [3, 3]⟩ := by
    rw [show u.queue.toList = x :: rest from hl] at hqueue
    exact (List.cons.inj hqueue).1
  refine ⟨hbusy ⟨2⟩ 16 (by decide), ?_, by decide +kernel⟩
  rw [hx] at hrecv
  exact (hrecv 1).1

end UdpStack.Udp.Socket
