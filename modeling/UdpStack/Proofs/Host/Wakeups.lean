/-
Who waits and who is told. Every task that waits does so in the cell of a socket or in the table of
neighbors, and every wake-up passes through one list with room for all of them at once. A step of a
host lets a task stop waiting only by recording it, and forgets a record only by notifying the task
(`Progress`); so a poll progresses, and so does what follows on the way down of a packet
(`progress_poll`, `Quiet.descend`).
-/
import UdpStack.Proofs.Arp.Waiting
import UdpStack.Proofs.Bounded.Pool
import UdpStack.Proofs.Host.Poll

namespace UdpStack.Host

open Bounded Device

variable {δ : Type}

/-! ## The weight of waiting tasks -/

/-- The sum of a quantity over recorded and waiting tasks. -/
def load (c : Task → Nat) (h : Host δ) : Nat :=
  h.wakeups.weight c + h.sockets.total (Udp.Socket.waiting c) + h.resolver.waits.weight c

/-- The sum of a quantity over notified, recorded and waiting tasks, each as often as it is. -/
def spent (c : Task → Nat) (h : Host δ) : Nat := (h.notified.map c).sum + h.load c

/-- There is room for every task that waits, and none was lost. -/
structure Sound (h : Host δ) : Prop where
  sockets : h.sockets.All Udp.Socket.WF
  resolver : h.resolver.WF
  wakeups : h.wakeups.Complete
  room : h.load (fun _ => 1) ≤ Limits.wakeups
  kept : h.lost = false

/-- Between two calls no wake-up is recorded. -/
structure Quiet (h : Host δ) : Prop where
  sockets : h.sockets.All Udp.Socket.WF
  resolver : h.resolver.WF
  wakeups : h.wakeups = .empty
  kept : h.lost = false

theorem Quiet.sound {h : Host δ} (hq : h.Quiet) : h.Sound := by
  refine ⟨hq.sockets, hq.resolver, by rw [hq.wakeups]; exact Wakeups.empty_complete, ?_, hq.kept⟩
  have h1 : h.sockets.total (Udp.Socket.waiting fun _ => 1) ≤ Limits.sockets :=
    Pool.total_le Udp.Socket.waiting_one_le _
  have h2 : h.resolver.waits.weight (fun _ => 1) ≤ Limits.waiters :=
    Arp.Resolver.weight_waits_le hq.resolver
  unfold load
  rw [hq.wakeups, Wakeups.weight_empty]
  show _ ≤ Limits.sockets + Limits.waiters
  omega

/-! ## Progress -/

/-- A task waits in a socket with some queue. -/
def Awaits (h : Host δ) (s : Handle) (task : Task) (q : Queue Udp.Datagram Limits.socketQueue) : Prop :=
  ∃ socket, h.sockets.get? s = some socket ∧ socket.waiter.waiter = some task ∧ socket.queue = q

/-- A task was notified between two hosts, or its wake-up is recorded in the second one. -/
def Reported (h h' : Host δ) (task : Task) : Prop :=
  ∃ new, h'.notified = h.notified ++ new ∧ (task ∈ new ∨ task ∈ h'.wakeups.tasks)

/-- From one host to a later one, within a call, tasks stop waiting only by being told. -/
structure Progress (h h' : Host δ) : Prop where
  sound : h'.Sound
  spent_le : ∀ c, h'.spent c ≤ h.spent c
  notified : ∃ new, h'.notified = h.notified ++ new
  recorded : ∀ task ∈ h.wakeups.tasks, Reported h h' task
  awaits : ∀ s task q, h.Awaits s task q → Reported h h' task ∨ h'.Awaits s task q
  waits : ∀ e ∈ h.resolver.waits, Reported h h' e.1 ∨ e ∈ h'.resolver.waits

theorem reported_of_recorded {h : Host δ} {task : Task} (ht : task ∈ h.wakeups.tasks) : Reported h h task :=
  ⟨[], (List.append_nil _).symm, .inr ht⟩

theorem Progress.refl {h : Host δ} (hs : h.Sound) : Progress h h where
  sound := hs
  spent_le _ := le_rfl
  notified := ⟨[], (List.append_nil _).symm⟩
  recorded _ ht := reported_of_recorded ht
  awaits _ _ _ ha := .inr ha
  waits _ he := .inr he

theorem Reported.trans {h g g' : Host δ} {task : Task} (hr : Reported h g task) (hp : Progress g g') :
    Reported h g' task := by
  obtain ⟨new, hn, ht⟩ := hr
  rcases ht with ht | ht
  · obtain ⟨new', hn'⟩ := hp.notified
    exact ⟨new ++ new', by rw [hn', hn, List.append_assoc], .inl (List.mem_append_left _ ht)⟩
  · obtain ⟨new', hn', ht'⟩ := hp.recorded task ht
    exact ⟨new ++ new', by rw [hn', hn, List.append_assoc], ht'.imp (List.mem_append_right _) id⟩

theorem Reported.since {h g g' : Host δ} {task : Task} (hn : ∃ new, g.notified = h.notified ++ new)
    (hr : Reported g g' task) : Reported h g' task := by
  obtain ⟨new, hn⟩ := hn
  obtain ⟨new', hn', ht⟩ := hr
  exact ⟨new ++ new', by rw [hn', hn, List.append_assoc], ht.imp (List.mem_append_right _) id⟩

theorem Progress.trans {h g g' : Host δ} (hp : Progress h g) (hp' : Progress g g') : Progress h g' where
  sound := hp'.sound
  spent_le c := (hp'.spent_le c).trans (hp.spent_le c)
  notified := by
    obtain ⟨new, hn⟩ := hp.notified
    obtain ⟨new', hn'⟩ := hp'.notified
    exact ⟨new ++ new', by rw [hn', hn, List.append_assoc]⟩
  recorded task ht := (hp.recorded task ht).trans hp'
  awaits s task q ha := by
    rcases hp.awaits s task q ha with hr | ha
    · exact .inl (hr.trans hp')
    · exact (hp'.awaits s task q ha).imp_left (Reported.since hp.notified)
  waits e he := by
    rcases hp.waits e he with hr | he
    · exact .inl (hr.trans hp')
    · exact (hp'.waits e he).imp_left (Reported.since hp.notified)

/-- A step that notifies nobody progresses if recorded tasks stay recorded and nothing grows. -/
theorem progress_of_silent {h h' : Host δ} (hs : h'.Sound) (hn : h'.notified = h.notified)
    (hl : ∀ c, h'.load c ≤ h.load c) (hr : ∀ task ∈ h.wakeups.tasks, task ∈ h'.wakeups.tasks)
    (ha : ∀ s task q, h.Awaits s task q → task ∈ h'.wakeups.tasks ∨ h'.Awaits s task q)
    (hw : ∀ e ∈ h.resolver.waits, e.1 ∈ h'.wakeups.tasks ∨ e ∈ h'.resolver.waits) : Progress h h' := by
  have hn' : h'.notified = h.notified ++ [] := by rw [hn, List.append_nil]
  refine ⟨hs, ?_, ⟨[], hn'⟩, fun task ht => ⟨[], hn', .inr (hr task ht)⟩,
    fun s task q h => (ha s task q h).imp_left fun ht => ⟨[], hn', .inr ht⟩,
    fun e he => (hw e he).imp_left fun ht => ⟨[], hn', .inr ht⟩⟩
  intro c
  unfold spent
  rw [hn]
  exact Nat.add_le_add_left (hl c) _

/-! ## Steps that are about other things -/

theorem total_set_waiting {p : Pool Udp.Socket Limits.sockets} {s : Handle} {socket socket' : Udp.Socket}
    (hs : p.get? s = some socket) (c : Task → Nat) (hw : socket'.waiting c ≤ socket.waiting c) :
    (p.set s socket').total (Udp.Socket.waiting c) ≤ p.total (Udp.Socket.waiting c) := by
  have := Pool.total_set (Udp.Socket.waiting c) hs socket'
  omega

/-- Only what has nothing to do with waiting differs. -/
theorem progress_of_same {h h' : Host δ} (hs : h.Sound) (hsock : h'.sockets = h.sockets)
    (hr : h'.resolver.WF) (hres : h'.resolver.waits = h.resolver.waits) (hw : h'.wakeups = h.wakeups)
    (hn : h'.notified = h.notified) (hk : h'.lost = h.lost) : Progress h h' := by
  have hl : ∀ c, h'.load c = h.load c := fun c => by unfold load; rw [hw, hsock, hres]
  refine progress_of_silent ⟨by rw [hsock]; exact hs.sockets, hr, by rw [hw]; exact hs.wakeups,
    by rw [hl]; exact hs.room, by rw [hk]; exact hs.kept⟩ hn (fun c => (hl c).le) (fun _ ht => by rwa [hw])
    (fun s task q ha => .inr ?_) (fun e he => .inr (by rwa [hres]))
  unfold Awaits at ha ⊢
  rwa [hsock]

/-- One socket changes, but neither who waits in it nor its queue. -/
theorem progress_set {h : Host δ} (hs : h.Sound) {s : Handle} {socket : Udp.Socket}
    (hsock : h.sockets.get? s = some socket) (socket' : Udp.Socket) (hw : socket'.WF)
    (hc : socket'.waiter = socket.waiter)
    (hq : socket'.queue = socket.queue) : Progress h { h with sockets := h.sockets.set s socket' } := by
  have hwait : ∀ c, socket'.waiting c = socket.waiting c := fun c => by
    unfold Udp.Socket.waiting Udp.Socket.waiters; rw [hc]
  have hl : ∀ c, load c { h with sockets := h.sockets.set s socket' } ≤ h.load c := fun c => by
    have := total_set_waiting hsock c (hwait c).le
    unfold load
    dsimp only
    omega
  refine progress_of_silent ⟨hs.sockets.set s hw, hs.resolver, hs.wakeups,
    (hl _).trans hs.room, hs.kept⟩ rfl hl (fun _ ht => ht) (fun x task q ha => .inr ?_) (fun e he => .inr he)
  obtain ⟨old, hx, ht, hq'⟩ := ha
  by_cases hxs : x = s
  · subst hxs
    rw [hsock] at hx; cases hx
    exact ⟨socket', by rw [Pool.get?_set, if_pos ⟨rfl, by rw [hsock]; rfl⟩], by rw [hc]; exact ht,
      by rw [hq]; exact hq'⟩
  · exact ⟨old, by rw [Pool.get?_set, if_neg fun h => hxs h.1]; exact hx, ht, hq'⟩

theorem progress_count {h : Host δ} (hs : h.Sound) (layer : Layer) (f : Counters → Counters) :
    Progress h (h.count layer f) := by
  obtain ⟨_, _, _, _, _, _, sockets, he, hsock⟩ := count_eq h layer f
  rw [he]
  rcases hsock with rfl | ⟨s, socket, c, hg, rfl⟩
  · exact progress_of_same hs rfl hs.resolver rfl rfl rfl rfl
  · have hw := hs.sockets s socket hg
    have hp := progress_set hs hg { socket with counters := c } ⟨hw.queue, hw.bound⟩ rfl rfl
    exact hp.trans (progress_of_same hp.sound rfl hs.resolver rfl rfl rfl rfl)

/-! ## Steps that record and notify -/

/-- The recorded tasks with those that stop waiting find room. -/
theorem recorded_of_room {w : Wakeups} (hw : w.Complete) (ts : List Task)
    (hr : w.weight (fun _ => 1) + (ts.map fun _ => 1).sum ≤ Limits.wakeups) :
    (w.wakeAll ts).Complete ∧ ∀ t ∈ ts, t ∈ (w.wakeAll ts).tasks := by
  apply Wakeups.wakeAll_of_room ts hw
  rw [Wakeups.weight_one] at hr
  simpa using hr

/-- The resolver lets tasks go by waking them. -/
theorem progress_heard {h : Host δ} (hs : h.Sound) {r : Arp.Resolver} {w : Wakeups} (hr : r.WF)
    (hm : Arp.Moves h.resolver.waits h.wakeups r.waits w) : Progress h (h.heard r w) := by
  obtain ⟨ts, rfl, hsum, hmem⟩ := hm
  have hroom := hs.room
  have hone := hsum fun _ => 1
  unfold load at hroom
  -- every waiting task has a place kept in the list, so those that stop waiting find one
  obtain ⟨hc, hall⟩ := recorded_of_room hs.wakeups ts (by omega)
  have hl : ∀ c, (h.heard r (h.wakeups.wakeAll ts)).load c ≤ h.load c := fun c => by
    have h1 := Wakeups.weight_wakeAll_le c ts hs.wakeups.pending
    have h2 := hsum c
    unfold load heard
    dsimp only
    omega
  exact progress_of_silent ⟨hs.sockets, hr, hc, (hl _).trans hs.room, hs.kept⟩ rfl hl
    (fun _ ht => Wakeups.mem_tasks_wakeAll ts hs.wakeups.pending ht) (fun _ _ _ ha => .inr ha)
    (fun e he => (hmem e he).symm.imp_left (hall e.1))

/-- Emptying the cell of a socket wakes the task in it. -/
theorem progress_freed {h : Host δ} (hs : h.Sound) {s : Handle} {socket : Udp.Socket}
    (hsock : h.sockets.get? s = some socket) (socket' : Udp.Socket) (hw : socket'.WF)
    (he : socket'.waiter = .empty) :
    Progress h { h with
      sockets := h.sockets.set s socket'
      wakeups := h.wakeups.wakeAll socket.waiters } ∧
    ∀ task ∈ socket.waiters, task ∈ (h.wakeups.wakeAll socket.waiters).tasks := by
  have hnone : ∀ c, socket'.waiting c = 0 := fun c => by
    unfold Udp.Socket.waiting Udp.Socket.waiters; rw [he]; rfl
  have htotal : ∀ c, (h.sockets.set s socket').total (Udp.Socket.waiting c) +
      (socket.waiters.map c).sum = h.sockets.total (Udp.Socket.waiting c) := fun c => by
    have := Pool.total_set (Udp.Socket.waiting c) hsock socket'
    rw [hnone] at this
    exact this
  have hroom := hs.room
  have hone := htotal fun _ => 1
  unfold load at hroom
  -- the task in the cell weighs as much in the list
  obtain ⟨hc, hall⟩ := recorded_of_room hs.wakeups socket.waiters (by omega)
  have hl : ∀ c, load c { h with
      sockets := h.sockets.set s socket'
      wakeups := h.wakeups.wakeAll socket.waiters } ≤ h.load c := fun c => by
    have h1 := Wakeups.weight_wakeAll_le c socket.waiters hs.wakeups.pending
    have h2 := htotal c
    unfold load
    dsimp only
    omega
  refine ⟨progress_of_silent ⟨hs.sockets.set s hw, hs.resolver, hc, (hl _).trans hs.room,
    hs.kept⟩ rfl hl (fun _ ht => Wakeups.mem_tasks_wakeAll _ hs.wakeups.pending ht)
    ?_ (fun e he => .inr he), hall⟩
  rintro x task q ⟨old, hx, ht, hq⟩
  by_cases hxs : x = s
  · subst hxs
    rw [hsock] at hx; cases hx
    exact .inl (hall task (by unfold Udp.Socket.waiters; rw [ht]; simp))
  · exact .inr ⟨old, by rw [Pool.get?_set, if_neg fun h => hxs h.1]; exact hx, ht, hq⟩

theorem progress_handed {h : Host δ} (hs : h.Sound) {s : Handle} {socket : Udp.Socket} (t : Transit)
    (hsock : h.sockets.get? s = some socket) : Progress h (h.handed s socket t) := by
  have hw := hs.sockets s socket hsock
  cases ha : socket.accepts t.info.dstAddr with
  | false =>
    unfold handed
    rw [Udp.Socket.receivePass_of_rejects ha]
    exact progress_set hs hsock socket hw rfl rfl
  | true =>
    have hw' := Udp.Socket.receivePass_wf hw t h.wakeups
    obtain ⟨q, p, he, -, -⟩ := Udp.Socket.receivePass_of_accepts ha h.wakeups
    unfold handed
    rw [he] at hw' ⊢
    exact (progress_freed hs hsock _ hw' rfl).1

/-- Delivering notifies exactly the recorded tasks. -/
theorem progress_deliver {h : Host δ} (hs : h.Sound) : Progress h h.deliver := by
  have hn : h.deliver.notified = h.notified ++ h.wakeups.tasks := rfl
  have hl : ∀ c, h.deliver.load c + h.wakeups.weight c = h.load c := fun c => by
    show Wakeups.weight c .empty + h.sockets.total _ + h.resolver.waits.weight c + _ = _
    rw [Wakeups.weight_empty]
    unfold load
    omega
  have hroom := hl fun _ => 1
  have hk : h.deliver.lost = false := by
    show (h.lost || h.wakeups.overflowed) = false
    rw [hs.kept, hs.wakeups.kept]; rfl
  refine ⟨⟨hs.sockets, hs.resolver, Wakeups.empty_complete, ?_, hk⟩, ?_, ⟨_, hn⟩,
    fun task ht => ⟨_, hn, .inl ht⟩, fun _ _ _ ha => .inr ha, fun _ he => .inr he⟩
  · have := hs.room; omega
  · intro c
    have := hl c
    unfold spent
    rw [hn, List.map_append, List.sum_append]
    unfold Wakeups.weight at this
    omega

theorem quiet_deliver {h : Host δ} (hs : h.Sound) : h.deliver.Quiet :=
  ⟨hs.sockets, hs.resolver, rfl, (progress_deliver hs).sound.kept⟩

/-! ## Passes and polls -/

theorem stablePoll_progress [Nic δ] (h₀ : Host δ) : StablePoll (Progress h₀) where
  count layer f hp := hp.trans (progress_count hp.sound layer f)
  numbered _ hp := hp.trans (progress_of_same hp.sound rfl hp.sound.resolver rfl rfl rfl rfl)
  heard hp hx := by
    obtain ⟨hr, hm⟩ := Arp.Resolver.receivePass_moves hp.sound.resolver hx
    exact hp.trans (progress_heard hp.sound hr hm)
  handed t hp hs := hp.trans (progress_handed hp.sound t hs)
  sent _ hp := hp.trans (progress_of_same hp.sound rfl hp.sound.resolver rfl rfl rfl rfl)
  outgoing hp := hp.trans (progress_of_same hp.sound rfl (Arp.Resolver.outgoing_wf hp.sound.resolver)
    (Arp.Resolver.outgoing_waits _) rfl rfl rfl)
  txBuffer _ hp := hp.trans (progress_of_same hp.sound rfl hp.sound.resolver rfl rfl rfl rfl)
  deliver hp := hp.trans (progress_deliver hp.sound)
  expire now hp := by
    obtain ⟨hr, hm⟩ := Arp.Resolver.expire_moves hp.sound.resolver now _
    have hp' := progress_heard hp.sound hr hm
    exact (hp.trans hp').trans (progress_of_same hp'.sound rfl hp'.sound.resolver rfl rfl rfl rfl)
  take _ hp := hp.trans (progress_of_same hp.sound rfl hp.sound.resolver rfl rfl rfl rfl)
  rxBuffer _ hp := hp.trans (progress_of_same hp.sound rfl hp.sound.resolver rfl rfl rfl rfl)

/-! ## The way down of a packet -/

theorem Sound.quiet {h : Host δ} (hs : h.Sound) (hw : h.wakeups = .empty) : h.Quiet :=
  ⟨hs.sockets, hs.resolver, hw, hs.kept⟩

/-- On the way down of a packet nobody is told anything, and nobody has to be. -/
structure Settled (h h' : Host δ) : Prop where
  quiet : h'.Quiet
  notified : h'.notified = h.notified
  awaits : ∀ s task q, h.Awaits s task q → h'.Awaits s task q

theorem Settled.refl {h : Host δ} (hq : h.Quiet) : Settled h h := ⟨hq, rfl, fun _ _ _ ha => ha⟩

theorem not_reported {h h' : Host δ} (hn : h'.notified = h.notified) (hw : h'.wakeups = .empty) (task : Task) :
    ¬ Reported h h' task := by
  rintro ⟨new, hn', ht⟩
  rw [hn] at hn'
  obtain rfl := List.self_eq_append_right.1 hn'
  rw [hw] at ht
  exact ht.elim nofun nofun

theorem count_quiet {h : Host δ} (hq : h.Quiet) (layer : Layer) (f : Counters → Counters) :
    Settled h (h.count layer f) := by
  have hp := progress_count hq.sound layer f
  obtain ⟨_, _, _, _, _, _, _, he, -⟩ := count_eq h layer f
  have hw : (h.count layer f).wakeups = .empty := by rw [he]; exact hq.wakeups
  have hn : (h.count layer f).notified = h.notified := by rw [he]
  exact ⟨hp.sound.quiet hw, hn, fun s task q ha => (hp.awaits s task q ha).resolve_left (not_reported hn hw task)⟩

theorem asked_quiet {h : Host δ} (hq : h.Quiet) (x : Ipv4.Address) (task : Option Task) :
    (h.asked x task).Quiet :=
  ⟨hq.sockets, Arp.Resolver.lookup_wf hq.resolver x task h.now, hq.wakeups, hq.kept⟩

theorem stableDown_settled [Nic δ] (h₀ : Host δ) : StableDown (Settled h₀) where
  count layer f hs := by
    have hc := count_quiet hs.quiet layer f
    exact ⟨hc.quiet, hc.notified.trans hs.notified, fun s task q ha => hc.awaits s task q (hs.awaits s task q ha)⟩
  numbered _ hs := ⟨⟨hs.quiet.sockets, hs.quiet.resolver, hs.quiet.wakeups, hs.quiet.kept⟩, hs.notified, hs.awaits⟩

theorem mayAsk_settled (h₀ : Host δ) (t : Transit) : MayAsk (Settled h₀) t :=
  .inr fun x task hs => ⟨asked_quiet hs.quiet x task, hs.notified, hs.awaits⟩

theorem settled_descend [Nic δ] {h h' : Host δ} {layer caller : Layer} {t t' : Transit} {depth : Nat}
    {r : Except Fault (List (Layer × Layer))} (hq : h.Quiet)
    (e : h.descend t depth layer caller = some (r, h', t')) : Settled h h' :=
  (stableDown_settled h).descend depth (mayAsk_settled h t) (Settled.refl hq) e

/-- Stacking a header makes at most the task of the packet wait, and only if it has to. -/
theorem spent_transmitAt_le [Nic δ] {h h' : Host δ} {layer caller : Layer} {t t' : Transit}
    {r : Except Fault Next} (hq : h.Quiet) (e : h.transmitAt layer caller t = some (r, h', t'))
    (c : Task → Nat) :
    h'.spent c ≤ h.spent c + if r = .error .wouldBlock then t.info.task.elim 0 c else 0 := by
  rcases transmitAt_cases e with rfl | ⟨ident, rfl⟩ | ⟨-, rfl, hf⟩
  · exact Nat.le_add_right ..
  · exact Nat.le_add_right ..
  · cases hl : (h.resolver.lookup t.info.dstAddr t.info.task h.now).1 with
    | ok a =>
      have hr : h.asked t.info.dstAddr t.info.task = h := by
        unfold asked; rw [Arp.Resolver.lookup_of_ok hl]
      rw [hr]
      exact Nat.le_add_right ..
    | error f =>
      have hw := Arp.Resolver.weight_lookup_le hq.resolver t.info.dstAddr t.info.task h.now c
      rw [hl] at hw
      rw [hf f hl]
      simp only [Except.error.injEq] at hw ⊢
      unfold spent load asked
      dsimp only
      omega

/-- On its way down a packet makes at most its task wait, and only if it has to. -/
theorem spent_descend_le [Nic δ] (c : Task → Nat) : ∀ (depth : Nat) {h h' : Host δ} {layer caller : Layer}
    {t t' : Transit} {r : Except Fault (List (Layer × Layer))}, h.Quiet →
    h.descend t depth layer caller = some (r, h', t') →
    h'.spent c ≤ h.spent c + if r = .error .wouldBlock then t.info.task.elim 0 c else 0
  | 0, h, h', layer, caller, t, t', r, hq, e => by cases e; exact Nat.le_add_right ..
  | depth + 1, h, h', layer, caller, t, t', r, hq, e => by
    have keeps : ∀ {r g u}, h.transmitAt layer caller t = some (r, g, u) → g.Quiet := fun hx =>
      ((stableDown_settled h).transmitAt (mayAsk_settled h t) (Settled.refl hq) hx).quiet
    unfold Host.descend at e
    split at e
    · cases e
    · rename_i hx
      cases e
      simpa using spent_transmitAt_le hq hx c
    · rename_i f g u hf hx
      cases e
      have h1 := spent_transmitAt_le hq hx c
      have h2 := (progress_count (keeps hx).sound layer Counters.countDropped).spent_le c
      simp only [Except.error.injEq] at h1 ⊢
      omega
    · rename_i hx
      cases e
      have h1 := spent_transmitAt_le hq hx c
      simpa using h1
    · rename_i lower g u hx
      have h1 := spent_transmitAt_le hq hx c
      -- the layers below send for the same task
      have ht := (transmitAt_stacked hx).task
      simp only [reduceCtorEq, if_false, Nat.add_zero] at h1
      split at e
      · cases e
      · rename_i hy
        cases e
        have h2 := spent_descend_le c depth (keeps hx) hy
        rw [ht] at h2
        simp only [Except.error.injEq] at h2 ⊢
        omega
      · rename_i hy
        cases e
        have h2 := spent_descend_le c depth (keeps hx) hy
        simp only [reduceCtorEq, if_false, Nat.add_zero] at h2 ⊢
        omega

end UdpStack.Host
