/-
What calls add to the tasks that were told to wait. Between calls no wake-up is recorded, and a call
makes at most the task wait that it answers so (`accounted_perform`); so over a whole run notified
and waiting tasks together are no more than those that were told to wait (`run_accounted`).
-/
import UdpStack.Proofs.Host.Effects
import UdpStack.Proofs.Host.Rounds
import UdpStack.Proofs.Host.Wakeups

namespace UdpStack.Host

open Bounded Device

variable {δ : Type}

/-! ## What a call accounts for -/

/-- From one host between calls to the next, with at most one more task that has to wait. -/
structure Accounted (owed : Option Task) (h h' : Host δ) : Prop where
  quiet : h'.Quiet
  notified : ∃ new, h'.notified = h.notified ++ new
  spent_le : ∀ c, h'.spent c ≤ h.spent c + owed.elim 0 c

theorem Progress.accounted {h h' : Host δ} (hp : Progress h h') (hq : h'.Quiet) : Accounted none h h' :=
  ⟨hq, hp.notified, hp.spent_le⟩

theorem Accounted.refl {h : Host δ} (hq : h.Quiet) : Accounted none h h :=
  (Progress.refl hq.sound).accounted hq

/-- Only sockets change, and those that wait in them at most by one task. -/
theorem accounted_of_sockets {h : Host δ} (hq : h.Quiet) {p : Pool Udp.Socket Limits.sockets}
    {owed : Option Task} (hw : p.All Udp.Socket.WF)
    (ht : ∀ c, p.total (Udp.Socket.waiting c) ≤ h.sockets.total (Udp.Socket.waiting c) + owed.elim 0 c) :
    Accounted owed h { h with sockets := p } := by
  refine ⟨⟨hw, hq.resolver, hq.wakeups, hq.kept⟩, ⟨[], (List.append_nil _).symm⟩, ?_⟩
  intro c
  have := ht c
  unfold spent load
  dsimp only
  omega

theorem accounted_acquired {h : Host δ} (hq : h.Quiet) {s : Handle} {p : Pool Udp.Socket Limits.sockets}
    (hp : h.sockets.acquire .empty = .ok (s, p)) : Accounted none h { h with sockets := p } := by
  apply accounted_of_sockets hq (hq.sockets.acquire Udp.Socket.empty_wf hp)
  intro c
  rw [Pool.total_acquire _ hp]
  exact le_rfl

theorem accounted_bound {h : Host δ} (hq : h.Quiet) {s : Handle} {socket : Udp.Socket}
    (hs : h.sockets.get? s = some socket) (b : Udp.Binding) (ports : Udp.Ports) :
    Accounted none h (h.bound s socket b ports) := by
  have hw : Udp.Socket.WF { socket with binding := some b } := ⟨(hq.sockets s socket hs).queue, fun _ => rfl⟩
  have hacc : Accounted none h { h with sockets := h.sockets.set s { socket with binding := some b } } := by
    apply accounted_of_sockets hq (hq.sockets.set s hw)
    intro c
    exact total_set_waiting hs c le_rfl
  exact ⟨⟨hacc.quiet.sockets, hq.resolver, hq.wakeups, hq.kept⟩, hacc.notified, hacc.spent_le⟩

/-- Giving up a binding tells the waiting task. -/
theorem progress_unbound {h : Host δ} (hs : h.Sound) {s : Handle} {socket : Udp.Socket} {b : Udp.Binding}
    (hsock : h.sockets.get? s = some socket) :
    Progress h (h.unbound s socket b) ∧ (h.unbound s socket b).Quiet := by
  obtain ⟨hp, -⟩ := progress_freed hs hsock { socket with binding := none, reserved := none, waiter := .empty }
    ⟨(hs.sockets s socket hsock).queue, nofun⟩ rfl
  have hp' : Progress _ { h with
      sockets := h.sockets.set s { socket with binding := none, reserved := none, waiter := .empty }
      wakeups := h.wakeups.wakeAll socket.waiters
      ports := { h.ports with table := (h.ports.table.remove b.port).2 } } :=
    progress_of_same hp.sound rfl hs.resolver rfl rfl rfl rfl
  exact ⟨(hp.trans hp').trans (progress_deliver hp'.sound), quiet_deliver hp'.sound⟩

theorem accounted_unbound {h : Host δ} (hq : h.Quiet) {s : Handle} {socket : Udp.Socket}
    (hs : h.sockets.get? s = some socket) (b : Udp.Binding) : Accounted none h (h.unbound s socket b) := by
  obtain ⟨hp, hq'⟩ := progress_unbound (b := b) hq.sound hs
  exact hp.accounted hq'

theorem accounted_vacated {h : Host δ} (hq : h.Quiet) (s : Handle) : Accounted none h (h.vacated s) := by
  apply accounted_of_sockets hq (hq.sockets.release s)
  intro c
  cases hs : h.sockets.get? s with
  | none => rw [Pool.release_of_none hs]; exact le_rfl
  | some socket =>
    have := Pool.total_release (Udp.Socket.waiting c) hs
    show _ ≤ _ + 0
    omega

theorem Accounted.trans {h g g' : Host δ} {owed : Option Task} (ha : Accounted none h g)
    (ha' : Accounted owed g g') : Accounted owed h g' := by
  obtain ⟨new, hn⟩ := ha.notified
  obtain ⟨new', hn'⟩ := ha'.notified
  exact ⟨ha'.quiet, ⟨new ++ new', by rw [hn', hn, List.append_assoc]⟩, fun c =>
    (ha'.spent_le c).trans (Nat.add_le_add_right (ha.spent_le c) _)⟩

theorem accounted_recv {h : Host δ} (hq : h.Quiet) {s : Handle} {task : Task} {room : Nat}
    {socket socket' : Udp.Socket} {r : Poll Udp.Received} (hs : h.sockets.get? s = some socket)
    (hx : socket.recv task room = (r, socket')) :
    Accounted (if (Answer.received r).isPending then some task else none) h
      { h with sockets := h.sockets.set s socket' } := by
  apply accounted_of_sockets hq (hq.sockets.set s (Udp.Socket.recv_wf (hq.sockets s socket hs) hx))
  intro c
  have hset := Pool.total_set (Udp.Socket.waiting c) hs socket'
  rcases Udp.Socket.waiting_recv_le c hx with hle | ⟨rfl, hle⟩
  · omega
  · show _ ≤ _ + c task
    omega

theorem accounted_cancel {h : Host δ} (hq : h.Quiet) {s : Handle} {socket : Udp.Socket}
    (hs : h.sockets.get? s = some socket) (task : Task) :
    Accounted none h { h with sockets := h.sockets.set s (socket.cancel task) } := by
  apply accounted_of_sockets hq (hq.sockets.set s (Udp.Socket.cancel_wf (hq.sockets s socket hs) task))
  intro c
  exact total_set_waiting hs c (Udp.Socket.waiting_cancel_le c socket task)

/-! ## Polls -/

variable [Nic δ]

theorem quiet_flush {h h' : Host δ} (hs : h.Sound) (e : h.flush = some h') : h'.Quiet := by
  obtain ⟨g, hg, rfl⟩ := Option.map_eq_some_iff.1 e
  exact quiet_deliver ((stablePoll_progress h).sendMessages (Progress.refl hs) hg).sound

theorem quiet_receiveFrames : ∀ (k : Nat) {h h' : Host δ} {n : Nat} {r : Except Fault Nat}, h.Quiet →
    h.receiveFrames n k = some (r, h') → h'.Quiet
  | 0, h, h', n, r, hq, e => by cases e; exact hq
  | k + 1, h, h', n, r, hq, e => by
    have ht := (stablePoll_progress h).take h.rxBuffer.length (Progress.refl hq.sound)
    unfold Host.receiveFrames at e
    split at e
    · cases e; exact ⟨hq.sockets, hq.resolver, hq.wakeups, hq.kept⟩
    · rename_i hx
      rw [hx] at ht
      obtain ⟨g, hg, he⟩ := Option.map_eq_some_iff.1 e
      cases he
      exact quiet_flush (progress_count ht.sound .device .countDropped).sound hg
    · rename_i hx
      rw [hx] at ht
      split at e
      · cases e
      · rename_i hy
        obtain ⟨g, hg, hf⟩ := Option.bind_eq_some_iff.1 hy
        exact quiet_receiveFrames k (quiet_flush ((stablePoll_progress h).receiveFrame ht hg).sound hf) e

theorem progress_poll {h h' : Host δ} (hq : h.Quiet) {now : Instant} {r : Except Fault Nat}
    (e : h.poll now = some (r, h')) : Progress h h' ∧ h'.Quiet := by
  obtain ⟨g, hg, hr, -⟩ := poll_cases e
  have hs := (stablePoll_progress h).expire now (Progress.refl hq.sound)
  exact ⟨(stablePoll_progress h).poll (Progress.refl hq.sound) e,
    quiet_receiveFrames _ (quiet_flush hs.sound hg) hr⟩

/-! ## Sending -/

/-- A send tells those that it has to and makes at most its own task wait. -/
theorem send_spec {h h' : Host δ} (hq : h.Quiet) {s : Handle} {task : Task} {dst : Ipv4.Address}
    {port : UInt16} {payload : Octets} {r : Poll Nat} (e : h.send s task dst port payload = some (r, h')) :
    Accounted (if (Answer.sent r).isPending then some task else none) h h' ∧
      ∀ x u q, h.Awaits x u q → Reported h h' u ∨ h'.Awaits x u q := by
  rcases send_cases e with ⟨hr, he⟩ | ⟨p, result, g, t, -, -, hx, hf, hr⟩
  · have hp : Progress h h' ∧ h'.Quiet := by
      rcases he with rfl | hf
      · exact ⟨Progress.refl hq.sound, hq⟩
      · exact ⟨(stablePoll_progress h).flush (Progress.refl hq.sound) hf, quiet_flush hq.sound hf⟩
    have hn : (Answer.sent r).isPending = false := by
      cases r with
      | pending => exact absurd rfl hr
      | ready _ => rfl
    rw [hn]
    exact ⟨hp.1.accounted hp.2, hp.1.awaits⟩
  · -- the way down makes at most the task wait, and what follows only tells tasks
    obtain ⟨u, hs, hle, hu⟩ : ∃ u, Settled h u ∧
        (∀ c, u.spent c ≤ h.spent c + if result = .error .wouldBlock then c task else 0) ∧ Progress u g := by
      rcases transmit_cases hx with ⟨f, rfl, hd⟩ | ⟨path, u, v, hd, hfin⟩
      · have hs := settled_descend hq hd
        refine ⟨g, hs, ?_, Progress.refl hs.quiet.sound⟩
        intro c
        have := spent_descend_le c _ hq hd
        simpa using this
      · have hs := settled_descend hq hd
        refine ⟨u, hs, ?_, (stablePoll_progress u).finish path (Progress.refl hs.quiet.sound) hfin⟩
        intro c
        have := spent_descend_le c _ hq hd
        simp only [reduceCtorEq, if_false, Nat.add_zero] at this
        exact this.trans (Nat.le_add_right ..)
    have hb : Progress u { g with txBuffer := t.packet.bytes } :=
      hu.trans (progress_of_same hu.sound rfl hu.sound.resolver rfl rfl rfl rfl)
    have hp := (stablePoll_progress u).flush hb hf
    have hn : ∃ new, u.notified = h.notified ++ new := ⟨[], by rw [hs.notified, List.append_nil]⟩
    refine ⟨⟨quiet_flush hb.sound hf, ?_, ?_⟩, ?_⟩
    · obtain ⟨new, hn'⟩ := hp.notified
      exact ⟨new, by rw [hn', hs.notified]⟩
    -- the task waits if and only if the answer says so
    · intro c
      refine (hp.spent_le c).trans ((hle c).trans ?_)
      by_cases hres : result = .error .wouldBlock
      · rw [if_pos hres, hr.2 hres]; exact le_rfl
      · rw [if_neg hres]; exact Nat.le_add_right ..
    · intro x v q ha
      exact (hp.awaits x v q (hs.awaits x v q ha)).imp_left (Reported.since hn)

/-! ## Runs -/

/-- The task that a call was told to wait for. -/
def owed (c : Call δ) (a : Answer) : Option Task := if a.isPending then c.task? else none

omit [Nic δ] in
/-- Nothing changes of what tasks wait in or are told by. -/
theorem accounted_elsewhere {h g : Host δ} (hq : h.Quiet) (hs : g.sockets = h.sockets)
    (hr : g.resolver = h.resolver) (hw : g.wakeups = h.wakeups) (hn : g.notified = h.notified)
    (hl : g.lost = h.lost) : Accounted none h g := by
  have hp : Progress h g := progress_of_same hq.sound hs (by rw [hr]; exact hq.resolver) (by rw [hr]) hw hn hl
  refine hp.accounted ⟨?_, ?_, ?_, ?_⟩
  · rw [hs]; exact hq.sockets
  · rw [hr]; exact hq.resolver
  · rw [hw]; exact hq.wakeups
  · rw [hl]; exact hq.kept

omit [Nic δ] in
theorem owed_of_not_pending {c : Call δ} {a : Answer} (h : a.isPending = false) : owed c a = none := by
  unfold owed
  rw [h]
  rfl

theorem accounted_perform {h h' : Host δ} (hq : h.Quiet) (ha : h.setup.Agree) {c : Call δ} {a : Answer}
    (hl : LeavesResolver h c) (e : h.perform c = some (a, h')) : Accounted (owed c a) h h' := by
  cases effect_perform ha e with
  | same hn => rw [owed_of_not_pending hn]; exact Accounted.refl hq
  | acquire hp => exact accounted_acquired hq hp
  | release _ => exact accounted_vacated hq _
  | @releaseBound s socket b _ hs _ =>
    have hu := accounted_unbound hq hs b
    exact hu.trans (accounted_vacated hu.quiet _)
  | bind hs _ _ => exact accounted_bound hq hs _ _
  | unbind hs _ => exact accounted_unbound hq hs _
  | send hx => exact (send_spec hq hx).1
  | recv hs hx => exact accounted_recv hq hs hx
  | cancel hs => exact accounted_cancel hq hs _
  | poll hx =>
    obtain ⟨hp, hq'⟩ := progress_poll hq hx
    exact hp.accounted hq'
  | routes _ hn => rw [owed_of_not_pending hn]; exact accounted_elsewhere hq rfl rfl rfl rfl rfl
  | join _ => exact accounted_elsewhere hq rfl rfl rfl rfl rfl
  | leave _ => exact accounted_elsewhere hq rfl rfl rfl rfl rfl
  | device _ => exact accounted_elsewhere hq rfl rfl rfl rfl rfl
  | fill _ _ => exact hl.elim
  | resolver _ => exact hl.elim

theorem quiet_create {d : δ} {config : Config} {h : Host δ} (e : create d config = .ok h) :
    h.Quiet ∧ ∀ c, h.spent c = 0 := by
  obtain ⟨endpoint, router, -, -, rfl⟩ := create_eq_ok e
  have hr : (newResolver config).WF ∧ (newResolver config).waits = [] := by
    unfold newResolver
    cases config.mode with
    | derived => exact ⟨trivial, rfl⟩
    | table => exact ⟨Arp.Table.create_wf .., rfl⟩
  refine ⟨⟨Pool.all_empty _, hr.1, rfl, rfl⟩, ?_⟩
  intro c
  show 0 + (Wakeups.weight c .empty + Pool.total _ .empty + Arp.Waits.weight c (newResolver config).waits) = 0
  rw [hr.2, Pool.total_empty]
  rfl

/-- The number one for a task and zero for all others. -/
def one (task : Task) (t : Task) : Nat := if t = task then 1 else 0

omit [Nic δ] in
theorem sum_one (task : Task) : ∀ l : List Task, (l.map (one task)).sum = l.count task
  | [] => rfl
  | t :: l => by
    rw [List.map_cons, List.sum_cons, sum_one task l, List.count_cons, Nat.add_comm]
    unfold one
    by_cases ht : t = task
    · rw [if_pos ht, if_pos (by simpa using ht)]
    · rw [if_neg ht, if_neg (by simpa using ht)]

omit [Nic δ] in
theorem pendings_snoc (task : Task) (es : List (Call δ × Answer)) (c : Call δ) (a : Answer) :
    pendings task (es ++ [(c, a)]) = pendings task es + (owed c a).elim 0 (one task) := by
  unfold pendings owed
  rw [List.countP_append, List.countP_singleton]
  cases hp : a.isPending with
  | false => simp [hp]
  | true =>
    cases ht : c.task? with
    | none => simp [ht]
    | some t => simp [hp, ht, one]

/-- In a run nobody is told anything that is not accounted for. -/
theorem run_accounted {d : δ} {config : Config} {h g : Host δ} (hd : create d config = .ok h)
    {es : List (Call δ × Answer)} (hr : Run LeavesResolver h es g) :
    g.Quiet ∧ g.setup.Agree ∧ ∀ task, g.spent (one task) ≤ pendings task es := by
  induction hr with
  | nil =>
    obtain ⟨hq, hz⟩ := quiet_create hd
    exact ⟨hq, agree_create hd, fun task => (hz _).le⟩
  | snoc _ hl hc ih =>
    obtain ⟨hq, ha, hle⟩ := ih
    have hacc := accounted_perform hq ha hl hc
    refine ⟨hacc.quiet, agree_perform ha hc, ?_⟩
    intro task
    rw [pendings_snoc]
    exact (hacc.spent_le _).trans (Nat.add_le_add_right (hle task) _)

end UdpStack.Host
