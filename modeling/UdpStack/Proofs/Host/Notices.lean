/-
Wake-ups over whole runs. After every call each recorded wake-up is delivered and none was ever
lost; a task that waits is notified during the very call that ends its wait; and nobody is notified
more often than told to wait (`run_notices`).
-/
import UdpStack.Proofs.Host.Accounts
import UdpStack.Proofs.Host.Reception

namespace UdpStack.Host

open Bounded Device

variable {δ : Type}

/-! ## What ends a wait -/

/-- A task was notified between two hosts. -/
def Told (h h' : Host δ) (task : Task) : Prop := ∃ new, h'.notified = h.notified ++ new ∧ task ∈ new

theorem Reported.told {h h' : Host δ} {task : Task} (hr : Reported h h' task) (hq : h'.Quiet) : Told h h' task := by
  obtain ⟨new, hn, ht⟩ := hr
  rw [hq.wakeups] at ht
  exact ⟨new, hn, ht.resolve_right nofun⟩

theorem awaits_of_waiter? {h : Host δ} {s : Handle} {task : Task} (hw : h.waiter? s = some task) :
    ∃ q, h.Awaits s task q ∧ h.queue? s = some q := by
  obtain ⟨socket, hs, ht⟩ := Option.bind_eq_some_iff.1 hw
  exact ⟨socket.queue, ⟨socket, hs, ht, rfl⟩, by unfold queue?; rw [hs]; rfl⟩

theorem Awaits.queue?_eq {h : Host δ} {s : Handle} {task : Task} {q : Queue Udp.Datagram Limits.socketQueue}
    (ha : h.Awaits s task q) : h.queue? s = some q := by
  obtain ⟨socket, hs, -, rfl⟩ := ha
  unfold queue?; rw [hs]; rfl

variable [Nic δ]

/-- A call delivers a datagram to a socket: the ring of its queue moves, if only with one of the
frames of a poll. -/
def Delivers (h : Host δ) (c : Call δ) (h' : Host δ) (s : Handle) : Prop :=
  match c with
  | .send .. => h'.queue? s ≠ h.queue? s
  | .poll now => h'.queue? s ≠ h.queue? s ∨ ∃ r ∈ h.rounds now, r.after.queue? s ≠ r.before.queue? s
  | _ => False

/-- In a poll a valid message of an address reaches the resolver. Without a single host as its sender
a message is malformed. -/
def Hears (h : Host δ) (c : Call δ) (x : Ipv4.Address) : Prop :=
  match c with
  | .poll now => ∃ r ∈ h.rounds now, ∃ m, r.before.endpoint.Takes r.frame .resolver ∧
      Arp.Message.parse ((r.before.endpoint.body r.frame).drop 14) = .ok m ∧
      m.srcAddr = x ∧ x.isUnicast = true ∧ m.srcHardware.isUnicast = true
  | _ => False

/-- A poll gives up on an address. -/
def GivesUp (h : Host δ) (c : Call δ) (x : Ipv4.Address) : Prop :=
  match c with
  | .poll now => ∃ t u e, (h.resolver.expire now h.wakeups).1 = .table t ∧
      t.neighbor? x = some ⟨.failed u, e⟩
  | _ => False

/-! ## Sockets -/

theorem told_of_delivers {g g' : Host δ} (hq : g.Quiet) {c : Call δ} {a : Answer}
    (e : g.perform c = some (a, g')) {s : Handle} {task : Task} (hw : g.waiter? s = some task)
    (hd : g.Delivers c g' s) : Told g g' task := by
  obtain ⟨q, ha, hqs⟩ := awaits_of_waiter? hw
  cases c with
  | send s' task' dst port payload =>
    obtain ⟨⟨r, u⟩, hx, he⟩ := Option.map_eq_some_iff.1 e
    cases he
    obtain ⟨hacc, htold⟩ := send_spec hq hx
    rcases htold s task q ha with hr | ha'
    · exact hr.told hacc.quiet
    · exact absurd (ha'.queue?_eq.trans hqs.symm) hd
  | poll now =>
    obtain ⟨⟨res, u⟩, hx, he⟩ := Option.map_eq_some_iff.1 e
    cases he
    obtain ⟨hp, hq'⟩ := progress_poll hq hx
    -- the task still waits before the round of the datagram, unless it was told before
    rcases hd with hne | ⟨r, hr, hne⟩
    · rcases hp.awaits s task q ha with hrep | ha'
      · exact hrep.told hq'
      · exact absurd (ha'.queue?_eq.trans hqs.symm) hne
    obtain ⟨hruns, hbefore, hafter⟩ := mem_rounds hx hr
    have hb := hbefore _ (stablePoll_progress g) (Progress.refl hq.sound)
    have hround := (stablePoll_progress r.before).round hruns (Progress.refl hb.sound)
    have hend := hafter _ (stablePoll_progress r.after) (Progress.refl hround.sound)
    have hrep : Reported g r.after task := by
      rcases hb.awaits s task q ha with hrep | ha'
      · exact hrep.trans hround
      · rcases hround.awaits s task q ha' with hrep | ha''
        · exact hrep.since hb.notified
        · exact absurd (ha''.queue?_eq.trans ha'.queue?_eq.symm) hne
    exact (hrep.trans hend).told hq'
  | _ => exact hd.elim

omit [Nic δ] in
theorem told_unbound {g : Host δ} (hq : g.Quiet) {s : Handle} {socket : Udp.Socket} {b : Udp.Binding}
    (hs : g.sockets.get? s = some socket) {task : Task} (hw : g.waiter? s = some task) :
    Told g (g.unbound s socket b) task := by
  obtain ⟨hp, hq'⟩ := progress_unbound (b := b) hq.sound hs
  obtain ⟨q, ha, -⟩ := awaits_of_waiter? hw
  refine ((hp.awaits s task q ha).resolve_right ?_).told hq'
  rintro ⟨socket', hs', ht, -⟩
  change (g.sockets.set s _).get? s = _ at hs'
  rw [Pool.get?_set, if_pos ⟨rfl, by rw [hs]; rfl⟩] at hs'
  cases hs'
  cases ht

omit [Nic δ] in
theorem bound_of_waiter? {g : Host δ} (hq : g.Quiet) {s : Handle} {task : Task} (hw : g.waiter? s = some task) :
    ∃ b, g.setup.bindings s = some (some b) := by
  obtain ⟨socket, hs, ht⟩ := Option.bind_eq_some_iff.1 hw
  obtain ⟨b, hb⟩ := Option.isSome_iff_exists.1 ((hq.sockets s socket hs).bound (by rw [ht]; rfl))
  exact ⟨b, by rw [← hb]; exact bindings_of_get? hs⟩

theorem told_of_unbind {g g' : Host δ} (hq : g.Quiet) (ha : g.setup.Agree) {c : Call δ} {a : Answer}
    (e : g.perform c = some (a, g')) {s : Handle} {task : Task} (hw : g.waiter? s = some task)
    (hc : c = .unbind s ∨ c = .release s) : Told g g' task := by
  obtain ⟨b, hb⟩ := bound_of_waiter? hq hw
  rcases hc with rfl | rfl
  · cases e
    rcases unbind_cases ha s with ⟨-, hn⟩ | ⟨socket, b, hs, -, he⟩
    · exact absurd hb (hn b)
    · rw [he]; exact told_unbound hq hs hw
  · cases e
    rcases release_cases ha s with ⟨hn, -⟩ | ⟨socket, b, hs, -, he⟩
    · exact absurd hb (hn b)
    · rw [he]
      obtain ⟨new, hn, ht⟩ := told_unbound (b := b) hq hs hw
      exact ⟨new, hn, ht⟩

/-! ## Addresses -/

omit [Nic δ] in
/-- A valid message ends the question for its address. -/
theorem heard_message {h h' : Host δ} (hs : h.Sound) {t t' : Transit} {bytes : Octets} {m : Arp.Message}
    (hu : t.packet.unread? = some bytes) (hm : Arp.Message.parse bytes = .ok m)
    (hx : m.srcAddr.isUnicast = true) (hh : m.srcHardware.isUnicast = true) {e : Task × Ipv4.Address}
    (he : e ∈ h.resolver.waits) (hex : e.2 = m.srcAddr) {r : Except Fault Unit} {depth : Nat} {caller : Layer}
    (hr : h.receive t (depth + 1) .resolver caller = some (r, h', t')) :
    Progress h h' ∧ Reported h h' e.1 := by
  cases hres : h.resolver with
  | derived => rw [hres] at he; cases he
  | table table =>
    have hpass : h.resolver.receivePass t.packet h.now h.wakeups =
        some ((table.receive m h.now h.wakeups).1.map fun _ => .done,
          .table (table.receive m h.now h.wakeups).2.1, (table.receive m h.now h.wakeups).2.2) := by
      unfold Arp.Resolver.receivePass
      rw [hres]
      dsimp only
      rw [hu, Option.map_some, hm]
    have hat : h.receiveAt .resolver caller t = some ((table.receive m h.now h.wakeups).1.map fun _ => .done,
        h.heard (.table (table.receive m h.now h.wakeups).2.1) (table.receive m h.now h.wakeups).2.2, t) := by
      rw [receiveAt_resolver, hpass]
      rfl
    obtain ⟨res, f, hends⟩ := receive_of_ends hat (by
      intro upper
      cases (table.receive m h.now h.wakeups).1 <;> nofun) depth
    rw [hends] at hr
    cases hr
    have hw : table.WF := by
      have := hs.resolver
      rw [hres] at this
      exact this
    obtain ⟨hrw, hmoves⟩ := Arp.Resolver.receivePass_moves hs.resolver hpass
    have hp := progress_heard hs hrw hmoves
    have hp' := progress_count hp.sound .resolver f
    refine ⟨hp.trans hp', Reported.trans ((hp.waits e he).resolve_right ?_) hp'⟩
    intro hin
    -- who still waited would wait for an address that is asked for
    have hask : (table.receive m h.now h.wakeups).2.1.Asking e.2 := Arp.Resolver.asking_of_mem_waits hrw hin
    rw [hex] at hask
    exact Arp.Table.not_asking_receive hw (r := (table.receive m h.now h.wakeups).1) rfl hx hh hask

theorem reported_of_round {r : Round δ} (hs : r.before.Sound) (hruns : r.Runs) {m : Arp.Message}
    (ht : r.before.endpoint.Takes r.frame .resolver)
    (hm : Arp.Message.parse ((r.before.endpoint.body r.frame).drop 14) = .ok m)
    (hx : m.srcAddr.isUnicast = true) (hh : m.srcHardware.isUnicast = true) {e : Task × Ipv4.Address}
    (he : e ∈ r.before.resolver.waits) (hex : e.2 = m.srcAddr) : Reported r.before r.after e.1 := by
  obtain ⟨g, hg, hf⟩ := Option.bind_eq_some_iff.1 hruns
  rw [receiveFrame_eq] at hg
  obtain ⟨⟨res, g', t'⟩, hrec, hg⟩ := Option.map_eq_some_iff.1 hg
  subst hg
  have hp₁ := progress_count hs .device .countRx
  rcases receive_ethernet (h := r.before.count .device .countRx)
      (entering_unread? r.before r.frame) 7 .device with
    ⟨upper, p, ht', hu, -, hgo⟩ | ⟨hn, -⟩
  · have hup : upper = .resolver := Option.some.inj (ht'.content.symm.trans ht.content)
    subst hup
    rw [show Limits.depth = 7 + 1 from rfl, hgo] at hrec
    have hp₂ := hp₁.trans (progress_count hp₁.sound .ethernet .countRx)
    obtain ⟨hp₃, hrep⟩ := heard_message hp₂.sound hu hm hx hh he hex hrec
    have hp₄ : Progress g' { g' with rxBuffer := t'.packet.bytes } :=
      progress_of_same hp₃.sound rfl hp₃.sound.resolver rfl rfl rfl rfl
    exact ((hrep.since hp₂.notified).trans hp₄).trans
      ((stablePoll_progress _).flush (Progress.refl hp₄.sound) hf)
  · exact absurd ht (hn _)

theorem told_of_hears {g g' : Host δ} (hq : g.Quiet) {c : Call δ} {a : Answer}
    (e : g.perform c = some (a, g')) {task : Task} {x : Ipv4.Address} (hw : (task, x) ∈ g.resolver.waits)
    (hh : g.Hears c x) : Told g g' task := by
  cases c with
  | poll now =>
    obtain ⟨⟨res, u⟩, hx, he⟩ := Option.map_eq_some_iff.1 e
    cases he
    obtain ⟨r, hr, m, ht, hm, rfl, hu, hhw⟩ := hh
    obtain ⟨hruns, hbefore, hafter⟩ := mem_rounds hx hr
    have hb := hbefore _ (stablePoll_progress g) (Progress.refl hq.sound)
    have hround := (stablePoll_progress r.before).round hruns (Progress.refl hb.sound)
    have hend := hafter _ (stablePoll_progress r.after) (Progress.refl hround.sound)
    have hrep : Reported g r.after task := by
      rcases hb.waits _ hw with hrep | hw'
      · exact hrep.trans hround
      · exact (reported_of_round hb.sound hruns ht hm hu hhw hw' rfl).since hb.notified
    exact (hrep.trans hend).told (progress_poll hq hx).2
  | _ => exact hh.elim

theorem told_of_givesUp {g g' : Host δ} (hq : g.Quiet) {c : Call δ} {a : Answer}
    (e : g.perform c = some (a, g')) {task : Task} {x : Ipv4.Address} (hw : (task, x) ∈ g.resolver.waits)
    (hh : g.GivesUp c x) : Told g g' task := by
  cases c with
  | poll now =>
    obtain ⟨⟨res, u⟩, hx, he⟩ := Option.map_eq_some_iff.1 e
    cases he
    obtain ⟨table, until', expiry, ht, hn⟩ := hh
    have hp := (stablePoll_progress g).expire now (Progress.refl hq.sound)
    have hrep := (hp.waits _ hw).resolve_right fun hin => by
      -- an address given up is not asked for
      obtain ⟨retries, nextAt, expiry', ha⟩ : table.Asking x := by
        have hask := Arp.Resolver.asking_of_mem_waits hp.sound.resolver hin
        dsimp only at hask
        rw [ht] at hask
        exact hask
      have := hn.symm.trans ha
      cases this
    obtain ⟨u, hu, hrec, -⟩ := poll_cases hx
    have hend := (stablePoll_progress _).receiveFrames _
      ((stablePoll_progress _).flush (Progress.refl hp.sound) hu) hrec
    exact (hrep.trans hend).told (progress_poll hq hx).2
  | _ => exact hh.elim

/-! ## Whole runs -/

/-- In every run, with whatever tasks in whatever order: after each call no wake-up is recorded and
none was ever lost; who waits in a socket is told during the call that delivers a datagram to it,
unbinds or releases it, and who waits for an address during the poll in which a valid message of
that address arrives or its question is given up; and no task is told more often than to wait. -/
theorem run_notices {d : δ} {config : Config} {h g g' : Host δ} (hd : create d config = .ok h)
    {es : List (Call δ × Answer)} (hr : Run LeavesResolver h es g) {c : Call δ} {a : Answer}
    (hl : LeavesResolver g c) (hc : g.perform c = some (a, g')) :
    (g'.wakeups = .empty ∧ g'.lost = false) ∧
    (∀ s task, g.waiter? s = some task → g.Delivers c g' s ∨ c = .unbind s ∨ c = .release s →
      Told g g' task) ∧
    (∀ task x, (task, x) ∈ g.resolver.waits → g.Hears c x ∨ g.GivesUp c x → Told g g' task) ∧
    ∀ task, g'.notified.count task ≤ pendings task (es ++ [(c, a)]) := by
  obtain ⟨hq, ha, -⟩ := run_accounted hd hr
  obtain ⟨hq', -, hle⟩ := run_accounted hd (hr.snoc hl hc)
  refine ⟨⟨hq'.wakeups, hq'.kept⟩, ?_, ?_, ?_⟩
  · rintro s task hw (hdel | hend)
    · exact told_of_delivers hq hc hw hdel
    · exact told_of_unbind hq ha hc hw hend
  · rintro task x hw (hend | hend)
    · exact told_of_hears hq hc hw hend
    · exact told_of_givesUp hq hc hw hend
  · intro task
    refine le_trans ?_ (hle task)
    rw [← sum_one]
    exact Nat.le_add_right ..

theorem run_notices_unbind : ∃ g g' : Host (Device.Loopback 1),
    g.waiter? ⟨0, 0⟩ = some ⟨7⟩ ∧ Told g g' ⟨7⟩ := by
  have hx : (do
      let h ← (create (Device.Loopback.create 1 {}) (.create ⟨10, 0, 0, 1⟩ ⟨255, 255, 255, 0⟩)).toOption
      let (_, g) ← h.performAll [.acquire, .bind ⟨0, 0⟩ .unspecified 7, .recv ⟨0, 0⟩ ⟨7⟩ 16]
      let (_, _) ← g.perform (.unbind ⟨0, 0⟩)
      g.waiter? ⟨0, 0⟩) = some ⟨7⟩ := by decide +kernel
  obtain ⟨h, hd, hx⟩ := Option.bind_eq_some_iff.1 hx
  obtain ⟨⟨es, g⟩, hr, hx⟩ := Option.bind_eq_some_iff.1 hx
  obtain ⟨⟨a, g'⟩, hc, hw⟩ := Option.bind_eq_some_iff.1 hx
  have hrun : Run LeavesResolver h _ g := run_performAll _ .nil (by simp [LeavesResolver]) hr
  have hl : g.LeavesResolver (.unbind ⟨0, 0⟩) := trivial
  exact ⟨g, g', hw, (run_notices (eq_ok_of_toOption hd) hrun hl hc).2.1 _ _ hw (.inr (.inl rfl))⟩

end UdpStack.Host
