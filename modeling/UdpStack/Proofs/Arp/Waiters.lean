/-
Who waits in a run of a table of neighbors. As long as nothing is entered by hand, each task waits
once, for an address that is being asked for; a question ends only by a message from the address or
by giving up, and a task stops waiting only by being woken or by its own next lookup
(`waiting_kept`). A mapping entered by hand wakes nobody, and is the only way to leave a task
waiting for an address that is known (`stranded_iff_entered`).
-/
import UdpStack.Proofs.Arp.Calls

namespace UdpStack.Arp

open Bounded

namespace Table

/-! ## How the waiting tasks change -/

section Waits

variable {t t' : Table} {x : Ipv4.Address}

/-- Every task waits at most once. -/
def Once (t : Table) : Prop := (t.waits.map (·.1)).Nodup

/-- A lookup leaves all waiting tasks alone, or ends the wait of its own task and perhaps begins another
one. -/
theorem lookedUp_waits (hs : t.Stored) (ho : t.Once) {task : Option Task} {now : Instant}
    {r : Except Fault Ethernet.Address} (h : LookedUp t x task now r t') :
    t'.waits = t.waits ∨ ∃ k, task = some k ∧ (t'.waits = (t.others k).toList ∨
      (t'.waits = (t.others k).toList ++ [(k, x)] ∧ t'.Asking x)) := by
  cases task with
  | none =>
    refine .inl ?_
    cases h with
    | settled => rfl
    | joined _ hu => cases hu; rfl
    | crowded _ hu _ => cases hu; rw [cancel_none]
    | asked _ hu hv =>
      cases hu
      rw [request_eq_post, post_waits, (put_eq_ok hs.neighbors hv).1]; rfl
  | some k =>
    cases h with
    | settled => exact .inl rfl
    | joined ha hu =>
      obtain ⟨he, -, hl⟩ := wait_eq_ok hs.waiters hu
      exact .inr ⟨k, rfl, .inr ⟨hl, (asking_of_eq (by rw [he])).2 ha⟩⟩
    | crowded _ hu _ =>
      have hk : (k, x) ∉ (t.others k).toList := fun hm => ne_of_mem_others hs.waiters ho hm rfl
      exact .inr ⟨k, rfl, .inl (cancel_wait hs.waiters hk hu)⟩
    | @asked u v _ hu hv =>
      obtain ⟨he, -, hl⟩ := wait_eq_ok hs.waiters hu
      obtain ⟨hve, -, hvx, -⟩ := put_eq_ok (by rw [he]; exact hs.neighbors) hv
      have hw : (v.request x).waits = u.waits := by rw [request_eq_post, post_waits, hve]; rfl
      have ha : (v.request x).Asking x := (asking_of_eq (post_neighbors v _)).2 ⟨_, _, _, hvx⟩
      exact .inr ⟨k, rfl, .inr ⟨hw.trans hl, ha⟩⟩

theorem once_lookedUp (hs : t.Stored) (ho : t.Once) {task : Option Task} {now : Instant}
    {r : Except Fault Ethernet.Address} (h : LookedUp t x task now r t') : t'.Once := by
  have hk : ∀ k, ((t.others k).toList.map (·.1)).Nodup := fun k =>
    ((others_sublist hs.waiters k).map _).nodup ho
  unfold Once
  rcases lookedUp_waits hs ho h with he | ⟨k, -, he | ⟨he, -⟩⟩
  · rw [he]; exact ho
  · rw [he]; exact hk k
  · rw [he, List.map_append, List.nodup_append]
    refine ⟨hk k, by simp, ?_⟩
    rintro a ha b hb rfl
    obtain ⟨e, he, rfl⟩ := List.mem_map.1 ha
    exact ne_of_mem_others hs.waiters ho he (by simpa using hb)

theorem received_waits (hs : t.Stored) {m : Message} {now : Instant} {w w' : Wakeups}
    (h : Received t m now w t' w') : t'.waits.Sublist t.waits ∧ Moves t.waits w t'.waits w' := by
  cases h with
  | ignored => exact ⟨List.Sublist.refl _, Moves.refl _ _⟩
  | @learned u v _ _ he hv ht =>
    have hue := (put_eq_ok hs.neighbors he).1
    have hu : u.waits = t.waits := waits_of_eq (by rw [hue])
    obtain ⟨-, -, hl, hm⟩ := wake_spec (by rw [hue]; exact hs.waiters) hv
    have ht' : t'.waits = v.waits := by rcases ht with rfl | rfl <;> simp
    rw [hu] at hl hm
    rw [ht']
    exact ⟨by rw [hl]; exact List.filter_sublist, hm⟩

theorem enter_waits (hs : t.Stored) (hardware : Ethernet.Address) (now : Option Instant) :
    (t.after (.enter x hardware now)).waits = t.waits := by
  cases he : t.enter x hardware now with
  | error e => rw [after_enter_error he]
  | ok u => rw [after_enter_ok he, (put_eq_ok hs.neighbors he).1]; rfl

theorem once_after (hs : t.Stored) (ho : t.Once) (c : Call) : (t.after c).Once := by
  cases c with
  | lookup y task now => exact once_lookedUp hs ho (lookup_lookedUp t y task now)
  | receive m now =>
    exact ((received_waits hs (receive_received t m now .empty)).1.map _).nodup ho
  | expire now =>
    have h := (expire_expired hs.neighbors hs.waiters now .empty).waits
    unfold Once
    rw [show (t.after (.expire now)).waits = _ from h]
    exact (List.filter_sublist.map _).nodup ho
  | outgoing => exact ho
  | enter y hardware now => unfold Once; rw [enter_waits hs]; exact ho

/-- A task waits anew only for an address that is asked for. -/
theorem awaited_after (hs : t.Stored) (ho : t.Once) {c : Call} (h : (t.after c).Awaited x) :
    t.Awaited x ∨ (t.after c).Asking x := by
  obtain ⟨task, hm⟩ := h
  cases c with
  | lookup y k now =>
    have hl := lookup_lookedUp t y k now
    change (task, x) ∈ (t.lookup y k now).2.waits at hm
    show _ ∨ (t.lookup y k now).2.Asking x
    generalize (t.lookup y k now).2 = t' at hl hm ⊢
    rcases lookedUp_waits hs ho hl with he | ⟨k, -, he | ⟨he, ha⟩⟩
    · rw [he] at hm; exact .inl ⟨task, hm⟩
    · rw [he] at hm; exact .inl ⟨task, (others_sublist hs.waiters k).subset hm⟩
    · rw [he, List.mem_append, List.mem_singleton] at hm
      rcases hm with hm | hm
      · exact .inl ⟨task, (others_sublist hs.waiters k).subset hm⟩
      · cases hm; exact .inr ha
  | receive m now =>
    exact .inl ⟨task, (received_waits hs (receive_received t m now .empty)).1.subset hm⟩
  | expire now =>
    have h := (expire_expired hs.neighbors hs.waiters now .empty).waits
    rw [show (t.after (.expire now)).waits = _ from h] at hm
    exact .inl ⟨task, List.mem_of_mem_filter hm⟩
  | outgoing => exact .inl ⟨task, hm⟩
  | enter y hardware now => rw [enter_waits hs] at hm; exact .inl ⟨task, hm⟩

/-! ## Waiting only for what is asked for -/

/-- An address that a task waits for is being asked for. -/
def Attended (t : Table) (x : Ipv4.Address) : Prop := t.Awaited x → t.Asking x

theorem asking_iff : t.Asking x ↔ ∃ retries nextAt e, t.neighbor? x = some ⟨.querying retries nextAt, e⟩ :=
  Iff.rfl

/-- A question under way goes on, or is ended by a message from the address, by giving up or by hand;
but nobody waits once it ended by a message or by giving up. -/
theorem asking_after (hs : t.Stored) {c : Call} (ha : t.Asking x) :
    (t.after c).Asking x ∨ ¬ (t.after c).Awaited x ∨ ∃ hardware now, c = .enter x hardware now := by
  obtain ⟨retries, nextAt, e, hq⟩ := asking_iff.1 ha
  have h := turn_after hs c x
  generalize questions x t c = qs at h
  generalize hold : t.neighbor? x = old at h hq
  generalize hnew : (t.after c).neighbor? x = new at h
  cases h with
  | stay => exact .inl (asking_iff.2 ⟨_, _, _, hnew.trans hq⟩)
  | ask _ _ _ => exact .inl (asking_iff.2 ⟨_, _, _, hnew⟩)
  | again _ _ _ _ => exact .inl (asking_iff.2 ⟨_, _, _, hnew⟩)
  | giveUp _ _ _ hg => exact .inr (.inl hg)
  | learn _ _ hg => exact .inr (.inl hg)
  | enter hc => exact .inr (.inr ⟨_, _, hc⟩)
  | evict _ he => cases hq; cases he

/-- No call leaves a task waiting for an address that is not asked for, but entering it by hand. -/
theorem attended_after (hs : t.Stored) (ho : t.Once) (ha : t.Attended x) {c : Call}
    (hc : ¬ (t.Awaited x ∧ ∃ hardware now, c = .enter x hardware now)) : (t.after c).Attended x := by
  intro hw
  rcases awaited_after hs ho hw with hw' | h
  · rcases asking_after hs (ha hw') with h | h | h
    · exact h
    · exact absurd hw h
    · exact absurd ⟨hw', h⟩ hc
  · exact h

/-! ## Tasks that stop waiting -/

/-- There is room to record every waiting task as woken. -/
theorem mem_tasks_of_moves (hw : t.waiters.WF) {l : Waits} {w : Wakeups} (h : Moves t.waits .empty l w)
    {e : Task × Ipv4.Address} (he : e ∈ t.waits) : e ∈ l ∨ e.1 ∈ w.tasks := by
  obtain ⟨ts, rfl, hsum, hm⟩ := h
  have hone : l.weight (fun _ => 1) + ts.length = t.waits.weight fun _ => 1 := by
    simpa using hsum fun _ => 1
  have hle := weight_waits_le hw
  have hroom : Wakeups.empty.tasks.length + ts.length ≤ Limits.wakeups := by
    show 0 + ts.length ≤ Limits.sockets + Limits.waiters
    omega
  rcases hm e he with he | he
  · exact .inl he
  · exact .inr ((Wakeups.wakeAll_of_room ts Wakeups.empty_complete hroom).2 e.1 he)

/-- A task stops waiting by being woken, or by its own next lookup. -/
theorem mem_waits_after (hs : t.Stored) (ho : t.Once) (c : Call) {e : Task × Ipv4.Address}
    (he : e ∈ t.waits) : e ∈ (t.after c).waits ∨ e.1 ∈ (t.perform c).2.tasks ∨
      ∃ x now, c = .lookup x (some e.1) now := by
  cases c with
  | lookup y task now =>
    have hl := lookup_lookedUp t y task now
    show e ∈ (t.lookup y task now).2.waits ∨ _
    generalize (t.lookup y task now).2 = t' at hl ⊢
    rcases lookedUp_waits hs ho hl with hw | ⟨k, rfl, hw⟩
    · rw [hw]; exact .inl he
    · by_cases hk : e.1 = k
      · exact .inr (.inr ⟨y, now, by rw [hk]⟩)
      · have hm := mem_others hs.waiters he hk
        rcases hw with hw | ⟨hw, -⟩
        · rw [hw]; exact .inl hm
        · rw [hw]; exact .inl (List.mem_append_left _ hm)
  | receive m now =>
    have hm := (received_waits hs (receive_received t m now .empty)).2
    exact (mem_tasks_of_moves hs.waiters hm he).imp id .inl
  | expire now =>
    have hm := (expire_expired hs.neighbors hs.waiters now .empty).moves
    exact (mem_tasks_of_moves hs.waiters hm he).imp id .inl
  | outgoing => exact .inl he
  | enter y hardware now => rw [enter_waits hs]; exact .inl he

/-! ## How often a question is repeated -/

/-- No question is repeated more often than allowed. -/
def Limited (t : Table) : Prop :=
  ∀ x retries nextAt e, t.neighbor? x = some ⟨.querying retries nextAt, e⟩ → retries ≤ maxRetries

theorem limited_after (hs : t.Stored) (hb : t.Limited) (c : Call) : (t.after c).Limited := by
  intro x retries nextAt e hn
  have h := turn_after hs c x
  generalize questions x t c = qs at h
  generalize hold : t.neighbor? x = old at h
  rw [hn] at h
  cases h with
  | stay => exact hb x _ _ _ hold
  | ask _ _ _ => exact Nat.zero_le _
  | again _ _ hr _ => exact hr

theorem Reachable.once {allowed : Call → Prop} (h : Reachable allowed t) : t.Once := by
  induction h with
  | create hardware addr mask => exact List.nodup_nil
  | call c h _ ih => exact once_after h.stored ih c

theorem Reachable.limited {allowed : Call → Prop} (h : Reachable allowed t) : t.Limited := by
  induction h with
  | create hardware addr mask => intro x retries nextAt e hn; cases hn
  | call c h _ ih => exact limited_after h.stored ih c

theorem create_attended (hardware : Ethernet.Address) (addr mask x : Ipv4.Address) :
    (create hardware addr mask).Attended x := by
  rintro ⟨_, hm⟩; cases hm

theorem Reachable.attended (h : Reachable Call.Unaided t) (x : Ipv4.Address) : t.Attended x := by
  induction h with
  | create hardware addr mask => exact create_attended hardware addr mask x
  | call c h hc ih =>
    refine attended_after h.stored h.once ih ?_
    rintro ⟨-, hardware, now, rfl⟩; exact hc

end Waits

/-- In every table that is filled by questions and messages alone, each task waits at most once, and
for an address that is being asked for. And whatever such a call comes next: a question goes on, or
ends by a message from the address or, when it was repeated as often as allowed, by giving up; and a
task goes on to wait, or is woken in that call, or the call is its own lookup. -/
theorem waiting_kept {t : Table} (h : Reachable Call.Unaided t) :
    (t.waits.map (·.1)).Nodup ∧ (∀ e ∈ t.waits, t.Asking e.2) ∧ ∀ c : Call, c.Unaided →
      (∀ x retries nextAt e, t.neighbor? x = some ⟨.querying retries nextAt, e⟩ →
        (t.after c).Asking x ∨
        (∃ m now, c = .receive m now ∧ m.srcAddr = x ∧
          (t.after c).neighbor? x = some ⟨.resolved m.srcHardware, .due (now.add lifetime)⟩) ∨
        (∃ now, c = .expire now ∧ retries = maxRetries ∧ nextAt.total ≤ now.total ∧
          (t.after c).neighbor? x = some ⟨.failed (now.add silentTime), e⟩)) ∧
      (∀ e ∈ t.waits, e ∈ (t.after c).waits ∨ e.1 ∈ (t.perform c).2.tasks ∨
        ∃ x now, c = .lookup x (some e.1) now) := by
  refine ⟨h.once, fun e he => h.attended e.2 ⟨e.1, he⟩, ?_⟩
  intro c hc
  refine ⟨?_, fun e he => mem_waits_after h.stored h.once c he⟩
  intro x retries nextAt e hn
  have hb := h.limited x retries nextAt e hn
  have ht := turn_after h.stored c x
  generalize questions x t c = qs at ht
  rw [hn] at ht
  generalize hnew : (t.after c).neighbor? x = new at ht
  cases ht with
  | stay => exact .inl (asking_iff.2 ⟨_, _, _, hnew⟩)
  | ask _ _ _ => exact .inl (asking_iff.2 ⟨_, _, _, hnew⟩)
  | again _ _ _ _ => exact .inl (asking_iff.2 ⟨_, _, _, hnew⟩)
  | giveUp hc hle hr _ => exact .inr (.inr ⟨_, hc, by omega, hle, rfl⟩)
  | learn hc hx _ => exact .inr (.inl ⟨_, _, hc, hx, rfl⟩)
  | enter he => rw [he] at hc; exact hc.elim
  | evict _ he => cases he

/-- A task waits through three repetitions and is woken when the question is given up. -/
theorem waiting_kept_unanswered :
    let t := (create ⟨2, 0, 0, 0, 0, 1⟩ ⟨10, 0, 0, 1⟩ ⟨255, 255, 255, 0⟩).run
      [.lookup ⟨10, 0, 0, 2⟩ (some ⟨7⟩) ⟨0⟩, .expire ⟨1000⟩, .expire ⟨2000⟩, .expire ⟨3000⟩]
    t.waits = [(⟨7⟩, ⟨10, 0, 0, 2⟩)] ∧ (t.after (.expire ⟨4000⟩)).waits = [] ∧
      ⟨7⟩ ∈ (t.perform (.expire ⟨4000⟩)).2.tasks := by
  intro t
  have hwaits : t.waits = [(⟨7⟩, ⟨10, 0, 0, 2⟩)] := by decide +kernel
  have hafter : (t.after (.expire ⟨4000⟩)).waits = [] := by decide +kernel
  have hreach : Reachable Call.Unaided t := (Reachable.create _ _ _).run (by simp [Call.Unaided])
  obtain ⟨-, hkept⟩ := (waiting_kept hreach).2.2 (.expire ⟨4000⟩) trivial
  refine ⟨hwaits, hafter, ?_⟩
  rcases hkept (⟨7⟩, ⟨10, 0, 0, 2⟩) (by rw [hwaits]; exact List.mem_singleton_self _) with he | he | ⟨_, _, hc⟩
  · rw [hafter] at he; cases he
  · exact he
  · cases hc

/-! ## Entering a mapping by hand -/

/-- A task waits for an address that is known. -/
def Stranded (t : Table) (x : Ipv4.Address) : Prop :=
  (∃ hardware e, t.neighbor? x = some ⟨.resolved hardware, e⟩) ∧ t.Awaited x

theorem not_stranded_of_attended {t : Table} {x : Ipv4.Address} (h : t.Attended x) : ¬ t.Stranded x := by
  rintro ⟨⟨hardware, e, hn⟩, hw⟩
  obtain ⟨_, _, _, hq⟩ := asking_iff.1 (h hw)
  rw [hn] at hq; cases hq

/-- A mapping entered by hand for an address that is being asked for wakes nobody. -/
theorem enter_strands {t : Table} (hs : t.Stored) {x : Ipv4.Address} (ha : t.Attended x) (hw : t.Awaited x)
    (hardware : Ethernet.Address) (now : Option Instant) : (t.after (.enter x hardware now)).Stranded x := by
  obtain ⟨u, hu⟩ := enter_of_asking (ha hw) hardware now
  obtain ⟨task, hm⟩ := hw
  refine ⟨?_, task, by rw [enter_waits hs]; exact hm⟩
  rw [after_enter_ok hu]
  exact ⟨_, _, (put_eq_ok hs.neighbors hu).2.2.1⟩

/-- A run keeps an address attended until the address is entered by hand while a task waits for it. -/
theorem run_attended {x : Ipv4.Address} : ∀ (cs : List Call) {t : Table}, t.Stored → t.Once → t.Attended x →
    (t.run cs).Attended x ∨ ∃ before hardware now rest, cs = before ++ .enter x hardware now :: rest ∧
      (t.run before).Awaited x ∧ ((t.run before).after (.enter x hardware now)).Stranded x
  | [], _, _, _, ha => .inl ha
  | c :: cs, t, hs, ho, ha => by
    by_cases hc : t.Awaited x ∧ ∃ hardware now, c = .enter x hardware now
    · obtain ⟨hw, hardware, now, rfl⟩ := hc
      exact .inr ⟨[], hardware, now, cs, rfl, hw, enter_strands hs ha hw hardware now⟩
    · rcases run_attended cs (stored_after hs c) (once_after hs ho c) (attended_after hs ho ha hc) with
        h | ⟨before, hardware, now, rest, rfl, h⟩
      · exact .inl h
      · exact .inr ⟨c :: before, hardware, now, rest, rfl, h⟩

/-- Somewhere in a run a task is left waiting for a known address exactly when the run enters the
address by hand while a task waits for it. -/
theorem stranded_iff_entered (hardware : Ethernet.Address) (addr mask : Ipv4.Address) (cs : List Call)
    (x : Ipv4.Address) :
    (∃ before, before <+: cs ∧ ((create hardware addr mask).run before).Stranded x) ↔
      ∃ before entered now rest, cs = before ++ .enter x entered now :: rest ∧
        ((create hardware addr mask).run before).Awaited x := by
  have start := fun before => run_attended (x := x) before (create_stored hardware addr mask) List.nodup_nil
    (create_attended hardware addr mask x)
  constructor
  · rintro ⟨before, ⟨rest', rfl⟩, h⟩
    rcases start before with ha | ⟨before', entered, now, rest, rfl, hw, -⟩
    · exact absurd h (not_stranded_of_attended ha)
    · exact ⟨before', entered, now, rest ++ rest', by simp, hw⟩
  · rintro ⟨before, entered, now, rest, rfl, hw⟩
    rcases start before with ha | ⟨before', entered', now', rest', rfl, -, h⟩
    · have hs := run_stored (create_stored hardware addr mask) before
      refine ⟨before ++ [.enter x entered now], ⟨rest, by simp⟩, ?_⟩
      rw [run_append]
      exact enter_strands hs ha hw entered now
    · refine ⟨before' ++ [.enter x entered' now'], ⟨rest' ++ .enter x entered now :: rest, by simp⟩, ?_⟩
      rw [run_append]
      exact h

/-- Not every table of a run keeps the tasks from waiting for known addresses. -/
theorem entered_strands : ¬ ∀ (hardware : Ethernet.Address) (addr mask : Ipv4.Address) (cs : List Call)
    (x : Ipv4.Address), ¬ ((create hardware addr mask).run cs).Stranded x := by
  intro h
  refine h ⟨2, 0, 0, 0, 0, 1⟩ ⟨10, 0, 0, 1⟩ ⟨255, 255, 255, 0⟩
    [.lookup ⟨10, 0, 0, 2⟩ (some ⟨7⟩) ⟨0⟩, .enter ⟨10, 0, 0, 2⟩ ⟨2, 0, 0, 0, 0, 2⟩ none] ⟨10, 0, 0, 2⟩ ?_
  exact ⟨⟨⟨2, 0, 0, 0, 0, 2⟩, .never, by decide +kernel⟩, ⟨7⟩, by decide +kernel⟩

end Table

end UdpStack.Arp
