/-
How a question ends that nobody answers. It is asked again as often as allowed, once each time the passing of
time reaches its next moment, and is given up the next time; then every task that waits for the address is
woken, and the address is left alone until the end of its silence, whatever else the table is asked, told and
made to give up in between (`question_ends`).
-/
import UdpStack.Proofs.Arp.Fixed
import UdpStack.Proofs.Arp.Pacing
import UdpStack.Proofs.Arp.Waiters

namespace UdpStack.Arp.Table

/-- Neither a message from an address nor a mapping entered by hand. -/
def Call.Silent (x : Ipv4.Address) (c : Call) : Prop :=
  c.Unaided ∧ ∀ m now, c = .receive m now → m.srcAddr ≠ x

/-- Whether a call is the passing of time, up to the next moment of a question for an address. -/
def ripe (x : Ipv4.Address) (t : Table) : Call → Bool
  | .expire now =>
    match t.neighbor? x with
    | some ⟨.querying _ nextAt, _⟩ => decide (nextAt.total ≤ now.total)
    | _ => false
  | _ => false

/-- How often a run reaches the next moment of a question for an address. -/
def ripenings (x : Ipv4.Address) (t : Table) : List Call → Nat
  | [] => 0
  | c :: cs => (if ripe x t c then 1 else 0) + ripenings x (t.after c) cs

section Ending

variable {t : Table} {x : Ipv4.Address} {retries : Nat} {nextAt : Instant} {e : Expiry}

/-! ## While an address is asked for -/

theorem ripe_expire (hq : t.neighbor? x = some ⟨.querying retries nextAt, e⟩) (now : Instant) :
    ripe x t (.expire now) = decide (nextAt.total ≤ now.total) := by
  unfold ripe; rw [hq]

/-- Silent calls leave a question alone until its next moment. -/
theorem entry_of_not_ripe (hs : t.Stored) (hq : t.neighbor? x = some ⟨.querying retries nextAt, e⟩) {c : Call}
    (hc : c.Silent x) (hr : ripe x t c = false) :
    (t.after c).neighbor? x = some ⟨.querying retries nextAt, e⟩ := by
  by_cases hexp : ∃ now, c = .expire now
  · obtain ⟨now, rfl⟩ := hexp
    rw [ripe_expire hq] at hr
    rw [entry_expire hs now hq, if_neg (of_decide_eq_false hr)]
  · have ht := turn_after hs c x
    rw [hq] at ht
    rcases ht.of_asking (fun now h => hexp ⟨now, h⟩) with ⟨hn, -⟩ | ⟨⟨m, now, h, hm⟩ | hu, -⟩
    · exact hn
    · exact absurd hm (hc.2 m now h)
    · exact absurd hc.1 hu

/-- At its next moment a question is asked once more, or given up. -/
theorem entry_of_ripe (hs : t.Stored) (hq : t.neighbor? x = some ⟨.querying retries nextAt, e⟩) {c : Call}
    (hr : ripe x t c = true) : ∃ now, c = .expire now ∧
      (t.after c).neighbor? x = some (aged now ⟨.querying retries nextAt, e⟩) := by
  cases c with
  | expire now =>
    rw [ripe_expire hq] at hr
    exact ⟨now, rfl, by rw [entry_expire hs now hq, if_pos (of_decide_eq_true hr)]⟩
  | _ => cases hr

/-- A question stays under way as long as it may be asked again, and counts each of its moments. -/
theorem entry_run : ∀ {cs : List Call} {t : Table} {retries : Nat} {nextAt : Instant}, t.Stored →
    t.neighbor? x = some ⟨.querying retries nextAt, e⟩ → (∀ c ∈ cs, c.Silent x) →
    ripenings x t cs ≤ maxRetries - retries →
    ∃ nextAt', (t.run cs).neighbor? x = some ⟨.querying (retries + ripenings x t cs) nextAt', e⟩
  | [], _, _, nextAt, _, hq, _, _ => ⟨nextAt, hq⟩
  | c :: cs, t, retries, nextAt, hs, hq, hc, hle => by
    have hs' := stored_after hs c
    have hc' : ∀ d ∈ cs, d.Silent x := fun d hd => hc d (List.mem_cons_of_mem _ hd)
    have hstep : ripenings x t (c :: cs) = (if ripe x t c then 1 else 0) + ripenings x (t.after c) cs := rfl
    rw [hstep] at hle ⊢
    cases hr : ripe x t c with
    | false =>
      rw [hr, if_neg Bool.false_ne_true, Nat.zero_add] at hle
      rw [if_neg Bool.false_ne_true, Nat.zero_add]
      exact entry_run hs' (entry_of_not_ripe hs hq (hc c List.mem_cons_self) hr) hc' hle
    | true =>
      rw [hr, if_pos rfl] at hle
      rw [if_pos rfl, ← Nat.add_assoc]
      obtain ⟨now, rfl, hn⟩ := entry_of_ripe hs hq hr
      rw [aged, if_pos (by omega)] at hn
      exact entry_run hs' hn hc' (by omega)

/-! ## Giving up -/

/-- A question that was asked again as often as allowed is given up at its next moment, and every task that
waits for the address is woken. -/
theorem given_up (hs : t.Stored) (ho : t.Once) (hq : t.neighbor? x = some ⟨.querying maxRetries nextAt, e⟩)
    {now : Instant} (hr : ripe x t (.expire now) = true) :
    (t.after (.expire now)).neighbor? x = some ⟨.failed (now.add silentTime), e⟩ ∧
      (∀ task, (task, x) ∈ t.waits → task ∈ (t.perform (.expire now)).2.tasks) ∧
      ¬ (t.after (.expire now)).Awaited x := by
  obtain ⟨_, ⟨⟩, hn⟩ := entry_of_ripe hs hq hr
  rw [aged, if_neg (lt_irrefl _)] at hn
  rw [ripe_expire hq] at hr
  have hd : x ∈ t.due now := (mem_due hs.neighbors).2 ⟨_, _, _, hq, of_decide_eq_true hr⟩
  have ha : t.asksAgain x = false := by
    unfold asksAgain
    rw [hq]
    exact decide_eq_false (lt_irrefl _)
  have hgone : ¬ (t.after (.expire now)).Awaited x := by
    rintro ⟨task, hm⟩
    have hwaits : (t.after (.expire now)).waits = _ :=
      (expire_expired hs.neighbors hs.waiters now .empty).waits
    rw [hwaits, List.mem_filter] at hm
    simp [hd, ha] at hm
  refine ⟨hn, fun task hm => ?_, hgone⟩
  rcases mem_waits_after hs ho (.expire now) hm with h | h | ⟨_, _, h⟩
  · exact absurd ⟨task, h⟩ hgone
  · exact h
  · cases h

/-! ## While an address is left alone -/

/-- Silent calls before the end of the silence leave it alone: the entry does not even give way to another
one. -/
theorem entry_of_silence (hs : t.Stored) {u : Instant} (hn : t.neighbor? x = some ⟨.failed u, e⟩) {c : Call}
    (hc : c.Silent x) (hi : ∀ now, c.instant? = some now → now.total < u.total) :
    (t.after c).neighbor? x = some ⟨.failed u, e⟩ := by
  have ht := turn_after hs c x
  rw [hn] at ht
  generalize questions x t c = qs at ht
  generalize hnew : (t.after c).neighbor? x = new at ht
  cases ht with
  | stay => rfl
  | ask h ha _ => exact absurd ha (Int.not_le.2 (hi _ h))
  | learn h hm _ => exact absurd hm (hc.2 _ _ h)
  | enter h => exact absurd hc.1 (by rw [h]; exact id)
  | evict h he =>
    have hlt := hi _ (h hc.1)
    unfold evictable at he
    dsimp only at he
    rw [if_neg (Int.not_le.2 hlt)] at he
    cases he

theorem silence_run {u : Instant} : ∀ {cs : List Call} {t : Table}, t.Stored →
    t.neighbor? x = some ⟨.failed u, e⟩ → (∀ c ∈ cs, c.Silent x) →
    (∀ c ∈ cs, ∀ now, c.instant? = some now → now.total < u.total) →
    (t.run cs).neighbor? x = some ⟨.failed u, e⟩
  | [], _, _, hn, _, _ => hn
  | c :: cs, t, hs, hn, hc, hi => by
    have hn' := entry_of_silence hs hn (hc c List.mem_cons_self) (hi c List.mem_cons_self)
    show ((t.after c).run cs).neighbor? x = _
    exact silence_run (stored_after hs c) hn' (fun d hd => hc d (List.mem_cons_of_mem _ hd))
      fun d hd => hi d (List.mem_cons_of_mem _ hd)

/-- During its silence an address is not asked for, and nobody waits for it anew. -/
theorem lookup_of_silence {u now : Instant} (hf : t.fixed? x = none) (hn : t.neighbor? x = some ⟨.failed u, e⟩)
    (hlt : now.total < u.total) (task : Option Task) : t.lookup x task now = (.error .unreachable, t) := by
  unfold neighbor? at hn
  unfold lookup
  rw [hf, hn]
  exact if_pos hlt

theorem lookup_after_silent {u now : Instant} (hs : t.Stored) (hf : t.fixed? x = none)
    (hn : t.neighbor? x = some ⟨.failed u, e⟩) {cs : List Call} (hc : ∀ c ∈ cs, c.Silent x)
    (hi : ∀ c ∈ cs, ∀ s, c.instant? = some s → s.total < u.total) (hlt : now.total < u.total)
    (task : Option Task) : (t.run cs).lookup x task now = (.error .unreachable, t.run cs) := by
  have hf' : (t.run cs).fixed? x = none := (fixed?_congr (device_run cs hs) x).trans hf
  exact lookup_of_silence hf' (silence_run hs hn hc hi) hlt task

/-- The moments of a run in front of a call are not later than its own. -/
theorem forward_le {cs ds : List Call} {c : Call} {now : Instant}
    (hf : Forward ((cs ++ c :: ds).filterMap Call.instant?)) (hi : c.instant? = some now) :
    ∀ d ∈ cs, ∀ s, d.instant? = some s → s.total ≤ now.total := by
  intro d hd s hs
  rw [Forward, List.filterMap_append, List.pairwise_append] at hf
  refine hf.2.2 s (List.mem_filterMap.2 ⟨d, hd, hs⟩) now ?_
  exact List.mem_filterMap.2 ⟨c, List.mem_cons_self, hi⟩

end Ending

/-- What becomes of a question that was asked again `retries` times, in every run of calls at moments that do
not go back, without a message from the address. It stays under way while its next moment is reached as many
times as it may still be asked again. When that moment is reached once more, it is given up: in the same call
every task that waits for the address is woken and stops waiting. From then on until the end of the silence, each
lookup of the address fails and changes nothing. -/
theorem question_ends {t : Table} (h : Reachable Call.Unaided t) {x : Ipv4.Address} {retries : Nat}
    {nextAt : Instant} {e : Expiry} (hq : t.neighbor? x = some ⟨.querying retries nextAt, e⟩) {cs : List Call}
    (hc : ∀ c ∈ cs, c.Silent x) (hf : Forward (cs.filterMap Call.instant?)) :
    retries ≤ maxRetries ∧
    (∀ before, before <+: cs → ripenings x t before ≤ maxRetries - retries → ∃ nextAt',
      (t.run before).neighbor? x = some ⟨.querying (retries + ripenings x t before) nextAt', e⟩) ∧
    ∀ before now rest, cs = before ++ .expire now :: rest → ripenings x t before = maxRetries - retries →
      ripe x (t.run before) (.expire now) = true →
      let u := t.run before
      let v := u.after (.expire now)
      v.neighbor? x = some ⟨.failed (now.add silentTime), e⟩ ∧
        (∀ task, (task, x) ∈ u.waits → task ∈ (u.perform (.expire now)).2.tasks) ∧ ¬ v.Awaited x ∧
        ∀ mid task now' last, rest = mid ++ .lookup x task now' :: last →
          now'.total < (now.add silentTime).total →
          (v.run mid).lookup x task now' = (.error .unreachable, v.run mid) := by
  have hle := h.limited x retries nextAt e hq
  have stays : ∀ before, before <+: cs → ripenings x t before ≤ maxRetries - retries → ∃ nextAt',
      (t.run before).neighbor? x = some ⟨.querying (retries + ripenings x t before) nextAt', e⟩ :=
    fun before hp => entry_run h.stored hq fun c hm => hc c (hp.subset hm)
  refine ⟨hle, stays, ?_⟩
  intro before now rest hcs hr hripe u v
  obtain ⟨nextAt', hq'⟩ := stays before ⟨_, hcs.symm⟩ hr.le
  rw [hr, Nat.add_sub_cancel' hle] at hq'
  have hu : Reachable Call.Unaided u := h.run fun c hm => (hc c (by rw [hcs]; exact List.mem_append_left _ hm)).1
  obtain ⟨hn, hwoken, hgone⟩ := given_up hu.stored hu.once hq' hripe
  refine ⟨hn, hwoken, hgone, ?_⟩
  intro mid task now' last hrest hlt
  have hv : v.Stored := stored_after hu.stored _
  have hmem : ∀ c ∈ mid, c ∈ cs := by
    intro c hm
    rw [hcs, hrest]
    simp [hm]
  -- the calls in between are made before the lookup, so before the end of the silence
  have hearly : ∀ c ∈ mid, ∀ s, c.instant? = some s → s.total < (now.add silentTime).total := by
    intro c hm s hs
    have hsplit : cs = (before ++ .expire now :: mid) ++ .lookup x task now' :: last := by
      rw [hcs, hrest]; simp
    rw [hsplit] at hf
    exact (forward_le hf rfl c (by simp [hm]) s hs).trans_lt hlt
  have hfix : v.fixed? x = none :=
    (fixed?_congr (device_after hu.stored _) x).trans (hu.fixed?_of_asking ⟨_, _, _, hq'⟩)
  exact lookup_after_silent hv hfix hn (fun c hm => hc c (hmem c hm)) hearly hlt task

/-- A question that nobody answers is asked again three times, at 1000, 2000 and 3000, and given up at 4000,
with the one task that waits woken. Until 9000 a lookup by another task fails. -/
theorem question_ends_unanswered :
    let t := (create ⟨2, 0, 0, 0, 0, 1⟩ ⟨10, 0, 0, 1⟩ ⟨255, 255, 255, 0⟩).run
      [.lookup ⟨10, 0, 0, 2⟩ (some ⟨7⟩) ⟨0⟩]
    let before := [.expire ⟨1000⟩, .expire ⟨2000⟩, .expire ⟨2500⟩, .expire ⟨3000⟩]
    let u := t.run before
    let v := u.after (.expire ⟨4000⟩)
    ripenings ⟨10, 0, 0, 2⟩ t before = 3 ∧
      (∃ nextAt, u.neighbor? ⟨10, 0, 0, 2⟩ = some ⟨.querying 3 nextAt, .never⟩) ∧
      v.neighbor? ⟨10, 0, 0, 2⟩ = some ⟨.failed ⟨9000⟩, .never⟩ ∧
      ⟨7⟩ ∈ (u.perform (.expire ⟨4000⟩)).2.tasks ∧
      v.lookup ⟨10, 0, 0, 2⟩ (some ⟨8⟩) ⟨8999⟩ = (.error .unreachable, v) := by
  intro t before u v
  have hreach : Reachable Call.Unaided t := (Reachable.create _ _ _).run (by simp [Call.Unaided])
  have hq : t.neighbor? ⟨10, 0, 0, 2⟩ = some ⟨.querying 0 ⟨1000⟩, .never⟩ := by decide +kernel
  have hr : ripenings ⟨10, 0, 0, 2⟩ t before = 3 := by decide +kernel
  have hripe : ripe ⟨10, 0, 0, 2⟩ u (.expire ⟨4000⟩) = true := by decide +kernel
  have hwaits : (⟨7⟩, ⟨10, 0, 0, 2⟩) ∈ u.waits := by decide +kernel
  have hu : t.run before = u := rfl
  have huntil : (⟨4000⟩ : Instant).add silentTime = ⟨9000⟩ := by decide +kernel
  -- from here on only these facts about the tables matter
  clear_value t u
  subst hu
  have hc : ∀ c ∈ before ++ [.expire ⟨4000⟩, .lookup ⟨10, 0, 0, 2⟩ (some ⟨8⟩) ⟨8999⟩],
      c.Silent ⟨10, 0, 0, 2⟩ := by
    simp [before, Call.Silent, Call.Unaided]
  have h := question_ends hreach hq hc (by unfold Forward; decide +kernel)
  obtain ⟨nextAt, hasked⟩ := h.2.1 before (List.prefix_append _ _) hr.le
  rw [hr, Nat.zero_add] at hasked
  obtain ⟨hn, hwoken, -, hsilent⟩ := h.2.2 before ⟨4000⟩ _ rfl hr hripe
  rw [huntil] at hn hsilent
  exact ⟨hr, ⟨nextAt, hasked⟩, hn, hwoken _ hwaits, hsilent [] (some ⟨8⟩) ⟨8999⟩ [] rfl (by decide)⟩

end UdpStack.Arp.Table
