/-
Questions that are asked again. The passing of time counts every question that is due as asked once more, but
puts behind the messages that wait to be sent only as many as there is room for, in the order of the table
(`expire_fills`). So from an empty outbox every repetition is sent exactly when no more of them are due than it
holds, and the count of an entry is that of the repetitions put there and of those lost for want of room
(`repetitions_counted`).
-/
import UdpStack.Proofs.Arp.Waiters

namespace UdpStack.Arp.Table

open Bounded

/-! ## What is asked again -/

/-- Whether the question of an entry is due, and may be asked once more. -/
def recurs (now : Instant) (n : Neighbor) : Bool :=
  match n.mapping with
  | .querying retries nextAt => decide (retries < maxRetries ∧ nextAt.total ≤ now.total)
  | _ => false

/-- The questions that are due and may be asked once more, in the order of the table. -/
def repeats (t : Table) (now : Instant) : List Message :=
  ((t.neighbors.toList.filter fun p => recurs now p.2).map (·.1)).map t.question

section Repeats

variable {t : Table} {x : Ipv4.Address} {now : Instant}

theorem filter_due (hn : t.neighbors.WF) (now : Instant) :
    (t.due now).filter t.asksAgain = (t.neighbors.toList.filter fun p => recurs now p.2).map (·.1) := by
  have hget : ∀ p ∈ t.neighbors.toList, t.neighbor? p.1 = some p.2 := fun p hp => hn.get?_eq_some_iff.2 hp
  unfold due
  generalize t.neighbors.toList = l at hget ⊢
  induction l with
  | nil => rfl
  | cons p l ih =>
    obtain ⟨y, ⟨mapping, e⟩⟩ := p
    have hy : t.neighbor? y = some ⟨mapping, e⟩ := hget _ List.mem_cons_self
    have ih := ih fun q hq => hget q (List.mem_cons_of_mem _ hq)
    cases mapping with
    | resolved hardware => exact ih
    | failed u => exact ih
    | querying retries nextAt =>
      have hagain : t.asksAgain y = decide (retries < maxRetries) := by unfold asksAgain; rw [hy]
      have hrec : recurs now ⟨.querying retries nextAt, e⟩ =
        decide (retries < maxRetries ∧ nextAt.total ≤ now.total) := rfl
      rw [List.filterMap_cons, List.filter_cons, hrec]
      by_cases hd : nextAt.total ≤ now.total
      · by_cases hr : retries < maxRetries <;> simp [hd, hr, hagain, ih]
      · simp [hd, ih]

theorem question_injective (t : Table) : Function.Injective t.question := by
  intro y z h
  injection h

theorem mem_repeats (hn : t.neighbors.WF) : t.question x ∈ t.repeats now ↔ ∃ retries nextAt e,
    t.neighbor? x = some ⟨.querying retries nextAt, e⟩ ∧ retries < maxRetries ∧ nextAt.total ≤ now.total := by
  unfold repeats
  rw [List.mem_map_of_injective t.question_injective, List.mem_map]
  constructor
  · rintro ⟨⟨y, ⟨mapping, e⟩⟩, hm, rfl⟩
    obtain ⟨hm, hr⟩ := List.mem_filter.1 hm
    cases mapping with
    | resolved hardware => cases hr
    | failed u => cases hr
    | querying retries nextAt => exact ⟨retries, nextAt, e, hn.get?_eq_some_iff.2 hm, of_decide_eq_true hr⟩
  · rintro ⟨retries, nextAt, e, hx, hr⟩
    exact ⟨(x, _), List.mem_filter.2 ⟨hn.get?_eq_some_iff.1 hx, decide_eq_true hr⟩, rfl⟩

theorem repeats_nodup (hn : t.neighbors.WF) (now : Instant) : (t.repeats now).Nodup :=
  ((List.filter_sublist.map _).nodup hn.nodup).map t.question_injective

end Repeats

/-! ## What is sent of it -/

section Expire

variable {t : Table} {x : Ipv4.Address} {now : Instant}

theorem retry_fills (hw : t.neighbors.WF) {done : List Ipv4.Address} {state : Table × List Ipv4.Address}
    (h : Swept t now done state) (hx : x ∈ t.due now) (hd : x ∉ done) :
    Fills state.1 (retry now state x).1 (([x].filter t.asksAgain).map t.question) := by
  obtain ⟨u, given⟩ := state
  obtain ⟨retries, nextAt, e, hn, -⟩ := (mem_due hw).1 hx
  have hu : u.neighbor? x = some ⟨.querying retries nextAt, e⟩ := (h.entry x).trans (by rw [if_neg hd, hn])
  have hframe : u = { t with neighbors := u.neighbors, outbox := u.outbox } := h.frame
  have hagain : t.asksAgain x = decide (retries < maxRetries) := by unfold asksAgain; rw [hn]
  by_cases hr : retries < maxRetries
  · rw [retry_of_again now given hu hr, List.filter_cons_of_pos (by rw [hagain]; exact decide_eq_true hr)]
    have hq : u.question x = t.question x := by rw [hframe]; rfl
    show Fills u _ [t.question x]
    rw [← hq]
    exact post_fills (u.setEntry x (aged now ⟨.querying retries nextAt, e⟩)) _
  · rw [retry_of_spent now given hu hr, List.filter_cons_of_neg (by rw [hagain]; simpa using hr)]
    exact .of_eq rfl

theorem foldl_retry_fills (hw : t.neighbors.WF) : ∀ {xs done : List Ipv4.Address}
    {state : Table × List Ipv4.Address}, Swept t now done state → (∀ x ∈ xs, x ∈ t.due now) →
    (done ++ xs).Nodup → Fills state.1 (xs.foldl (retry now) state).1 ((xs.filter t.asksAgain).map t.question)
  | [], _, _, _, _, _ => .of_eq rfl
  | x :: xs, done, state, h, hx, hn => by
    have hd : x ∉ done := fun hd => (List.nodup_append.1 hn).2.2 x hd x List.mem_cons_self rfl
    have hxd := hx x List.mem_cons_self
    have hrest := foldl_retry_fills hw (retry_swept hw h hxd hd) (fun y hy => hx y (List.mem_cons_of_mem _ hy))
      (by rw [List.append_assoc]; exact hn)
    have hall := (retry_fills hw h hxd hd).trans hrest
    rwa [← List.map_append, ← List.filter_append] at hall

/-- The passing of time posts the questions that are due again, as many as there is room for. -/
theorem expire_fills (hs : t.Stored) (now : Instant) (w : Wakeups) : Fills t (t.expire now w).1 (t.repeats now) := by
  have hf := foldl_retry_fills hs.neighbors (Swept.start hs.neighbors now) (fun x hx => hx)
    (by rw [List.nil_append]; exact due_nodup hs.neighbors now)
  rw [filter_due hs.neighbors] at hf
  have he : (t.expire now w).1.outbox = ((t.due now).foldl (retry now) (t, [])).1.outbox := by
    rw [expire_frame hs.neighbors]
  have hall := hf.trans (.of_eq he)
  rwa [List.append_nil] at hall

/-- The questions that are due again but find no room among the messages that wait to be sent. -/
def unsent (t : Table) (now : Instant) : List Message := (t.repeats now).drop (Limits.outbox - t.outbox.size)

theorem posted_expire (hs : t.Stored) (now : Instant) :
    t.posted (.expire now) = (t.repeats now).take (Limits.outbox - t.outbox.size) := by
  have hl : (t.after (.expire now)).outbox.toList = _ := (expire_fills hs now .empty hs.outbox).2
  unfold posted
  rw [hl, List.take_append, List.take_of_length_le (length_outbox_le hs.outbox), List.drop_left,
    hs.outbox.length_toList]

/-- From an empty outbox every repetition is posted exactly when no more of them are due than it holds. -/
theorem count_repeats_iff (hs : t.Stored) (now : Instant) : (∀ x, t.question x ∈ t.repeats now →
    ((t.repeats now).take Limits.outbox).count (t.question x) = 1) ↔ (t.repeats now).length ≤ Limits.outbox := by
  have hn := repeats_nodup hs.neighbors now
  constructor
  · intro h
    have hsub : t.repeats now ⊆ (t.repeats now).take Limits.outbox := by
      intro m hm
      obtain ⟨y, -, rfl⟩ := List.mem_map.1 hm
      exact List.count_pos_iff.1 (by rw [h y hm]; exact Nat.one_pos)
    have hle := (hn.subperm hsub).length_le
    exact hle.trans (List.length_take_le _ _)
  · intro hle y hy
    rw [List.take_of_length_le hle]
    exact List.count_eq_one_of_mem hn hy

end Expire

/-! ## Counting repetitions -/

section Count

variable {t : Table} {x : Ipv4.Address}

/-- How many repetitions for an address a call counts without posting them. -/
def lostIn (x : Ipv4.Address) (t : Table) : Call → Nat
  | .expire now => (t.unsent now).count (t.question x)
  | _ => 0

/-- How many repetitions for an address a run counts without posting them. -/
def lost (x : Ipv4.Address) (t : Table) : List Call → Nat
  | [] => 0
  | c :: cs => lostIn x t c + lost x (t.after c) cs

/-- A repetition is posted or lost. -/
theorem questions_expire (hs : t.Stored) (x : Ipv4.Address) (now : Instant) :
    (questions x t (.expire now)).length + lostIn x t (.expire now) = (t.repeats now).count (t.question x) := by
  have hfor : ∀ ms : List Message, ms ⊆ t.repeats now →
      (ms.filter (·.asksFor x)).length = ms.count (t.question x) := by
    intro ms hms
    rw [← List.countP_eq_length_filter]
    refine List.countP_congr fun m hm => ?_
    obtain ⟨y, -, rfl⟩ := List.mem_map.1 (hms hm)
    rw [asksFor_question, beq_iff_eq, beq_iff_eq, t.question_injective.eq_iff]
  have hlen : (questions x t (.expire now)).length = ((t.posted (.expire now)).filter (·.asksFor x)).length := by
    unfold questions
    rw [List.length_filterMap_eq_countP]
    exact List.countP_eq_length.2 fun _ _ => rfl
  rw [hlen, posted_expire hs, hfor _ (List.take_subset _ _)]
  show _ + (List.drop _ _).count _ = _
  rw [← List.count_append, List.take_append_drop]

/-- As long as an address is asked for, its repetitions are counted one by one, posted or lost. -/
theorem repetitions_after (hs : t.Stored) {c : Call} {retries : Nat} {nextAt : Instant} {e : Expiry}
    (hq : t.neighbor? x = some ⟨.querying retries nextAt, e⟩) (ha : (t.after c).Asking x) :
    ∃ nextAt', (t.after c).neighbor? x =
      some ⟨.querying (retries + ((questions x t c).length + lostIn x t c)) nextAt', e⟩ := by
  by_cases hc : ∃ now, c = .expire now
  · obtain ⟨now, rfl⟩ := hc
    have hentry := entry_expire hs now hq
    rw [questions_expire hs]
    by_cases hd : nextAt.total ≤ now.total
    · rw [if_pos hd] at hentry
      by_cases hr : retries < maxRetries
      · have hm : t.question x ∈ t.repeats now := (mem_repeats hs.neighbors).2 ⟨_, _, _, hq, hr, hd⟩
        rw [List.count_eq_one_of_mem (repeats_nodup hs.neighbors now) hm, hentry]
        simp only [aged, if_pos hr]
        exact ⟨_, rfl⟩
      · -- a question that is given up is no longer asked
        obtain ⟨_, _, _, ha⟩ := asking_iff.1 ha
        rw [hentry] at ha
        simp only [aged, if_neg hr] at ha
        cases ha
    · have hm : t.question x ∉ t.repeats now := by
        intro hx
        obtain ⟨_, _, _, hn, -, hle⟩ := (mem_repeats hs.neighbors).1 hx
        rw [hq] at hn; cases hn; exact hd hle
      rw [if_neg hd] at hentry
      rw [List.count_eq_zero_of_not_mem hm]
      exact ⟨nextAt, hentry⟩
  · have hc : ∀ now, c ≠ .expire now := fun now h => hc ⟨now, h⟩
    have hl : lostIn x t c = 0 := by
      cases c with
      | expire now => exact absurd rfl (hc now)
      | _ => rfl
    have ht := turn_after hs c x
    rw [hq] at ht
    rcases ht.of_asking hc with ⟨hn, hqs⟩ | ⟨-, hardware, e', hn⟩
    · rw [hl, hqs]
      exact ⟨nextAt, hn⟩
    · obtain ⟨_, _, _, ha⟩ := asking_iff.1 ha
      rw [hn] at ha; cases ha

theorem repetitions_run : ∀ {cs : List Call} {t : Table} {retries : Nat} {nextAt : Instant} {e : Expiry}, t.Stored →
    t.neighbor? x = some ⟨.querying retries nextAt, e⟩ → (∀ p, p <+: cs → (t.run p).Asking x) →
    ∃ nextAt', (t.run cs).neighbor? x =
      some ⟨.querying (retries + ((asked x t cs).length + lost x t cs)) nextAt', e⟩
  | [], _, _, nextAt, _, _, hq, _ => ⟨nextAt, hq⟩
  | c :: cs, t, retries, _, e, hs, hq, ha => by
    obtain ⟨nextAt', hq'⟩ := repetitions_after hs hq (ha [c] (by simp))
    obtain ⟨nextAt'', h⟩ := repetitions_run (stored_after hs c) hq' fun p (hp : p <+: cs) =>
      ha (c :: p) (List.cons_prefix_cons.2 ⟨rfl, hp⟩)
    refine ⟨nextAt'', ?_⟩
    show ((t.after c).run cs).neighbor? x = _
    rw [h]
    show _ = some (Neighbor.mk (.querying (retries + ((questions x t c ++ asked x (t.after c) cs).length +
      (lostIn x t c + lost x (t.after c) cs))) nextAt'') e)
    rw [List.length_append]
    congr 3
    omega

end Count

/-- What becomes of repetitions in every run. From an empty outbox, the passing of time posts those that are
due, in the order of the table, as many as the outbox holds; so every question that is due and may be asked
once more is posted exactly once if and only if no more of them are due than that. And as long as an address is
asked for, its count grows by the repetitions that were posted and those that were lost for want of room. -/
theorem repetitions_counted (hardware : Ethernet.Address) (addr mask : Ipv4.Address) (before : List Call) :
    let t := (create hardware addr mask).run before
    (∀ now, t.outbox.toList = [] →
      (t.after (.expire now)).outbox.toList = (t.repeats now).take Limits.outbox ∧
      ((∀ x retries nextAt e, t.neighbor? x = some ⟨.querying retries nextAt, e⟩ → retries < maxRetries →
          nextAt.total ≤ now.total → (t.after (.expire now)).outbox.toList.count (t.question x) = 1) ↔
        (t.repeats now).length ≤ Limits.outbox)) ∧
    ∀ x retries nextAt e cs, t.neighbor? x = some ⟨.querying retries nextAt, e⟩ →
      (∀ p, p <+: cs → (t.run p).Asking x) →
      ∃ nextAt', (t.run cs).neighbor? x =
        some ⟨.querying (retries + ((asked x t cs).length + lost x t cs)) nextAt', e⟩ := by
  intro t
  have hs : t.Stored := run_stored (create_stored hardware addr mask) before
  refine ⟨fun now hempty => ?_, fun x retries nextAt e cs => repetitions_run hs⟩
  have hl : (t.after (.expire now)).outbox.toList = (t.repeats now).take Limits.outbox := by
    have h := (expire_fills hs now .empty hs.outbox).2
    rwa [hempty, List.nil_append] at h
  refine ⟨hl, ?_⟩
  rw [hl, ← count_repeats_iff hs]
  constructor
  · intro h x hx
    obtain ⟨retries, nextAt, e, hq, hr, hd⟩ := (mem_repeats hs.neighbors).1 hx
    exact h x retries nextAt e hq hr hd
  · intro h x retries nextAt e hq hr hd
    exact h x ((mem_repeats hs.neighbors).2 ⟨retries, nextAt, e, hq, hr, hd⟩)

/-- Calls that look up 10.0.0.2 and the `k - 1` addresses behind it, and send the questions. -/
def askFirst (k : Nat) : List Call :=
  (List.range k).flatMap fun i => [.lookup ⟨10, 0, 0, UInt8.ofNat (i + 2)⟩ none ⟨0⟩, .outgoing]

theorem askFirst_unaided (k : Nat) : ∀ c ∈ askFirst k, c.Unaided := by
  intro c hc
  obtain ⟨i, -, hi⟩ := List.mem_flatMap.1 hc
  simp only [List.mem_cons, List.not_mem_nil, or_false] at hi
  rcases hi with rfl | rfl <;> trivial

/-- Five questions are due at once: four are posted, and the fifth is counted as asked again all the same. -/
theorem repetitions_counted_five :
    let t := (create ⟨2, 0, 0, 0, 0, 1⟩ ⟨10, 0, 0, 1⟩ ⟨255, 255, 255, 0⟩).run (askFirst 5)
    t.outbox.toList = [] ∧ (t.repeats ⟨1000⟩).length = 5 ∧
      (t.after (.expire ⟨1000⟩)).outbox.toList = (t.repeats ⟨1000⟩).take 4 ∧
      asked ⟨10, 0, 0, 6⟩ t [.expire ⟨1000⟩] = [] ∧ lost ⟨10, 0, 0, 6⟩ t [.expire ⟨1000⟩] = 1 ∧
      ∃ nextAt, (t.run [.expire ⟨1000⟩]).neighbor? ⟨10, 0, 0, 6⟩ = some ⟨.querying 1 nextAt, .never⟩ := by
  intro t
  have h := repetitions_counted ⟨2, 0, 0, 0, 0, 1⟩ ⟨10, 0, 0, 1⟩ ⟨255, 255, 255, 0⟩ (askFirst 5)
  have hempty : t.outbox.toList = [] := by decide +kernel
  have hdue : (t.repeats ⟨1000⟩).length = 5 := by decide +kernel
  have hasked : asked ⟨10, 0, 0, 6⟩ t [.expire ⟨1000⟩] = [] := by decide +kernel
  have hlost : lost ⟨10, 0, 0, 6⟩ t [.expire ⟨1000⟩] = 1 := by decide +kernel
  have hq : t.neighbor? ⟨10, 0, 0, 6⟩ = some ⟨.querying 0 ⟨1000⟩, .never⟩ := by decide +kernel
  have hq' : (t.after (.expire ⟨1000⟩)).neighbor? ⟨10, 0, 0, 6⟩ = some ⟨.querying 1 ⟨2000⟩, .never⟩ := by
    decide +kernel
  -- from here on only these facts about the table matter
  simp only [show (create _ _ _).run (askFirst 5) = t from rfl] at h
  clear_value t
  refine ⟨hempty, hdue, (h.1 ⟨1000⟩ hempty).1, hasked, hlost, ?_⟩
  have hcounted := h.2 ⟨10, 0, 0, 6⟩ 0 ⟨1000⟩ .never [.expire ⟨1000⟩] hq ?_
  · rwa [hasked, hlost] at hcounted
  · intro p hp
    rcases List.prefix_cons_iff.1 hp with rfl | ⟨rest, rfl, hrest⟩
    · exact ⟨0, ⟨1000⟩, .never, hq⟩
    · rw [List.prefix_nil.1 hrest]
      exact ⟨1, ⟨2000⟩, .never, hq'⟩

/-- Not every question that is due and may be asked once more is posted, even from an empty outbox. -/
theorem repetition_unsent : ¬ ∀ (hardware : Ethernet.Address) (addr mask : Ipv4.Address) (before : List Call),
    (∀ c ∈ before, c.Unaided) → ((create hardware addr mask).run before).outbox.toList = [] →
    ∀ now x retries nextAt e,
      ((create hardware addr mask).run before).neighbor? x = some ⟨.querying retries nextAt, e⟩ →
      retries < maxRetries → nextAt.total ≤ now.total →
      (((create hardware addr mask).run before).after (.expire now)).outbox.toList.count
        (((create hardware addr mask).run before).question x) = 1 := by
  intro h
  have h' := h ⟨2, 0, 0, 0, 0, 1⟩ ⟨10, 0, 0, 1⟩ ⟨255, 255, 255, 0⟩ (askFirst 5) (askFirst_unaided 5)
    (by decide +kernel) ⟨1000⟩ ⟨10, 0, 0, 6⟩ 0 ⟨1000⟩ .never (by decide +kernel) (by decide) (by decide)
  exact absurd h' (by decide +kernel)

end UdpStack.Arp.Table
