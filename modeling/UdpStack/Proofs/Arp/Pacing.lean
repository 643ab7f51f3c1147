/-
How often an address is asked for. Between two messages from an address, any two questions for it
are an interval apart, and a fifth one comes only after the address was left alone for a while
(`questions_paced`), whoever looks it up and whichever entries give way in between. This takes moments
that leave room for such a while: at the very last ones the next question falls due in the past
(`questions_hurried`).

The invariant looks back from the entry of the address: it tells which of the questions so far
belong to the round under way, and the earliest moment of the next question (`Timely`).
-/
import UdpStack.Proofs.Arp.Calls

namespace UdpStack.Arp.Table

/-! ## Questions that keep their distance -/

/-- The time between a question and the one `k` places behind it. -/
def gap (k : Nat) : Int :=
  k * retryInterval.toMillis + if k ≤ maxRetries then 0 else silentTime.toMillis

theorem gap_mono {j k : Nat} (h : j ≤ k) : gap j ≤ gap k := by
  have hr : retryInterval.toMillis = 1000 := rfl
  have hs : silentTime.toMillis = 5000 := rfl
  unfold gap
  rw [hr, hs]
  split <;> split <;> omega

/-- Every moment of a list, newest first, keeps its distance from a later one: the first of them that of
`k` places. -/
def Apart (k : Nat) (l : List Instant) (u : Instant) : Prop :=
  ∀ i s, l[i]? = some s → s.total + gap (i + k) ≤ u.total

/-- The moments of a list, newest first, keep their distance from each other. -/
def Paced : List Instant → Prop
  | [] => True
  | u :: l => Apart 1 l u ∧ Paced l

theorem Apart.sublist {l l' : List Instant} {u : Instant} (hs : l'.Sublist l) :
    ∀ {j k : Nat}, j ≤ k → Apart k l u → Apart j l' u := by
  induction hs with
  | slnil => exact fun _ _ => nofun
  | cons a hs ih =>
    intro j k hk h
    refine ih (k := k + 1) (by omega) ?_
    intro i s hi
    have := h (i + 1) s hi
    rwa [Nat.add_assoc, Nat.add_comm 1 k] at this
  | cons_cons a hs ih =>
    intro j k hk h i s hi
    cases i with
    | zero =>
      have := h 0 s hi
      have := gap_mono (show 0 + j ≤ 0 + k by omega)
      omega
    | succ i =>
      have := ih (j := j + 1) (k := k + 1) (by omega) (fun i s hi => by
        have := h (i + 1) s hi
        rwa [Nat.add_assoc, Nat.add_comm 1 k] at this) i s hi
      rwa [Nat.add_comm j 1, ← Nat.add_assoc] at this

/-- Some of the moments keep their distance when all do. -/
theorem Paced.sublist {l l' : List Instant} (hs : l'.Sublist l) (h : Paced l) : Paced l' := by
  induction hs with
  | slnil => trivial
  | cons a _ ih => exact ih h.2
  | cons_cons a hs ih => exact ⟨h.1.sublist hs le_rfl, ih h.2⟩

/-! ## The next question -/

/-- How many of the questions so far belong to the round under way. -/
def round : Option Neighbor → Nat
  | some ⟨.querying retries _, _⟩ => retries + 1
  | _ => 0

/-- The earliest moment of the next question. -/
def ready (now : Instant) : Option Neighbor → Instant
  | some ⟨.querying _ nextAt, _⟩ => nextAt
  | some ⟨.failed u, _⟩ => u
  | _ => now

/-- The questions so far, newest first, keep their distance from each other and from the next one; and
a question of an earlier round is also a silence away from the next one. -/
structure Timely (l : List Instant) (n : Option Neighbor) (now : Instant) : Prop where
  paced : Paced l
  ready : ∀ i s, l[i]? = some s → s.total + (i + 1 : Nat) * retryInterval.toMillis +
    (if i < round n then 0 else silentTime.toMillis) ≤ (ready now n).total

section Step

variable {l : List Instant} {n : Option Neighbor} {now now' : Instant}

theorem Timely.start (n : Option Neighbor) (now : Instant) : Timely [] n now := ⟨trivial, nofun⟩

/-- An entry that stays lets no question be earlier. -/
theorem Timely.later (h : Timely l n now) (hle : now.total ≤ now'.total) : Timely l n now' := by
  refine ⟨h.paced, ?_⟩
  intro i s hi
  have hr : (Table.ready now n).total ≤ (Table.ready now' n).total := by
    unfold Table.ready
    split
    · exact le_rfl
    · exact le_rfl
    · exact hle
  exact (h.ready i s hi).trans hr

/-- The next question is asked, or dropped for want of room: it belongs to the round under way, or
begins a new one. -/
theorem Timely.ask (h : Timely l n now) (hl : now'.Leaves retryInterval) {n' : Option Neighbor}
    {qs : List Instant} (hready : (Table.ready now n).total ≤ now'.total) (hround : round n ≤ maxRetries)
    (hround' : round n' = round n + 1) (hready' : Table.ready now' n' = now'.add retryInterval)
    (hqs : qs.Sublist [now']) : Timely (qs ++ l) n' now' := by
  have hr : retryInterval.toMillis = 1000 := rfl
  have hs : silentTime.toMillis = 5000 := rfl
  have hm : maxRetries = 3 := rfl
  have hold := h.ready
  rw [hr, hs] at hold
  rw [hm] at hround
  rcases List.sublist_singleton.1 hqs with rfl | rfl
  · refine ⟨h.paced, ?_⟩
    intro i s hi
    have := hold i s hi
    rw [hready', hround', hl.total_add, hr, hs]
    split at this <;> split <;> omega
  · refine ⟨⟨?_, h.paced⟩, ?_⟩
    · intro i s hi
      have := hold i s hi
      unfold gap
      rw [hr, hs, hm]
      split at this <;> split <;> omega
    · intro i s hi
      rw [hready', hround', hl.total_add, hr, hs]
      cases i with
      | zero =>
        cases hi
        rw [if_pos (Nat.succ_pos _)]; omega
      | succ i =>
        have := hold i s hi
        split at this <;> split <;> omega

/-- Once an address is given up, all questions so far are a silence away from the next one. -/
theorem Timely.giveUp (h : Timely l n now) (hl : now'.Leaves silentTime) {e : Expiry}
    (hready : (Table.ready now n).total ≤ now'.total) :
    Timely l (some ⟨.failed (now'.add silentTime), e⟩) now' := by
  refine ⟨h.paced, ?_⟩
  intro i s hi
  have := h.ready i s hi
  have hr : retryInterval.toMillis = 1000 := rfl
  have hs : silentTime.toMillis = 5000 := rfl
  have hround : round (some ⟨.failed (now'.add silentTime), e⟩) = 0 := rfl
  have hready' : Table.ready now' (some ⟨.failed (now'.add silentTime), e⟩) = now'.add silentTime := rfl
  rw [hround, hready', hl.total_add, if_neg (Nat.not_lt_zero i), hr, hs]
  rw [hr, hs] at this
  split at this <;> omega

/-- An address that is not asked for any more may be asked for at once. -/
theorem Timely.forget (h : Timely l n now) (hround : round n = 0)
    (hready : (Table.ready now n).total ≤ now'.total) : Timely l none now' := by
  refine ⟨h.paced, ?_⟩
  intro i s hi
  have := h.ready i s hi
  rw [hround] at this
  exact this.trans hready

theorem round_of_askable (h : Askable now' n) : round n = 0 := by
  unfold round
  split
  · exact h.elim
  · rfl

theorem ready_of_askable (h : Askable now' n) (hle : now.total ≤ now'.total) :
    (Table.ready now n).total ≤ now'.total := by
  unfold Table.ready
  split
  · exact h.elim
  · exact h
  · exact hle

theorem round_of_evictable {n : Neighbor} (h : (evictable now' n).isSome = true) : round (some n) = 0 := by
  obtain ⟨mapping, e⟩ := n
  cases mapping with
  | resolved _ => rfl
  | failed _ => rfl
  | querying _ _ => cases h

theorem ready_of_evictable {n : Neighbor} (h : (evictable now' n).isSome = true)
    (hle : now.total ≤ now'.total) : (Table.ready now (some n)).total ≤ now'.total := by
  obtain ⟨mapping, e⟩ := n
  cases mapping with
  | resolved _ => exact hle
  | querying _ _ => cases h
  | failed u =>
    show u.total ≤ now'.total
    by_contra hu
    unfold evictable at h
    dsimp only at h
    rw [if_neg hu] at h
    cases h

theorem leaves_retryInterval {now : Instant} (h : now.Leaves silentTime) : now.Leaves retryInterval :=
  h.mono (by decide)

/-- Every call that brings no message from the address keeps the questions timely. -/
theorem Timely.turn (h : Timely l n now) {c : Call} {x : Ipv4.Address} {gone : Prop}
    {n' : Option Neighbor} {qs : List Instant} (ht : Turn c x gone n n' qs) (hc : c.Unaided)
    (hx : ∀ m now, c = .receive m now → m.srcAddr ≠ x) (hle : ∀ u, c.instant? = some u → now.total ≤ u.total)
    (hl : ∀ u, c.instant? = some u → u.Leaves silentTime) : Timely (qs ++ l) n' (c.instant?.getD now) := by
  have hle' : now.total ≤ (c.instant?.getD now).total := by
    cases hi : c.instant? with
    | none => exact le_rfl
    | some u => exact hle u hi
  cases ht with
  | stay => exact h.later hle'
  | ask hi ha hqs =>
    rw [hi]
    have hround := round_of_askable ha
    refine h.ask (leaves_retryInterval (hl _ hi)) (ready_of_askable ha (hle _ hi))
      (by rw [hround]; exact Nat.zero_le _) ?_ rfl hqs
    rw [hround]; rfl
  | again hi hdue hr hqs =>
    subst hi
    exact h.ask (leaves_retryInterval (hl _ rfl)) hdue hr rfl rfl hqs
  | giveUp hi hdue _ _ =>
    subst hi
    exact h.giveUp (hl _ rfl) hdue
  | learn hi hm _ => exact absurd hm (hx _ _ hi)
  | enter hi => rw [hi] at hc; exact hc.elim
  | evict hi he =>
    rw [hi hc]
    exact h.forget (round_of_evictable he) (ready_of_evictable he (hle _ (hi hc)))

end Step

/-! ## Runs -/

/-- The moments do not go back. -/
def Forward (us : List Instant) : Prop := us.Pairwise fun s u => s.total ≤ u.total

end UdpStack.Arp.Table
