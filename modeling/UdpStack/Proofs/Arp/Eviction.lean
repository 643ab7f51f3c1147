/-
What a new entry displaces. An entry that is looked up, entered or learned from a message goes into the table
beside the others; only when the table is full does it take the place of one of them, and that is the first in the
order of ends and addresses among those that may give way (`put_spares`). With no such entry the call fails and
all entries stay (`access_of_crowded`). So whatever a call does to the entry of its own address, the
conversations of the others go on (`insertion_spares_others`).
-/
import UdpStack.Proofs.Arp.Failures
import Mathlib.Data.Prod.Lex

namespace UdpStack

/-- The moment of an end; what never ends has one behind all moments. -/
def Expiry.moment : Expiry → WithTop Int
  | .due t => t.total
  | .never => ⊤

theorem Expiry.order_eq_lt_iff {x y : Expiry} : order x y = .lt ↔ x.moment < y.moment := by
  cases x <;> cases y <;> simp [order, moment, compare_lt_iff_lt]

theorem Expiry.order_eq_gt_iff {x y : Expiry} : order x y = .gt ↔ y.moment < x.moment := by
  cases x <;> cases y <;> simp [order, moment, compare_gt_iff_gt]

namespace Arp

open Bounded

/-- The entries of a table. -/
abbrev Entries := Map Ipv4.Address Neighbor Limits.neighbors

namespace Entries

/-! ## The order in which entries give way -/

/-- An entry that may give way, with the moment of its end: an answer at any time, and an address that is left
alone once it may be asked for again. -/
inductive Yields (l : Entries) (now : Instant) (y : Ipv4.Address) : WithTop Int → Prop where
  | resolved {hardware : Ethernet.Address} {e : Expiry} : l.get? y = some ⟨.resolved hardware, e⟩ →
      Yields l now y e.moment
  | failed {silentUntil : Instant} {e : Expiry} : l.get? y = some ⟨.failed silentUntil, e⟩ →
      silentUntil.total ≤ now.total → Yields l now y silentUntil.total

/-- Earlier moments come first, and of equal ones the lower address. -/
def rank (moment : WithTop Int) (y : Ipv4.Address) : WithTop Int ×ₗ Nat := toLex (moment, y.toWord.toNat)

/-- The first of all entries that may give way. -/
def First (l : Entries) (now : Instant) (v : Ipv4.Address) : Prop :=
  ∃ moment, Yields l now v moment ∧ ∀ y other, Yields l now y other → rank moment v ≤ rank other y

/-- One entry gives way to a new one of `x`, for want of room. -/
structure Evicts (l : Entries) (x : Ipv4.Address) (now : Instant) (v : Ipv4.Address) (l' : Entries) : Prop where
  full : l.size = Limits.neighbors
  unknown : l.get? x = none
  first : First l now v
  gone : l'.get? v = none
  entered : l'.get? x ≠ none
  others : ∀ y, y ≠ x → y ≠ v → l'.get? y = l.get? y

/-- Only the entry of `x` may be new or another one, and at most one other entry gave way to it. -/
inductive Spares (l : Entries) (x : Ipv4.Address) (now : Instant) (l' : Entries) : Prop where
  | only : (l.get? x ≠ none → l'.get? x ≠ none) → (∀ y, y ≠ x → l'.get? y = l.get? y) → Spares l x now l'
  | evicts (v : Ipv4.Address) : Evicts l x now v l' → Spares l x now l'

theorem Spares.refl (l : Entries) (x : Ipv4.Address) (now : Instant) : Spares l x now l :=
  .only (fun h => h) fun _ _ => rfl

end Entries

namespace Table

open Entries

variable {t t' : Table} {x y v : Ipv4.Address} {n : Neighbor} {now : Instant}

/-! ## The entry that gives way -/

theorem yields_iff {moment : WithTop Int} : Yields t.neighbors now y moment ↔
    ∃ n e, t.neighbor? y = some n ∧ evictable now n = some e ∧ e.moment = moment := by
  constructor
  · rintro (h | ⟨h, hle⟩)
    · exact ⟨_, _, h, rfl, rfl⟩
    · exact ⟨_, _, h, if_pos hle, rfl⟩
  · rintro ⟨⟨mapping, e⟩, end', h, he, rfl⟩
    cases mapping with
    | resolved hardware =>
      cases he
      exact .resolved h
    | querying retries nextAt => cases he
    | failed silentUntil =>
      unfold evictable at he
      dsimp only at he
      split at he
      · rename_i hle
        cases he
        exact .failed h hle
      · cases he

/-- The choice between two entries takes the lower rank. -/
theorem rank_sooner (c d : Expiry × Ipv4.Address) : rank (sooner c d).1.moment (sooner c d).2 =
    min (rank c.1.moment c.2) (rank d.1.moment d.2) := by
  unfold sooner rank
  split
  · rename_i h
    rw [min_eq_right (Prod.Lex.toLex_le_toLex.2 (.inl (Expiry.order_eq_lt_iff.1 h)))]
  · rename_i h
    rw [min_eq_left (Prod.Lex.toLex_le_toLex.2 (.inl (Expiry.order_eq_gt_iff.1 h)))]
  · -- neither end is the earlier one, so the address decides
    rename_i h
    have hm : c.1.moment = d.1.moment := by
      refine le_antisymm (not_lt.1 fun hlt => ?_) (not_lt.1 fun hlt => ?_)
      · rw [Expiry.order_eq_lt_iff.2 hlt] at h
        cases h
      · rw [Expiry.order_eq_gt_iff.2 hlt] at h
        cases h
    split
    · rename_i hb
      have hlt : d.2.toWord.toNat < c.2.toWord.toNat := UInt32.lt_iff_toNat_lt.1 (of_decide_eq_true hb)
      rw [min_eq_right (Prod.Lex.toLex_le_toLex.2 (.inr ⟨hm.symm, hlt.le⟩))]
    · rename_i hb
      have hle : c.2.toWord.toNat ≤ d.2.toWord.toNat := not_lt.1 fun hlt => hb (decide_eq_true (UInt32.lt_iff_toNat_lt.2 hlt))
      rw [min_eq_left (Prod.Lex.toLex_le_toLex.2 (.inr ⟨hm, hle⟩))]

theorem rank_foldl_sooner_le : ∀ (cs : List (Expiry × Ipv4.Address)) (c d : Expiry × Ipv4.Address), d ∈ c :: cs →
    rank (cs.foldl sooner c).1.moment (cs.foldl sooner c).2 ≤ rank d.1.moment d.2
  | [], c, d, h => by
    rw [List.mem_singleton.1 h]
    exact le_rfl
  | b :: cs, c, d, h => by
    have hfirst := rank_foldl_sooner_le cs (sooner c b) (sooner c b) List.mem_cons_self
    rw [rank_sooner] at hfirst
    rcases List.mem_cons.1 h with rfl | h
    · exact hfirst.trans (min_le_left _ _)
    · rcases List.mem_cons.1 h with rfl | h
      · exact hfirst.trans (min_le_right _ _)
      · exact rank_foldl_sooner_le cs (sooner c b) d (List.mem_cons_of_mem _ h)

theorem first_of_victim? (hw : t.neighbors.WF) (h : t.victim? now = some v) : First t.neighbors now v := by
  unfold victim? at h
  dsimp only at h
  split at h
  · cases h
  · rename_i c cs hc
    -- the candidates are the entries that may give way, with their ends
    have hmem : ∀ d, d ∈ c :: cs ↔ ∃ n, t.neighbor? d.2 = some n ∧ evictable now n = some d.1 := by
      rintro ⟨e, y⟩
      rw [← hc, List.mem_filterMap]
      constructor
      · rintro ⟨⟨z, n⟩, hz, he⟩
        obtain ⟨e', he', hd⟩ := Option.map_eq_some_iff.1 he
        cases hd
        exact ⟨n, hw.get?_eq_some_iff.2 hz, he'⟩
      · rintro ⟨n, hn, he⟩
        exact ⟨(y, n), hw.get?_eq_some_iff.1 hn, by rw [he]; rfl⟩
    obtain ⟨n, hn, he⟩ := (hmem _).1 (foldl_sooner_mem cs c)
    cases h
    refine ⟨_, yields_iff.2 ⟨n, _, hn, he, rfl⟩, ?_⟩
    intro y other hy
    obtain ⟨n', e', hn', he', rfl⟩ := yields_iff.1 hy
    exact rank_foldl_sooner_le cs c (e', y) ((hmem (e', y)).2 ⟨n', hn', he'⟩)

/-! ## Setting an entry -/

/-- An entry that is known or has room displaces no other one. -/
theorem put_keeps (hw : t.neighbors.WF) (h : t.put x n now = .ok t')
    (hr : t.neighbor? x ≠ none ∨ t.neighbors.size ≠ Limits.neighbors) (hy : y ≠ x) :
    t'.neighbor? y = t.neighbor? y := by
  by_cases hk : t.neighbor? x = none
  · obtain ⟨m, hm⟩ := Map.insert_of_room hk (hr.resolve_left (not_not.2 hk)) n
    have hc : t.neighbors.contains x = false := by
      rw [Map.contains_eq_isSome, show t.neighbors.get? x = none from hk]
      rfl
    unfold put at h
    rw [hc, hm] at h
    cases h
    exact (Map.get?_insert hw hm y).trans (if_neg hy)
  · have hc : t.neighbors.contains x = true := by
      rw [Map.contains_eq_isSome]
      exact Option.isSome_iff_ne_none.2 hk
    rw [put_of_contains hc] at h
    cases h
    exact (Map.get?_set hw x n y).trans (if_neg fun hyx => hy hyx.1)

theorem put_spares (hw : t.neighbors.WF) (h : t.put x n now = .ok t') :
    Spares t.neighbors x now t'.neighbors := by
  obtain ⟨-, -, hx, hothers⟩ := put_eq_ok hw h
  have hentered : t'.neighbors.get? x ≠ none := by
    rw [hx]
    exact Option.some_ne_none n
  by_cases hkept : ∀ y, y ≠ x → t'.neighbors.get? y = t.neighbors.get? y
  · exact .only (fun _ => hentered) hkept
  · -- another entry changed, so it gave way, and that for want of room
    push Not at hkept
    obtain ⟨v, hv, hne⟩ := hkept
    obtain ⟨hvictim, hgone⟩ := (hothers v hv).resolve_left hne
    refine .evicts v ⟨?_, ?_, first_of_victim? hw hvictim, hgone, hentered, ?_⟩
    · by_contra hroom
      exact hne (put_keeps hw h (.inr hroom) hv)
    · by_contra hknown
      exact hne (put_keeps hw h (.inl hknown) hv)
    · intro y hy hyv
      refine (hothers y hy).resolve_right ?_
      rintro ⟨hother, -⟩
      rw [hvictim] at hother
      exact hyv (Option.some.inj hother).symm

/-! ## Calls that bring entries -/

/-- A call that may bring an entry. -/
inductive Access where
  | lookup (x : Ipv4.Address) (task : Option Task) (now : Instant)
  | enter (x : Ipv4.Address) (hardware : Ethernet.Address) (now : Option Instant)
  | receive (m : Message) (now : Instant) (w : Wakeups)

/-- The address whose entry a call may bring. -/
def Access.subject : Access → Ipv4.Address
  | lookup x _ _ | enter x _ _ => x
  | receive m _ _ => m.srcAddr

/-- The moment of a call; entering a mapping for good counts as made at the origin. -/
def Access.instant : Access → Instant
  | lookup _ _ now | receive _ now _ => now
  | enter _ _ now => now.getD ⟨0⟩

/-- Whether a call needs an entry for its address, so that it inserts one where there is none. -/
def Access.Needs (t : Table) : Access → Prop
  | lookup x _ _ => t.fixed? x = none
  | enter .. => True
  | receive m _ _ => m.srcAddr.isUnicast = true ∧ m.srcHardware.isUnicast = true ∧ m.dstAddr = t.addr

/-- Whether a call succeeds, and the table after it. -/
def access (t : Table) : Access → Except Fault Unit × Table
  | .lookup x task now => ((t.lookup x task now).1.map fun _ => (), (t.lookup x task now).2)
  | .enter x hardware now => match t.enter x hardware now with
    | .ok t' => (.ok (), t')
    | .error e => (.error e, t)
  | .receive m now w => ((t.receive m now w).1, (t.receive m now w).2.1)

theorem lookup_spares (hs : t.Stored) (x : Ipv4.Address) (task : Option Task) (now : Instant) :
    Spares t.neighbors x now (t.lookup x task now).2.neighbors := by
  have h := lookup_lookedUp t x task now
  generalize (t.lookup x task now).1 = r at h
  generalize (t.lookup x task now).2 = t' at h
  cases h with
  | settled => exact .refl _ x now
  | joined _ hu =>
    rw [(wait_frame hs.waiters hu).1]
    exact .refl _ x now
  | crowded _ hu _ =>
    obtain ⟨hue, huw⟩ := wait_frame hs.waiters hu
    rw [(cancel_frame huw x task).1, hue]
    exact .refl _ x now
  | asked _ hu hv =>
    have hue := (wait_frame hs.waiters hu).1
    have hn := congrArg neighbors hue
    have hspares := put_spares (by rw [hn]; exact hs.neighbors) hv
    rw [hn] at hspares
    rw [request_eq_post, post_neighbors]
    exact hspares

theorem receive_spares (hs : t.Stored) (m : Message) (now : Instant) (w : Wakeups) :
    Spares t.neighbors m.srcAddr now (t.receive m now w).2.1.neighbors := by
  have h := receive_received t m now w
  generalize (t.receive m now w).2.1 = t' at h
  generalize (t.receive m now w).2.2 = w' at h
  cases h with
  | ignored => exact .refl _ m.srcAddr now
  | @learned u v _ _ hu hv ht =>
    have hspares : Spares t.neighbors m.srcAddr now u.neighbors := put_spares hs.neighbors hu
    have hn : t'.neighbors = u.neighbors := by
      cases hv
      rcases ht with rfl | rfl
      · rfl
      · rw [post_neighbors]
    rw [hn]
    exact hspares

theorem access_spares (hs : t.Stored) (a : Access) :
    Spares t.neighbors a.subject a.instant (t.access a).2.neighbors := by
  cases a with
  | lookup x task now => exact lookup_spares hs x task now
  | enter x hardware now =>
    show Spares t.neighbors x (now.getD ⟨0⟩) (t.access (.enter x hardware now)).2.neighbors
    unfold access
    dsimp only
    split
    · rename_i t' ht
      exact put_spares hs.neighbors ht
    · exact .refl _ x _
  | receive m now w => exact receive_spares hs m now w

/-! ## Calls that find no place -/

theorem Crowded.congr {u : Table} (h : t.Crowded x now) (hn : u.neighbors = t.neighbors) : u.Crowded x now := by
  obtain ⟨hunknown, hfull, hkept⟩ := h
  unfold neighbor? at hunknown hkept
  rw [← hn] at hunknown hfull hkept
  exact ⟨hunknown, hfull, hkept⟩

theorem lookup_of_crowded (hs : t.Stored) (hf : t.fixed? x = none) (h : t.Crowded x now) (task : Option Task) :
    (t.lookup x task now).1 = .error .exhausted ∧ (t.lookup x task now).2.neighbors = t.neighbors := by
  have hask : t.lookup x task now = lookup.ask t x task now := by
    unfold lookup
    rw [hf, show t.neighbors.get? x = none from h.unknown]
  rw [hask]
  unfold lookup.ask
  cases hwait : t.wait x task with
  | error e =>
    rw [fault_of_wait hwait]
    exact ⟨rfl, rfl⟩
  | ok u =>
    obtain ⟨hue, huw⟩ := wait_frame hs.waiters hwait
    have hn := congrArg neighbors hue
    have hput : u.put x (query now) now = .error .exhausted :=
      put_of_crowded (by rw [hn]; exact hs.neighbors) (h.congr hn) _
    dsimp only
    rw [show u.put x ⟨.querying 0 (now.add retryInterval), .never⟩ now = _ from hput]
    refine ⟨rfl, ?_⟩
    rw [(cancel_frame huw x task).1, hue]

theorem access_of_crowded (hs : t.Stored) {a : Access} (hneeds : a.Needs t) (h : t.Crowded a.subject a.instant) :
    (t.access a).1 = .error .exhausted ∧ (t.access a).2.neighbors = t.neighbors := by
  cases a with
  | lookup x task now =>
    obtain ⟨hr, hn⟩ := lookup_of_crowded hs hneeds h task
    exact ⟨congrArg (Except.map fun _ => ()) hr, hn⟩
  | enter x hardware now =>
    have he : t.enter x hardware now = .error .exhausted := put_of_crowded hs.neighbors h _
    unfold access
    dsimp only
    rw [he]
    exact ⟨rfl, rfl⟩
  | receive m now w =>
    obtain ⟨hsrc, hhardware, hdst⟩ := hneeds
    have hr : t.receive m now w = (.error .exhausted, t, w) := receive_of_crowded hs.neighbors hsrc hhardware hdst h
    unfold access
    dsimp only
    rw [hr]
    exact ⟨rfl, rfl⟩

theorem crowded_of_not_yields (hx : t.neighbor? x = none) (hfull : t.neighbors.size = Limits.neighbors)
    (h : ∀ y moment, ¬ Yields t.neighbors now y moment) : t.Crowded x now := by
  refine ⟨hx, hfull, fun y n hn => evictable_eq_none_iff.1 ?_⟩
  rw [Option.eq_none_iff_forall_ne_some]
  intro e he
  exact h y e.moment (yields_iff.2 ⟨n, e, hn, he, rfl⟩)

/-! ## Messages that bring nothing -/

theorem receive_of_improper {m : Message} (h : ¬ (m.srcAddr.isUnicast = true ∧ m.srcHardware.isUnicast = true))
    (now : Instant) (w : Wakeups) : t.receive m now w = (.error .malformed, t, w) := by
  unfold receive
  exact if_pos (by simpa [imp_iff_not_or] using h)

theorem receive_of_foreign {m : Message} (hd : m.dstAddr ≠ t.addr) (hx : t.neighbor? m.srcAddr = none)
    (now : Instant) (w : Wakeups) : (t.receive m now w).2 = (t, w) := by
  have hc : t.neighbors.contains m.srcAddr = false := by
    rw [Map.contains_eq_isSome, show t.neighbors.get? m.srcAddr = none from hx]
    rfl
  unfold receive
  split
  · rfl
  · simp [hc, hd]

/-- In every state that a table reaches, a call changes no entry but that of its own address, except that one other
entry gives way when the table is full and the address has none: the first in order of those that may. If there
is none, a call that needs an entry fails and all entries stay. A message from no proper address changes nothing,
nor does one that is neither meant for this device nor sent by a neighbor with an entry. -/
theorem insertion_spares_others (h : Reachable (fun _ => True) t) :
    (∀ a : Access, Spares t.neighbors a.subject a.instant (t.access a).2.neighbors) ∧
    (∀ a : Access, a.Needs t → t.neighbors.get? a.subject = none → t.neighbors.size = Limits.neighbors →
      (∀ y moment, ¬ Yields t.neighbors a.instant y moment) →
      (t.access a).1 = .error .exhausted ∧ (t.access a).2.neighbors = t.neighbors) ∧
    ∀ (m : Message) (now : Instant) (w : Wakeups),
      (¬ (m.srcAddr.isUnicast = true ∧ m.srcHardware.isUnicast = true) →
        t.receive m now w = (.error .malformed, t, w)) ∧
      (m.dstAddr ≠ t.addr → t.neighbors.get? m.srcAddr = none → (t.receive m now w).2 = (t, w)) := by
  have hs := h.stored
  refine ⟨access_spares hs, ?_, fun m now w => ⟨?_, ?_⟩⟩
  · intro a hneeds hx hfull hnone
    exact access_of_crowded hs hneeds (crowded_of_not_yields hx hfull hnone)
  · exact fun hu => receive_of_improper hu now w
  · exact fun hd hx => receive_of_foreign hd hx now w

/-- Calls after which 10.0.0.2 is left alone until 9000, and seven answers are kept for longer. -/
def oneSilenced : List Call :=
  .lookup ⟨10, 0, 0, 2⟩ none ⟨0⟩ :: [1000, 2000, 3000, 4000].map (fun now => .expire ⟨now⟩) ++
    [3, 4, 5, 6, 7, 8, 9].map fun d => .enter ⟨10, 0, 0, d⟩ (.ofIpv4 ⟨10, 0, 0, d⟩) (some ⟨0⟩)

/-- At that moment, not one before, looking up another address displaces 10.0.0.2. -/
theorem insertion_spares_others_silenced :
    let t := (create ⟨2, 0, 0, 0, 0, 1⟩ ⟨10, 0, 0, 1⟩ ⟨255, 255, 255, 0⟩).run oneSilenced
    Evicts t.neighbors ⟨10, 0, 0, 20⟩ ⟨9000⟩ ⟨10, 0, 0, 2⟩ (t.lookup ⟨10, 0, 0, 20⟩ none ⟨9000⟩).2.neighbors ∧
      Evicts t.neighbors ⟨10, 0, 0, 20⟩ ⟨8999⟩ ⟨10, 0, 0, 3⟩ (t.lookup ⟨10, 0, 0, 20⟩ none ⟨8999⟩).2.neighbors := by
  intro t
  have hreach : Reachable (fun _ => True) t := (Reachable.create _ _ _).run fun _ _ => trivial
  have displaced : ∀ now v, t.neighbors.get? v ≠ none → v ≠ ⟨10, 0, 0, 20⟩ →
      (t.lookup ⟨10, 0, 0, 20⟩ none now).2.neighbors.get? v = none →
      Evicts t.neighbors ⟨10, 0, 0, 20⟩ now v (t.lookup ⟨10, 0, 0, 20⟩ none now).2.neighbors := by
    intro now v hv hne hgone
    rcases (insertion_spares_others hreach).1 (.lookup ⟨10, 0, 0, 20⟩ none now) with ⟨-, hothers⟩ | ⟨v', hev⟩
    · exact absurd ((hothers v hne).symm.trans hgone) hv
    · obtain rfl : v = v' := by
        by_contra hvv
        exact hv ((hev.others v hne hvv).symm.trans hgone)
      exact hev
  exact ⟨displaced ⟨9000⟩ _ (by decide +kernel) (by decide) (by decide +kernel),
    displaced ⟨8999⟩ _ (by decide +kernel) (by decide) (by decide +kernel)⟩

end Table

end Arp

end UdpStack
