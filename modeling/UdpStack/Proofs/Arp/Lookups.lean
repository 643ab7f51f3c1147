/-
The two lookups of a table. One of them only reads (`known?`); the other one asks for an address that is not
known, and records that its task waits for it (`lookup`). Both find the same addresses, and a lookup that finds
one changes nothing (`lookup_eq_ok_iff`). A lookup that finds none has to wait (`lookup_blocked`) or fails
(`lookup_failed`), and the table after it tells which: its task waits for a question that is under way, or the
address is left alone, or neither (`lookups_agree`).
-/
import UdpStack.Proofs.Arp.Failures
import UdpStack.Proofs.Arp.Waiting

namespace UdpStack.Arp.Table

open Bounded

/-- Nobody answered for an address, and it is left alone for now. -/
def Silent (t : Table) (x : Ipv4.Address) (now : Instant) : Prop :=
  ∃ silentUntil expiresAt, t.neighbor? x = some ⟨.failed silentUntil, expiresAt⟩ ∧ now.total < silentUntil.total

/-- A question for an address is under way, and the task, if there is one, is recorded as waiting for it. -/
def Pending (t : Table) (x : Ipv4.Address) (task : Option Task) : Prop :=
  t.Asking x ∧ ∀ k, task = some k → (k, x) ∈ t.waits

section Lookups

variable {t t' : Table} {x : Ipv4.Address} {task : Option Task} {now : Instant}

/-! ## Addresses that are known -/

theorem ask_ne_ok (t : Table) (x : Ipv4.Address) (task : Option Task) (now : Instant) (hardware : Ethernet.Address) :
    (lookup.ask t x task now).1 ≠ .ok hardware := by
  unfold lookup.ask
  split
  · nofun
  · split <;> nofun

theorem lookup_eq_ok_iff {hardware : Ethernet.Address} :
    (t.lookup x task now).1 = .ok hardware ↔ t.known? x now = some hardware := by
  have hask : ∀ {n : Option Ethernet.Address}, n = none →
      ((lookup.ask t x task now).1 = .ok hardware ↔ n = some hardware) := by
    rintro _ rfl
    exact iff_of_false (ask_ne_ok t x task now hardware) nofun
  unfold lookup known?
  cases t.fixed? x with
  | some fixed => simp
  | none =>
    cases t.neighbors.get? x with
    | none => exact hask rfl
    | some n =>
      obtain ⟨mapping, expiresAt⟩ := n
      cases mapping with
      | resolved found =>
        dsimp only
        split
        · exact hask rfl
        · simp
      | querying retries nextAt =>
        dsimp only
        split <;> exact iff_of_false nofun nofun
      | failed silentUntil =>
        dsimp only
        split
        · exact iff_of_false nofun nofun
        · exact hask rfl

theorem fixed?_of_unknown (h : t.known? x now = none) : t.fixed? x = none := by
  by_contra hf
  obtain ⟨hardware, hf⟩ := Option.ne_none_iff_exists'.1 hf
  unfold known? at h
  rw [hf] at h
  cases h

/-! ## Lookups that have to wait -/

/-- The table after a lookup that has to wait. -/
inductive Blocked (t : Table) (x : Ipv4.Address) (task : Option Task) (now : Instant) : Table → Prop where
  /-- The address is being asked for already. -/
  | joined {u : Table} : t.Asking x → t.wait x task = .ok u → Blocked t x task now u
  | asked {u v : Table} : t.wait x task = .ok u → u.put x (query now) now = .ok v →
      Blocked t x task now (v.request x)

theorem ask_blocked (hs : t.Stored) (h : (lookup.ask t x task now).1 = .error .wouldBlock) :
    Blocked t x task now (lookup.ask t x task now).2 := by
  unfold lookup.ask at h ⊢
  split
  · rename_i e hu
    rw [hu] at h
    cases h
    cases fault_of_wait hu
  · rename_i u hu
    rw [hu] at h
    dsimp only at h ⊢
    split
    · rename_i e hv
      rw [hv] at h
      cases h
      have hn := congrArg neighbors (wait_frame hs.waiters hu).1
      cases (put_eq_error (by rw [hn]; exact hs.neighbors) hv).1
    · rename_i v hv
      exact .asked hu hv

theorem lookup_blocked (hs : t.Stored) (h : (t.lookup x task now).1 = .error .wouldBlock) :
    Blocked t x task now (t.lookup x task now).2 := by
  unfold lookup at h ⊢
  split at h
  · cases h
  · split at h
    · rename_i hq
      split at h
      · rename_i hu
        cases h
        cases fault_of_wait hu
      · rename_i hu
        exact .joined ⟨_, _, _, hq⟩ hu
    · split at h
      · cases h
      · rename_i hlt
        rw [if_neg hlt]
        exact ask_blocked hs h
    · split at h
      · rename_i hx
        rw [if_pos hx]
        exact ask_blocked hs h
      · cases h
    · exact ask_blocked hs h

theorem mem_waits_of_wait (hs : t.Stored) (h : t.wait x task = .ok t') {k : Task} (hk : task = some k) :
    (k, x) ∈ t'.waits := by
  subst hk
  rw [(wait_eq_ok hs.waiters h).2.2]
  exact List.mem_append_right _ (List.mem_singleton_self _)

theorem Blocked.pending (hs : t.Stored) (h : Blocked t x task now t') : t'.Pending x task := by
  cases h with
  | joined ha hu =>
    have hn := congrArg neighbors (wait_frame hs.waiters hu).1
    exact ⟨(asking_of_eq hn).2 ha, fun k hk => mem_waits_of_wait hs hu hk⟩
  | @asked u v hu hv =>
    have hn := congrArg neighbors (wait_frame hs.waiters hu).1
    obtain ⟨hve, -, hvx, -⟩ := put_eq_ok (by rw [hn]; exact hs.neighbors) hv
    refine ⟨(asking_of_eq (post_neighbors v _)).2 ⟨_, _, _, hvx⟩, fun k hk => ?_⟩
    rw [request_eq_post, post_waits, hve]
    exact mem_waits_of_wait hs hu hk

/-! ## Lookups that fail -/

theorem not_asking_of_silent (h : t.Silent x now) : ¬ t.Asking x := by
  obtain ⟨_, _, hn, -⟩ := h
  rintro ⟨_, _, _, hq⟩
  cases hn.symm.trans hq

theorem lookup_of_silent (hf : t.fixed? x = none) (h : t.Silent x now) :
    t.lookup x task now = (.error .unreachable, t) := by
  obtain ⟨_, _, hn, hlt⟩ := h
  unfold neighbor? at hn
  unfold lookup
  rw [hf, hn]
  exact if_pos hlt

/-- No entry comes out of a lookup that finds no place for one. -/
theorem neighbor?_of_crowded {u : Table} {e : Fault} (hs : t.Stored) (hu : t.wait x task = .ok u)
    (hv : u.put x (query now) now = .error e) : (u.cancel x task).neighbor? x = none := by
  obtain ⟨hue, huw⟩ := wait_frame hs.waiters hu
  have hn := congrArg neighbors hue
  have hc := (put_eq_error (by rw [hn]; exact hs.neighbors) hv).2
  rw [(cancel_frame huw x task).1]
  exact hc.unknown

theorem Failed.not_pending {e : Fault} (hs : t.Stored) (h : Failed t x task now e t') : ¬ t'.Pending x task := by
  rintro ⟨ha, hk⟩
  cases h with
  | silent hn hlt => exact not_asking_of_silent ⟨_, _, hn, hlt⟩ ha
  | full hu =>
    cases task with
    | none => cases hu
    | some k => exact (wait_eq_error hs.waiters hu).2 (k, x) (hk k rfl) rfl
  | crowded hu hv =>
    obtain ⟨_, _, _, hq⟩ := ha
    cases (neighbor?_of_crowded hs hu hv).symm.trans hq

theorem Failed.fault {e : Fault} (hs : t.Stored) (h : Failed t x task now e t') :
    (e = .unreachable ∧ t.Silent x now) ∨ e = .exhausted := by
  cases h with
  | silent hn hlt => exact .inl ⟨rfl, _, _, hn, hlt⟩
  | full hu => exact .inr (fault_of_wait hu)
  | crowded hu hv =>
    have hn := congrArg neighbors (wait_frame hs.waiters hu).1
    exact .inr (put_eq_error (by rw [hn]; exact hs.neighbors) hv).1

/-- A lookup of an address that is not known neither begins nor ends a silence. -/
theorem Failed.silent_of {e : Fault} (hs : t.Stored) (h : Failed t x task now e t') (hq : t'.Silent x now) :
    t.Silent x now := by
  cases h with
  | silent | full => exact hq
  | crowded hu hv =>
    obtain ⟨_, _, hn, -⟩ := hq
    cases (neighbor?_of_crowded hs hu hv).symm.trans hn

end Lookups

/-- Both lookups find the same addresses in every table of a run, and then nothing changes. A lookup of an address
that is not known has to wait, is refused or finds no room: it has to wait exactly if afterwards a question for
the address is under way and its task, if there is one, waits for the answer; and it is refused exactly if the
address is left alone, before as after the lookup. -/
theorem lookups_agree (hardware : Ethernet.Address) (addr mask : Ipv4.Address) (cs : List Call)
    (x : Ipv4.Address) (task : Option Task) (now : Instant) :
    let t := (create hardware addr mask).run cs
    let r := (t.lookup x task now).1
    let t' := (t.lookup x task now).2
    (∀ found, r = .ok found ↔ t.known? x now = some found) ∧
    (∀ found, t.known? x now = some found → t' = t) ∧
    (t.known? x now = none →
      (r = .error .wouldBlock ∨ r = .error .unreachable ∨ r = .error .exhausted) ∧
      (r = .error .wouldBlock ↔ t'.Pending x task) ∧
      (r = .error .unreachable ↔ t.Silent x now) ∧ (t'.Silent x now ↔ t.Silent x now)) := by
  intro t r t'
  have hs : t.Stored := run_stored (create_stored hardware addr mask) cs
  refine ⟨fun found => lookup_eq_ok_iff, fun found h => lookup_of_ok (lookup_eq_ok_iff.2 h), fun hnone => ?_⟩
  have hsilent : t.Silent x now → t.lookup x task now = (.error .unreachable, t) :=
    lookup_of_silent (fixed?_of_unknown hnone)
  by_cases hb : r = .error .wouldBlock
  · -- it has to wait
    have hp : t'.Pending x task := (lookup_blocked hs hb).pending hs
    have hns : ¬ t.Silent x now := fun h => by cases hb.symm.trans (congrArg Prod.fst (hsilent h))
    refine ⟨.inl hb, iff_of_true hb hp, iff_of_false ?_ hns, iff_of_false ?_ hns⟩
    · rw [hb]
      nofun
    · exact fun h => not_asking_of_silent h hp.1
  · -- it fails
    obtain ⟨e, he⟩ : ∃ e, r = .error e := by
      cases hr : r with
      | ok found => cases hnone.symm.trans (lookup_eq_ok_iff.1 hr)
      | error e => exact ⟨e, rfl⟩
    have hf : Failed t x task now e t' := lookup_failed he fun h => hb (h ▸ he)
    refine ⟨.inr ?_, iff_of_false hb (hf.not_pending hs), ?_, hf.silent_of hs, ?_⟩
    · rcases hf.fault hs with ⟨rfl, -⟩ | rfl
      · exact .inl he
      · exact .inr he
    · refine ⟨fun hr => ?_, fun h => congrArg Prod.fst (hsilent h)⟩
      rcases hf.fault hs with ⟨-, h⟩ | rfl
      · exact h
      · cases he.symm.trans hr
    · intro h
      have ht : t' = t := congrArg Prod.snd (hsilent h)
      rw [ht]
      exact h

/-- An answer that ends at 60000 is found until then, and not at that moment; an address that is left alone until
9000 is refused until then, and asked for again at that moment. -/
theorem lookups_agree_boundary :
    let found := (create ⟨2, 0, 0, 0, 0, 1⟩ ⟨10, 0, 0, 1⟩ ⟨255, 255, 255, 0⟩).run
      [.enter ⟨10, 0, 0, 2⟩ ⟨2, 0, 0, 0, 0, 2⟩ (some ⟨0⟩)]
    let silent := (create ⟨2, 0, 0, 0, 0, 1⟩ ⟨10, 0, 0, 1⟩ ⟨255, 255, 255, 0⟩).run
      (.lookup ⟨10, 0, 0, 2⟩ none ⟨0⟩ :: [1000, 2000, 3000, 4000].map fun now => .expire ⟨now⟩)
    let look := fun (t : Table) (now : Int) => t.lookup ⟨10, 0, 0, 2⟩ (some ⟨7⟩) ⟨now⟩
    look found 59999 = (.ok ⟨2, 0, 0, 0, 0, 2⟩, found) ∧
      found.known? ⟨10, 0, 0, 2⟩ ⟨60000⟩ = none ∧ (look found 60000).2.Pending ⟨10, 0, 0, 2⟩ (some ⟨7⟩) ∧
      silent.known? ⟨10, 0, 0, 2⟩ ⟨8999⟩ = none ∧ silent.Silent ⟨10, 0, 0, 2⟩ ⟨8999⟩ ∧
      silent.known? ⟨10, 0, 0, 2⟩ ⟨9000⟩ = none ∧ (look silent 9000).2.Pending ⟨10, 0, 0, 2⟩ (some ⟨7⟩) := by
  intro found silent look
  have hagree := fun cs now => lookups_agree ⟨2, 0, 0, 0, 0, 1⟩ ⟨10, 0, 0, 1⟩ ⟨255, 255, 255, 0⟩ cs ⟨10, 0, 0, 2⟩
    (some ⟨7⟩) ⟨now⟩
  have hfound : found.known? ⟨10, 0, 0, 2⟩ ⟨59999⟩ = some ⟨2, 0, 0, 0, 0, 2⟩ := by decide +kernel
  have hended : found.known? ⟨10, 0, 0, 2⟩ ⟨60000⟩ = none := by decide +kernel
  have hleft : silent.known? ⟨10, 0, 0, 2⟩ ⟨8999⟩ = none := by decide +kernel
  have hover : silent.known? ⟨10, 0, 0, 2⟩ ⟨9000⟩ = none := by decide +kernel
  obtain ⟨hok, hkept, -⟩ := hagree _ 59999
  refine ⟨Prod.ext ((hok _).2 hfound) (hkept _ hfound), hended, ?_, hleft, ?_, hover, ?_⟩
  · exact ((hagree _ 60000).2.2 hended).2.1.1 (by decide +kernel)
  · exact ((hagree _ 8999).2.2 hleft).2.2.1.1 (by decide +kernel)
  · exact ((hagree _ 9000).2.2 hover).2.1.1 (by decide +kernel)

end UdpStack.Arp.Table
