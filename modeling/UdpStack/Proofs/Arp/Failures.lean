/-
Lookups that fail. A lookup fails because the address is left alone, because there is no room to wait, or because
there is no place for an entry (`lookup_failed`). In the last case its task has begun to wait already, and only
that wait is taken back: an earlier one, which it took the place of, is not put back. So a lookup that fails
changes nothing unless its task was waiting while there is no place for an entry, and then the task waits no
longer and is not woken either (`failed_lookup_ends_wait`).
-/
import UdpStack.Proofs.Arp.Answers

namespace UdpStack.Arp.Table

open Bounded

section Failures

variable {t u : Table} {x : Ipv4.Address} {task : Option Task} {k : Task} {now : Instant} {e : Fault}

/-! ## The waiting tasks other than one -/

theorem length_others_lt (hw : t.waiters.WF) {w : Task × Ipv4.Address} (hm : w ∈ t.waits) (hk : w.1 = k) :
    (t.others k).toList.length < t.waits.length := by
  unfold others
  split
  · rename_i i hi
    obtain ⟨pre, d, post, hl, rfl, -, -⟩ := split_of_findIdx? hi
    rw [Seq.toList_remove hw, hl, eraseIdx_length]
    unfold waits
    rw [hl]
    simp
  · rename_i hf
    have := List.findIdx?_eq_none_iff.1 hf w hm
    simp [hk] at this

theorem toList_others (hw : t.waiters.WF) (ho : t.Once) (k : Task) :
    (t.others k).toList = t.waits.filter fun w => decide (w.1 ≠ k) := by
  have hsub : (t.others k).toList.Sublist (t.waits.filter fun w => decide (w.1 ≠ k)) := by
    have hf := (others_sublist hw k).filter fun w => decide (w.1 ≠ k)
    rwa [List.filter_eq_self.2 fun w hm => decide_eq_true (ne_of_mem_others hw ho hm)] at hf
  have hmem : (t.waits.filter fun w => decide (w.1 ≠ k)) ⊆ (t.others k).toList := by
    intro w hm
    obtain ⟨hm, hk⟩ := List.mem_filter.1 hm
    exact mem_others hw hm (of_decide_eq_true hk)
  have hnd : (t.waits.filter fun w => decide (w.1 ≠ k)).Nodup := (List.Nodup.of_map _ ho).filter _
  exact hsub.eq_of_length_le (hnd.subperm hmem).length_le

/-! ## Why a lookup fails -/

/-- Only a task that is not waiting already can find no room to wait. -/
theorem wait_eq_error (hw : t.waiters.WF) (h : t.wait x task = .error e) :
    e = .exhausted ∧ ∀ w ∈ t.waits, some w.1 ≠ task := by
  cases task with
  | none => cases h
  | some k =>
    have hwait : t.wait x (some k) =
      ((t.others k).push (k, x)).map fun waiters => { t with waiters := waiters } := rfl
    rw [hwait] at h
    unfold Seq.push Seq.insert at h
    rw [if_neg (Nat.lt_irrefl _)] at h
    split at h
    · rename_i hf
      cases h
      refine ⟨rfl, ?_⟩
      rintro w hm hk
      have hlt := length_others_lt hw hm (Option.some.inj hk)
      have hle : t.waits.length ≤ Limits.waiters := hw.length_toList.trans_le hw.size_le
      rw [(others_wf hw k).length_toList, beq_iff_eq.1 hf] at hlt
      omega
    · cases h

theorem put_eq_error (hw : t.neighbors.WF) {n : Neighbor} (h : t.put x n now = .error e) :
    e = .exhausted ∧ t.Crowded x now := by
  have hc : t.Crowded x now := by
    by_contra hc
    obtain ⟨t', ht⟩ := put_of_not_crowded hw hc n
    rw [h] at ht; cases ht
  rw [put_of_crowded hw hc] at h
  cases h
  exact ⟨rfl, hc⟩

/-- The fault of a failed lookup, and the table after it. -/
inductive Failed (t : Table) (x : Ipv4.Address) (task : Option Task) (now : Instant) : Fault → Table → Prop where
  /-- The address is left alone for now. -/
  | silent {silentUntil : Instant} {expiresAt : Expiry} : t.neighbor? x = some ⟨.failed silentUntil, expiresAt⟩ →
      now.total < silentUntil.total → Failed t x task now .unreachable t
  /-- There is no room to wait. -/
  | full {e : Fault} : t.wait x task = .error e → Failed t x task now e t
  /-- There is no place for an entry. -/
  | crowded {u : Table} {e : Fault} : t.wait x task = .ok u → u.put x (query now) now = .error e →
      Failed t x task now e (u.cancel x task)

theorem ask_failed (h : (lookup.ask t x task now).1 = .error e) (he : e ≠ .wouldBlock) :
    Failed t x task now e (lookup.ask t x task now).2 := by
  unfold lookup.ask at h ⊢
  split
  · rename_i f hf
    rw [hf] at h; cases h
    exact .full hf
  · rename_i u hu
    rw [hu] at h
    dsimp only at h
    split
    · rename_i f hf
      rw [hf] at h; cases h
      exact .crowded hu hf
    · rename_i v hv
      rw [hv] at h; cases h
      exact absurd rfl he

theorem lookup_failed (h : (t.lookup x task now).1 = .error e) (he : e ≠ .wouldBlock) :
    Failed t x task now e (t.lookup x task now).2 := by
  unfold lookup at h ⊢
  split at h
  · cases h
  · split at h
    · split at h
      · rename_i f hf
        cases h
        exact .full hf
      · cases h
        exact absurd rfl he
    · rename_i silentUntil expiresAt hn
      split at h
      · rename_i hlt
        cases h
        rw [if_pos hlt]; exact .silent hn hlt
      · rename_i hlt
        rw [if_neg hlt]; exact ask_failed h he
    · split at h
      · rename_i hx
        rw [if_pos hx]; exact ask_failed h he
      · cases h
    · exact ask_failed h he

/-! ## Faults that no lookup has -/

theorem fault_of_wait (h : t.wait x task = .error e) : e = .exhausted := by
  cases task with
  | none => cases h
  | some k =>
    have hwait : t.wait x (some k) =
      ((t.others k).push (k, x)).map fun waiters => { t with waiters := waiters } := rfl
    rw [hwait] at h
    unfold Seq.push Seq.insert at h
    rw [if_neg (Nat.lt_irrefl _)] at h
    split at h <;> cases h
    rfl

theorem fault_of_insert {m : Map Ipv4.Address Neighbor Limits.neighbors} {n : Neighbor}
    (h : m.insert x n = .error e) : e ≠ .badSize := by
  rcases Map.insert_eq_error h with ⟨-, rfl⟩ | ⟨-, -, rfl⟩ <;> decide

theorem fault_of_put {n : Neighbor} (h : t.put x n now = .error e) : e ≠ .badSize := by
  unfold put at h
  split at h
  · cases h
  · split at h
    · cases h
    · split at h
      · cases h
        decide
      · rename_i v _
        cases hi : (t.neighbors.remove v).2.insert x n with
        | error f => rw [hi] at h; cases h; exact fault_of_insert hi
        | ok m => rw [hi] at h; cases h
    · rename_i hi
      cases h
      exact fault_of_insert hi

/-- No lookup is about sizes, whatever is in the table. -/
theorem lookup_ne_badSize (t : Table) (x : Ipv4.Address) (task : Option Task) (now : Instant) :
    (t.lookup x task now).1 ≠ .error .badSize := by
  intro h
  have hf := lookup_failed h (by decide)
  generalize (t.lookup x task now).2 = u at hf
  cases hf with
  | full hw => cases fault_of_wait hw
  | crowded _ hp => exact fault_of_put hp rfl

/-! ## What a failed lookup changes -/

/-- Taking back a wait that was just added leaves the other tasks waiting, and nobody else. -/
theorem cancel_of_wait (hs : t.Stored) (ho : t.Once) (hu : t.wait x task = .ok u) :
    u.cancel x task = { t with waiters := (u.cancel x task).waiters } ∧ (u.cancel x task).waiters.WF ∧
      (u.cancel x task).waits = t.waits.filter fun w => decide (some w.1 ≠ task) := by
  obtain ⟨he, hw⟩ := wait_frame hs.waiters hu
  obtain ⟨hc, hcw⟩ := cancel_frame hw x task
  refine ⟨by rw [hc, he], hcw, ?_⟩
  cases task with
  | none => cases hu; rw [cancel_none]; simp
  | some k =>
    have hk : (k, x) ∉ (t.others k).toList := fun hm => ne_of_mem_others hs.waiters ho hm rfl
    rw [cancel_wait hs.waiters hk hu, toList_others hs.waiters ho]
    simp

theorem eq_of_waits (hs : t.Stored) (h : u = { t with waiters := u.waiters }) (hw : u.waiters.WF) :
    u = t ↔ u.waits = t.waits := by
  constructor
  · rintro rfl; rfl
  · intro hl
    rw [h, hw.eq_of_toList hs.waiters hl]

end Failures

/-- A lookup that fails in a run of a table is refused for a while, and changes nothing; or it finds no room,
and then at most its own task waits no longer. So it changes nothing exactly if its task was not waiting. -/
theorem failed_lookup_ends_wait (hardware : Ethernet.Address) (addr mask : Ipv4.Address) (cs : List Call)
    (x : Ipv4.Address) (task : Option Task) (now : Instant) (e : Fault) :
    let t := (create hardware addr mask).run cs
    let t' := (t.lookup x task now).2
    (t.lookup x task now).1 = .error e → e ≠ .wouldBlock →
      (e = .unreachable ∧ t' = t) ∨
      (e = .exhausted ∧ t' = { t with waiters := t'.waiters } ∧
        t'.waits = t.waits.filter (fun w => decide (some w.1 ≠ task)) ∧
        (t' = t ↔ ∀ w ∈ t.waits, some w.1 ≠ task)) := by
  intro t t' hr he
  have hreach : Reachable (fun _ => True) t := (Reachable.create hardware addr mask).run fun _ _ => trivial
  have hs : t.Stored := hreach.stored
  have ho : t.Once := hreach.once
  have hf : Failed t x task now e t' := lookup_failed hr he
  have hall : t.waits.filter (fun w => decide (some w.1 ≠ task)) = t.waits ↔ ∀ w ∈ t.waits, some w.1 ≠ task := by
    simp [List.filter_eq_self]
  clear_value t'
  cases hf with
  | silent _ _ => exact .inl ⟨rfl, rfl⟩
  | full h =>
    obtain ⟨rfl, hk⟩ := wait_eq_error hs.waiters h
    exact .inr ⟨rfl, rfl, (hall.2 hk).symm, iff_of_true rfl hk⟩
  | @crowded u _ hu hv =>
    obtain ⟨hc, hw, hl⟩ := cancel_of_wait hs ho hu
    have hue := (wait_frame hs.waiters hu).1
    obtain ⟨rfl, -⟩ := put_eq_error (by rw [hue]; exact hs.neighbors) hv
    refine .inr ⟨rfl, hc, hl, ?_⟩
    rw [eq_of_waits hs hc hw, hl, hall]

/-- Calls after which task 7 waits for 10.0.0.2 and there is no place for an entry. -/
def waitAndFill : List Call := .lookup ⟨10, 0, 0, 2⟩ (some ⟨7⟩) ⟨0⟩ :: askFirst 8

/-- Task 7 looks up another address while there is no place for its entry, and waits no longer. -/
theorem failed_lookup_ends_wait_full :
    let t := (create ⟨2, 0, 0, 0, 0, 1⟩ ⟨10, 0, 0, 1⟩ ⟨255, 255, 255, 0⟩).run waitAndFill
    let t' := (t.lookup ⟨10, 0, 0, 20⟩ (some ⟨7⟩) ⟨0⟩).2
    t.waits = [(⟨7⟩, ⟨10, 0, 0, 2⟩)] ∧ t'.neighbors = t.neighbors ∧ t'.outbox = t.outbox ∧ t'.waits = [] ∧ t' ≠ t := by
  intro t t'
  have hwaits : t.waits = [(⟨7⟩, ⟨10, 0, 0, 2⟩)] := by decide +kernel
  have hfails : (t.lookup ⟨10, 0, 0, 20⟩ (some ⟨7⟩) ⟨0⟩).1 = .error .exhausted := by decide +kernel
  have hended := failed_lookup_ends_wait ⟨2, 0, 0, 0, 0, 1⟩ ⟨10, 0, 0, 1⟩ ⟨255, 255, 255, 0⟩ waitAndFill
    ⟨10, 0, 0, 20⟩ (some ⟨7⟩) ⟨0⟩ .exhausted hfails (by decide)
  -- from here on only these facts about the table matter
  simp only [show (create _ _ _).run waitAndFill = t from rfl] at hended
  clear_value t
  rcases hended with ⟨h, -⟩ | ⟨-, hframe, hl, hiff⟩
  · cases h
  · rw [hwaits] at hl hiff
    refine ⟨hwaits, ?_, ?_, hl, fun ht => hiff.1 ht _ List.mem_cons_self rfl⟩
    · exact (congrArg neighbors hframe).trans rfl
    · exact (congrArg outbox hframe).trans rfl

/-- Not every lookup that fails leaves the table as it is. -/
theorem failed_lookup_forgets : ¬ ∀ (hardware : Ethernet.Address) (addr mask : Ipv4.Address) (cs : List Call)
    (x : Ipv4.Address) (task : Option Task) (now : Instant),
    let t := (create hardware addr mask).run cs
    let t' := (t.lookup x task now).2
    (t.lookup x task now).1 = .error .exhausted ∨ (t.lookup x task now).1 = .error .unreachable →
      t'.neighbors = t.neighbors ∧ t'.waiters = t.waiters ∧ t'.outbox = t.outbox := by
  intro h
  have hkept := (h ⟨2, 0, 0, 0, 0, 1⟩ ⟨10, 0, 0, 1⟩ ⟨255, 255, 255, 0⟩ waitAndFill ⟨10, 0, 0, 20⟩ (some ⟨7⟩) ⟨0⟩
    (.inl (by decide +kernel))).2.1
  exact absurd (congrArg Seq.toList hkept) (by decide +kernel)

end UdpStack.Arp.Table
