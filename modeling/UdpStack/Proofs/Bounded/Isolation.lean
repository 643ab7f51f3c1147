/-
The handles of a pool do not interfere. A ledger keeps every handle that was given out, together with what was last
stored through it, and knows nothing of slots. As the generation of a slot counts its releases, a handle that is given
out differs from all that were given out before, as long as no slot is released 256 times (`Kept.fresh`). So what any
handle reads is what the ledger has for it (`leases_isolated`), whatever is done through the other ones.
-/
import UdpStack.Proofs.Bounded.Pool

namespace UdpStack.Bounded.Pool

variable {α : Type} {n : Nat}

/-! ## Going over the values -/

/-- Replace every value, each through its handle and in the order of the slots. -/
def sweep (f : Handle → α → α) (p : Pool α n) : Pool α n :=
  p.entries.foldl (fun q e => q.set e.1 (f e.1 e.2)) p

theorem mem_entries {p : Pool α n} {x : Handle} {a : α} : (x, a) ∈ p.entries ↔ p.get? x = some a := by
  rw [entries, List.mem_filterMap, get?_eq_some_iff]
  constructor
  · rintro ⟨i, hi, h⟩
    rw [List.mem_range] at hi
    split at h
    · rename_i g b hg hv
      cases h
      have hx : (UInt8.ofNat i).toNat = i := by rw [UInt8.toNat_ofNat']; omega
      rw [hx]
      exact ⟨hg, hv⟩
    · cases h
  · rintro ⟨hg, hv⟩
    have hlt := lt_of_get? (get?_eq_some_iff.2 ⟨hg, hv⟩)
    have h256 := x.index.toNat_lt
    refine ⟨x.index.toNat, List.mem_range.2 (by omega), ?_⟩
    rw [value?] at hv
    rw [hg, hv, UInt8.ofNat_toNat]

theorem entries_pairwise (p : Pool α n) :
    p.entries.Pairwise fun e e' => e.1.index.toNat < e'.1.index.toNat := by
  have hindex : ∀ i ∈ List.range (min n 256), (UInt8.ofNat i).toNat = i := by
    intro i hi
    rw [List.mem_range] at hi
    rw [UInt8.toNat_ofNat']
    omega
  rw [entries, List.pairwise_filterMap]
  refine List.pairwise_lt_range.imp_of_mem ?_
  intro i j hi hj hij e he e' he'
  split at he
  · split at he'
    · cases he
      cases he'
      show (UInt8.ofNat i).toNat < (UInt8.ofNat j).toNat
      rw [hindex i hi, hindex j hj]
      exact hij
    · cases he'
  · cases he

theorem entries_nodup (p : Pool α n) : (p.entries.map Prod.fst).Nodup := by
  rw [List.Nodup, List.pairwise_map]
  refine p.entries_pairwise.imp ?_
  intro e e' h heq
  rw [heq] at h
  exact lt_irrefl _ h

theorem generations_set (p : Pool α n) (x : Handle) (a : α) : (p.set x a).generations = p.generations := by
  unfold set; split <;> rfl

theorem get?_foldl_set (f : Handle → α → α) (y : Handle) : ∀ (es : List (Handle × α)) (p : Pool α n),
    (es.map Prod.fst).Nodup → (∀ e ∈ es, p.get? e.1 = some e.2) →
      (es.foldl (fun q e => q.set e.1 (f e.1 e.2)) p).get? y =
        if y ∈ es.map Prod.fst then (p.get? y).map (f y) else p.get? y
  | [], p, _, _ => by simp
  | (x, a) :: es, p, hnodup, hget => by
    rw [List.map_cons, List.nodup_cons] at hnodup
    have hx := hget _ List.mem_cons_self
    have hset : ∀ z, (p.set x (f x a)).get? z = if z = x then some (f x a) else p.get? z := by
      intro z
      rw [get?_set, hx]
      simp
    rw [List.foldl_cons, get?_foldl_set f y es (p.set x (f x a)) hnodup.2 ?_, hset, List.map_cons]
    · by_cases hy : y = x
      · rw [hy, if_neg hnodup.1, if_pos rfl, if_pos List.mem_cons_self, hx]
        rfl
      · simp only [List.mem_cons, hy, false_or, if_false]
    · intro e he
      have hne : e.1 ≠ x := fun heq => hnodup.1 (List.mem_map.2 ⟨e, he, heq⟩)
      rw [hset, if_neg hne, hget e (List.mem_cons_of_mem _ he)]

theorem get?_sweep (f : Handle → α → α) (p : Pool α n) (y : Handle) :
    (p.sweep f).get? y = (p.get? y).map (f y) := by
  rw [sweep, get?_foldl_set f y p.entries p p.entries_nodup fun e he => mem_entries.1 he]
  split
  · rfl
  · rename_i hy
    cases h : p.get? y with
    | none => rfl
    | some a => exact absurd (List.mem_map_of_mem (mem_entries.2 h)) hy

theorem generations_sweep (f : Handle → α → α) (p : Pool α n) : (p.sweep f).generations = p.generations := by
  unfold sweep
  generalize p.entries = es
  induction es generalizing p with
  | nil => rfl
  | cons e es ih => rw [List.foldl_cons, ih, generations_set]

/-! ## Slots that no handle reaches -/

/-- Only slots that a handle can name hold values. -/
def Reached (p : Pool α n) : Prop := ∀ i, 256 ≤ i → p.value? i = none

theorem reached_empty : (empty : Pool α n).Reached := by
  intro i _
  show (Vector.replicate n none)[i]?.join = none
  rw [Vector.getElem?_replicate]
  split <;> rfl

theorem Reached.store {p : Pool α n} (hp : p.Reached) (x : Handle) (o : Option α) (g : Vector UInt8 n) :
    Reached ⟨p.slots.setIfInBounds x.index.toNat o, g⟩ := by
  intro i hi
  have h256 := x.index.toNat_lt
  show (p.slots.setIfInBounds x.index.toNat o)[i]?.join = none
  rw [Vector.getElem?_setIfInBounds_ne (by omega)]
  exact hp i hi

theorem Reached.acquire {p q : Pool α n} (hp : p.Reached) {a : α} {x : Handle}
    (h : p.acquire a = .ok (x, q)) : q.Reached := by
  obtain ⟨-, -, -, rfl⟩ := acquire_eq_ok h
  exact hp.store x _ _

theorem Reached.release {p : Pool α n} (hp : p.Reached) (x : Handle) : (p.release x).2.Reached := by
  unfold Pool.release
  split
  · exact hp
  · exact hp.store x _ _

theorem Reached.set {p : Pool α n} (hp : p.Reached) (x : Handle) (a : α) : (p.set x a).Reached := by
  unfold Pool.set
  split
  · exact hp
  · exact hp.store x _ _

theorem Reached.sweep {p : Pool α n} (hp : p.Reached) (f : Handle → α → α) : (p.sweep f).Reached := by
  unfold Pool.sweep
  generalize p.entries = es
  induction es generalizing p with
  | nil => exact hp
  | cons e es ih => exact ih (hp.set e.1 _)

theorem toList_eq_range (p : Pool α n) : p.toList = (List.range n).filterMap p.value? := by
  have hslots : p.slots.toList = (List.range n).map p.value? := by
    apply List.ext_getElem
    · simp
    · intro i hi _
      have hlt : i < n := by simpa using hi
      simp [value?, hlt]
  rw [toList, hslots, List.filterMap_map]
  rfl

/-- The values are those that the handles lead to, in the same order. -/
theorem toList_eq_entries {p : Pool α n} (hp : p.Reached) : p.toList = p.entries.map Prod.snd := by
  have hsplit : List.range n = List.range (min n 256) ++ (List.range (n - min n 256)).map (min n 256 + ·) := by
    rw [← List.range_add]
    congr 1
    omega
  have hrest : ((List.range (n - min n 256)).map (min n 256 + ·)).filterMap p.value? = [] := by
    rw [List.filterMap_eq_nil_iff]
    intro i hi
    obtain ⟨k, hk, rfl⟩ := List.mem_map.1 hi
    rw [List.mem_range] at hk
    exact hp _ (by omega)
  rw [toList_eq_range, hsplit, List.filterMap_append, hrest, List.append_nil, entries, List.map_filterMap]
  apply List.filterMap_congr
  intro i hi
  rw [List.mem_range] at hi
  have hgen : p.generations[i]? = some p.generations[i] := Vector.getElem?_eq_getElem (by omega)
  rw [hgen]
  cases hv : p.slots[i]?.join <;> simp [value?, hv]

/-! ## Where a value is put -/

theorem findIdx?_slots {p : Pool α n} {i : Nat} :
    p.slots.toList.findIdx? Option.isNone = some i ↔ IsLeast {j | j < n ∧ p.value? j = none} i := by
  have hslot : ∀ j (hj : j < p.slots.toList.length), p.slots.toList[j] = p.value? j := by
    intro j hj
    have hlt : j < n := by simpa using hj
    simp [value?, hlt]
  have hlength : p.slots.toList.length = n := by simp
  rw [List.findIdx?_eq_some_iff_getElem]
  constructor
  · rintro ⟨hi, hnone, hbefore⟩
    rw [hslot i hi, Option.isNone_iff_eq_none] at hnone
    refine ⟨⟨by omega, hnone⟩, ?_⟩
    rintro j ⟨hj, hv⟩
    by_contra hji
    refine hbefore j (by omega) ?_
    rw [hslot, hv]
    rfl
  · rintro ⟨⟨hi, hv⟩, hleast⟩
    refine ⟨by omega, by rw [hslot, hv]; rfl, ?_⟩
    intro j hj hnone
    rw [hslot, Option.isNone_iff_eq_none] at hnone
    exact absurd hj (Nat.not_lt.2 (hleast ⟨hj.trans hi, hnone⟩))

/-- An acquisition uses the first vacant slot, and fails exactly if no handle can name that one. -/
theorem acquire_cases (p : Pool α n) (a : α) :
    (p.acquire a = .error .exhausted ∧ ¬ ∃ i ≤ 255, IsLeast {j | j < n ∧ p.value? j = none} i) ∨
      ∃ x q, p.acquire a = .ok (x, q) ∧ IsLeast {j | j < n ∧ p.value? j = none} x.index.toNat := by
  unfold acquire
  split
  · rename_i hnone
    refine .inl ⟨rfl, ?_⟩
    rintro ⟨i, -, hi⟩
    rw [← findIdx?_slots, hnone] at hi
    cases hi
  · rename_i i hi
    rw [findIdx?_slots] at hi
    split
    · rename_i hfar
      refine .inl ⟨rfl, ?_⟩
      rintro ⟨j, hj, hleast⟩
      have := hleast.unique hi
      omega
    · rename_i hnear
      obtain ⟨g, hgen⟩ : ∃ g, p.generations[i]? = some g := ⟨_, Vector.getElem?_eq_getElem hi.1.1⟩
      have hx : (UInt8.ofNat i).toNat = i := by rw [UInt8.toNat_ofNat']; omega
      rw [hgen]
      exact .inr ⟨_, _, rfl, by rw [hx]; exact hi⟩

/-! ## Ledgers -/

/-- What someone does with a pool, with handles of whatever origin. -/
inductive Action (α : Type) where
  | acquire (a : α)
  | release (x : Handle)
  /-- Store a value through a handle. -/
  | store (x : Handle) (a : α)
  /-- Go over the values and replace each of them. -/
  | sweep (f : Handle → α → α)

/-- A handle that was given out. -/
structure Lease (α : Type) where
  handle : Handle
  /-- What was last stored through the handle, until it was released. -/
  value : Option α
  deriving DecidableEq, Repr

/-- A pool with all handles that it gave out. -/
structure Ledger (α : Type) (n : Nat) where
  pool : Pool α n
  leases : List (Lease α)
  /-- The index of the handle of each release that took out a value. -/
  vacated : List UInt8

namespace Ledger

/-- Change the values of leases, each according to its handle. -/
def revise (g : Handle → Option α → Option α) (leases : List (Lease α)) : List (Lease α) :=
  leases.map fun s => ⟨s.handle, g s.handle s.value⟩

def act (w : Ledger α n) : Action α → Ledger α n
  | .acquire a =>
    match w.pool.acquire a with
    | .ok (x, q) => { w with pool := q, leases := w.leases ++ [⟨x, some a⟩] }
    | .error _ => w
  | .release x => {
      pool := (w.pool.release x).2
      leases := revise (fun y v => if y = x then none else v) w.leases
      vacated := if (w.pool.release x).1.isSome then w.vacated ++ [x.index] else w.vacated }
  | .store x a => { w with
      pool := w.pool.set x a
      leases := revise (fun y v => if y = x then v.map fun _ => a else v) w.leases }
  | .sweep f => { w with pool := w.pool.sweep f, leases := revise (fun y v => v.map (f y)) w.leases }

theorem act_acquire_ok {w : Ledger α n} {a : α} {x : Handle} {q : Pool α n} (h : w.pool.acquire a = .ok (x, q)) :
    w.act (.acquire a) = { w with pool := q, leases := w.leases ++ [⟨x, some a⟩] } := by
  simp only [act]
  rw [h]

theorem act_acquire_error {w : Ledger α n} {a : α} {f : Fault} (h : w.pool.acquire a = .error f) :
    w.act (.acquire a) = w := by
  simp only [act]
  rw [h]

/-- The ledger after actions one after the other, on a pool that was empty before. -/
def run (us : List (Action α)) : Ledger α n := us.foldl act ⟨.empty, [], []⟩

/-- No handle that was given out and not released names the slot with an index. -/
def Vacant (w : Ledger α n) (i : Nat) : Prop :=
  i < n ∧ ∀ s ∈ w.leases, s.handle.index.toNat = i → s.value = none

/-- The pool is what the ledger says, as far as its users can tell. -/
structure Isolated (w : Ledger α n) : Prop where
  distinct : (w.leases.map Lease.handle).Nodup
  reads : ∀ s ∈ w.leases, w.pool.get? s.handle = s.value
  releases : ∀ s ∈ w.leases, (w.pool.release s.handle).1 = s.value
  visits : ∀ x a, (x, a) ∈ w.pool.entries ↔ ⟨x, some a⟩ ∈ w.leases
  inOrder : w.pool.entries.Pairwise fun e e' => e.1.index.toNat < e'.1.index.toNat
  size_eq : w.pool.size = w.leases.countP fun s => s.value.isSome
  exhausted_iff : ∀ a, w.pool.acquire a = .error .exhausted ↔ ¬ ∃ i ≤ 255, IsLeast {j | w.Vacant j} i
  /-- No acquisition fails in another way, and one that fails changes nothing. -/
  refuses : ∀ a f, w.pool.acquire a = .error f → f = .exhausted ∧ w.act (.acquire a) = w
  places : ∀ a x q, w.pool.acquire a = .ok (x, q) → IsLeast {j | w.Vacant j} x.index.toNat

/-! ## What every action keeps -/

/-- The generations count the releases, and the leases have what their handles read. -/
structure Kept (w : Ledger α n) : Prop where
  generation : ∀ i : UInt8, i.toNat < n → w.pool.generations[i.toNat]? = some (UInt8.ofNat (w.vacated.count i))
  reads : ∀ s ∈ w.leases, w.pool.get? s.handle = s.value
  leased : ∀ x a, w.pool.get? x = some a → x ∈ w.leases.map Lease.handle
  past : ∀ s ∈ w.leases, s.value = none → s.handle.generation.toNat < w.vacated.count s.handle.index
  distinct : (w.leases.map Lease.handle).Nodup
  reached : w.pool.Reached

/-- No slot was released 256 times. -/
def Rare (w : Ledger α n) : Prop := ∀ i, w.vacated.count i < 256

theorem map_handle_revise (g : Handle → Option α → Option α) (leases : List (Lease α)) :
    (revise g leases).map Lease.handle = leases.map Lease.handle := by
  rw [revise, List.map_map]
  rfl

theorem map_handle_release (w : Ledger α n) (x : Handle) :
    (w.act (.release x)).leases.map Lease.handle = w.leases.map Lease.handle :=
  map_handle_revise (fun y v => if y = x then none else v) w.leases

theorem kept_empty : Kept (⟨.empty, [], []⟩ : Ledger α n) := by
  refine ⟨?_, by simp, ?_, by simp, List.nodup_nil, reached_empty⟩
  · intro i hi
    show (Vector.replicate n (0 : UInt8))[i.toNat]? = some 0
    rw [Vector.getElem?_replicate, if_pos hi]
  · intro x a h
    rw [get?_empty] at h
    cases h

namespace Kept

variable {w : Ledger α n}

/-- The current handle of a slot tells how often the slot was released. -/
theorem generation_eq (h : Kept w) (hr : Rare w) {x : Handle} (hx : w.pool.isCurrent x = true)
    (hlt : x.index.toNat < n) : x.generation.toNat = w.vacated.count x.index := by
  have hgen := h.generation x.index hlt
  rw [isCurrent_iff.1 hx, Option.some.injEq] at hgen
  rw [hgen, UInt8.toNat_ofNat', Nat.mod_eq_of_lt (hr x.index)]

/-- A current handle of a vacant slot was never given out. -/
theorem fresh (h : Kept w) (hr : Rare w) {x : Handle} (hx : w.pool.isCurrent x = true) (hlt : x.index.toNat < n)
    (hnone : w.pool.get? x = none) : x ∉ w.leases.map Lease.handle := by
  intro hmem
  obtain ⟨s, hs, rfl⟩ := List.mem_map.1 hmem
  have hpast := h.past s hs ((h.reads s hs).symm.trans hnone)
  rw [h.generation_eq hr hx hlt] at hpast
  exact lt_irrefl _ hpast

/-- An action that vacates no slot keeps the invariant if the leases are revised as the values are. -/
theorem revise (h : Kept w) {q : Pool α n} {g : Handle → Option α → Option α}
    (hgen : q.generations = w.pool.generations) (hget : ∀ y, q.get? y = g y (w.pool.get? y))
    (hnone : ∀ y v, g y v = none ↔ v = none) (hreached : q.Reached) :
    Kept { w with pool := q, leases := Ledger.revise g w.leases } := by
  refine ⟨?_, ?_, ?_, ?_, ?_, hreached⟩
  · rw [hgen]
    exact h.generation
  · intro s hs
    obtain ⟨t, ht, rfl⟩ := List.mem_map.1 hs
    rw [hget, h.reads t ht]
  · intro x a hx
    rw [hget] at hx
    rw [map_handle_revise]
    cases hv : w.pool.get? x with
    | none =>
      rw [(hnone x _).2 hv] at hx
      cases hx
    | some b => exact h.leased x b hv
  · intro s hs hv
    obtain ⟨t, ht, rfl⟩ := List.mem_map.1 hs
    exact h.past t ht ((hnone _ _).1 hv)
  · rw [map_handle_revise]
    exact h.distinct

theorem store (h : Kept w) (x : Handle) (a : α) : Kept (w.act (.store x a)) := by
  refine h.revise (generations_set _ x a) ?_ ?_ (h.reached.set x a)
  · intro y
    rw [get?_set]
    by_cases hy : y = x
    · subst hy
      cases w.pool.get? y <;> simp
    · simp [hy]
  · intro y v
    split <;> simp

theorem sweep (h : Kept w) (f : Handle → α → α) : Kept (w.act (.sweep f)) :=
  h.revise (generations_sweep f _) (get?_sweep f _) (fun _ _ => Option.map_eq_none_iff) (h.reached.sweep f)

theorem acquire (h : Kept w) (hr : Rare w) (a : α) : Kept (w.act (.acquire a)) := by
  rcases w.pool.acquire_cases a with ⟨herror, -⟩ | ⟨x, q, hok, -⟩
  · rw [act_acquire_error herror]
    exact h
  · rw [act_acquire_ok hok]
    obtain ⟨hlt, hcurrent, -, -⟩ := acquire_eq_ok hok
    obtain ⟨hnone, hget⟩ := get?_acquire hok
    have hfresh := h.fresh hr hcurrent hlt hnone
    refine ⟨?_, ?_, ?_, ?_, ?_, h.reached.acquire hok⟩
    · rw [generations_acquire hok]
      exact h.generation
    · intro s hs
      rw [hget]
      rcases List.mem_append.1 hs with hs | hs
      · have hne : s.handle ≠ x := fun heq => hfresh (List.mem_map.2 ⟨s, hs, heq⟩)
        rw [if_neg hne, h.reads s hs]
      · rw [List.mem_singleton.1 hs, if_pos rfl]
    · intro y b hy
      rw [hget] at hy
      rw [List.map_append, List.mem_append]
      split at hy
      · rename_i hyx
        exact .inr (by simp [hyx])
      · exact .inl (h.leased y b hy)
    · intro s hs hv
      rcases List.mem_append.1 hs with hs | hs
      · exact h.past s hs hv
      · rw [List.mem_singleton.1 hs] at hv
        cases hv
    · rw [List.map_append, List.nodup_append]
      refine ⟨h.distinct, List.nodup_singleton _, ?_⟩
      rintro y hy z hz rfl
      rw [List.map_singleton, List.mem_singleton] at hz
      subst hz
      exact hfresh hy

theorem release (h : Kept w) (hr : Rare w) (x : Handle) : Kept (w.act (.release x)) := by
  have hcount : ∀ i, (w.act (.release x)).vacated.count i =
      w.vacated.count i + if (w.pool.get? x).isSome ∧ x.index = i then 1 else 0 := by
    intro i
    show (if (w.pool.release x).1.isSome then w.vacated ++ [x.index] else w.vacated).count i = _
    rw [fst_release]
    cases w.pool.get? x with
    | none => simp
    | some a => simp [List.count_append, List.count_singleton]
  refine ⟨?_, ?_, ?_, ?_, ?_, h.reached.release x⟩
  · intro i hi
    rw [hcount, UInt8.ofNat_add]
    show (w.pool.release x).2.generations[i.toNat]? = _
    rw [generations_release, h.generation i hi]
    simp only [UInt8.toNat_inj]
    split <;> simp
  · intro s hs
    obtain ⟨t, ht, rfl⟩ := List.mem_map.1 hs
    rw [← h.reads t ht]
    exact get?_release w.pool x t.handle
  · intro y a hy
    rw [map_handle_release]
    replace hy : (w.pool.release x).2.get? y = some a := hy
    rw [get?_release] at hy
    split at hy
    · cases hy
    · exact h.leased y a hy
  · intro s hs hv
    obtain ⟨t, ht, rfl⟩ := List.mem_map.1 hs
    rw [hcount]
    -- the handle was released before, or this is the release that takes out its value
    cases hvalue : t.value with
    | none => exact Nat.lt_add_right _ (h.past t ht hvalue)
    | some a =>
      have hget := (h.reads t ht).trans hvalue
      have hx : t.handle = x := by
        by_contra hne
        simp [hne, hvalue] at hv
      rw [hx] at hget ⊢
      rw [h.generation_eq hr (isCurrent_of_get? hget) (lt_of_get? hget), hget]
      simp
  · rw [map_handle_release]
    exact h.distinct

theorem act (h : Kept w) (hr : Rare w) (u : Action α) : Kept (w.act u) := by
  cases u with
  | acquire a => exact h.acquire hr a
  | release x => exact h.release hr x
  | store x a => exact h.store x a
  | sweep f => exact h.sweep f

/-! ## What the users see -/

theorem mem_iff (h : Kept w) {x : Handle} {a : α} : ⟨x, some a⟩ ∈ w.leases ↔ w.pool.get? x = some a := by
  constructor
  · intro hs
    exact h.reads _ hs
  · intro hx
    obtain ⟨s, hs, rfl⟩ := List.mem_map.1 (h.leased x a hx)
    rw [h.reads s hs] at hx
    rw [← hx]
    exact hs

theorem vacant_iff (h : Kept w) (i : Nat) : w.Vacant i ↔ i < n ∧ w.pool.value? i = none := by
  refine and_congr_right fun hi => ?_
  constructor
  · intro hfree
    by_contra hne
    obtain ⟨a, ha⟩ := Option.ne_none_iff_exists'.1 hne
    have h256 : i < 256 := by
      by_contra hge
      rw [h.reached i (by omega)] at ha
      cases ha
    have hx : (UInt8.ofNat i).toNat = i := by rw [UInt8.toNat_ofNat']; omega
    have hget : w.pool.get? ⟨UInt8.ofNat i, w.pool.generations[i]⟩ = some a := by
      rw [get?_eq_some_iff, hx]
      exact ⟨Vector.getElem?_eq_getElem hi, ha⟩
    cases hfree _ (h.mem_iff.2 hget) hx
  · rintro hv s hs rfl
    by_contra hne
    obtain ⟨a, ha⟩ := Option.ne_none_iff_exists'.1 hne
    rw [(get?_eq_some_iff.1 ((h.reads s hs).trans ha)).2] at hv
    cases hv

theorem size_eq (h : Kept w) : w.pool.size = w.leases.countP fun s => s.value.isSome := by
  have hnodup : ((w.leases.filter fun s => s.value.isSome).map Lease.handle).Nodup :=
    h.distinct.sublist (List.filter_sublist.map _)
  have hperm : (w.pool.entries.map Prod.fst).Perm ((w.leases.filter fun s => s.value.isSome).map Lease.handle) := by
    rw [List.perm_ext_iff_of_nodup w.pool.entries_nodup hnodup]
    intro x
    constructor
    · intro hx
      obtain ⟨⟨y, a⟩, he, rfl⟩ := List.mem_map.1 hx
      have hs := h.mem_iff.2 (mem_entries.1 he)
      exact List.mem_map.2 ⟨_, List.mem_filter.2 ⟨hs, rfl⟩, rfl⟩
    · intro hx
      obtain ⟨s, hs, rfl⟩ := List.mem_map.1 hx
      obtain ⟨hmem, hsome⟩ := List.mem_filter.1 hs
      obtain ⟨a, ha⟩ := Option.isSome_iff_exists.1 hsome
      exact List.mem_map_of_mem (mem_entries.2 ((h.reads s hmem).trans ha))
  have hlength := hperm.length_eq
  rw [List.length_map, List.length_map] at hlength
  rw [Pool.size, toList_eq_entries h.reached, List.length_map, hlength, List.countP_eq_length_filter]

theorem isolated (h : Kept w) : w.Isolated := by
  have hvacant : {j | w.Vacant j} = {j | j < n ∧ w.pool.value? j = none} := Set.ext h.vacant_iff
  refine ⟨h.distinct, h.reads, ?_, ?_, w.pool.entries_pairwise, h.size_eq, ?_, ?_, ?_⟩
  · intro s hs
    rw [fst_release, h.reads s hs]
  · intro x a
    rw [mem_entries, h.mem_iff]
  · intro a
    rw [hvacant]
    rcases w.pool.acquire_cases a with ⟨herror, hnone⟩ | ⟨x, q, hok, hleast⟩
    · exact iff_of_true herror hnone
    · refine iff_of_false ?_ (not_not.2 ⟨_, Nat.le_of_lt_succ x.index.toNat_lt, hleast⟩)
      rw [hok]
      rintro ⟨⟩
  · intro a f hf
    rcases w.pool.acquire_cases a with ⟨herror, -⟩ | ⟨x, q, hok, -⟩
    · rw [herror] at hf
      cases hf
      exact ⟨rfl, act_acquire_error herror⟩
    · rw [hok] at hf
      cases hf
  · intro a x q hok
    rcases w.pool.acquire_cases a with ⟨herror, -⟩ | ⟨y, q', hok', hleast⟩
    · rw [herror] at hok
      cases hok
    · rw [hok] at hok'
      cases hok'
      rw [hvacant]
      exact hleast

end Kept

/-! ## Runs -/

theorem vacated_le_act (w : Ledger α n) (u : Action α) (i : UInt8) :
    w.vacated.count i ≤ (w.act u).vacated.count i := by
  cases u with
  | acquire a =>
    rcases w.pool.acquire_cases a with ⟨herror, -⟩ | ⟨x, q, hok, -⟩
    · rw [act_acquire_error herror]
    · rw [act_acquire_ok hok]
  | release x =>
    show _ ≤ (if (w.pool.release x).1.isSome then w.vacated ++ [x.index] else w.vacated).count i
    split
    · exact (List.sublist_append_left _ _).count_le i
    · exact le_rfl
  | store x a => exact le_rfl
  | sweep f => exact le_rfl

theorem kept_run (us : List (Action α)) (hr : Rare (run us : Ledger α n)) : Kept (run us : Ledger α n) := by
  induction us using List.reverseRecOn with
  | nil => exact kept_empty
  | append_singleton us u ih =>
    have hrun : (run (us ++ [u]) : Ledger α n) = (run us).act u := by rw [run, List.foldl_append]; rfl
    rw [hrun] at hr ⊢
    have hbefore : Rare (run us : Ledger α n) := fun i => (vacated_le_act _ u i).trans_lt (hr i)
    exact (ih hbefore).act hbefore u

/-- In a run that releases no slot 256 times, each handle reads and releases what was last stored through it, whatever
is done through other handles; the handles that were not released are the ones that are gone over and counted, and
only the first vacant slot is ever taken. -/
theorem leases_isolated (us : List (Action α)) (hr : ∀ i, (run us : Ledger α n).vacated.count i < 256) :
    (run us : Ledger α n).Isolated :=
  (kept_run us hr).isolated

/-- Two handles of the same slot, with the first one in use after its release. -/
def reused : List (Action Nat) :=
  [.acquire 1, .release ⟨0, 0⟩, .acquire 2, .store ⟨0, 0⟩ 9, .acquire 3, .sweep fun _ a => a + 1, .release ⟨0, 0⟩]

theorem leases_isolated_reused :
    (∀ i, (run reused : Ledger Nat 2).vacated.count i < 256) ∧ (run reused : Ledger Nat 2).Isolated ∧
      (run reused : Ledger Nat 2).leases = [⟨⟨0, 0⟩, none⟩, ⟨⟨0, 1⟩, some 3⟩, ⟨⟨1, 0⟩, some 4⟩] := by
  have hr : ∀ i, (run reused : Ledger Nat 2).vacated.count i < 256 := fun i =>
    List.count_le_length.trans_lt (by decide)
  exact ⟨hr, leases_isolated reused hr, by decide⟩

end Ledger

end UdpStack.Bounded.Pool
