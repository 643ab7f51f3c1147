/-
Laws of pools, and how long a released handle stays dead. The generation of a slot counts its
releases modulo 256, so over any run of uses a released handle refers to nothing again exactly as
long as its slot is vacant or the number of releases of the slot, its own counted, is no multiple
of 256 (`released_handle_dead_iff`). The slot can be vacated often enough
(`released_handle_revives`).
-/
import UdpStack.Bounded.Pool
import Mathlib.Tactic

namespace UdpStack.Bounded.Pool

variable {α : Type} {n : Nat}

/-! ## Single operations -/

/-- The value in the slot with an index, whoever may refer to it. -/
def value? (p : Pool α n) (i : Nat) : Option α := p.slots[i]?.join

theorem isCurrent_iff {p : Pool α n} {x : Handle} :
    p.isCurrent x = true ↔ p.generations[x.index.toNat]? = some x.generation := by
  simp [isCurrent]

theorem get?_eq_some_iff {p : Pool α n} {x : Handle} {a : α} :
    p.get? x = some a ↔
      p.generations[x.index.toNat]? = some x.generation ∧ p.value? x.index.toNat = some a := by
  unfold get?
  split
  · rename_i hc
    rw [isCurrent_iff] at hc
    constructor
    · intro h
      exact ⟨hc, h⟩
    · rintro ⟨-, h⟩
      exact h
  · rename_i hc
    rw [isCurrent_iff] at hc
    constructor
    · rintro ⟨⟩
    · rintro ⟨h, -⟩
      exact absurd h hc

theorem release_of_none {p : Pool α n} {x : Handle} (h : p.get? x = none) : p.release x = (none, p) := by
  unfold release; rw [h]

theorem fst_release (p : Pool α n) (x : Handle) : (p.release x).1 = p.get? x := by
  unfold release
  cases h : p.get? x <;> rfl

theorem set_of_none {p : Pool α n} {x : Handle} (h : p.get? x = none) (a : α) : p.set x a = p := by
  unfold set; rw [h]

/-- A release advances the generation of its slot and of no other one. -/
theorem generations_release (p : Pool α n) (x : Handle) (i : Nat) :
    (p.release x).2.generations[i]? =
      if (p.get? x).isSome = true ∧ x.index.toNat = i then p.generations[i]?.map (· + 1)
      else p.generations[i]? := by
  unfold release
  cases h : p.get? x with
  | none => simp
  | some a =>
    obtain ⟨hg, -⟩ := get?_eq_some_iff.1 h
    by_cases hi : x.index.toNat = i
    · subst hi
      have hlt : x.index.toNat < n := by
        by_contra hge
        simp [hge] at hg
      rw [if_pos ⟨rfl, rfl⟩, hg]
      simp [hlt]
    · simp [hi]

/-- Only a release changes a generation. -/
theorem generations_acquire {p q : Pool α n} {a : α} {x : Handle} (h : p.acquire a = .ok (x, q)) :
    q.generations = p.generations := by
  unfold acquire at h
  split at h
  · cases h
  · split at h
    · cases h
    · split at h
      · cases h
      · cases h; rfl

/-! ## Reading after a change -/

theorem lt_of_get? {p : Pool α n} {x : Handle} {a : α} (h : p.get? x = some a) : x.index.toNat < n := by
  obtain ⟨hg, -⟩ := get?_eq_some_iff.1 h
  by_contra hge
  simp [hge] at hg

theorem eq_of_generation {p : Pool α n} {x y : Handle} (hi : x.index.toNat = y.index.toNat)
    (hx : p.isCurrent x = true) (hy : p.isCurrent y = true) : x = y := by
  rw [isCurrent_iff] at hx hy
  rw [hi, hy] at hx
  cases x; cases y
  exact congr (congrArg Handle.mk (UInt8.toNat_inj.1 hi)) (Option.some.inj hx).symm

theorem isCurrent_of_get? {p : Pool α n} {x : Handle} {a : α} (h : p.get? x = some a) :
    p.isCurrent x = true :=
  isCurrent_iff.2 (get?_eq_some_iff.1 h).1

theorem get?_of_isCurrent {p : Pool α n} {x : Handle} (h : p.isCurrent x = true) :
    p.get? x = p.value? x.index.toNat := by
  unfold get?; rw [if_pos h]; rfl

theorem get?_of_not_isCurrent {p : Pool α n} {x : Handle} (h : ¬ p.isCurrent x = true) : p.get? x = none := by
  unfold get?; rw [if_neg h]

theorem get?_empty (x : Handle) : (empty : Pool α n).get? x = none := by
  unfold get?
  split
  · show (Vector.replicate n none)[x.index.toNat]?.join = _
    rw [Vector.getElem?_replicate]
    split <;> rfl
  · rfl

/-- What a handle reads once something was stored in a slot. -/
theorem get?_store (p : Pool α n) {i : Nat} (hi : i < n) (o : Option α) (y : Handle) :
    get? { p with slots := p.slots.setIfInBounds i o } y =
      if p.isCurrent y = true ∧ i = y.index.toNat then o else p.get? y := by
  by_cases hc : p.isCurrent y = true
  · have hc' : isCurrent { p with slots := p.slots.setIfInBounds i o } y = true := hc
    rw [get?_of_isCurrent hc', get?_of_isCurrent hc]
    show (p.slots.setIfInBounds i o)[y.index.toNat]?.join = _
    by_cases he : i = y.index.toNat
    · subst he; simp [hc, hi]
    · rw [Vector.getElem?_setIfInBounds_ne he, if_neg fun h => he h.2]; rfl
  · have hc' : ¬ isCurrent { p with slots := p.slots.setIfInBounds i o } y = true := hc
    rw [get?_of_not_isCurrent hc', get?_of_not_isCurrent hc, if_neg fun h => hc h.1]

theorem isCurrent_and_index_iff {p : Pool α n} {x y : Handle} (hx : p.isCurrent x = true) :
    p.isCurrent y = true ∧ x.index.toNat = y.index.toNat ↔ y = x := by
  constructor
  · rintro ⟨hy, hi⟩; exact (eq_of_generation hi hx hy).symm
  · rintro rfl; exact ⟨hx, rfl⟩

/-- A handle reads what was last stored through it, whatever other handles store. -/
theorem get?_set (p : Pool α n) (x y : Handle) (a : α) :
    (p.set x a).get? y = if y = x ∧ (p.get? x).isSome = true then some a else p.get? y := by
  cases hx : p.get? x with
  | none => rw [set_of_none hx, if_neg (by simp)]
  | some b =>
    have hs : p.set x a = { p with slots := p.slots.setIfInBounds x.index.toNat (some a) } := by
      unfold set; rw [hx]
    rw [hs, get?_store p (lt_of_get? hx)]
    simp only [isCurrent_and_index_iff (isCurrent_of_get? hx), Option.isSome_some, and_true]

section Projection

variable {β : Type} {p : Pool α n} {x : Handle} {b : α}

/-- Of whatever is read from the entries, a replaced entry changes what is read at its own handle. -/
theorem bind_get?_set (hx : p.get? x = some b) (a : α) (f : α → Option β) (y : Handle) :
    ((p.set x a).get? y).bind f = if y = x then f a else (p.get? y).bind f := by
  rw [get?_set, hx]
  by_cases hy : y = x
  · rw [if_pos ⟨hy, rfl⟩, if_pos hy]
    rfl
  · rw [if_neg fun h => hy h.1, if_neg hy]

theorem bind_get?_set_same (hx : p.get? x = some b) (a : α) (f : α → Option β) (hf : f a = f b) (y : Handle) :
    ((p.set x a).get? y).bind f = (p.get? y).bind f := by
  rw [bind_get?_set hx]
  split
  · rename_i hy
    rw [hy, hx, hf]
    rfl
  · rfl

theorem map_get?_set (hx : p.get? x = some b) (a : α) (f : α → β) (y : Handle) :
    ((p.set x a).get? y).map f = if y = x then some (f a) else (p.get? y).map f := by
  rw [Option.map_eq_bind, Option.map_eq_bind]
  exact bind_get?_set hx a (some ∘ f) y

theorem map_get?_set_same (hx : p.get? x = some b) (a : α) (f : α → β) (hf : f a = f b) (y : Handle) :
    ((p.set x a).get? y).map f = (p.get? y).map f := by
  rw [Option.map_eq_bind, Option.map_eq_bind]
  exact bind_get?_set_same hx a (some ∘ f) (congrArg some hf) y

end Projection

theorem get?_release (p : Pool α n) (x y : Handle) :
    (p.release x).2.get? y = if y = x then none else p.get? y := by
  cases hx : p.get? x with
  | none =>
    rw [release_of_none hx]
    split
    · rename_i h; rw [h, hx]
    · rfl
  | some b =>
    have hlt := lt_of_get? hx
    have hg := generations_release p x
    have hv : ∀ i, (p.release x).2.value? i = if x.index.toNat = i then none else p.value? i := by
      intro i
      unfold release; rw [hx]
      show (p.slots.setIfInBounds x.index.toNat none)[i]?.join = _
      split
      · rename_i h; simp [← h, hlt]
      · rename_i h; rw [Vector.getElem?_setIfInBounds_ne h]; rfl
    apply Option.ext
    intro a
    rw [get?_eq_some_iff, hg, hv]
    -- another handle of the same slot has another generation, so it was dead before
    by_cases hi : x.index.toNat = y.index.toNat
    · rw [if_pos hi]
      constructor
      · rintro ⟨-, h⟩; cases h
      · intro h
        split at h
        · cases h
        · rename_i hne
          exact absurd (eq_of_generation hi (isCurrent_of_get? hx) (isCurrent_of_get? h)).symm hne
    · rw [if_neg hi, if_neg (fun h => hi h.2), if_neg (by rintro rfl; exact hi rfl), get?_eq_some_iff]

theorem acquire_eq_ok {p q : Pool α n} {a : α} {x : Handle} (h : p.acquire a = .ok (x, q)) :
    x.index.toNat < n ∧ p.isCurrent x = true ∧ p.value? x.index.toNat = none ∧
      q = { p with slots := p.slots.setIfInBounds x.index.toNat (some a) } := by
  unfold acquire at h
  split at h
  · cases h
  · rename_i i hf
    obtain ⟨hlt, hnone, -⟩ := List.findIdx?_eq_some_iff_getElem.1 hf
    split at h
    · cases h
    · rename_i hi
      split at h
      · cases h
      · rename_i g hg
        cases h
        have hx : (UInt8.ofNat i).toNat = i := by rw [UInt8.toNat_ofNat']; omega
        simp only [Vector.length_toList] at hlt
        refine ⟨by rw [hx]; exact hlt, isCurrent_iff.2 (by rw [hx]; exact hg), ?_, by rw [hx]⟩
        rw [hx, value?, Vector.getElem?_eq_getElem hlt]
        simpa using hnone

/-- An acquisition hands out a handle that referred to nothing, and changes what no other one reads. -/
theorem get?_acquire {p q : Pool α n} {a : α} {x : Handle} (h : p.acquire a = .ok (x, q)) :
    p.get? x = none ∧ ∀ y, q.get? y = if y = x then some a else p.get? y := by
  obtain ⟨hlt, hc, hv, rfl⟩ := acquire_eq_ok h
  refine ⟨by rw [get?_of_isCurrent hc, hv], ?_⟩
  intro y
  rw [get?_store p hlt]
  simp only [isCurrent_and_index_iff hc]

/-! ## What holds of every value -/

/-- A property holds of every value that a handle refers to. -/
def All (p : Pool α n) (P : α → Prop) : Prop := ∀ x a, p.get? x = some a → P a

theorem all_empty (P : α → Prop) : (empty : Pool α n).All P := by
  intro x a h
  rw [get?_empty] at h
  cases h

theorem All.set {p : Pool α n} {P : α → Prop} (hp : p.All P) (x : Handle) {a : α} (ha : P a) :
    (p.set x a).All P := by
  intro y b hy
  rw [get?_set] at hy
  split at hy
  · cases hy; exact ha
  · exact hp y b hy

theorem All.release {p : Pool α n} {P : α → Prop} (hp : p.All P) (x : Handle) : (p.release x).2.All P := by
  intro y b hy
  rw [get?_release] at hy
  split at hy
  · cases hy
  · exact hp y b hy

theorem All.acquire {p q : Pool α n} {P : α → Prop} (hp : p.All P) {a : α} (ha : P a) {x : Handle}
    (h : p.acquire a = .ok (x, q)) : q.All P := by
  intro y b hy
  rw [(get?_acquire h).2] at hy
  split at hy
  · cases hy; exact ha
  · exact hp y b hy

/-! ## Sums over the values -/

/-- The sum of a quantity over all values. -/
def total (g : α → Nat) (p : Pool α n) : Nat := (p.slots.toList.map fun o => o.elim 0 g).sum

theorem sum_map_set {β : Type} (f : β → Nat) (b : β) : ∀ (l : List β) (i : Nat) (h : i < l.length),
    ((l.set i b).map f).sum + f l[i] = (l.map f).sum + f b
  | [], i, h => by simp at h
  | c :: l, 0, _ => by simp; omega
  | c :: l, i + 1, h => by
    have := sum_map_set f b l i (by simpa using h)
    simp only [List.set_cons_succ, List.map_cons, List.sum_cons, List.getElem_cons_succ]
    omega

theorem total_setIfInBounds (g : α → Nat) (p : Pool α n) {i : Nat} (hi : i < n) (o : Option α) :
    total g { p with slots := p.slots.setIfInBounds i o } + (p.value? i).elim 0 g =
      total g p + o.elim 0 g := by
  have h := sum_map_set (fun o : Option α => o.elim 0 g) o p.slots.toList i (by simpa using hi)
  have hl : i < p.slots.toList.length := by simpa using hi
  have hv : p.value? i = p.slots.toList[i] := by
    rw [value?, Vector.getElem?_eq_getElem hi]; simp
  rw [hv]
  have hs : (p.slots.setIfInBounds i o).toList = p.slots.toList.set i o := by
    rw [Vector.toList_setIfInBounds]
  rw [total, hs]
  exact h

theorem total_set (g : α → Nat) {p : Pool α n} {x : Handle} {b : α} (h : p.get? x = some b) (a : α) :
    (p.set x a).total g + g b = p.total g + g a := by
  have hv := (get?_eq_some_iff.1 h).2
  have := total_setIfInBounds g p (lt_of_get? h) (some a)
  rw [hv] at this
  unfold set; rw [h]
  exact this

theorem total_release (g : α → Nat) {p : Pool α n} {x : Handle} {b : α} (h : p.get? x = some b) :
    (p.release x).2.total g + g b = p.total g := by
  have hv := (get?_eq_some_iff.1 h).2
  have := total_setIfInBounds g p (lt_of_get? h) none
  rw [hv] at this
  unfold release; rw [h]
  exact this

theorem total_acquire (g : α → Nat) {p q : Pool α n} {a : α} {x : Handle} (h : p.acquire a = .ok (x, q)) :
    q.total g = p.total g + g a := by
  obtain ⟨hlt, -, hv, rfl⟩ := acquire_eq_ok h
  have := total_setIfInBounds g p hlt (some a)
  rw [hv] at this
  exact this

/-- A quantity of at most one per value adds up to at most the number of slots. -/
theorem total_le {g : α → Nat} (hg : ∀ a, g a ≤ 1) (p : Pool α n) : p.total g ≤ n := by
  have h := List.sum_le_card_nsmul (p.slots.toList.map fun o => o.elim 0 g) 1 (by
    intro k hk
    obtain ⟨o, -, rfl⟩ := List.mem_map.1 hk
    cases o with
    | none => exact Nat.zero_le 1
    | some a => exact hg a)
  simpa [total] using h

theorem total_empty (g : α → Nat) : (empty : Pool α n).total g = 0 := by
  simp [total, empty, Vector.toList_replicate]

/-! ## Runs -/

/-- A use of a pool that changes which slots are occupied. -/
inductive Use (α : Type) where
  | acquire (a : α)
  | release (x : Handle)

/-- The pool after a use. A failed use changes nothing. -/
def after (p : Pool α n) : Use α → Pool α n
  | .acquire a =>
    match p.acquire a with
    | .ok (_, q) => q
    | .error _ => p
  | .release x => (p.release x).2

/-- The pool after uses one after the other. -/
def run (p : Pool α n) (uses : List (Use α)) : Pool α n := uses.foldl after p

/-- Whether a use takes a value out of the slot with an index. -/
def vacates (p : Pool α n) (i : Nat) : Use α → Bool
  | .acquire _ => false
  | .release x => (p.get? x).isSome && x.index.toNat == i

/-- How often a run of uses takes a value out of the slot with an index. -/
def vacated (i : Nat) : Pool α n → List (Use α) → Nat
  | _, [] => 0
  | p, u :: us => (if p.vacates i u then 1 else 0) + vacated i (p.after u) us

theorem run_cons (p : Pool α n) (u : Use α) (us : List (Use α)) : p.run (u :: us) = (p.after u).run us :=
  rfl

theorem generations_after (p : Pool α n) (u : Use α) (i : Nat) :
    (p.after u).generations[i]? =
      if p.vacates i u = true then p.generations[i]?.map (· + 1) else p.generations[i]? := by
  cases u with
  | acquire a =>
    rw [vacates, if_neg Bool.false_ne_true, after]
    split
    · rename_i h; rw [generations_acquire h]
    · rfl
  | release x =>
    rw [after, generations_release]
    simp [vacates]

/-- The generation of a slot counts, modulo 256, how often the slot was vacated. -/
theorem generations_run (i : Nat) : ∀ (us : List (Use α)) (p : Pool α n) (g : UInt8),
    p.generations[i]? = some g → (p.run us).generations[i]? = some (g + UInt8.ofNat (vacated i p us))
  | [], p, g, h => by simpa [run, vacated] using h
  | u :: us, p, g, h => by
    have hg := generations_after p u i
    rw [h] at hg
    rw [run_cons, vacated]
    by_cases hv : p.vacates i u = true
    · rw [if_pos hv] at hg ⊢
      rw [generations_run i us (p.after u) (g + 1) hg, UInt8.ofNat_add, UInt8.add_assoc]
      rfl
    · rw [if_neg hv] at hg ⊢
      rw [generations_run i us (p.after u) g hg, Nat.zero_add]

/-- A handle refers to nothing: it reads nothing, changes nothing and takes nothing out. -/
def Dead (p : Pool α n) (x : Handle) : Prop :=
  p.get? x = none ∧ (∀ a, p.set x a = p) ∧ p.release x = (none, p)

theorem dead_iff {p : Pool α n} {x : Handle} : p.Dead x ↔ p.get? x = none := by
  constructor
  · rintro ⟨h, -⟩
    exact h
  · intro h
    exact ⟨h, set_of_none h, release_of_none h⟩

theorem add_ofNat_eq_self_iff (g : UInt8) (k : Nat) : g + UInt8.ofNat k = g ↔ 256 ∣ k := by
  rw [UInt8.add_eq_left, ← UInt8.toNat_inj, UInt8.toNat_ofNat', UInt8.toNat_zero]
  exact Nat.dvd_iff_mod_eq_zero.symm

/-- After a handle was released, it refers to something again exactly when a value is in its slot
and the slot was vacated a multiple of 256 times, the release of the handle itself included. -/
theorem get?_run_release {p : Pool α n} {x : Handle} (h : (p.release x).1.isSome = true)
    (us : List (Use α)) :
    (((p.release x).2.run us).get? x).isSome = true ↔
      256 ∣ vacated x.index.toNat (p.release x).2 us + 1 ∧
        (((p.release x).2.run us).value? x.index.toNat).isSome = true := by
  rw [fst_release] at h
  obtain ⟨a, ha⟩ := Option.isSome_iff_exists.1 h
  obtain ⟨hg, -⟩ := get?_eq_some_iff.1 ha
  have h0 : (p.release x).2.generations[x.index.toNat]? = some (x.generation + 1) := by
    rw [generations_release, if_pos ⟨h, rfl⟩, hg]; rfl
  have hr := generations_run x.index.toNat us _ _ h0
  -- the handle is current again once the generation came full circle
  have hself : x.generation + 1 + UInt8.ofNat (vacated x.index.toNat (p.release x).2 us) = x.generation ↔
      256 ∣ vacated x.index.toNat (p.release x).2 us + 1 := by
    rw [← add_ofNat_eq_self_iff x.generation, Nat.add_comm, UInt8.ofNat_add, ← UInt8.add_assoc]
    rfl
  simp only [Option.isSome_iff_exists, get?_eq_some_iff, hr, Option.some.injEq, hself, exists_and_left]

/-- A released handle stays dead exactly as long as its slot is vacant or was vacated, the release
of the handle itself included, a number of times that is no multiple of 256. -/
theorem released_handle_dead_iff (p : Pool α n) (x : Handle) (h : (p.release x).1.isSome = true)
    (us : List (Use α)) :
    ((p.release x).2.run us).Dead x ↔
      ¬ (256 ∣ vacated x.index.toNat (p.release x).2 us + 1 ∧
        (((p.release x).2.run us).value? x.index.toNat).isSome = true) := by
  rw [dead_iff, ← get?_run_release h us, Option.not_isSome_iff_eq_none]

/-- The uses that fill the only slot and vacate it again `k` times, from generation `g` on. -/
def churn : Nat → UInt8 → List (Use Nat)
  | 0, _ => []
  | k + 1, g => .acquire 2 :: .release ⟨0, g⟩ :: churn k (g + 1)

theorem run_churn (vs : List (Use Nat)) : ∀ (k : Nat) (g : UInt8),
    (⟨#v[none], #v[g]⟩ : Pool Nat 1).run (churn k g ++ vs) =
      (⟨#v[none], #v[g + UInt8.ofNat k]⟩ : Pool Nat 1).run vs
  | 0, g => by simp [churn]
  | k + 1, g => by
    have hstep : ((⟨#v[none], #v[g]⟩ : Pool Nat 1).after (.acquire 2)).after (.release ⟨0, g⟩) =
        ⟨#v[none], #v[g + 1]⟩ := by
      simp [after, acquire, release, get?, isCurrent]
    rw [churn, List.cons_append, List.cons_append, run_cons, run_cons, hstep, run_churn vs k (g + 1),
      Nat.add_comm k 1, UInt8.ofNat_add, ← UInt8.add_assoc]
    rfl

/-- After three more reuses of its slot a released handle is still dead. -/
theorem released_handle_dead_churned :
    (((empty : Pool Nat 1).run [.acquire 1]).release ⟨0, 0⟩).1.isSome = true ∧
      ((((empty : Pool Nat 1).run [.acquire 1]).release ⟨0, 0⟩).2.run
        (churn 3 1 ++ [.acquire 3])).Dead ⟨0, 0⟩ :=
  ⟨by decide, (released_handle_dead_iff _ _ (by decide) _).2 (by decide)⟩

/-- A released handle does not stay dead in every run: after 255 more reuses of its slot it reads
the value that someone else put there. -/
theorem released_handle_revives :
    ¬ ∀ (n : Nat) (us vs : List (Use Nat)) (x : Handle), 1 ≤ n →
      (((empty : Pool Nat n).run us).release x).1.isSome = true →
      ((((empty : Pool Nat n).run us).release x).2.run vs).Dead x := by
  intro h
  have hd := h 1 [.acquire 1] (churn 255 1 ++ [.acquire 3]) ⟨0, 0⟩ (Nat.le_refl 1) (by decide)
  have hr : ((((empty : Pool Nat 1).run [.acquire 1]).release ⟨0, 0⟩).2.run
      (churn 255 1 ++ [.acquire 3])) = ⟨#v[some 3], #v[0]⟩ := run_churn [.acquire 3] 255 1
  rw [hr, dead_iff] at hd
  cases hd

end UdpStack.Bounded.Pool
