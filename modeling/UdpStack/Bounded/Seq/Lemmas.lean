/-
Laws of bounded sequences, as laws of the list of their elements: an insertion inserts
(`toList_insert`), a removal erases (`toList_remove`), and both keep the elements in the first
slots (`WF`).
-/
import UdpStack.Bounded.Seq

namespace UdpStack.Bounded

/-- The values of optional items that are all there keep their positions. -/
theorem getElem?_filterMap_id {α : Type} {l : List (Option α)} (h : ∀ x ∈ l, x.isSome = true)
    (i : Nat) : (l.filterMap id)[i]? = l[i]?.join := by
  induction l generalizing i with
  | nil => simp
  | cons x l ih =>
    obtain ⟨a, rfl⟩ := Option.isSome_iff_exists.mp (h x (by simp))
    have ih := ih fun y hy => h y (List.mem_cons_of_mem _ hy)
    cases i with
    | zero => simp
    | succ i => simpa using ih i

namespace Seq

variable {α : Type} {n : Nat}

/-- The first `size` slots hold an element each, and all others hold none. -/
structure WF (s : Seq α n) : Prop where
  size_le : s.size ≤ n
  occupied : ∀ k : Fin n, (s.slots.get k).isSome = decide (k.val < s.size)

/-- The content of a slot, none outside the slots. -/
def slot? (s : Seq α n) (k : Nat) : Option α := s.slots[k]?.join

theorem slot?_eq (s : Seq α n) {k : Nat} (hk : k < n) : s.slot? k = s.slots.get ⟨k, hk⟩ := by
  simp [slot?, Vector.get, hk]

theorem slot?_ofFn (f : Fin n → Option α) (m k : Nat) :
    (⟨Vector.ofFn f, m⟩ : Seq α n).slot? k = if h : k < n then f ⟨k, h⟩ else none := by
  unfold slot?
  by_cases hk : k < n <;> simp [hk]

theorem WF.slot?_isSome {s : Seq α n} (hw : s.WF) (k : Nat) :
    (s.slot? k).isSome = decide (k < s.size) := by
  by_cases hk : k < n
  · rw [slot?_eq s hk]
    exact hw.occupied ⟨k, hk⟩
  · have := hw.size_le
    simp [slot?, hk]
    omega

theorem WF.slot?_eq_none {s : Seq α n} (hw : s.WF) {k : Nat} (hk : s.size ≤ k) :
    s.slot? k = none := by
  have := hw.slot?_isSome k
  rw [decide_eq_false (by omega)] at this
  simpa using this

theorem WF.getElem?_toList {s : Seq α n} (hw : s.WF) (k : Nat) : s.toList[k]? = s.slot? k := by
  have hsome : ∀ x ∈ s.slots.toList.take s.size, x.isSome = true := by
    intro x hx
    obtain ⟨i, hi, rfl⟩ := List.mem_iff_getElem.mp hx
    simp only [List.length_take, Vector.length_toList] at hi
    have := hw.occupied ⟨i, by omega⟩
    rw [decide_eq_true (by simp; omega)] at this
    simpa [Vector.get] using this
  rw [toList, getElem?_filterMap_id hsome, List.getElem?_take]
  split
  · simp [slot?]
  · rw [hw.slot?_eq_none (by omega)]
    rfl

theorem WF.length_toList {s : Seq α n} (hw : s.WF) : s.toList.length = s.size := by
  apply Nat.le_antisymm
  · apply Nat.le_of_not_lt
    intro h
    have := hw.getElem?_toList s.size
    rw [hw.slot?_eq_none (Nat.le_refl _), List.getElem?_eq_none_iff] at this
    omega
  · apply Nat.le_of_not_lt
    intro h
    have hs := hw.slot?_isSome s.toList.length
    rw [← hw.getElem?_toList, List.getElem?_eq_none (Nat.le_refl _)] at hs
    simp at hs
    omega

/-- A sequence is known by its slots. -/
theorem WF.toList_eq {s : Seq α n} (hw : s.WF) {l : List α} (h : ∀ k, s.slot? k = l[k]?) :
    s.toList = l :=
  List.ext_getElem? fun k => by rw [hw.getElem?_toList, h]

/-- Two sequences with the same elements are the same. -/
theorem WF.eq_of_toList {s t : Seq α n} (hs : s.WF) (ht : t.WF) (h : s.toList = t.toList) : s = t := by
  have hsize : s.size = t.size := by rw [← hs.length_toList, h, ht.length_toList]
  have hslots : s.slots = t.slots := by
    apply Vector.ext
    intro k hk
    have hslot : s.slot? k = t.slot? k := by rw [← hs.getElem?_toList, h, ht.getElem?_toList]
    rwa [slot?_eq s hk, slot?_eq t hk] at hslot
  cases s; cases t
  cases hsize; cases hslots
  rfl

theorem WF.get?_eq {s : Seq α n} (hw : s.WF) (k : Nat) : s.get? k = s.toList[k]? :=
  (hw.getElem?_toList k).symm

/-- The slots decide whether a sequence is well formed. -/
theorem WF.of_slot? {s : Seq α n} (hn : s.size ≤ n)
    (h : ∀ k < n, (s.slot? k).isSome = decide (k < s.size)) : s.WF :=
  ⟨hn, fun k => by rw [← slot?_eq s k.isLt]; exact h k.val k.isLt⟩

/-! ## Operations -/

theorem empty_wf : (empty : Seq α n).WF :=
  WF.of_slot? (Nat.zero_le n) fun k hk => by simp [slot?, empty, hk]

@[simp] theorem toList_empty : (empty : Seq α n).toList = [] := rfl

theorem insert_eq_ok {s t : Seq α n} {i : Nat} {a : α} (h : s.insert i a = .ok t) :
    i ≤ s.size ∧ s.size ≠ n ∧ t.size = s.size + 1 ∧ ∀ k < n, t.slot? k =
      if k < i then s.slot? k else if k = i then some a
      else if k ≤ s.size then s.slot? (k - 1) else s.slot? k := by
  unfold insert at h
  split at h
  · cases h
  · split at h
    · cases h
    · next hi hf =>
      cases h
      refine ⟨by omega, by simpa [isFull] using hf, rfl, fun k hk => ?_⟩
      rw [slot?_ofFn, dif_pos hk, slot?_eq s hk, slot?_eq s (show k - 1 < n by omega)]

theorem insert_wf {s t : Seq α n} {i : Nat} {a : α} (hw : s.WF) (h : s.insert i a = .ok t) :
    t.WF := by
  obtain ⟨hi, hf, hs, hk⟩ := insert_eq_ok h
  have := hw.size_le
  refine WF.of_slot? (by omega) fun k hkn => ?_
  rw [hk k hkn, hs]
  split
  · rw [hw.slot?_isSome]
    exact decide_eq_decide.mpr (by omega)
  · split
    · simp
      omega
    · split
      · rw [hw.slot?_isSome]
        exact decide_eq_decide.mpr (by omega)
      · rw [hw.slot?_isSome]
        exact decide_eq_decide.mpr (by omega)

/-- An insertion inserts into the list of the elements. -/
theorem toList_insert {s t : Seq α n} {i : Nat} {a : α} (hw : s.WF) (h : s.insert i a = .ok t) :
    t.toList = s.toList.insertIdx i a := by
  have ht := insert_wf hw h
  obtain ⟨hi, hf, hs, hk⟩ := insert_eq_ok h
  have hl := hw.length_toList
  refine ht.toList_eq fun k => ?_
  rw [List.getElem?_insertIdx]
  by_cases hkn : k < n
  · rw [hk k hkn]
    split
    · rw [hw.getElem?_toList]
    · split
      · rw [if_pos (by omega)]
      · split
        · rw [hw.getElem?_toList]
        · rw [hw.getElem?_toList, hw.slot?_eq_none (by omega), hw.slot?_eq_none (by omega)]
  · have := hw.size_le
    rw [ht.slot?_eq_none (by omega), if_neg (by omega), if_neg (by omega), hw.getElem?_toList,
      hw.slot?_eq_none (by omega)]

theorem push_wf {s t : Seq α n} {a : α} (hw : s.WF) (h : s.push a = .ok t) : t.WF :=
  insert_wf hw h

/-- An element is appended to the list of the elements. -/
theorem toList_push {s t : Seq α n} {a : α} (hw : s.WF) (h : s.push a = .ok t) :
    t.toList = s.toList ++ [a] := by
  rw [toList_insert hw h, ← hw.length_toList, List.insertIdx_length_self]

theorem slot?_remove (s : Seq α n) {i k : Nat} (hi : i < s.size) (hk : k < n) :
    (s.remove i).2.slot? k = if k < i then s.slot? k
      else if k + 1 < s.size then s.slot? (k + 1) else if k < s.size then none else s.slot? k := by
  unfold remove
  rw [if_neg (by omega), slot?_ofFn, dif_pos hk, slot?_eq s hk]
  dsimp only
  split
  · rfl
  · by_cases h1 : k + 1 < s.size
    · rw [if_pos h1]
      by_cases h2 : k + 1 < n
      · rw [dif_pos ⟨h1, h2⟩, slot?_eq s h2]
      · rw [dif_neg (by omega), if_pos (by omega)]
        simp [slot?, h2]
    · rw [dif_neg (by omega), if_neg h1]

theorem size_remove (s : Seq α n) {i : Nat} (hi : i < s.size) :
    (s.remove i).2.size = s.size - 1 := by
  unfold remove
  rw [if_neg (by omega)]

theorem remove_of_le (s : Seq α n) {i : Nat} (hi : s.size ≤ i) : s.remove i = (none, s) := by
  unfold remove
  rw [if_pos hi]

theorem remove_wf {s : Seq α n} (hw : s.WF) (i : Nat) : (s.remove i).2.WF := by
  by_cases hi : i < s.size
  · have := hw.size_le
    refine WF.of_slot? (by rw [size_remove s hi]; omega) fun k hk => ?_
    rw [slot?_remove s hi hk, size_remove s hi]
    split
    · rw [hw.slot?_isSome]
      exact decide_eq_decide.mpr (by omega)
    · split
      · rw [hw.slot?_isSome]
        exact decide_eq_decide.mpr (by omega)
      · split
        · simp
          omega
        · rw [hw.slot?_isSome]
          exact decide_eq_decide.mpr (by omega)
  · rw [remove_of_le s (by omega)]
    exact hw

/-- A removal erases from the list of the elements. -/
theorem toList_remove {s : Seq α n} (hw : s.WF) (i : Nat) :
    (s.remove i).2.toList = s.toList.eraseIdx i := by
  by_cases hi : i < s.size
  · have hr := remove_wf hw i
    have hs := size_remove s hi
    refine hr.toList_eq fun k => ?_
    rw [List.getElem?_eraseIdx, hw.getElem?_toList, hw.getElem?_toList]
    by_cases hk : k < n
    · rw [slot?_remove s hi hk]
      split
      · rfl
      · split
        · rfl
        · rw [hw.slot?_eq_none (k := k + 1) (by omega)]
          split
          · rfl
          · exact hw.slot?_eq_none (by omega)
    · have := hw.size_le
      rw [hr.slot?_eq_none (by omega), if_neg (by omega), hw.slot?_eq_none (by omega)]
  · rw [remove_of_le s (by omega), List.eraseIdx_of_length_le (by rw [hw.length_toList]; omega)]

/-- A removal hands out the element at its position. -/
theorem fst_remove {s : Seq α n} (hw : s.WF) (i : Nat) : (s.remove i).1 = s.toList[i]? := by
  rw [hw.getElem?_toList]
  unfold remove
  split
  · rw [hw.slot?_eq_none ‹_›]
  · rfl

theorem slot?_set (s : Seq α n) (i : Nat) (a : α) (k : Nat) :
    (s.set i a).slot? k = if k = i ∧ (s.slot? i).isSome = true then some a else s.slot? k := by
  unfold set
  split
  · next b hb =>
    have hs : s.slot? i = some b := hb
    have hi : i < n := by
      rcases Nat.lt_or_ge i n with h | h
      · exact h
      · simp [slot?, h] at hs
    rcases Nat.decEq i k with h | h
    · rw [if_neg (by omega)]
      simp [slot?, Vector.getElem?_setIfInBounds_ne h]
    · subst h
      rw [if_pos ⟨rfl, by rw [hs]; rfl⟩]
      simp [slot?, hi]
  · next hb =>
    have hs : s.slot? i = none := hb
    rw [if_neg (by simp [hs])]

theorem size_set (s : Seq α n) (i : Nat) (a : α) : (s.set i a).size = s.size := by
  unfold set
  split <;> rfl

theorem set_wf {s : Seq α n} (hw : s.WF) (i : Nat) (a : α) : (s.set i a).WF := by
  refine WF.of_slot? (by rw [size_set]; exact hw.size_le) fun k _ => ?_
  rw [slot?_set, size_set]
  split
  · next h =>
    rw [← hw.slot?_isSome, h.1, h.2]
    rfl
  · exact hw.slot?_isSome k

/-- A replacement replaces in the list of the elements. -/
theorem toList_set {s : Seq α n} (hw : s.WF) (i : Nat) (a : α) :
    (s.set i a).toList = s.toList.set i a := by
  refine (set_wf hw i a).toList_eq fun k => ?_
  rw [slot?_set, List.getElem?_set, hw.length_toList, hw.slot?_isSome, hw.getElem?_toList]
  rcases Nat.decEq i k with h | h
  · rw [if_neg (by omega), if_neg h]
  · subst h
    by_cases hi : i < s.size
    · simp [hi]
    · simp [hi, hw.slot?_eq_none (by omega : s.size ≤ i)]

/-- Images of all elements. -/
theorem toList_mapElems {s : Seq α n} (hw : s.WF) (f : α → α) :
    (s.mapElems f).WF ∧ (s.mapElems f).toList = s.toList.map f := by
  have hk : ∀ k, (s.mapElems f).slot? k = (s.slot? k).map f := by
    intro k
    unfold mapElems
    rw [slot?_ofFn]
    by_cases h : k < n
    · rw [dif_pos h, slot?_eq s h]
      dsimp only
      split
      · rfl
      · have := hw.slot?_eq_none (k := k) (by omega)
        rw [slot?_eq s h] at this
        rw [this]
        rfl
    · have := hw.size_le
      rw [dif_neg h, hw.slot?_eq_none (by omega)]
      rfl
  have hm : (s.mapElems f).WF :=
    WF.of_slot? hw.size_le fun k _ => by
      rw [hk, Option.isSome_map]
      exact hw.slot?_isSome k
  exact ⟨hm, hm.toList_eq fun k => by rw [hk, List.getElem?_map, hw.getElem?_toList]⟩

theorem clear_wf {s : Seq α n} (hw : s.WF) : s.clear.WF := by
  refine WF.of_slot? (Nat.zero_le n) fun k hk => ?_
  unfold clear
  rw [slot?_ofFn, dif_pos hk]
  dsimp only
  split
  · rfl
  · rw [← slot?_eq s hk, hw.slot?_eq_none (by omega)]
    rfl

theorem toList_clear (s : Seq α n) : s.clear.toList = [] := by simp [toList, clear]

end Seq

end UdpStack.Bounded
