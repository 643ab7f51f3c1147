/-
Laws of rings, as laws of the list of their elements: an element is added at the end
(`toList_push`), the oldest one is taken from the front (`toList_pop`), and placing an element
behind the last one to count it later is the same as adding it (`push_of_reserve`).
-/
import UdpStack.Bounded.Queue
import Mathlib.Tactic

namespace UdpStack.Bounded.Queue

variable {α : Type} {n : Nat}

/-- The oldest element is in a slot, and from there on the first `size` slots hold one each. -/
structure WF (q : Queue α n) : Prop where
  size_le : q.size ≤ n
  head_lt : 0 < n → q.head < n
  occupied : ∀ k < q.size, (q.cell? k).isSome = true

/-! ## Slots around the ring -/

theorem add_mod_inj {a j k n : Nat} (hj : j < n) (hk : k < n) (h : (a + j) % n = (a + k) % n) :
    j = k := by
  have := Nat.ModEq.add_left_cancel' a (show (a + j) ≡ (a + k) [MOD n] from h)
  rwa [Nat.ModEq, Nat.mod_eq_of_lt hj, Nat.mod_eq_of_lt hk] at this

theorem slotAt_lt (q : Queue α n) (hn : 0 < n) (k : Nat) : q.slotAt k < n := Nat.mod_lt _ hn

theorem WF.slotAt_zero {q : Queue α n} (hw : q.WF) (hn : 0 < n) : q.slotAt 0 = q.head :=
  Nat.mod_eq_of_lt (hw.head_lt hn)

theorem WF.slots_head {q : Queue α n} (hw : q.WF) (hn : 0 < n) : q.slots[q.head]?.join = q.cell? 0 := by
  unfold cell?; rw [hw.slotAt_zero hn]

/-- Writing behind the last element changes no other place around the ring. -/
theorem cell?_putBack_of_ne (q : Queue α n) (a : Option α) {k : Nat} (hk : k < n) (hne : k ≠ q.size)
    (hs : q.size < n) : (q.putBack a).cell? k = q.cell? k := by
  have hslot : q.slotAt q.size ≠ q.slotAt k := fun h => hne (add_mod_inj hs hk h).symm
  show (q.slots.setIfInBounds (q.slotAt q.size) a)[q.slotAt k]?.join = _
  rw [Vector.getElem?_setIfInBounds_ne hslot]
  rfl

/-- None of the elements that are counted is changed by it. -/
theorem cell?_putBack_of_lt (q : Queue α n) (a : Option α) {k : Nat} (hk : k < q.size) (hs : q.size < n) :
    (q.putBack a).cell? k = q.cell? k :=
  cell?_putBack_of_ne q a (by omega) (by omega) hs

theorem cell?_putBack_self (q : Queue α n) (a : Option α) (hs : q.size < n) :
    (q.putBack a).cell? q.size = a := by
  have hlt := q.slotAt_lt (by omega) q.size
  show (q.slots.setIfInBounds (q.slotAt q.size) a)[q.slotAt q.size]?.join = a
  simp [hlt]

theorem filterMap_range_congr {f g : Nat → Option α} : ∀ {m : Nat}, (∀ k < m, f k = g k) →
    (List.range m).filterMap f = (List.range m).filterMap g := by
  intro m h
  exact List.filterMap_congr fun k hk => h k (List.mem_range.1 hk)

theorem putBack_wf {q : Queue α n} (hw : q.WF) (a : Option α) (hs : q.size < n) : (q.putBack a).WF :=
  ⟨hw.size_le, hw.head_lt, fun k hk => by rw [cell?_putBack_of_lt q a hk hs]; exact hw.occupied k hk⟩

theorem toList_putBack (q : Queue α n) (a : Option α) (hs : q.size < n) :
    (q.putBack a).toList = q.toList :=
  filterMap_range_congr fun _ hk => cell?_putBack_of_lt q a hk hs

theorem WF.length_toList {q : Queue α n} (hw : q.WF) : q.toList.length = q.size := by
  have : ∀ m ≤ q.size, ((List.range m).filterMap q.cell?).length = m := by
    intro m
    induction m with
    | zero => simp
    | succ m ih =>
      intro hm
      obtain ⟨a, ha⟩ := Option.isSome_iff_exists.1 (hw.occupied m (by omega))
      rw [List.range_succ, List.filterMap_append, List.length_append, ih (by omega)]
      simp [ha]
  exact this q.size le_rfl

theorem WF.lt_of_not_isFull {q : Queue α n} (hw : q.WF) (h : q.isFull = false) : q.size < n := by
  have := hw.size_le
  simp only [isFull, beq_eq_false_iff_ne] at h
  omega

theorem WF.isEmpty_iff {q : Queue α n} (hw : q.WF) : q.isEmpty = true ↔ q.toList = [] := by
  rw [← List.length_eq_zero_iff, hw.length_toList]
  simp [isEmpty]

/-! ## Operations -/

theorem empty_wf : (empty : Queue α n).WF := ⟨Nat.zero_le n, fun h => h, nofun⟩

@[simp] theorem toList_empty : (empty : Queue α n).toList = [] := rfl

theorem push_eq_ok {q r : Queue α n} {a : α} (h : q.push a = .ok r) :
    q.isFull = false ∧ r = { q.putBack (some a) with size := q.size + 1 } := by
  unfold push at h
  split at h
  · cases h
  · rename_i hf; cases h; exact ⟨by simpa using hf, rfl⟩

theorem push_of_not_isFull {q : Queue α n} (h : q.isFull = false) (a : α) :
    q.push a = .ok { q.putBack (some a) with size := q.size + 1 } := by
  unfold push; rw [h]; rfl

theorem push_wf {q r : Queue α n} {a : α} (hw : q.WF) (h : q.push a = .ok r) : r.WF := by
  obtain ⟨hf, rfl⟩ := push_eq_ok h
  have hs := hw.lt_of_not_isFull hf
  refine ⟨hs, hw.head_lt, ?_⟩
  intro k hk
  show ((q.putBack (some a)).cell? k).isSome = true
  rcases Nat.lt_succ_iff_lt_or_eq.1 hk with hk | rfl
  · rw [cell?_putBack_of_lt q _ hk hs]; exact hw.occupied k hk
  · rw [cell?_putBack_self q _ hs]; rfl

theorem toList_push {q r : Queue α n} {a : α} (hw : q.WF) (h : q.push a = .ok r) :
    r.toList = q.toList ++ [a] := by
  obtain ⟨hf, rfl⟩ := push_eq_ok h
  have hs := hw.lt_of_not_isFull hf
  show (List.range (q.size + 1)).filterMap (q.putBack (some a)).cell? = _
  rw [List.range_succ, List.filterMap_append,
    filterMap_range_congr fun k hk => cell?_putBack_of_lt q (some a) hk hs]
  simp [cell?_putBack_self q _ hs, toList]

theorem pop_of_isEmpty {q : Queue α n} (h : q.isEmpty = true) : q.pop = (none, q) := by
  unfold pop; rw [if_pos h]

/-- Everything behind the oldest element moves up when it is taken out. -/
theorem cell?_pop_of_lt {q : Queue α n} (hh : q.head < n) (he : q.isEmpty = false) {k : Nat} (hk : k + 1 < n) :
    q.pop.2.cell? k = q.cell? (k + 1) := by
  have hslot : ((q.head + 1) % n + k) % n = (q.head + (k + 1)) % n := by
    rw [Nat.mod_add_mod]; congr 1; omega
  have hne : q.head ≠ (q.head + (k + 1)) % n := by
    intro h
    have h0 : (q.head + 0) % n = (q.head + (k + 1)) % n := by
      rw [Nat.add_zero, Nat.mod_eq_of_lt hh]; exact h
    have := add_mod_inj (by omega) hk h0
    omega
  unfold pop; rw [he]
  show (q.slots.setIfInBounds q.head none)[((q.head + 1) % n + k) % n]?.join = _
  rw [hslot, Vector.getElem?_setIfInBounds_ne hne]
  rfl

/-- Its own slot is then the last one around the ring, and vacant. -/
theorem cell?_pop_last {q : Queue α n} (hh : q.head < n) (he : q.isEmpty = false) :
    q.pop.2.cell? (n - 1) = none := by
  have hslot : ((q.head + 1) % n + (n - 1)) % n = q.head := by
    rw [Nat.mod_add_mod, show q.head + 1 + (n - 1) = q.head + n by omega, Nat.add_mod_right, Nat.mod_eq_of_lt hh]
  unfold pop; rw [he]
  show (q.slots.setIfInBounds q.head none)[((q.head + 1) % n + (n - 1)) % n]?.join = none
  rw [hslot, Vector.getElem?_setIfInBounds_self_of_lt hh]
  rfl

theorem cell?_pop {q : Queue α n} (hw : q.WF) {k : Nat} (hk : k + 1 < q.size) :
    q.pop.2.cell? k = q.cell? (k + 1) := by
  have hn := hw.size_le
  have he : q.isEmpty = false := by simp [isEmpty]; omega
  exact cell?_pop_of_lt (hw.head_lt (by omega)) he (by omega)

theorem size_pop (q : Queue α n) : q.pop.2.size = q.size - 1 := by
  unfold pop
  split
  · rename_i h; simp only [isEmpty, beq_iff_eq] at h; show q.size = _; omega
  · rfl

theorem pop_wf {q : Queue α n} (hw : q.WF) : q.pop.2.WF := by
  by_cases he : q.isEmpty = true
  · rw [pop_of_isEmpty he]; exact hw
  · have hn := hw.size_le
    have hp : 0 < q.size := by simp only [isEmpty, beq_iff_eq] at he; omega
    refine ⟨by rw [size_pop]; omega, ?_, ?_⟩
    · intro hpos
      unfold pop; rw [if_neg he]; exact q.slotAt_lt hpos 1
    · intro k hk
      rw [size_pop] at hk
      rw [cell?_pop hw (by omega)]; exact hw.occupied _ (by omega)

theorem toList_pop {q : Queue α n} (hw : q.WF) : q.pop.2.toList = q.toList.tail := by
  by_cases he : q.isEmpty = true
  · rw [pop_of_isEmpty he, hw.isEmpty_iff.1 he, List.tail_nil]
  · obtain ⟨m, hm⟩ : ∃ m, q.size = m + 1 := by
      simp only [isEmpty, beq_iff_eq] at he; exact Nat.exists_eq_succ_of_ne_zero he
    obtain ⟨a, ha⟩ := Option.isSome_iff_exists.1 (hw.occupied 0 (by omega))
    unfold toList
    rw [size_pop, hm, Nat.add_sub_cancel, List.range_succ_eq_map, List.filterMap_cons, ha,
      List.tail_cons, List.filterMap_map]
    exact filterMap_range_congr fun k hk => cell?_pop hw (by omega)

theorem fst_pop {q : Queue α n} (hw : q.WF) : q.pop.1 = q.toList.head? := by
  by_cases he : q.isEmpty = true
  · rw [pop_of_isEmpty he, hw.isEmpty_iff.1 he]; rfl
  · obtain ⟨m, hm⟩ : ∃ m, q.size = m + 1 := by
      simp only [isEmpty, beq_iff_eq] at he; exact Nat.exists_eq_succ_of_ne_zero he
    have hn := hw.size_le
    obtain ⟨a, ha⟩ := Option.isSome_iff_exists.1 (hw.occupied 0 (by omega))
    have hp : q.pop.1 = q.cell? 0 := by unfold pop; rw [if_neg he]; exact hw.slots_head (by omega)
    rw [hp, ha, toList, hm, List.range_succ_eq_map, List.filterMap_cons, ha]
    rfl

theorem mem_of_mem_pop {q : Queue α n} (hw : q.WF) {a : α} (h : a ∈ q.pop.2.toList) : a ∈ q.toList := by
  rw [toList_pop hw] at h
  exact List.mem_of_mem_tail h

theorem mem_of_pop {q : Queue α n} (hw : q.WF) {a : α} (h : q.pop.1 = some a) : a ∈ q.toList := by
  rw [fst_pop hw] at h
  exact List.mem_of_head? h

theorem front?_eq {q : Queue α n} (hw : q.WF) : q.front? = q.toList.head? := by
  rw [← fst_pop hw]
  unfold front? pop
  split <;> rfl

/-! ## Placing an element before counting it -/

theorem reserve_eq_ok {q r : Queue α n} {a : α} (h : q.reserve a = .ok r) :
    q.isFull = false ∧ r = q.putBack (some a) := by
  unfold reserve at h
  split at h
  · cases h
  · rename_i hf; cases h; exact ⟨by simpa using hf, rfl⟩

theorem putBack_putBack (q : Queue α n) (a b : Option α) : (q.putBack a).putBack b = q.putBack b := by
  show ({ q with slots :=
    (q.slots.setIfInBounds (q.slotAt q.size) a).setIfInBounds (q.slotAt q.size) b } : Queue α n) = _
  rw [Vector.setIfInBounds_setIfInBounds]
  rfl

/-- Placing an element, changing it and counting it adds the changed element. -/
theorem push_of_reserve {q r : Queue α n} {a : α} (hw : q.WF) (h : q.reserve a = .ok r) (b : α) :
    q.push b = .ok ((r.modifyReserved fun _ => b).commit) := by
  obtain ⟨hf, rfl⟩ := reserve_eq_ok h
  have hs := hw.lt_of_not_isFull hf
  have hr : (q.putBack (some a)).reserved? = some a := cell?_putBack_self q _ hs
  have hm : (q.putBack (some a)).modifyReserved (fun _ => b) = q.putBack (some b) := by
    unfold modifyReserved; rw [hr]; exact putBack_putBack q _ _
  have hb : (q.putBack (some b)).reserved? = some b := cell?_putBack_self q _ hs
  have hf' : (q.putBack (some b)).isFull = false := hf
  rw [push_of_not_isFull hf, hm, commit, hb, hf']
  rfl

/-- Adding an element, after the oldest one made room for it if necessary, moves the ring. -/
theorem push_ne {q r : Queue α n} {a : α} (hn : 1 < n) (hw : q.WF)
    (h : (if q.isFull then q.pop.2 else q).push a = .ok r) : r ≠ q := by
  obtain ⟨hf, rfl⟩ := push_eq_ok h
  intro he
  -- a full ring moves its head, and any other one grows
  split at he
  · rename_i hq
    simp only [isFull, beq_iff_eq] at hq
    have hne : ¬ q.isEmpty = true := by simp [isEmpty]; omega
    have hhead : (q.head + 1) % n = q.head := by
      have := congrArg head he
      unfold pop at this; rw [if_neg hne] at this
      exact this
    have h0 : (q.head + 1) % n = (q.head + 0) % n := by
      rw [hhead, Nat.add_zero, Nat.mod_eq_of_lt (hw.head_lt (by omega))]
    have := add_mod_inj hn (by omega) h0
    omega
  · have := congrArg size he
    simp at this

end UdpStack.Bounded.Queue
