/-
Sequences and maps over whole runs of calls. A sequence is a list, and its slots hold the list and then nothing; a map
is a function from keys to values, together with its keys in the order of their insertion. One lemma for each of them
says what a call does (`Seq.Agrees.perform`, `Map.Agrees.perform`), and every run is then answered
like that of the plain value (`sequences_and_maps`).
-/
import UdpStack.Bounded.Seq.Lemmas
import UdpStack.Proofs.Bounded.Map
import UdpStack.Proofs.Bounded.Replay

namespace UdpStack.Bounded

variable {α : Type} {n : Nat}

/-! ## Sequences -/

namespace Seq

/-- Change the element at a position, if there is one. -/
def alter (s : Seq α n) (i : Nat) (f : α → α) : Seq α n :=
  match s.get? i with
  | some a => s.set i (f a)
  | none => s

/-- Change the elements one after the other, each as its position says. -/
def sweep (f : Nat → α → α) (s : Seq α n) : Seq α n := (List.range s.size).foldl (fun t i => t.alter i (f i)) s

/-- A call that can change a sequence. -/
inductive Call (α : Type) where
  | push (a : α)
  | insert (i : Nat) (a : α)
  | remove (i : Nat)
  | clear
  | set (i : Nat) (a : α)
  | sweep (f : Nat → α → α)

def perform (s : Seq α n) : Call α → Reply α × Seq α n
  | .push a => attempt s (s.push a)
  | .insert i a => attempt s (s.insert i a)
  | .remove i => (.value (s.remove i).1, (s.remove i).2)
  | .clear => (.done (.ok ()), s.clear)
  | .set i a => (.value (s.get? i), s.set i a)
  | .sweep f => (.values s.toList, s.sweep f)

/-- A call of a list of at most `n` elements. -/
def performList (n : Nat) (l : List α) : Call α → Reply α × List α
  | .push a => if l.length = n then (.done (.error .exhausted), l) else (.done (.ok ()), l ++ [a])
  | .insert i a =>
    if l.length < i then (.done (.error .badSize), l)
    else if l.length = n then (.done (.error .exhausted), l)
    else (.done (.ok ()), l.insertIdx i a)
  | .remove i => (.value l[i]?, l.eraseIdx i)
  | .clear => (.done (.ok ()), [])
  | .set i a => (.value l[i]?, l.set i a)
  | .sweep f => (.values l, l.mapIdx f)

/-- A well-formed sequence with exactly these elements. -/
structure Agrees (s : Seq α n) (l : List α) : Prop where
  wf : s.WF
  toList_eq : s.toList = l

theorem agrees_empty : (empty : Seq α n).Agrees [] := ⟨empty_wf, rfl⟩

namespace Agrees

variable {s : Seq α n} {l : List α}

theorem size_eq (h : s.Agrees l) : s.size = l.length := by rw [← h.wf.length_toList, h.toList_eq]

theorem get?_eq (h : s.Agrees l) (i : Nat) : s.get? i = l[i]? := by rw [h.wf.get?_eq, h.toList_eq]

theorem isFull_iff (h : s.Agrees l) : s.isFull = true ↔ l.length = n := by rw [isFull, beq_iff_eq, h.size_eq]

theorem insert_beyond (h : s.Agrees l) {i : Nat} (hi : l.length < i) (a : α) : s.insert i a = .error .badSize := by
  unfold Seq.insert
  rw [h.size_eq, if_pos hi]

theorem insert_full (h : s.Agrees l) {i : Nat} (hi : ¬ l.length < i) (hl : l.length = n) (a : α) :
    s.insert i a = .error .exhausted := by
  unfold Seq.insert
  rw [h.size_eq, if_neg hi, if_pos (h.isFull_iff.2 hl)]

theorem insert (h : s.Agrees l) {i : Nat} (hi : ¬ l.length < i) (hl : l.length ≠ n) (a : α) :
    ∃ t, s.insert i a = .ok t ∧ t.Agrees (l.insertIdx i a) := by
  have hok : ∃ t, s.insert i a = .ok t := by
    unfold Seq.insert
    rw [h.size_eq, if_neg hi, if_neg fun hf => hl (h.isFull_iff.1 hf)]
    exact ⟨_, rfl⟩
  obtain ⟨t, ht⟩ := hok
  exact ⟨t, ht, insert_wf h.wf ht, by rw [toList_insert h.wf ht, h.toList_eq]⟩

theorem alter (h : s.Agrees l) (i : Nat) (f : α → α) : (s.alter i f).Agrees (l.modify i f) := by
  unfold Seq.alter
  rw [h.get?_eq, List.modify_eq_set_getElem?]
  cases l[i]? with
  | none => exact h
  | some a =>
    refine ⟨set_wf h.wf i (f a), ?_⟩
    rw [toList_set h.wf, h.toList_eq]
    rfl

/-- The first `k` steps of going over the elements change the first `k` of them. -/
theorem foldl_alter (h : s.Agrees l) (f : Nat → α → α) : ∀ k,
    Agrees ((List.range k).foldl (fun t i => t.alter i (f i)) s) (l.mapIdx fun i a => if i < k then f i a else a)
  | 0 => by
    have hid : (l.mapIdx fun i a => if i < 0 then f i a else a) = l := by simp [List.mapIdx_eq_iff]
    rw [hid]
    exact h
  | k + 1 => by
    have hnext : (l.mapIdx fun i a => if i < k + 1 then f i a else a) =
        (l.mapIdx fun i a => if i < k then f i a else a).modify k (f k) := by
      rw [List.mapIdx_eq_iff]
      intro i
      rw [List.getElem?_modify, List.getElem?_mapIdx]
      rcases Nat.lt_trichotomy i k with hless | rfl | hmore
      · simp [hless, Nat.lt_succ_of_lt hless, Nat.ne_of_gt hless]
      · simp
      · simp [Nat.not_lt.2 (Nat.le_of_lt hmore), Nat.not_lt.2 (Nat.succ_le_of_lt hmore), Nat.ne_of_lt hmore]
    rw [List.range_succ, List.foldl_append, hnext]
    exact (foldl_alter h f k).alter k (f k)

theorem sweep (h : s.Agrees l) (f : Nat → α → α) : (s.sweep f).Agrees (l.mapIdx f) := by
  have hall : (l.mapIdx fun i a => if i < l.length then f i a else a) = l.mapIdx f := by
    rw [List.mapIdx_eq_mapIdx_iff]
    intro i hi
    rw [if_pos hi]
  have hfold := h.foldl_alter f l.length
  rw [hall, ← h.size_eq] at hfold
  exact hfold

/-- Replacing every element by its image is going over them in the same way at each position. -/
theorem mapElems_eq_sweep (h : s.Agrees l) (f : α → α) : s.mapElems f = s.sweep fun _ => f := by
  obtain ⟨hwf, himages⟩ := toList_mapElems h.wf f
  have hsweep := h.sweep fun _ => f
  refine hwf.eq_of_toList hsweep.wf ?_
  rw [himages, hsweep.toList_eq, h.toList_eq, eq_comm, List.mapIdx_eq_iff]
  intro i
  rw [List.getElem?_map]

/-- A call of a sequence does what it does to the list. -/
theorem perform (h : s.Agrees l) (c : Call α) :
    (s.perform c).1 = (performList n l c).1 ∧ (s.perform c).2.Agrees (performList n l c).2 := by
  cases c with
  | push a =>
    have hpush : s.perform (.push a) = attempt s (s.insert l.length a) := by rw [← h.size_eq]; rfl
    rw [hpush, performList]
    by_cases hl : l.length = n
    · rw [h.insert_full (Nat.lt_irrefl _) hl, if_pos hl]
      exact ⟨rfl, h⟩
    · obtain ⟨t, ht, hagrees⟩ := h.insert (Nat.lt_irrefl _) hl a
      rw [List.insertIdx_length_self] at hagrees
      rw [ht, if_neg hl]
      exact ⟨rfl, hagrees⟩
  | insert i a =>
    rw [Seq.perform, performList]
    by_cases hi : l.length < i
    · rw [h.insert_beyond hi, if_pos hi]
      exact ⟨rfl, h⟩
    · rw [if_neg hi]
      by_cases hl : l.length = n
      · rw [h.insert_full hi hl, if_pos hl]
        exact ⟨rfl, h⟩
      · obtain ⟨t, ht, hagrees⟩ := h.insert hi hl a
        rw [ht, if_neg hl]
        exact ⟨rfl, hagrees⟩
  | remove i =>
    refine ⟨?_, remove_wf h.wf i, ?_⟩
    · show Reply.value (s.remove i).1 = .value l[i]?
      rw [fst_remove h.wf, h.toList_eq]
    · show (s.remove i).2.toList = l.eraseIdx i
      rw [toList_remove h.wf, h.toList_eq]
  | clear => exact ⟨rfl, clear_wf h.wf, toList_clear s⟩
  | set i a =>
    refine ⟨congrArg Reply.value (h.get?_eq i), set_wf h.wf i a, ?_⟩
    show (s.set i a).toList = l.set i a
    rw [toList_set h.wf, h.toList_eq]
  | sweep f => exact ⟨congrArg Reply.values h.toList_eq, h.sweep f⟩

end Agrees

end Seq

/-! ## Maps -/

namespace Map

variable {κ : Type} [DecidableEq κ]

/-- A call that can change a map. -/
inductive Call (κ α : Type) where
  | insert (k : κ) (a : α)
  | remove (k : κ)
  | set (k : κ) (a : α)
  deriving DecidableEq, Repr

def perform (m : Map κ α n) : Call κ α → Reply α × Map κ α n
  | .insert k a => attempt m (m.insert k a)
  | .remove k => (.value (m.remove k).1, (m.remove k).2)
  | .set k a => (.value (m.get? k), m.set k a)

/-- The values of keys, and the keys that have one in the order of their insertion. -/
structure Entries (κ α : Type) where
  value : κ → Option α
  order : List κ

namespace Entries

def empty : Entries κ α := ⟨fun _ => none, []⟩

/-- A call of a function with values for at most `n` keys. -/
def perform (n : Nat) (e : Entries κ α) : Call κ α → Reply α × Entries κ α
  | .insert k a =>
    if (e.value k).isSome then (.done (.error .illegal), e)
    else if e.order.length = n then (.done (.error .exhausted), e)
    else (.done (.ok ()), ⟨Function.update e.value k (some a), e.order ++ [k]⟩)
  | .remove k => (.value (e.value k), ⟨Function.update e.value k none, e.order.erase k⟩)
  | .set k a =>
    (.value (e.value k),
      if (e.value k).isSome then { e with value := Function.update e.value k (some a) } else e)

end Entries

/-- A well-formed map with these values, whose pairs are in this order. -/
structure Agrees (m : Map κ α n) (e : Entries κ α) : Prop where
  wf : m.WF
  value : ∀ k, m.get? k = e.value k
  order : m.toList.map (·.1) = e.order

theorem agrees_empty : (empty : Map κ α n).Agrees Entries.empty := ⟨empty_wf, fun _ => rfl, rfl⟩

namespace Agrees

variable {m : Map κ α n} {e : Entries κ α}

theorem contains_eq (h : m.Agrees e) (k : κ) : m.contains k = (e.value k).isSome := by
  rw [contains_eq_isSome, h.value]

theorem size_eq (h : m.Agrees e) : m.size = e.order.length := by
  rw [← h.order, List.length_map]
  exact h.wf.pairs.length_toList.symm

theorem mem_order_iff (h : m.Agrees e) (k : κ) : k ∈ e.order ↔ (e.value k).isSome = true := by
  rw [← h.contains_eq, contains_iff, ← h.order, List.mem_map]

theorem value_of_mem (h : m.Agrees e) {p : κ × α} (hp : p ∈ m.toList) : e.value p.1 = some p.2 := by
  rw [← h.value]
  exact h.wf.get?_eq_some_iff.2 hp

theorem toList_eq (h : m.Agrees e) : m.toList = e.order.filterMap fun k => (e.value k).map (k, ·) := by
  rw [← h.order, List.filterMap_map, List.filterMap_congr (g := some), List.filterMap_some]
  intro p hp
  rw [Function.comp_apply, h.value_of_mem hp]
  rfl

theorem keyOf?_eq [DecidableEq α] (h : m.Agrees e) (a : α) :
    m.keyOf? a = e.order.find? fun k => decide (e.value k = some a) := by
  unfold keyOf?
  rw [← h.order, List.find?_map]
  congr 1
  refine List.find?_congr ?_
  intro p hp
  rw [Function.comp_apply, h.value_of_mem hp]
  simp

/-! ### What each operation leaves -/

theorem insert {k : κ} (h : m.Agrees e) (hk : (e.value k).isSome = false) (hl : e.order.length ≠ n) (a : α) :
    ∃ m', m.insert k a = .ok m' ∧ m'.Agrees ⟨Function.update e.value k (some a), e.order ++ [k]⟩ := by
  have hnone : m.get? k = none := by rw [h.value, ← Option.not_isSome_iff_eq_none, hk]; exact Bool.false_ne_true
  have hroom : m.pairs.size ≠ n := fun hs => hl (h.size_eq.symm.trans hs)
  obtain ⟨m', hm'⟩ := insert_of_room hnone hroom a
  refine ⟨m', hm', insert_wf h.wf hm', ?_, ?_⟩
  · intro x
    rw [get?_insert h.wf hm', h.value]
    exact (Function.update_apply ..).symm
  · rw [(insert_eq_ok h.wf hm').2, List.map_append, h.order]
    rfl

theorem remove (h : m.Agrees e) (k : κ) :
    (m.remove k).2.Agrees ⟨Function.update e.value k none, e.order.erase k⟩ := by
  refine ⟨remove_wf h.wf k, ?_, ?_⟩
  · intro x
    rw [get?_remove h.wf, h.value]
    exact (Function.update_apply ..).symm
  · have hnodup := h.wf.nodup
    rw [h.order] at hnodup
    rw [toList_remove h.wf, hnodup.erase_eq_filter, ← h.order, List.filter_map]
    congr 2
    funext p
    by_cases hp : p.1 = k <;> simp [hp]

theorem set (h : m.Agrees e) (k : κ) (a : α) :
    (m.set k a).Agrees (if (e.value k).isSome then { e with value := Function.update e.value k (some a) } else e) := by
  have horder : (m.set k a).toList.map (·.1) = e.order := by
    rw [toList_set h.wf, List.map_map, ← h.order]
    refine List.map_congr_left ?_
    intro p _
    rw [Function.comp_apply]
    split
    · rename_i hp
      exact hp.symm
    · rfl
  have hvalue : ∀ x, (m.set k a).get? x = if x = k ∧ (e.value k).isSome = true then some a else e.value x := by
    intro x
    rw [get?_set h.wf, h.contains_eq, h.value]
  split
  · rename_i hk
    refine ⟨set_wf h.wf k a, ?_, horder⟩
    intro x
    simp only [hvalue, hk, and_true]
    exact (Function.update_apply ..).symm
  · rename_i hk
    refine ⟨set_wf h.wf k a, ?_, horder⟩
    intro x
    rw [hvalue, if_neg fun hx => hk hx.2]

/-- A call of a map does what it does to the function and to the order. -/
theorem perform (h : m.Agrees e) (c : Call κ α) :
    (m.perform c).1 = (e.perform n c).1 ∧ (m.perform c).2.Agrees (e.perform n c).2 := by
  cases c with
  | insert k a =>
    by_cases hk : (e.value k).isSome = true
    · have herror : m.insert k a = .error .illegal := by
        unfold Map.insert
        rw [h.contains_eq, hk]
        rfl
      simp [Map.perform, Entries.perform, attempt, herror, hk, h]
    · rw [Bool.not_eq_true] at hk
      by_cases hl : e.order.length = n
      · have hfull : m.pairs.size = n := h.size_eq.trans hl
        have herror := insert_of_full ((h.contains_eq k).trans hk) hfull a
        simp [Map.perform, Entries.perform, attempt, herror, hk, hl, h]
      · obtain ⟨m', hm', hagrees⟩ := h.insert hk hl a
        simp [Map.perform, Entries.perform, attempt, hm', hk, hl, hagrees]
  | remove k =>
    refine ⟨?_, h.remove k⟩
    show Reply.value (m.remove k).1 = .value (e.value k)
    rw [fst_remove h.wf, h.value]
  | set k a => exact ⟨congrArg Reply.value (h.value k), h.set k a⟩

end Agrees

end Map

/-- Every run of a sequence is answered like that of a list of at most `n` elements, which fill the first slots and
leave all others vacant. Every run of a map is answered like that of a function with values for at most `n` keys, no
key is listed twice, and the pairs are listed in the order in which their keys were inserted. -/
theorem sequences_and_maps {κ : Type} [DecidableEq κ] [DecidableEq α] :
    (∀ cs : List (Seq.Call α),
      let run := replay Seq.perform (Seq.empty : Seq α n) cs
      let list := replay (Seq.performList n) [] cs
      run.1 = list.1 ∧
      run.2.toList = list.2 ∧ run.2.size = list.2.length ∧ list.2.length ≤ n ∧
      (∀ k : Fin n, run.2.slots[k] = list.2[k.val]?) ∧
      (∀ i, run.2.get? i = list.2[i]?) ∧
      (∀ p, run.2.findIdx? p = list.2.findIdx? p) ∧
      ∀ f, run.2.mapElems f = run.2.sweep fun _ => f) ∧
    ∀ cs : List (Map.Call κ α),
      let run := replay Map.perform (Map.empty : Map κ α n) cs
      let entries := replay (Map.Entries.perform n) .empty cs
      run.1 = entries.1 ∧
      (∀ k, run.2.get? k = entries.2.value k) ∧
      (∀ k, run.2.contains k = (entries.2.value k).isSome) ∧
      (run.2.toList.map (·.1)).Nodup ∧ run.2.toList.map (·.1) = entries.2.order ∧
      run.2.toList = (entries.2.order.filterMap fun k => (entries.2.value k).map (k, ·)) ∧
      (∀ k, k ∈ entries.2.order ↔ (entries.2.value k).isSome = true) ∧
      run.2.size = entries.2.order.length ∧ entries.2.order.length ≤ n ∧
      ∀ a, run.2.keyOf? a = entries.2.order.find? fun k => decide (entries.2.value k = some a) := by
  constructor
  · intro cs run list
    obtain ⟨hreplies, h⟩ : run.1 = list.1 ∧ run.2.Agrees list.2 :=
      replay_related Seq.Agrees.perform cs Seq.agrees_empty
    refine ⟨hreplies, h.toList_eq, h.size_eq, h.size_eq ▸ h.wf.size_le, ?_, h.get?_eq, ?_, h.mapElems_eq_sweep⟩
    · intro k
      rw [← h.get?_eq]
      exact (Seq.slot?_eq run.2 k.isLt).symm
    · intro p
      rw [Seq.findIdx?, h.toList_eq]
  · intro cs run entries
    obtain ⟨hreplies, h⟩ : run.1 = entries.1 ∧ run.2.Agrees entries.2 :=
      replay_related Map.Agrees.perform cs Map.agrees_empty
    refine ⟨hreplies, h.value, h.contains_eq, h.wf.nodup, h.order, h.toList_eq, h.mem_order_iff, h.size_eq, ?_,
      h.keyOf?_eq⟩
    rw [← h.size_eq]
    exact h.wf.pairs.size_le

/-- A key that is inserted again goes behind the others. -/
example : (replay Map.perform (Map.empty : Map Nat Nat 2)
    [.insert 7 1, .insert 8 1, .insert 7 2, .insert 9 3, .remove 7, .insert 7 4, .set 8 4]).2.keyOf? 4 = some 8 := by
  decide

end UdpStack.Bounded
