/-
Laws of bounded maps against the list of their pairs: no key occurs twice (`WF`), looking up finds
exactly the listed pairs (`get?_eq_some_iff`), and each change is seen by looking up
(`get?_insert`, `get?_remove`, `get?_set`). What a map lists after insertions and removals is followed with
`Holds`.
-/
import UdpStack.Bounded.Map
import UdpStack.Bounded.Seq.Lemmas
import Mathlib.Tactic

namespace UdpStack.Bounded.Map

variable {κ α : Type} {n : Nat}

/-! ## The pair of a key in a list of pairs -/

section Pairs

variable [DecidableEq κ]

theorem findIdx?_key_cons (k : κ) (p : κ × α) (l : List (κ × α)) :
    (p :: l).findIdx? (fun p => decide (p.1 = k)) =
      if p.1 = k then some 0 else (l.findIdx? fun p => decide (p.1 = k)).map (· + 1) := by
  rw [List.findIdx?_cons]
  by_cases hp : p.1 = k <;> simp [hp]

theorem key_ne_of_findIdx?_eq_none {k : κ} {l : List (κ × α)}
    (h : l.findIdx? (fun p => decide (p.1 = k)) = none) : ∀ p ∈ l, p.1 ≠ k := by
  rw [List.findIdx?_eq_none_iff] at h
  intro p hp; simpa using h p hp

/-- Erasing the first pair of a key erases its only one. -/
theorem eraseIdx_findIdx?_key (k : κ) : ∀ (l : List (κ × α)) (i : Nat), (l.map (·.1)).Nodup →
    l.findIdx? (fun p => decide (p.1 = k)) = some i → l.eraseIdx i = l.filter fun p => decide (p.1 ≠ k)
  | [], i, _, h => by cases h
  | p :: l, i, hn, h => by
    simp only [List.map_cons, List.nodup_cons] at hn
    rw [findIdx?_key_cons] at h
    split at h
    · rename_i hp
      cases h
      have hl : ∀ q ∈ l, q.1 ≠ k := by
        rintro q hq rfl
        exact hn.1 (List.mem_map.2 ⟨q, hq, hp.symm⟩)
      rw [List.eraseIdx_cons_zero, List.filter_cons_of_neg (by simpa using hp),
        List.filter_eq_self.2 fun q hq => by simpa using hl q hq]
    · rename_i hp
      obtain ⟨j, hj, rfl⟩ := Option.map_eq_some_iff.1 h
      rw [List.eraseIdx_cons_succ, List.filter_cons_of_pos (by simpa using hp),
        eraseIdx_findIdx?_key k l j hn.2 hj]

/-- Replacing the first pair of a key replaces its only one. -/
theorem set_findIdx?_key (k : κ) (a : α) : ∀ (l : List (κ × α)) (i : Nat), (l.map (·.1)).Nodup →
    l.findIdx? (fun p => decide (p.1 = k)) = some i →
    l.set i (k, a) = l.map fun p => if p.1 = k then (k, a) else p
  | [], i, _, h => by cases h
  | p :: l, i, hn, h => by
    simp only [List.map_cons, List.nodup_cons] at hn
    rw [findIdx?_key_cons] at h
    split at h
    · rename_i hp
      cases h
      have hl : l.map (fun p => if p.1 = k then (k, a) else p) = l.map id := by
        refine List.map_congr_left fun q hq => if_neg ?_
        rintro rfl
        exact hn.1 (List.mem_map.2 ⟨q, hq, hp.symm⟩)
      rw [List.set_cons_zero, List.map_cons, if_pos hp, hl, List.map_id]
    · rename_i hp
      obtain ⟨j, hj, rfl⟩ := Option.map_eq_some_iff.1 h
      rw [List.set_cons_succ, List.map_cons, if_neg hp, set_findIdx?_key k a l j hn.2 hj]

end Pairs

/-! ## Well-formed maps -/

/-- The pairs fill the first slots, and no two of them have the same key. -/
structure WF (m : Map κ α n) : Prop where
  pairs : m.pairs.WF
  nodup : (m.toList.map (·.1)).Nodup

theorem empty_wf : (empty : Map κ α n).WF := ⟨Seq.empty_wf, by simp [toList, empty]⟩

@[simp] theorem toList_empty : (empty : Map κ α n).toList = [] := rfl

theorem WF.eq_of_mem {m : Map κ α n} (hw : m.WF) {k : κ} {a b : α} (ha : (k, a) ∈ m.toList)
    (hb : (k, b) ∈ m.toList) : a = b := by
  have := List.inj_on_of_nodup_map hw.nodup ha hb rfl
  exact (Prod.mk.inj this).2

/-- A well-formed map with exactly these pairs, in the order of their insertion. -/
structure Holds (m : Map κ α n) (l : List (κ × α)) : Prop where
  wf : m.WF
  toList : m.toList = l

theorem empty_holds : (empty : Map κ α n).Holds [] := ⟨empty_wf, rfl⟩

theorem Holds.eq_of_mem {m : Map κ α n} {l : List (κ × α)} (h : m.Holds l) {k : κ} {a b : α}
    (ha : (k, a) ∈ l) (hb : (k, b) ∈ l) : a = b :=
  h.wf.eq_of_mem (by rw [h.toList]; exact ha) (by rw [h.toList]; exact hb)

/-! ## Finding the key of a value -/

theorem mem_of_keyOf? [DecidableEq α] {m : Map κ α n} {k : κ} {a : α} (h : m.keyOf? a = some k) :
    (k, a) ∈ m.toList := by
  unfold keyOf? at h
  obtain ⟨⟨k', b⟩, hf, rfl⟩ := Option.map_eq_some_iff.1 h
  obtain rfl : b = a := by simpa using List.find?_some hf
  exact List.mem_of_find?_eq_some hf

theorem keyOf?_isSome_of_mem [DecidableEq α] {m : Map κ α n} {k : κ} {a : α} (h : (k, a) ∈ m.toList) :
    (m.keyOf? a).isSome = true := by
  unfold keyOf?
  rw [Option.isSome_map, List.find?_isSome]
  exact ⟨(k, a), h, by simp⟩

/-- The key of a value that has only one. -/
theorem keyOf?_eq_some [DecidableEq α] {m : Map κ α n} {k : κ} {a : α} (h : (k, a) ∈ m.toList)
    (hu : ∀ x, (x, a) ∈ m.toList → x = k) : m.keyOf? a = some k := by
  obtain ⟨x, hx⟩ := Option.isSome_iff_exists.1 (keyOf?_isSome_of_mem h)
  rw [hx, hu x (mem_of_keyOf? hx)]

/-- The key of a value is the first one that was inserted with it. -/
theorem Holds.keyOf?_eq_some [DecidableEq α] {m : Map κ α n} {before after : List (κ × α)} {k : κ} {a : α}
    (h : m.Holds (before ++ (k, a) :: after)) (hb : ∀ p ∈ before, p.2 ≠ a) : m.keyOf? a = some k := by
  have hnone : before.find? (fun p => decide (p.2 = a)) = none := by simpa using hb
  unfold keyOf?
  rw [h.toList, List.find?_append, hnone]
  simp

variable [DecidableEq κ]

/-! ## Looking up -/

theorem WF.get?_eq_some_iff {m : Map κ α n} (hw : m.WF) {k : κ} {a : α} :
    m.get? k = some a ↔ (k, a) ∈ m.toList := by
  constructor
  · intro h
    unfold get? at h
    obtain ⟨⟨k', b⟩, hf, rfl⟩ := Option.map_eq_some_iff.1 h
    obtain rfl : k' = k := by simpa using List.find?_some hf
    exact List.mem_of_find?_eq_some hf
  · intro hm
    unfold get?
    cases hf : m.toList.find? (fun p => decide (p.1 = k)) with
    | none => rw [List.find?_eq_none] at hf; simpa using hf _ hm
    | some p =>
      obtain ⟨k', b⟩ := p
      obtain rfl : k' = k := by simpa using List.find?_some hf
      exact congrArg some (hw.eq_of_mem (List.mem_of_find?_eq_some hf) hm)

theorem get?_eq_none_iff {m : Map κ α n} {k : κ} : m.get? k = none ↔ ∀ p ∈ m.toList, p.1 ≠ k := by
  unfold get?
  rw [Option.map_eq_none_iff, List.find?_eq_none]
  constructor <;> intro h p hp <;> simpa using h p hp

theorem contains_eq_isSome (m : Map κ α n) (k : κ) : m.contains k = (m.get? k).isSome := rfl

theorem contains_iff {m : Map κ α n} {k : κ} : m.contains k = true ↔ ∃ p ∈ m.toList, p.1 = k := by
  rw [contains_eq_isSome, Option.isSome_iff_ne_none, ne_eq, get?_eq_none_iff]
  push Not
  rfl

/-! ## Inserting -/

theorem insert_eq_ok {m m' : Map κ α n} (hw : m.WF) {k : κ} {a : α} (h : m.insert k a = .ok m') :
    m.get? k = none ∧ m'.toList = m.toList ++ [(k, a)] := by
  unfold insert at h
  split at h
  · cases h
  · rename_i hc
    rw [contains_eq_isSome, Option.not_isSome_iff_eq_none] at hc
    cases hp : m.pairs.push (k, a) with
    | error f => rw [hp] at h; cases h
    | ok s => rw [hp] at h; cases h; exact ⟨hc, Seq.toList_push hw.pairs hp⟩

theorem insert_wf {m m' : Map κ α n} (hw : m.WF) {k : κ} {a : α} (h : m.insert k a = .ok m') : m'.WF := by
  obtain ⟨hk, hl⟩ := insert_eq_ok hw h
  constructor
  · unfold insert at h
    split at h
    · cases h
    · cases hp : m.pairs.push (k, a) with
      | error f => rw [hp] at h; cases h
      | ok s => rw [hp] at h; cases h; exact Seq.push_wf hw.pairs hp
  · rw [hl, List.map_append, List.nodup_append]
    refine ⟨hw.nodup, by simp, ?_⟩
    rintro x hx y hy rfl
    obtain ⟨p, hp, rfl⟩ := List.mem_map.1 hx
    simp only [List.map_cons, List.map_nil, List.mem_singleton] at hy
    exact get?_eq_none_iff.1 hk p hp hy

theorem get?_insert {m m' : Map κ α n} (hw : m.WF) {k : κ} {a : α} (h : m.insert k a = .ok m') (x : κ) :
    m'.get? x = if x = k then some a else m.get? x := by
  obtain ⟨hk, hl⟩ := insert_eq_ok hw h
  unfold get? at hk ⊢
  rw [hl, List.find?_append]
  by_cases hx : x = k
  · subst hx
    rw [Option.map_eq_none_iff] at hk
    simp [hk]
  · have hx' : ¬ k = x := fun e => hx e.symm
    simp [hx, hx']

/-- An insertion fails on a key that has a value, and else for want of room. -/
theorem insert_eq_error {m : Map κ α n} {k : κ} {a : α} {f : Fault} (h : m.insert k a = .error f) :
    (m.contains k = true ∧ f = .illegal) ∨ (m.contains k = false ∧ m.pairs.size = n ∧ f = .exhausted) := by
  unfold insert at h
  split at h
  · rename_i hc; cases h; exact .inl ⟨hc, rfl⟩
  · rename_i hc
    refine .inr ⟨by simpa using hc, ?_⟩
    unfold Seq.push Seq.insert at h
    rw [if_neg (Nat.lt_irrefl _)] at h
    split at h
    · rename_i hf; cases h; exact ⟨by simpa [Seq.isFull] using hf, rfl⟩
    · cases h

theorem insert_of_room {m : Map κ α n} {k : κ} (hk : m.get? k = none) (hs : m.pairs.size ≠ n) (a : α) :
    ∃ m', m.insert k a = .ok m' := by
  cases h : m.insert k a with
  | ok m' => exact ⟨m', rfl⟩
  | error f =>
    rcases insert_eq_error h with ⟨hc, -⟩ | ⟨-, hn, -⟩
    · rw [contains_eq_isSome, hk] at hc; cases hc
    · exact absurd hn hs

/-- A full map takes no further key. -/
theorem insert_of_full {m : Map κ α n} {k : κ} (hk : m.contains k = false) (hs : m.pairs.size = n) (a : α) :
    m.insert k a = .error .exhausted := by
  have hfull : m.pairs.isFull = true := beq_iff_eq.2 hs
  unfold insert Seq.push Seq.insert
  rw [hk, hfull, if_neg (Nat.lt_irrefl _)]
  rfl

/-! ## Removing -/

theorem remove_of_none {m : Map κ α n} {k : κ} (h : m.get? k = none) : m.remove k = (none, m) := by
  have hi : m.pairs.findIdx? (fun p => decide (p.1 = k)) = none := by
    unfold Seq.findIdx?
    rw [List.findIdx?_eq_none_iff]
    intro p hp; simpa using get?_eq_none_iff.1 h p hp
  unfold remove; rw [hi]

theorem remove_eq {m : Map κ α n} {k : κ} {i : Nat}
    (hi : m.pairs.findIdx? (fun p => decide (p.1 = k)) = some i) :
    m.remove k = ((m.pairs.remove i).1.map (·.2), ⟨(m.pairs.remove i).2⟩) := by
  unfold remove; rw [hi]

theorem remove_wf {m : Map κ α n} (hw : m.WF) (k : κ) : (m.remove k).2.WF := by
  rcases hi : m.pairs.findIdx? (fun p => decide (p.1 = k)) with _ | i
  · unfold remove; rw [hi]; exact hw
  · rw [remove_eq hi]
    refine ⟨Seq.remove_wf hw.pairs i, ?_⟩
    show (((m.pairs.remove i).2.toList).map (·.1)).Nodup
    rw [Seq.toList_remove hw.pairs]
    exact ((List.eraseIdx_sublist ..).map _).nodup hw.nodup

theorem toList_remove {m : Map κ α n} (hw : m.WF) (k : κ) :
    (m.remove k).2.toList = m.toList.filter fun p => decide (p.1 ≠ k) := by
  rcases hi : m.pairs.findIdx? (fun p => decide (p.1 = k)) with _ | i
  · have hn := key_ne_of_findIdx?_eq_none hi
    unfold remove; rw [hi]
    exact (List.filter_eq_self.2 fun p hp => by simpa using hn p hp).symm
  · rw [remove_eq hi]
    show (m.pairs.remove i).2.toList = _
    rw [Seq.toList_remove hw.pairs]
    exact eraseIdx_findIdx?_key k _ i hw.nodup hi

theorem get?_remove {m : Map κ α n} (hw : m.WF) (k x : κ) :
    (m.remove k).2.get? x = if x = k then none else m.get? x := by
  unfold get?
  rw [toList_remove hw, List.find?_filter]
  by_cases hx : x = k
  · subst hx
    rw [if_pos rfl, Option.map_eq_none_iff, List.find?_eq_none]
    simp
  · rw [if_neg hx]
    congr 2
    funext p
    by_cases hp : p.1 = x
    · simp [hp, hx]
    · simp [hp]

theorem fst_remove {m : Map κ α n} (hw : m.WF) (k : κ) : (m.remove k).1 = m.get? k := by
  rcases hi : m.pairs.findIdx? (fun p => decide (p.1 = k)) with _ | i
  · have hn : m.get? k = none := get?_eq_none_iff.2 (key_ne_of_findIdx?_eq_none hi)
    rw [remove_of_none hn, hn]
  · rw [remove_eq hi]
    show (m.pairs.remove i).1.map (·.2) = _
    rw [Seq.fst_remove hw.pairs]
    obtain ⟨hlt, hk, -⟩ := List.findIdx?_eq_some_iff_getElem.1 hi
    have hm : (k, m.pairs.toList[i].2) ∈ m.toList := by
      have hk' : m.pairs.toList[i].1 = k := by simpa using hk
      rw [← hk']; exact List.getElem_mem hlt
    rw [hw.get?_eq_some_iff.2 hm, List.getElem?_eq_getElem hlt]
    rfl

/-! ## Replacing -/

theorem toList_set {m : Map κ α n} (hw : m.WF) (k : κ) (a : α) :
    (m.set k a).toList = m.toList.map fun p => if p.1 = k then (k, a) else p := by
  rcases hi : m.pairs.findIdx? (fun p => decide (p.1 = k)) with _ | i
  · have hn := key_ne_of_findIdx?_eq_none hi
    have hl : m.toList.map (fun p => if p.1 = k then (k, a) else p) = m.toList.map id :=
      List.map_congr_left fun p hp => if_neg (hn p hp)
    unfold set; rw [hi, hl, List.map_id]
  · unfold set; rw [hi]
    show (m.pairs.set i (k, a)).toList = _
    rw [Seq.toList_set hw.pairs]
    exact set_findIdx?_key k a _ i hw.nodup hi

theorem set_wf {m : Map κ α n} (hw : m.WF) (k : κ) (a : α) : (m.set k a).WF := by
  constructor
  · unfold set
    split
    · exact hw.pairs
    · exact Seq.set_wf hw.pairs _ _
  · have he : ((·.1) ∘ fun p : κ × α => if p.1 = k then (k, a) else p) = (·.1) := by
      funext p
      simp only [Function.comp_apply]
      split
      · rename_i hp; exact hp.symm
      · rfl
    rw [toList_set hw, List.map_map, he]
    exact hw.nodup

theorem get?_set {m : Map κ α n} (hw : m.WF) (k : κ) (a : α) (x : κ) :
    (m.set k a).get? x = if x = k ∧ m.contains k = true then some a else m.get? x := by
  apply Option.ext
  intro b
  rw [(set_wf hw k a).get?_eq_some_iff, toList_set hw, List.mem_map]
  split
  · rename_i hx
    obtain ⟨rfl, hc⟩ := hx
    obtain ⟨p, hp, rfl⟩ := contains_iff.1 hc
    constructor
    · rintro ⟨q, hq, he⟩
      split at he
      · cases he; rfl
      · rename_i hn; cases he; exact absurd rfl hn
    · rintro ⟨⟩
      exact ⟨p, hp, if_pos rfl⟩
  · rename_i hx
    rw [hw.get?_eq_some_iff]
    constructor
    · rintro ⟨q, hq, he⟩
      split at he
      · rename_i hk
        cases he
        exact absurd ⟨rfl, contains_iff.2 ⟨q, hq, hk⟩⟩ hx
      · cases he; exact hq
    · intro hm
      refine ⟨(x, b), hm, if_neg ?_⟩
      rintro rfl
      exact hx ⟨rfl, contains_iff.2 ⟨_, hm, rfl⟩⟩

/-! ## What a map lists -/

section Holds

variable {m m' : Map κ α n} {l : List (κ × α)} {k : κ} {a : α}

/-- An insertion that succeeds adds its pair behind the others, whatever is built from the map. -/
theorem Holds.insert_map {β : Type} {f : Map κ α n → β} {b : β} (h : m.Holds l)
    (hb : (m.insert k a).map f = .ok b) : ∃ m', b = f m' ∧ m'.Holds (l ++ [(k, a)]) := by
  cases hi : m.insert k a with
  | error e => rw [hi] at hb; cases hb
  | ok m' =>
    rw [hi] at hb
    cases hb
    exact ⟨m', rfl, insert_wf h.wf hi, by rw [(insert_eq_ok h.wf hi).2, h.toList]⟩

/-- A removal takes out the pairs of its key. -/
theorem Holds.remove {r : Option α} (h : m.Holds l) (hr : m.remove k = (r, m')) :
    m'.Holds (l.filter fun p => decide (p.1 ≠ k)) := by
  have hwf := remove_wf h.wf k
  have hlist := toList_remove h.wf k
  rw [hr] at hwf hlist
  exact ⟨hwf, hlist.trans (by rw [h.toList])⟩

theorem Holds.get?_eq_some_iff (h : m.Holds l) : m.get? k = some a ↔ (k, a) ∈ l := by
  rw [h.wf.get?_eq_some_iff, h.toList]

theorem Holds.get?_eq_none_iff (h : m.Holds l) : m.get? k = none ↔ ∀ a, (k, a) ∉ l := by
  rw [Option.eq_none_iff_forall_ne_some]
  exact forall_congr' fun a => not_congr h.get?_eq_some_iff

end Holds

end UdpStack.Bounded.Map
