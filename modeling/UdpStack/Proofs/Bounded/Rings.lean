/-
Rings over whole runs of calls. From the oldest element on, the slots around the ring hold a list, behind it at most
one element in reserve, and then nothing (`Agrees`). To append what is in reserve is to count it where it is, and
taking out the oldest element moves the others up by one place. So a ring answers every run like a list
with something in reserve behind it (`ring_reserves`).
-/
import UdpStack.Proofs.Bounded.Queue
import UdpStack.Proofs.Bounded.Replay

namespace UdpStack.Bounded.Queue

variable {α : Type} {n : Nat}

/-! ## Calls -/

/-- A call that can change a ring. What is reserved is changed in its place before the next call. -/
inductive Call (α : Type) where
  | push (a : α)
  | forcePush (a : α)
  | reserve (a : α) (change : α → α)
  | commit
  | pop

def perform (q : Queue α n) : Call α → Reply α × Queue α n
  | .push a => attempt q (q.push a)
  | .forcePush a => (.value (q.forcePush a).1, (q.forcePush a).2)
  | .reserve a change =>
    match q.reserve a with
    | .error f => (.done (.error f), q)
    | .ok r => (.value (r.modifyReserved change).reserved?, r.modifyReserved change)
  | .commit => (.done (.ok ()), q.commit)
  | .pop => (.value q.pop.1, q.pop.2)

/-- A list, and what was reserved behind it since the last element was appended. -/
structure Line (α : Type) where
  items : List α
  reserved : Option α
  deriving DecidableEq, Repr

namespace Line

def append (l : Line α) (a : α) : Line α := ⟨l.items ++ [a], none⟩

/-- The elements with the one in reserve behind them. -/
def content (l : Line α) : List α := l.items ++ l.reserved.toList

/-- A call of a list of at most `n` elements. -/
def perform (n : Nat) (l : Line α) : Call α → Reply α × Line α
  | .push a => if l.items.length = n then (.done (.error .exhausted), l) else (.done (.ok ()), l.append a)
  | .forcePush a =>
    if l.items.length = n then (.value l.items.head?, { l with items := l.items.tail }.append a)
    else (.value none, l.append a)
  | .reserve a change =>
    if l.items.length = n then (.done (.error .exhausted), l)
    else (.value (some (change a)), { l with reserved := some (change a) })
  | .commit =>
    match l.reserved with
    | some a => (.done (.ok ()), if l.items.length = n then l else l.append a)
    | none => (.done (.ok ()), l)
  | .pop => (.value l.items.head?, { l with items := l.items.tail })

end Line

/-- From the oldest element on, the slots around the ring hold the list and behind it what is reserved, and all others
are vacant. -/
structure Agrees (q : Queue α n) (l : Line α) : Prop where
  head_lt : q.head < n
  size_eq : q.size = l.items.length
  room : l.content.length ≤ n
  cells : ∀ k < n, q.cell? k = l.content[k]?

theorem filterMap_range_getElem? : ∀ l : List α, (List.range l.length).filterMap (l[·]?) = l
  | [] => rfl
  | a :: l => by
    rw [List.length_cons, List.range_succ_eq_map, List.filterMap_cons, List.filterMap_map]
    exact congrArg (a :: ·) (filterMap_range_getElem? l)

theorem agrees_empty (hn : 0 < n) : (empty : Queue α n).Agrees ⟨[], none⟩ := by
  refine ⟨hn, rfl, Nat.zero_le n, ?_⟩
  intro k _
  show (Vector.replicate n none)[(0 + k) % n]?.join = none
  rw [Vector.getElem?_replicate]
  split <;> rfl

namespace Agrees

variable {q : Queue α n} {l : Line α}

theorem length_le (h : q.Agrees l) : l.items.length + l.reserved.toList.length ≤ n := by
  have := h.room
  rwa [Line.content, List.length_append] at this

theorem isFull_iff (h : q.Agrees l) : q.isFull = true ↔ l.items.length = n := by
  rw [isFull, beq_iff_eq, h.size_eq]

theorem not_full (h : q.Agrees l) (hl : l.items.length ≠ n) : q.isFull = false := by
  rw [← Bool.not_eq_true, h.isFull_iff]
  exact hl

/-- Nothing stays in reserve behind a full ring. -/
theorem reserved_eq_none (h : q.Agrees l) (hl : l.items.length = n) : l.reserved = none := by
  have := h.length_le
  cases hr : l.reserved with
  | none => rfl
  | some a =>
    rw [hr] at this
    simp only [Option.toList_some, List.length_singleton] at this
    omega

theorem cell?_of_lt (h : q.Agrees l) {k : Nat} (hk : k < q.size) : q.cell? k = l.items[k]? := by
  have := h.length_le
  have hsize := h.size_eq
  rw [h.cells k (by omega), Line.content, List.getElem?_append_left (by omega)]

theorem wf (h : q.Agrees l) : q.WF := by
  have := h.length_le
  have hsize := h.size_eq
  refine ⟨by omega, fun _ => h.head_lt, ?_⟩
  intro k hk
  rw [h.cell?_of_lt hk, List.getElem?_eq_getElem (by omega)]
  rfl

theorem toList_eq (h : q.Agrees l) : q.toList = l.items := by
  unfold toList
  rw [filterMap_range_congr fun k hk => h.cell?_of_lt hk, h.size_eq]
  exact filterMap_range_getElem? l.items

theorem reserved?_eq (h : q.Agrees l) (hl : l.items.length ≠ n) : q.reserved? = l.reserved := by
  have := h.length_le
  have hsize := h.size_eq
  unfold reserved?
  rw [h.cells q.size (by omega), Line.content, List.getElem?_append_right (by omega), hsize, Nat.sub_self]
  cases l.reserved <;> rfl

/-! ### What each operation leaves -/

/-- What is put behind the last element is in reserve there. -/
theorem putBack (h : q.Agrees l) (hl : l.items.length ≠ n) (a : α) :
    (q.putBack (some a)).Agrees { l with reserved := some a } := by
  have := h.length_le
  have hsize := h.size_eq
  have hlt : q.size < n := by omega
  refine ⟨h.head_lt, hsize, ?_, ?_⟩
  · show (l.items ++ [a]).length ≤ n
    rw [List.length_append, List.length_singleton]
    omega
  · intro k hk
    show (q.putBack (some a)).cell? k = (l.items ++ [a])[k]?
    rcases Nat.lt_trichotomy k q.size with hless | rfl | hmore
    · rw [cell?_putBack_of_lt q _ hless hlt, h.cell?_of_lt hless, List.getElem?_append_left (by omega)]
    · rw [cell?_putBack_self q _ hlt, hsize, List.getElem?_concat_length]
    · -- there was at most one element behind the list, and this place is farther away
      rw [cell?_putBack_of_ne q _ hk (by omega) hlt, h.cells k hk, Line.content, List.getElem?_eq_none,
        List.getElem?_eq_none]
      · rw [List.length_append, List.length_singleton]
        omega
      · rw [List.length_append]
        have : l.reserved.toList.length ≤ 1 := by cases l.reserved <;> simp
        omega

/-- What was in reserve is appended where it is. -/
theorem counted {a : α} (h : q.Agrees ⟨l.items, some a⟩) :
    Agrees { q with size := q.size + 1 } (l.append a) := by
  have hcontent : (l.append a).content = (⟨l.items, some a⟩ : Line α).content := by simp [Line.append, Line.content]
  refine ⟨h.head_lt, ?_, ?_, ?_⟩
  · show q.size + 1 = (l.items ++ [a]).length
    rw [h.size_eq, List.length_append, List.length_singleton]
  · rw [hcontent]
    exact h.room
  · rw [hcontent]
    exact h.cells

theorem push (h : q.Agrees l) (hl : l.items.length ≠ n) (a : α) :
    ∃ r, q.push a = .ok r ∧ r.Agrees (l.append a) :=
  ⟨_, push_of_not_isFull (h.not_full hl) a, (h.putBack hl a).counted⟩

theorem pop (h : q.Agrees l) : q.pop.1 = l.items.head? ∧ q.pop.2.Agrees { l with items := l.items.tail } := by
  have hwf := h.wf
  refine ⟨by rw [fst_pop hwf, h.toList_eq], ?_⟩
  by_cases he : q.isEmpty = true
  · have hnil : l.items = [] := by rw [← h.toList_eq, ← hwf.isEmpty_iff, he]
    rw [pop_of_isEmpty he, hnil, List.tail_nil, ← hnil]
    exact h
  · rw [Bool.not_eq_true] at he
    have hsize := h.size_eq
    have hlength := h.length_le
    obtain ⟨a, rest, hitems⟩ : ∃ a rest, l.items = a :: rest := by
      apply List.exists_cons_of_length_pos
      rw [← hsize]
      simpa [isEmpty, Nat.pos_iff_ne_zero] using he
    have hcontent : l.content = a :: (⟨rest, l.reserved⟩ : Line α).content := by simp [Line.content, hitems]
    rw [hitems, List.tail_cons]
    have hroom : (⟨rest, l.reserved⟩ : Line α).content.length + 1 ≤ n := by
      have := h.room
      rwa [hcontent, List.length_cons] at this
    refine ⟨(pop_wf hwf).head_lt (by omega), ?_, by omega, ?_⟩
    · rw [size_pop, hsize, hitems, List.length_cons, Nat.add_sub_cancel]
    · intro k hk
      by_cases hlast : k + 1 < n
      · rw [cell?_pop_of_lt h.head_lt he hlast, h.cells _ hlast, hcontent, List.getElem?_cons_succ]
      · obtain rfl : k = n - 1 := by omega
        rw [cell?_pop_last h.head_lt he, List.getElem?_eq_none (by omega)]

/-- An element that must be appended displaces the oldest one of a full ring. -/
theorem forcePush_of_full (h : q.Agrees l) (hl : l.items.length = n) (a : α) :
    ∃ r, q.forcePush a = (l.items.head?, r) ∧ r.Agrees ({ l with items := l.items.tail }.append a) := by
  have hhead := h.head_lt
  obtain ⟨hfirst, hrest⟩ := h.pop
  obtain ⟨r, hr, hagrees⟩ := hrest.push (by rw [List.length_tail]; omega) a
  refine ⟨r, ?_, hagrees⟩
  unfold forcePush
  rw [h.isFull_iff.2 hl, if_pos rfl, ← hfirst]
  dsimp only
  rw [hr]

theorem forcePush_of_room (h : q.Agrees l) (hl : l.items.length ≠ n) (a : α) :
    ∃ r, q.forcePush a = (none, r) ∧ r.Agrees (l.append a) := by
  obtain ⟨r, hr, hagrees⟩ := h.push hl a
  refine ⟨r, ?_, hagrees⟩
  unfold forcePush
  rw [h.not_full hl, if_neg Bool.false_ne_true]
  dsimp only
  rw [hr]

theorem reserve (h : q.Agrees l) (hl : l.items.length ≠ n) (a : α) (change : α → α) :
    ∃ r, q.reserve a = .ok r ∧ (r.modifyReserved change).reserved? = some (change a) ∧
      (r.modifyReserved change).Agrees { l with reserved := some (change a) } := by
  have hok : q.reserve a = .ok (q.putBack (some a)) := by
    unfold Queue.reserve
    rw [h.not_full hl]
    rfl
  have hmodify : (q.putBack (some a)).modifyReserved change = q.putBack (some (change a)) := by
    unfold modifyReserved
    rw [(h.putBack hl a).reserved?_eq hl]
    exact putBack_putBack q _ _
  refine ⟨_, hok, ?_⟩
  rw [hmodify]
  exact ⟨(h.putBack hl (change a)).reserved?_eq hl, h.putBack hl (change a)⟩

theorem commit (h : q.Agrees l) : q.commit.Agrees (l.perform n .commit).2 := by
  unfold Queue.commit Line.perform
  by_cases hl : l.items.length = n
  · rw [h.reserved_eq_none hl, h.isFull_iff.2 hl]
    exact h
  · rw [h.not_full hl, h.reserved?_eq hl]
    obtain ⟨items, reserved⟩ := l
    cases reserved with
    | none => exact h
    | some a =>
      dsimp only
      rw [if_neg hl]
      exact h.counted

/-- A call of a ring does what it does to the list. -/
theorem perform (h : q.Agrees l) (c : Call α) :
    (q.perform c).1 = (l.perform n c).1 ∧ (q.perform c).2.Agrees (l.perform n c).2 := by
  cases c with
  | push a =>
    by_cases hl : l.items.length = n
    · have herror : q.push a = .error .exhausted := by
        unfold Queue.push
        rw [h.isFull_iff.2 hl]
        rfl
      simp [Queue.perform, Line.perform, attempt, herror, hl, h]
    · obtain ⟨r, hr, hagrees⟩ := h.push hl a
      simp [Queue.perform, Line.perform, attempt, hr, hl, hagrees]
  | forcePush a =>
    by_cases hl : l.items.length = n
    · obtain ⟨r, hr, hagrees⟩ := h.forcePush_of_full hl a
      simp [Queue.perform, Line.perform, hr, hl, hagrees]
    · obtain ⟨r, hr, hagrees⟩ := h.forcePush_of_room hl a
      simp [Queue.perform, Line.perform, hr, hl, hagrees]
  | reserve a change =>
    by_cases hl : l.items.length = n
    · have herror : q.reserve a = .error .exhausted := by
        unfold Queue.reserve
        rw [h.isFull_iff.2 hl]
        rfl
      simp [Queue.perform, Line.perform, herror, hl, h]
    · obtain ⟨r, hr, hreserved, hagrees⟩ := h.reserve hl a change
      simp [Queue.perform, Line.perform, hr, hl, hreserved, hagrees]
  | commit =>
    refine ⟨?_, h.commit⟩
    unfold Queue.perform Line.perform
    cases l.reserved <;> rfl
  | pop =>
    obtain ⟨hfirst, hagrees⟩ := h.pop
    exact ⟨congrArg Reply.value hfirst, hagrees⟩

end Agrees

theorem slotAt_surjective {q : Queue α n} (hh : q.head < n) (i : Fin n) : ∃ k < n, (q.head + k) % n = i := by
  refine ⟨(i + (n - q.head)) % n, Nat.mod_lt _ (by omega), ?_⟩
  rw [Nat.add_mod_mod, show q.head + (i + (n - q.head)) = i + n by omega, Nat.add_mod_right, Nat.mod_eq_of_lt i.isLt]

/-- A ring with any slots at all answers every run like a list of at most `n` elements, to which what was reserved
last is appended when it is committed, unless another element was appended in between. The oldest
element is in the slot at the head, and around the ring follow the others, what is in reserve, and vacant slots. -/
theorem ring_reserves (hn : 0 < n) (cs : List (Call α)) :
    let run := replay perform (empty : Queue α n) cs
    let line := replay (Line.perform n) ⟨[], none⟩ cs
    run.1 = line.1 ∧
    run.2.toList = line.2.items ∧ run.2.front? = line.2.items.head? ∧ run.2.size = line.2.items.length ∧
    line.2.items.length ≤ n ∧ run.2.commit? = some run.2.commit ∧
    (∀ i : Fin n, ∃ k < n, (run.2.head + k) % n = i) ∧
    ∀ k : Fin n, run.2.slots[(run.2.head + k) % n]? = some (line.2.items ++ line.2.reserved.toList)[k.val]? := by
  intro run line
  obtain ⟨hreplies, h⟩ : run.1 = line.1 ∧ run.2.Agrees line.2 :=
    replay_related Agrees.perform cs (agrees_empty hn)
  have hlength := h.length_le
  refine ⟨hreplies, h.toList_eq, ?_, h.size_eq, by omega, if_neg hn.ne', slotAt_surjective h.head_lt, ?_⟩
  · rw [front?_eq h.wf, h.toList_eq]
  · intro k
    have hcell := h.cells k k.isLt
    unfold cell? at hcell
    rw [Vector.getElem?_eq_getElem (run.2.slotAt_lt hn k), Option.join_some] at hcell
    exact (Vector.getElem?_eq_getElem (run.2.slotAt_lt hn k)).trans (congrArg some hcell)

/-- Reservations that are replaced, committed after a removal, refused, and left behind by an eviction. -/
def reservations : List (Call Nat) :=
  [.reserve 4 (· + 1), .push 1, .reserve 7 (· * 2), .pop, .commit, .push 3, .reserve 8 id, .forcePush 9, .commit,
    .pop, .reserve 6 id]

theorem ring_reserves_pending :
    let run := replay perform (empty : Queue Nat 2) reservations
    0 < 2 ∧
    run.1 = [.value (some 5), .done (.ok ()), .value (some 14), .value (some 1), .done (.ok ()), .done (.ok ()),
      .done (.error .exhausted), .value (some 14), .done (.ok ()), .value (some 3), .value (some 6)] ∧
    run.2.toList = [9] ∧ run.2.front? = some 9 ∧ run.2.size = 1 ∧
    run.2.slots[(run.2.head + 1) % 2]? = some (some 6) := by
  obtain ⟨hreplies, htoList, hfront, hsize, -, -, -, hslots⟩ := ring_reserves (by decide : 0 < 2) reservations
  exact ⟨by decide, hreplies.trans (by decide), htoList.trans (by decide), hfront.trans (by decide),
    hsize.trans (by decide), (hslots 1).trans (by decide)⟩

end UdpStack.Bounded.Queue
