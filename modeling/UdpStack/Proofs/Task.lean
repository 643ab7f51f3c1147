/-
Wake-ups as a list: recording tasks puts each there once, and as long as there is room for all of
them none is lost (`wakeAll_of_room`). The weight of the recorded tasks under any quantity grows by
at most that of the new ones, recorded or lost (`weight_wakeAll_le`).
-/
import UdpStack.Bounded.Seq.Lemmas
import UdpStack.Task
import Mathlib.Tactic

namespace UdpStack

deriving instance DecidableEq for Poll

end UdpStack

namespace UdpStack.Wakeups

open Bounded

/-- The recorded tasks, the first one first. -/
def tasks (w : Wakeups) : List Task := w.pending.toList

/-- The sum of a quantity over the recorded tasks. -/
def weight (c : Task → Nat) (w : Wakeups) : Nat := (w.tasks.map c).sum

/-- The recorded tasks are stored in order, and none was lost. -/
structure Complete (w : Wakeups) : Prop where
  pending : w.pending.WF
  kept : w.overflowed = false

@[simp] theorem weight_empty (c : Task → Nat) : empty.weight c = 0 := rfl

theorem empty_complete : empty.Complete := ⟨Seq.empty_wf, rfl⟩

theorem weight_one (w : Wakeups) : w.weight (fun _ => 1) = w.tasks.length := by
  simp [weight]

/-! ## Recording a task -/

theorem wake_of_mem {w : Wakeups} {t : Task} (h : t ∈ w.tasks) : w.wake t = w := by
  unfold wake; exact if_pos h

theorem wake_of_push_ok {w : Wakeups} {t : Task} (h : t ∉ w.tasks) {r : Seq Task Limits.wakeups}
    (hp : w.pending.push t = .ok r) : w.wake t = { w with pending := r } := by
  have h' : t ∉ w.pending.toList := h
  unfold wake; rw [if_neg h', hp]

theorem wake_of_push_error {w : Wakeups} {t : Task} (h : t ∉ w.tasks) {f : Fault}
    (hp : w.pending.push t = .error f) : w.wake t = { w with overflowed := true } := by
  have h' : t ∉ w.pending.toList := h
  unfold wake; rw [if_neg h', hp]

theorem push_of_size_lt {α : Type} {n : Nat} {s : Seq α n} (hs : s.size < n) (a : α) :
    ∃ r, s.push a = .ok r := by
  unfold Seq.push Seq.insert
  rw [if_neg (Nat.lt_irrefl _), if_neg (by simp [Seq.isFull]; omega)]
  exact ⟨_, rfl⟩

theorem wake_tasks {w : Wakeups} (hw : w.pending.WF) (t : Task) :
    (w.wake t).pending.WF ∧ ((w.wake t).tasks = w.tasks ∨ (w.wake t).tasks = w.tasks ++ [t]) := by
  by_cases h : t ∈ w.tasks
  · rw [wake_of_mem h]; exact ⟨hw, .inl rfl⟩
  · cases hp : w.pending.push t with
    | error f => rw [wake_of_push_error h hp]; exact ⟨hw, .inl rfl⟩
    | ok r => rw [wake_of_push_ok h hp]; exact ⟨Seq.push_wf hw hp, .inr (Seq.toList_push hw hp)⟩

/-- A task that is recorded while there is room is among the recorded ones, and none is lost. -/
theorem wake_of_room {w : Wakeups} {t : Task} (hw : w.Complete) (hr : w.tasks.length < Limits.wakeups) :
    (w.wake t).Complete ∧ t ∈ (w.wake t).tasks := by
  by_cases h : t ∈ w.tasks
  · rw [wake_of_mem h]; exact ⟨hw, h⟩
  · obtain ⟨r, hp⟩ := push_of_size_lt (by rw [← hw.pending.length_toList]; exact hr) t
    rw [wake_of_push_ok h hp]
    refine ⟨⟨Seq.push_wf hw.pending hp, hw.kept⟩, ?_⟩
    show t ∈ r.toList
    rw [Seq.toList_push hw.pending hp]; simp

theorem weight_wake_le (c : Task → Nat) {w : Wakeups} (hw : w.pending.WF) (t : Task) :
    (w.wake t).weight c ≤ w.weight c + c t := by
  unfold weight
  rcases (wake_tasks hw t).2 with h | h
  · rw [h]; omega
  · rw [h]; simp

theorem mem_tasks_wake_of_mem {w : Wakeups} (hw : w.pending.WF) {t u : Task} (h : u ∈ w.tasks) :
    u ∈ (w.wake t).tasks := by
  rcases (wake_tasks hw t).2 with h' | h'
  · rw [h']; exact h
  · rw [h']; exact List.mem_append_left _ h

/-! ## Recording several tasks -/

/-- Record tasks one after the other. -/
def wakeAll (w : Wakeups) (ts : List Task) : Wakeups := ts.foldl wake w

@[simp] theorem wakeAll_nil (w : Wakeups) : w.wakeAll [] = w := rfl

theorem wakeAll_cons (w : Wakeups) (t : Task) (ts : List Task) :
    w.wakeAll (t :: ts) = (w.wake t).wakeAll ts := rfl

theorem wakeAll_append (w : Wakeups) (ts us : List Task) :
    w.wakeAll (ts ++ us) = (w.wakeAll ts).wakeAll us := List.foldl_append

theorem weight_wakeAll_le (c : Task → Nat) : ∀ (ts : List Task) {w : Wakeups}, w.pending.WF →
    (w.wakeAll ts).weight c ≤ w.weight c + (ts.map c).sum
  | [], _, _ => le_rfl
  | t :: ts, w, hw => by
    have h1 := weight_wake_le c hw t
    have h2 := weight_wakeAll_le c ts (wake_tasks hw t).1
    rw [wakeAll_cons, List.map_cons, List.sum_cons]
    omega

theorem mem_tasks_wakeAll : ∀ (ts : List Task) {w : Wakeups} {u : Task}, w.pending.WF → u ∈ w.tasks →
    u ∈ (w.wakeAll ts).tasks
  | [], _, _, _, h => h
  | t :: ts, _, _, hw, h => mem_tasks_wakeAll ts (wake_tasks hw t).1 (mem_tasks_wake_of_mem hw h)

/-- Tasks that are recorded while there is room for them are all there, and none is lost. -/
theorem wakeAll_of_room : ∀ (ts : List Task) {w : Wakeups}, w.Complete →
    w.tasks.length + ts.length ≤ Limits.wakeups →
    (w.wakeAll ts).Complete ∧ ∀ t ∈ ts, t ∈ (w.wakeAll ts).tasks
  | [], _, hw, _ => ⟨hw, nofun⟩
  | t :: ts, w, hw, hr => by
    simp only [List.length_cons] at hr
    obtain ⟨h1, hm⟩ := wake_of_room (t := t) hw (by omega)
    have hl : (w.wake t).tasks.length ≤ w.tasks.length + 1 := by
      rcases (wake_tasks hw.pending t).2 with h | h
      · rw [h]; omega
      · rw [h]; simp
    obtain ⟨h2, hall⟩ := wakeAll_of_room ts h1 (by omega)
    refine ⟨h2, ?_⟩
    intro u hu
    rcases List.mem_cons.1 hu with rfl | hu
    · exact mem_tasks_wakeAll ts h1.pending hm
    · exact hall u hu

end UdpStack.Wakeups

/-! ## Waiting in a cell -/

namespace UdpStack.WaitCell

variable {c : WaitCell} {task other : Task}

theorem register_of_free (h : ∀ other, c.waiter = some other → other = task) :
    c.register task = (.waiting, ⟨some task⟩) := by
  unfold register
  cases hc : c.waiter with
  | none => rfl
  | some other => exact if_pos (h other hc)

theorem register_of_other (h : c.waiter = some other) (hk : other ≠ task) :
    c.register task = (.occupied other, c) := by
  unfold register
  rw [h]
  exact if_neg hk

theorem cancel_of_ne (h : c.waiter ≠ some task) : c.cancel task = c := if_neg h

end UdpStack.WaitCell
