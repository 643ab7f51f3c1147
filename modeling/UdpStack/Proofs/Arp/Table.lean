/-
Who waits in the table of neighbors. A task waits only for an address that is being asked for
(`WF`), which every operation keeps; and no operation makes a task stop waiting without recording
it as woken, unless the task itself waits for another address instead (`Moves`). An entry that is
being asked for never gives way to another one.
-/
import UdpStack.Arp.Table
import UdpStack.Proofs.Bounded.Map
import UdpStack.Proofs.Task

namespace UdpStack.Arp

open Bounded

/-! ## Tasks that stop waiting -/

/-- Tasks with the addresses that they wait for. -/
abbrev Waits := List (Task × Ipv4.Address)

/-- The sum of a quantity over waiting tasks. -/
def Waits.weight (c : Task → Nat) (l : Waits) : Nat := (l.map fun e => c e.1).sum

/-- From one list of waits and wake-ups to the next, a task stops waiting only by being woken. -/
def Moves (l : Waits) (w : Wakeups) (l' : Waits) (w' : Wakeups) : Prop :=
  ∃ ts, w' = w.wakeAll ts ∧ (∀ c, l'.weight c + (ts.map c).sum = l.weight c) ∧ ∀ e ∈ l, e ∈ l' ∨ e.1 ∈ ts

theorem Moves.refl (l : Waits) (w : Wakeups) : Moves l w l w :=
  ⟨[], rfl, fun c => by simp, fun _ he => .inl he⟩

theorem Moves.trans {l l' l'' : Waits} {w w' w'' : Wakeups} (h : Moves l w l' w')
    (h' : Moves l' w' l'' w'') : Moves l w l'' w'' := by
  obtain ⟨ts, rfl, hs, hm⟩ := h
  obtain ⟨us, rfl, hs', hm'⟩ := h'
  refine ⟨ts ++ us, (Wakeups.wakeAll_append ..).symm, ?_, ?_⟩
  · intro c
    rw [List.map_append, List.sum_append]
    have := hs c; have := hs' c
    omega
  · intro e he
    rcases hm e he with he | he
    · rcases hm' e he with he | he
      · exact .inl he
      · exact .inr (List.mem_append_right _ he)
    · exact .inr (List.mem_append_left _ he)

theorem weight_filter_add (c : Task → Nat) (x : Ipv4.Address) : ∀ l : Waits,
    Waits.weight c (l.filter fun e => decide (e.2 ≠ x)) +
      (((l.filter fun e => decide (e.2 = x)).map (·.1)).map c).sum = l.weight c
  | [] => rfl
  | e :: l => by
    have ih := weight_filter_add c x l
    unfold Waits.weight at ih ⊢
    by_cases hx : e.2 = x
    · rw [List.filter_cons_of_neg (by simpa using hx), List.filter_cons_of_pos (by simpa using hx)]
      simp only [List.map_cons, List.sum_cons]
      omega
    · rw [List.filter_cons_of_pos (by simpa using hx), List.filter_cons_of_neg (by simpa using hx)]
      simp only [List.map_cons, List.sum_cons]
      omega

namespace Table

/-- The waiting tasks with their addresses. -/
def waits (t : Table) : Waits := t.waiters.toList

/-- A question for an address is under way. -/
def Asking (t : Table) (x : Ipv4.Address) : Prop :=
  ∃ retries nextAt e, t.neighbors.get? x = some ⟨.querying retries nextAt, e⟩

/-- Tasks wait only for addresses that are being asked for. -/
structure WF (t : Table) : Prop where
  neighbors : t.neighbors.WF
  waiters : t.waiters.WF
  asking : ∀ e ∈ t.waits, t.Asking e.2

theorem create_wf (hardware : Ethernet.Address) (addr mask : Ipv4.Address) :
    (create hardware addr mask).WF :=
  ⟨Map.empty_wf, Seq.empty_wf, nofun⟩

theorem weight_waits_le {t : Table} (hw : t.waiters.WF) : t.waits.weight (fun _ => 1) ≤ Limits.waiters := by
  have := hw.size_le
  rw [← hw.length_toList] at this
  simpa [Waits.weight, waits] using this

/-! ## Messages that wait to be sent -/

theorem post_eq (t : Table) (m : Message) : ∃ outbox, t.post m = { t with outbox := outbox } := by
  unfold post
  split
  · exact ⟨_, rfl⟩
  · exact ⟨t.outbox, rfl⟩

theorem request_eq (t : Table) (x : Ipv4.Address) : ∃ outbox, t.request x = { t with outbox := outbox } :=
  post_eq t _

theorem with_outbox_wf {t : Table} (hw : t.WF) (outbox : Queue Message Limits.outbox) :
    WF { t with outbox := outbox } :=
  ⟨hw.neighbors, hw.waiters, hw.asking⟩

/-! ## Entries -/

theorem foldl_sooner_mem : ∀ (cs : List (Expiry × Ipv4.Address)) (c : Expiry × Ipv4.Address),
    cs.foldl sooner c ∈ c :: cs
  | [], c => by simp
  | d :: cs, c => by
    have h := foldl_sooner_mem cs (sooner c d)
    have hs : sooner c d = c ∨ sooner c d = d := by
      unfold sooner
      split
      · exact .inr rfl
      · exact .inl rfl
      · split
        · exact .inr rfl
        · exact .inl rfl
    rw [List.foldl_cons]
    rcases List.mem_cons.1 h with he | hm
    · rw [he]; rcases hs with hs | hs <;> rw [hs] <;> simp
    · simp [hm]

/-- The entry that gives way may do so. -/
theorem victim?_eq_some {t : Table} (hw : t.neighbors.WF) {now : Instant} {v : Ipv4.Address}
    (h : t.victim? now = some v) : ∃ n, t.neighbors.get? v = some n ∧ (evictable now n).isSome = true := by
  unfold victim? at h
  dsimp only at h
  split at h
  · cases h
  · rename_i c cs hc
    have hm := foldl_sooner_mem cs c
    rw [← hc, List.mem_filterMap] at hm
    obtain ⟨⟨x, n⟩, hx, he⟩ := hm
    obtain ⟨e, he, hf⟩ := Option.map_eq_some_iff.1 he
    rw [← hf] at h
    cases h
    exact ⟨n, hw.get?_eq_some_iff.2 hx, by rw [he]; rfl⟩

theorem not_asking_of_victim {t : Table} (hw : t.neighbors.WF) {now : Instant} {v : Ipv4.Address}
    (h : t.victim? now = some v) : ¬ t.Asking v := by
  obtain ⟨n, hn, he⟩ := victim?_eq_some hw h
  rintro ⟨retries, nextAt, e, ha⟩
  rw [hn] at ha
  cases ha
  cases he

/-- Setting an entry changes no other one, but may take the place of one that gives way. -/
theorem put_eq_ok {t t' : Table} (hw : t.neighbors.WF) {x : Ipv4.Address} {n : Neighbor} {now : Instant}
    (h : t.put x n now = .ok t') :
    t' = { t with neighbors := t'.neighbors } ∧ t'.neighbors.WF ∧ t'.neighbors.get? x = some n ∧
      ∀ y, y ≠ x → t'.neighbors.get? y = t.neighbors.get? y ∨
        (t.victim? now = some y ∧ t'.neighbors.get? y = none) := by
  unfold put at h
  split at h
  · rename_i hc
    cases h
    refine ⟨rfl, Map.set_wf hw x n, ?_, fun y hy => .inl ?_⟩
    · show (t.neighbors.set x n).get? x = _
      rw [Map.get?_set hw, if_pos ⟨rfl, hc⟩]
    · show (t.neighbors.set x n).get? y = _
      rw [Map.get?_set hw, if_neg fun h => hy h.1]
  · split at h
    · rename_i neighbors hi
      cases h
      refine ⟨rfl, Map.insert_wf hw hi, ?_, fun y hy => .inl ?_⟩
      · show neighbors.get? x = _
        rw [Map.get?_insert hw hi, if_pos rfl]
      · show neighbors.get? y = _
        rw [Map.get?_insert hw hi, if_neg hy]
    · split at h
      · cases h
      · rename_i v hv
        cases hi : (t.neighbors.remove v).2.insert x n with
        | error f => rw [hi] at h; cases h
        | ok neighbors =>
          rw [hi] at h; cases h
          have hr := Map.remove_wf hw v
          refine ⟨rfl, Map.insert_wf hr hi, ?_, ?_⟩
          · show neighbors.get? x = _
            rw [Map.get?_insert hr hi, if_pos rfl]
          · intro y hy
            show neighbors.get? y = _ ∨ (_ ∧ neighbors.get? y = _)
            rw [Map.get?_insert hr hi, if_neg hy, Map.get?_remove hw]
            by_cases hyv : y = v
            · exact .inr ⟨by rw [hyv]; exact hv, if_pos hyv⟩
            · exact .inl (if_neg hyv)
    · cases h

theorem enter_outbox {t t' : Table} {x : Ipv4.Address} {hardware : Ethernet.Address} {now : Option Instant}
    (h : t.enter x hardware now = .ok t') : t'.outbox = t.outbox := by
  unfold enter put at h
  split at h
  · cases h; rfl
  · split at h
    · cases h; rfl
    · split at h
      · cases h
      · rename_i v _
        generalize (t.neighbors.remove v).2.insert x _ = inserted at h
        cases inserted with
        | error f => cases h
        | ok m => cases h; rfl
    · cases h

theorem put_of_contains {t : Table} {x : Ipv4.Address} (h : t.neighbors.contains x = true) (n : Neighbor)
    (now : Instant) : t.put x n now = .ok { t with neighbors := t.neighbors.set x n } := by
  unfold put; rw [if_pos h]

theorem asking_put {t t' : Table} (hw : t.neighbors.WF) {x y : Ipv4.Address} {n : Neighbor} {now : Instant}
    (h : t.put x n now = .ok t') (hy : y ≠ x) (ha : t.Asking y) : t'.Asking y := by
  rcases (put_eq_ok hw h).2.2.2 y hy with he | ⟨hv, -⟩
  · unfold Asking; rw [he]; exact ha
  · exact absurd ha (not_asking_of_victim hw hv)

/-! ## Waking who waits for an address -/

theorem split_of_findIdx? {α : Type} {p : α → Bool} : ∀ {l : List α} {i : Nat}, l.findIdx? p = some i →
    ∃ pre a post, l = pre ++ a :: post ∧ i = pre.length ∧ p a = true ∧ ∀ b ∈ pre, p b = false
  | a :: l, i, h => by
    rw [List.findIdx?_cons] at h
    cases ha : p a with
    | true => rw [ha] at h; cases h; exact ⟨[], a, l, rfl, rfl, ha, nofun⟩
    | false =>
      rw [ha] at h
      obtain ⟨j, hj, rfl⟩ := Option.map_eq_some_iff.1 h
      obtain ⟨pre, b, post, rfl, rfl, hb, hpre⟩ := split_of_findIdx? hj
      refine ⟨a :: pre, b, post, rfl, rfl, hb, ?_⟩
      intro c hc
      rcases List.mem_cons.1 hc with rfl | hc
      · exact ha
      · exact hpre c hc

theorem eraseIdx_length {α : Type} (pre : List α) (a : α) (post : List α) :
    (pre ++ a :: post).eraseIdx pre.length = pre ++ post := by
  rw [List.eraseIdx_append_of_length_le le_rfl, Nat.sub_self, List.eraseIdx_cons_zero]

theorem release_of_none {x : Ipv4.Address} {k : Nat} {ws : Seq (Task × Ipv4.Address) Limits.waiters}
    {w : Wakeups} (h : ws.findIdx? (fun e => e.2 == x) = none) : release x (k + 1) ws w = (ws, w) := by
  simp only [release, h]

theorem release_of_some {x : Ipv4.Address} {k i : Nat} {ws : Seq (Task × Ipv4.Address) Limits.waiters}
    {w : Wakeups} {e : Task × Ipv4.Address} (h : ws.findIdx? (fun e => e.2 == x) = some i)
    (hr : (ws.remove i).1 = some e) :
    release x (k + 1) ws w = release x k (ws.remove i).2 (w.wake e.1) := by
  have hr' : ws.remove i = (some e, (ws.remove i).2) := by rw [← hr]
  simp only [release, h]
  rw [hr']

/-- Taking out the tasks that wait for an address leaves all others, and wakes those in order. -/
theorem release_spec (x : Ipv4.Address) : ∀ (k : Nat) (ws : Seq (Task × Ipv4.Address) Limits.waiters)
    (w : Wakeups), ws.WF → ws.toList.length ≤ k →
    (release x k ws w).1.WF ∧
      (release x k ws w).1.toList = ws.toList.filter (fun e => decide (e.2 ≠ x)) ∧
      (release x k ws w).2 = w.wakeAll ((ws.toList.filter fun e => decide (e.2 = x)).map (·.1))
  | 0, ws, w, hw, hk => by
    have he : ws.toList = [] := List.length_eq_zero_iff.1 (Nat.le_zero.1 hk)
    simp [release, hw, he]
  | k + 1, ws, w, hw, hk => by
    rcases hf : ws.findIdx? (fun e => e.2 == x) with _ | i
    · rw [release_of_none hf]
      have hn : ∀ e ∈ ws.toList, e.2 ≠ x := by
        intro e he
        simpa using List.findIdx?_eq_none_iff.1 hf e he
      refine ⟨hw, (List.filter_eq_self.2 fun e he => by simpa using hn e he).symm, ?_⟩
      rw [List.filter_eq_nil_iff.2 fun e he => by simpa using hn e he]
      rfl
    · obtain ⟨pre, e, post, hl, rfl, he, hpre⟩ := split_of_findIdx? hf
      have he : e.2 = x := by simpa using he
      have hpre : ∀ b ∈ pre, b.2 ≠ x := fun b hb => by simpa using hpre b hb
      have hr : (ws.remove pre.length).1 = some e := by
        rw [Seq.fst_remove hw, hl]; simp
      have hrest : (ws.remove pre.length).2.toList = pre ++ post := by
        rw [Seq.toList_remove hw, hl, eraseIdx_length]
      have hlen : (ws.remove pre.length).2.toList.length ≤ k := by
        rw [hrest]; rw [hl] at hk
        simp only [List.length_append, List.length_cons] at hk ⊢
        omega
      obtain ⟨h1, h2, h3⟩ := release_spec x k (ws.remove pre.length).2 (w.wake e.1)
        (Seq.remove_wf hw _) hlen
      rw [release_of_some hf hr]
      refine ⟨h1, ?_, ?_⟩
      · rw [h2, hrest, hl, List.filter_append, List.filter_append,
          List.filter_cons_of_neg (by simpa using he)]
      · have hp : pre.filter (fun e => decide (e.2 = x)) = [] :=
          List.filter_eq_nil_iff.2 fun b hb => by simpa using hpre b hb
        rw [h3, hrest, hl, List.filter_append, List.filter_append, hp,
          List.filter_cons_of_pos (by simpa using he), List.nil_append, List.nil_append,
          List.map_cons, Wakeups.wakeAll_cons]

/-- Only the waiting tasks of a table differ, and whoever waited for the address was woken. -/
theorem wake_spec {t t' : Table} {x : Ipv4.Address} {w w' : Wakeups} (hw : t.waiters.WF)
    (h : t.wake x w = (t', w')) :
    t' = { t with waiters := t'.waiters } ∧ t'.waiters.WF ∧
      t'.waits = t.waits.filter (fun e => decide (e.2 ≠ x)) ∧ Moves t.waits w t'.waits w' := by
  obtain ⟨h1, h2, h3⟩ := release_spec x t.waiters.size t.waiters w hw hw.length_toList.le
  unfold wake at h
  cases h
  refine ⟨rfl, h1, h2, _, h3, ?_, ?_⟩
  · intro c
    unfold waits
    rw [h2]
    exact weight_filter_add c x t.waits
  · intro e he
    unfold waits
    rw [h2]
    by_cases hx : e.2 = x
    · exact .inr (List.mem_map.2 ⟨e, List.mem_filter.2 ⟨he, by simpa using hx⟩, rfl⟩)
    · exact .inl (List.mem_filter.2 ⟨he, by simpa using hx⟩)

end Table

end UdpStack.Arp
