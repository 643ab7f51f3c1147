/-
Questions for the own address. A table learns from whoever asks before it answers, so it answers exactly when
the sender finds a place among the entries: when it is known already, when there is room, or when an entry may
give way (`own_question_answered_iff`). While the table is full of entries that may not, it neither learns nor
answers, and nothing changes.
-/
import UdpStack.Proofs.Arp.Fixed
import UdpStack.Proofs.Arp.Repeats

namespace UdpStack.Arp.Table

open Bounded

/-! ## Room for an entry -/

/-- An entry may not give way while its address is asked for, or left alone for longer. -/
theorem evictable_eq_none_iff {now : Instant} {n : Neighbor} : evictable now n = none ↔
    (∃ retries nextAt, n.mapping = .querying retries nextAt) ∨ ∃ u, n.mapping = .failed u ∧ now.total < u.total := by
  obtain ⟨mapping, e⟩ := n
  cases mapping with
  | resolved hardware => simp [evictable]
  | querying retries nextAt => simp [evictable]
  | failed u => simp [evictable]

theorem victim?_eq_none_iff {t : Table} (hw : t.neighbors.WF) {now : Instant} :
    t.victim? now = none ↔ ∀ y n, t.neighbor? y = some n → evictable now n = none := by
  unfold victim?
  dsimp only
  split
  · rename_i hc
    rw [List.filterMap_eq_nil_iff] at hc
    refine ⟨fun _ y n hn => ?_, fun _ => rfl⟩
    exact Option.map_eq_none_iff.1 (hc (y, n) (hw.get?_eq_some_iff.1 hn))
  · rename_i c cs hc
    refine ⟨nofun, fun h => ?_⟩
    -- the first candidate is an entry that may give way
    have hm : c ∈ t.neighbors.toList.filterMap fun p => (evictable now p.2).map fun e => (e, p.1) := by
      rw [hc]; exact List.mem_cons_self
    obtain ⟨⟨y, n⟩, hy, he⟩ := List.mem_filterMap.1 hm
    rw [h y n (hw.get?_eq_some_iff.2 hy)] at he
    cases he

/-- There is no place for an entry of `x`: it has none, and all others are full of entries that may not give
way. -/
structure Crowded (t : Table) (x : Ipv4.Address) (now : Instant) : Prop where
  unknown : t.neighbor? x = none
  full : t.neighbors.size = Limits.neighbors
  kept : ∀ y n, t.neighbor? y = some n →
    (∃ retries nextAt, n.mapping = .querying retries nextAt) ∨ ∃ u, n.mapping = .failed u ∧ now.total < u.total

section Room

variable {t : Table} {x : Ipv4.Address} {now : Instant}

theorem put_of_crowded (hw : t.neighbors.WF) (h : t.Crowded x now) (n : Neighbor) :
    t.put x n now = .error .exhausted := by
  have hc : t.neighbors.contains x = false := by
    rw [Map.contains_eq_isSome, show t.neighbors.get? x = none from h.unknown]; rfl
  have hv : t.victim? now = none :=
    (victim?_eq_none_iff hw).2 fun y n hn => evictable_eq_none_iff.2 (h.kept y n hn)
  have hi := Map.insert_of_full hc h.full n
  unfold put
  rw [hc, hi, hv]
  rfl

/-- Taking out an entry makes room. -/
theorem size_remove_lt (hw : t.neighbors.WF) {v : Ipv4.Address} {n : Neighbor} (h : t.neighbor? v = some n) :
    (t.neighbors.remove v).2.pairs.size < t.neighbors.pairs.size := by
  rw [← (Map.remove_wf hw v).pairs.length_toList, ← hw.pairs.length_toList]
  show (t.neighbors.remove v).2.toList.length < t.neighbors.toList.length
  rw [Map.toList_remove hw, List.length_filter_lt_length_iff_exists]
  exact ⟨(v, n), hw.get?_eq_some_iff.1 h, by simp⟩

theorem put_of_not_crowded (hw : t.neighbors.WF) (h : ¬ t.Crowded x now) (n : Neighbor) :
    ∃ t', t.put x n now = .ok t' := by
  cases hc : t.neighbors.contains x with
  | true => exact ⟨_, put_of_contains hc n now⟩
  | false =>
    have hx : t.neighbors.get? x = none := by
      rw [Map.contains_eq_isSome] at hc
      exact Option.not_isSome_iff_eq_none.1 (by rw [hc]; exact Bool.false_ne_true)
    cases hi : t.neighbors.insert x n with
    | ok m =>
      unfold put; rw [hc, hi]; exact ⟨_, rfl⟩
    | error f =>
      rcases Map.insert_eq_error hi with ⟨hc', -⟩ | ⟨-, hfull, rfl⟩
      · rw [hc] at hc'; cases hc'
      · cases hv : t.victim? now with
        | none =>
          refine absurd ⟨hx, hfull, fun y n hn => ?_⟩ h
          exact evictable_eq_none_iff.1 ((victim?_eq_none_iff hw).1 hv y n hn)
        | some v =>
          obtain ⟨old, ho, -⟩ := victim?_eq_some hw hv
          have hlt := size_remove_lt hw ho
          have hle := hw.pairs.size_le
          have hr : (t.neighbors.remove v).2.get? x = none := by
            rw [Map.get?_remove hw, hx]; split <;> rfl
          obtain ⟨m, hm⟩ := Map.insert_of_room hr (by omega) n
          refine ⟨{ t with neighbors := m }, ?_⟩
          unfold put
          rw [hc, hi, hv]
          show ((t.neighbors.remove v).2.insert x n).map _ = _
          rw [hm]; rfl

end Room

/-! ## Answering -/

section Answer

variable {t : Table} {m : Message} {now : Instant} {w : Wakeups}

theorem receive_of_crowded (hw : t.neighbors.WF) (hs : m.srcAddr.isUnicast = true)
    (hh : m.srcHardware.isUnicast = true) (hd : m.dstAddr = t.addr) (h : t.Crowded m.srcAddr now) :
    t.receive m now w = (.error .exhausted, t, w) := by
  have he : t.enter m.srcAddr m.srcHardware (some now) = .error .exhausted := put_of_crowded hw h _
  unfold receive
  simp [hs, hh, hd, he, Except.map]

/-- A question for the own address is answered once its sender is learned. -/
theorem receive_of_enter {u : Table} (hs : m.srcAddr.isUnicast = true) (hh : m.srcHardware.isUnicast = true)
    (hd : m.dstAddr = t.addr) (ho : m.operation = .request)
    (he : t.enter m.srcAddr m.srcHardware (some now) = .ok u) :
    t.receive m now w = (.ok (), (u.wake m.srcAddr w).1.post ((u.wake m.srcAddr w).1.answer m),
      (u.wake m.srcAddr w).2) := by
  unfold receive
  simp [hs, hh, hd, ho, he, Except.map, answer]

/-- The answer is the only message that is posted. -/
theorem outbox_of_enter {u : Table} (hst : t.Stored) (hs : m.srcAddr.isUnicast = true)
    (hh : m.srcHardware.isUnicast = true) (hd : m.dstAddr = t.addr) (ho : m.operation = .request)
    (hroom : t.outbox.isFull = false) (he : t.enter m.srcAddr m.srcHardware (some now) = .ok u) :
    (t.receive m now w).2.1.outbox.toList = t.outbox.toList ++ [t.answer m] := by
  have hue := (put_eq_ok hst.neighbors he).1
  rw [receive_of_enter hs hh hd ho he]
  have hv : (u.wake m.srcAddr w).1.outbox = t.outbox := by
    show u.outbox = _
    rw [hue]
  have hans : (u.wake m.srcAddr w).1.answer m = t.answer m := by
    show u.answer m = _
    rw [hue]; rfl
  obtain ⟨-, hl⟩ := post_fills (u.wake m.srcAddr w).1 ((u.wake m.srcAddr w).1.answer m)
    (by rw [hv]; exact hst.outbox)
  rw [hl, hans, hv, List.take_of_length_le]
  rw [List.length_append, hst.outbox.length_toList]
  exact hst.outbox.lt_of_not_isFull hroom

end Answer

/-- In every run of a table, a question for its own address from a proper sender, met by room among the
messages that wait to be sent, is answered by exactly one message with the own addresses, unless there is no
place for an entry of the sender. In that case nothing changes. -/
theorem own_question_answered_iff (hardware : Ethernet.Address) (addr mask : Ipv4.Address) (cs : List Call)
    (m : Message) (now : Instant) (w : Wakeups) (ho : m.operation = .request) (hd : m.dstAddr = addr)
    (hs : m.srcAddr.isUnicast = true) (hh : m.srcHardware.isUnicast = true) :
    let t := (create hardware addr mask).run cs
    t.outbox.isFull = false →
      ((t.receive m now w).2.1.outbox.toList =
        t.outbox.toList ++ [⟨.reply, hardware, addr, m.srcHardware, m.srcAddr⟩] ↔ ¬ t.Crowded m.srcAddr now) ∧
      (t.Crowded m.srcAddr now → t.receive m now w = (.error .exhausted, t, w)) := by
  intro t hroom
  have hst : t.Stored := run_stored (create_stored hardware addr mask) cs
  have hdev : t.device = (hardware, addr, mask) := device_run cs (create_stored hardware addr mask)
  have haddr : t.addr = addr := congrArg (·.2.1) hdev
  have hans : t.answer m = ⟨.reply, hardware, addr, m.srcHardware, m.srcAddr⟩ := by
    unfold answer
    rw [show t.hardware = hardware from congrArg (·.1) hdev, haddr]
  have hd' : m.dstAddr = t.addr := hd.trans haddr.symm
  refine ⟨⟨?_, ?_⟩, receive_of_crowded hst.neighbors hs hh hd'⟩
  · intro hl hc
    rw [receive_of_crowded hst.neighbors hs hh hd' hc] at hl
    simp at hl
  · intro hc
    obtain ⟨u, hu⟩ := put_of_not_crowded hst.neighbors hc ⟨.resolved m.srcHardware, .ofOption (some (now.add lifetime))⟩
    rw [← hans]
    exact outbox_of_enter hst hs hh hd' ho hroom hu

/-- The question of `x` for the hardware address of 10.0.0.1. -/
def questionFrom (x : Ipv4.Address) : Message := ⟨.request, .ofIpv4 x, x, .zero, ⟨10, 0, 0, 1⟩⟩

/-- While eight addresses are asked for, a question of one of them is answered and one of a ninth is not. -/
theorem own_question_answered_asked :
    let t := (create ⟨2, 0, 0, 0, 0, 1⟩ ⟨10, 0, 0, 1⟩ ⟨255, 255, 255, 0⟩).run (askFirst 8)
    let answerTo := fun x => (⟨.reply, ⟨2, 0, 0, 0, 0, 1⟩, ⟨10, 0, 0, 1⟩, .ofIpv4 x, x⟩ : Message)
    t.outbox.isFull = false ∧
      (t.receive (questionFrom ⟨10, 0, 0, 2⟩) ⟨0⟩ .empty).2.1.outbox.toList =
        t.outbox.toList ++ [answerTo ⟨10, 0, 0, 2⟩] ∧
      t.receive (questionFrom ⟨10, 0, 0, 20⟩) ⟨0⟩ .empty = (.error .exhausted, t, .empty) := by
  intro t answerTo
  have answered := fun x => own_question_answered_iff ⟨2, 0, 0, 0, 0, 1⟩ ⟨10, 0, 0, 1⟩ ⟨255, 255, 255, 0⟩ (askFirst 8)
    (questionFrom x) ⟨0⟩ .empty rfl rfl
  have hw : t.neighbors.WF := (run_stored (create_stored _ _ _) (askFirst 8)).neighbors
  have hroom : t.outbox.isFull = false := by decide +kernel
  have hknown : ¬ t.neighbor? ⟨10, 0, 0, 2⟩ = none := by decide +kernel
  have hunknown : t.neighbor? ⟨10, 0, 0, 20⟩ = none := by decide +kernel
  have hfull : t.neighbors.size = Limits.neighbors := by decide +kernel
  have hvictim : t.victim? ⟨0⟩ = none := by decide +kernel
  -- from here on only these facts about the table matter
  simp only [show (create _ _ _).run (askFirst 8) = t from rfl] at answered
  clear_value t
  refine ⟨hroom, (answered ⟨10, 0, 0, 2⟩ (by decide) (by decide) hroom).1.2 fun h => hknown h.unknown,
    (answered ⟨10, 0, 0, 20⟩ (by decide) (by decide) hroom).2 ⟨hunknown, hfull, fun y n hn => ?_⟩⟩
  exact evictable_eq_none_iff.1 ((victim?_eq_none_iff hw).1 hvictim y n hn)

/-- Not every proper question for the own address is answered. -/
theorem own_question_unanswered : ¬ ∀ (hardware : Ethernet.Address) (addr mask : Ipv4.Address) (cs : List Call)
    (m : Message) (now : Instant), (∀ c ∈ cs, c.Unaided) → m.operation = .request → m.dstAddr = addr →
    m.srcAddr.isUnicast = true → m.srcHardware.isUnicast = true →
    ((create hardware addr mask).run cs).outbox.isFull = false →
    (((create hardware addr mask).run cs).receive m now .empty).2.1.outbox.toList =
      ((create hardware addr mask).run cs).outbox.toList ++
        [⟨.reply, hardware, addr, m.srcHardware, m.srcAddr⟩] := by
  intro h
  have h' := h ⟨2, 0, 0, 0, 0, 1⟩ ⟨10, 0, 0, 1⟩ ⟨255, 255, 255, 0⟩ (askFirst 8) (questionFrom ⟨10, 0, 0, 20⟩) ⟨0⟩
    (askFirst_unaided 8) rfl rfl (by decide) (by decide) (by decide +kernel)
  exact absurd h' (by decide +kernel)

end UdpStack.Arp.Table
