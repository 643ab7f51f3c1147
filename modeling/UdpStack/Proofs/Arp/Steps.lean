/-
What each operation of the table of neighbors can do, said once: looking an address up
(`lookup_lookedUp`), receiving a message (`receive_received`) and the passing of time
(`expire_expired`). Every invariant of the table is shown from these.
-/
import UdpStack.Proofs.Arp.Table
import UdpStack.Proofs.Bounded.Queue

namespace UdpStack.Arp

open Bounded

namespace Table

theorem waits_of_eq {t u : Table} (h : u.waiters = t.waiters) : u.waits = t.waits := by
  unfold waits; rw [h]

theorem asking_of_eq {t u : Table} (h : u.neighbors = t.neighbors) {x : Ipv4.Address} :
    u.Asking x ↔ t.Asking x := by
  unfold Asking; rw [h]

/-! ## Messages that wait to be sent -/

/-- From one table to the next some of the messages `ms`, in order, were put behind those that wait to
be sent. -/
def Posts (t t' : Table) (ms : List Message) : Prop :=
  t.outbox.WF → t'.outbox.WF ∧ ∃ ns, t'.outbox.toList = t.outbox.toList ++ ns ∧ ns.Sublist ms

theorem Posts.of_eq {t t' : Table} (h : t'.outbox = t.outbox) : Posts t t' [] := by
  intro hw
  rw [h]
  exact ⟨hw, [], (List.append_nil _).symm, List.Sublist.refl _⟩

theorem Posts.trans {t u v : Table} {ms ns : List Message} (h : Posts t u ms) (h' : Posts u v ns) :
    Posts t v (ms ++ ns) := by
  intro hw
  obtain ⟨hu, ms', hm, hs⟩ := h hw
  obtain ⟨hv, ns', hn, hs'⟩ := h' hu
  exact ⟨hv, ms' ++ ns', by rw [hn, hm, List.append_assoc], hs.append hs'⟩

theorem Posts.mono {t t' : Table} {ms ns : List Message} (h : Posts t t' ms) (hs : ms.Sublist ns) :
    Posts t t' ns := by
  intro hw
  obtain ⟨hw', ms', hm, hs'⟩ := h hw
  exact ⟨hw', ms', hm, hs'.trans hs⟩

theorem post_posts (t : Table) (m : Message) : Posts t (t.post m) [m] := by
  intro hw
  unfold post
  split
  · rename_i outbox hp
    exact ⟨Queue.push_wf hw hp, [m], Queue.toList_push hw hp, List.Sublist.refl _⟩
  · exact ⟨hw, [], (List.append_nil _).symm, List.nil_sublist _⟩

/-- From one table to the next the messages `ms`, in order, were put behind those that wait to be sent, as
many of them as there is room for. -/
def Fills (t t' : Table) (ms : List Message) : Prop :=
  t.outbox.WF → t'.outbox.WF ∧ t'.outbox.toList = (t.outbox.toList ++ ms).take Limits.outbox

theorem length_outbox_le {t : Table} (hw : t.outbox.WF) : t.outbox.toList.length ≤ Limits.outbox := by
  rw [hw.length_toList]; exact hw.size_le

theorem Fills.of_eq {t t' : Table} (h : t'.outbox = t.outbox) : Fills t t' [] := by
  intro hw
  rw [h, List.append_nil, List.take_of_length_le (length_outbox_le hw)]
  exact ⟨hw, rfl⟩

theorem Fills.trans {t u v : Table} {ms ns : List Message} (h : Fills t u ms) (h' : Fills u v ns) :
    Fills t v (ms ++ ns) := by
  intro hw
  obtain ⟨hu, hm⟩ := h hw
  obtain ⟨hv, hn⟩ := h' hu
  refine ⟨hv, ?_⟩
  rw [hn, hm, ← List.append_assoc]
  generalize t.outbox.toList ++ ms = l
  rcases Nat.le_total l.length Limits.outbox with hl | hl
  · rw [List.take_of_length_le hl]
  · -- there is no room for the later messages
    rw [List.take_append_of_le_length (by rw [List.length_take]; omega), List.take_take, Nat.min_self,
      List.take_append_of_le_length hl]

theorem post_fills (t : Table) (m : Message) : Fills t (t.post m) [m] := by
  intro hw
  cases hf : t.outbox.isFull with
  | false =>
    have hlt := hw.lt_of_not_isFull hf
    have hp := Queue.push_of_not_isFull hf m
    have ho : (t.post m).outbox = { t.outbox.putBack (some m) with size := t.outbox.size + 1 } := by
      unfold post; rw [hp]
    rw [ho, Queue.toList_push hw hp, List.take_of_length_le]
    · exact ⟨Queue.push_wf hw hp, rfl⟩
    · rw [List.length_append, hw.length_toList]; exact hlt
  | true =>
    have ho : (t.post m).outbox = t.outbox := by
      unfold post Queue.push; rw [hf]; rfl
    have hl : Limits.outbox ≤ t.outbox.toList.length := by
      rw [hw.length_toList]; exact (beq_iff_eq.1 hf).ge
    rw [ho, List.take_append_of_le_length hl, List.take_of_length_le (length_outbox_le hw)]
    exact ⟨hw, rfl⟩

@[simp] theorem post_neighbors (t : Table) (m : Message) : (t.post m).neighbors = t.neighbors := by
  obtain ⟨outbox, he⟩ := post_eq t m
  rw [he]

@[simp] theorem post_waiters (t : Table) (m : Message) : (t.post m).waiters = t.waiters := by
  obtain ⟨outbox, he⟩ := post_eq t m
  rw [he]

@[simp] theorem post_waits (t : Table) (m : Message) : (t.post m).waits = t.waits :=
  waits_of_eq (post_waiters t m)

/-- The question that a table asks for an address. -/
def question (t : Table) (x : Ipv4.Address) : Message := ⟨.request, t.hardware, t.addr, .zero, x⟩

/-- The answer of a table to a question. -/
def answer (t : Table) (m : Message) : Message := ⟨.reply, t.hardware, t.addr, m.srcHardware, m.srcAddr⟩

theorem request_eq_post (t : Table) (x : Ipv4.Address) : t.request x = t.post (t.question x) := rfl

/-! ## Tasks that begin to wait -/

/-- The waiting tasks without the first wait of one of them. -/
def others (t : Table) (task : Task) : Seq (Task × Ipv4.Address) Limits.waiters :=
  match t.waiters.findIdx? fun e => e.1 == task with
  | some i => (t.waiters.remove i).2
  | none => t.waiters

theorem others_wf {t : Table} (hw : t.waiters.WF) (task : Task) : (t.others task).WF := by
  unfold others
  split
  · exact Seq.remove_wf hw _
  · exact hw

theorem others_sublist {t : Table} (hw : t.waiters.WF) (task : Task) :
    (t.others task).toList.Sublist t.waits := by
  unfold others
  split
  · rw [Seq.toList_remove hw]; exact List.eraseIdx_sublist ..
  · exact List.Sublist.refl _

/-- The other tasks all stay. -/
theorem mem_others {t : Table} (hw : t.waiters.WF) {task : Task} {e : Task × Ipv4.Address}
    (he : e ∈ t.waits) (hk : e.1 ≠ task) : e ∈ (t.others task).toList := by
  unfold others
  split
  · rename_i i hi
    obtain ⟨pre, d, post, hl, rfl, hd, -⟩ := split_of_findIdx? hi
    rw [Seq.toList_remove hw, hl, eraseIdx_length]
    unfold waits at he
    rw [hl] at he
    have hne : e ≠ d := by rintro rfl; exact hk (by simpa using hd)
    simpa [hne] using he
  · exact he

/-- A task that waits once is not among the others. -/
theorem ne_of_mem_others {t : Table} (hw : t.waiters.WF) (hn : (t.waits.map (·.1)).Nodup) {task : Task}
    {e : Task × Ipv4.Address} (he : e ∈ (t.others task).toList) : e.1 ≠ task := by
  unfold others at he
  split at he
  · rename_i i hi
    obtain ⟨pre, d, post, hl, rfl, hd, -⟩ := split_of_findIdx? hi
    obtain rfl : d.1 = task := by simpa using hd
    rw [Seq.toList_remove hw, hl, eraseIdx_length] at he
    unfold waits at hn
    rw [hl, List.map_append, List.map_cons] at hn
    have hmem : e.1 ∈ pre.map (·.1) ++ post.map (·.1) := by
      rw [← List.map_append]; exact List.mem_map_of_mem he
    intro hed
    rw [hed] at hmem
    exact (List.nodup_middle.1 hn).notMem hmem
  · rename_i hi
    have := List.findIdx?_eq_none_iff.1 hi e he
    simpa using this

theorem wait_eq_ok {t t' : Table} (hw : t.waiters.WF) {x : Ipv4.Address} {task : Task}
    (h : t.wait x (some task) = .ok t') :
    t' = { t with waiters := t'.waiters } ∧ t'.waiters.WF ∧
      t'.waits = (t.others task).toList ++ [(task, x)] := by
  have hw' : t.wait x (some task) =
      ((t.others task).push (task, x)).map fun waiters => { t with waiters := waiters } := rfl
  rw [hw'] at h
  cases hp : (t.others task).push (task, x) with
  | error f => rw [hp] at h; cases h
  | ok ws =>
    rw [hp] at h; cases h
    exact ⟨rfl, Seq.push_wf (others_wf hw task) hp, Seq.toList_push (others_wf hw task) hp⟩

/-- Waiting changes only who waits. -/
theorem wait_frame {t t' : Table} (hw : t.waiters.WF) {x : Ipv4.Address} {task : Option Task}
    (h : t.wait x task = .ok t') : t' = { t with waiters := t'.waiters } ∧ t'.waiters.WF := by
  cases task with
  | none => cases h; exact ⟨rfl, hw⟩
  | some task =>
    obtain ⟨he, hw', -⟩ := wait_eq_ok hw h
    exact ⟨he, hw'⟩

theorem cancel_none (t : Table) (x : Ipv4.Address) : t.cancel x none = t := by
  have hf : t.waiters.findIdx? (fun w => some w.1 == (none : Option Task) && w.2 == x) = none :=
    List.findIdx?_eq_none_iff.2 fun e _ => by simp
  unfold cancel; rw [hf]

theorem cancel_frame {t : Table} (hw : t.waiters.WF) (x : Ipv4.Address) (task : Option Task) :
    t.cancel x task = { t with waiters := (t.cancel x task).waiters } ∧ (t.cancel x task).waiters.WF := by
  unfold cancel
  split
  · exact ⟨rfl, Seq.remove_wf hw _⟩
  · exact ⟨rfl, hw⟩

/-- Taking back a wait that was just added leaves the other ones. -/
theorem cancel_wait {t t' : Table} (hw : t.waiters.WF) {x : Ipv4.Address} {task : Task}
    (hx : (task, x) ∉ (t.others task).toList) (h : t.wait x (some task) = .ok t') :
    (t'.cancel x (some task)).waits = (t.others task).toList := by
  obtain ⟨-, hw', hl⟩ := wait_eq_ok hw h
  -- the wait that was just added is the last one, and the first of this task for `x`
  have hf : t'.waiters.findIdx? (fun w => some w.1 == some task && w.2 == x) =
      some (t.others task).toList.length := by
    show t'.waits.findIdx? _ = _
    rw [hl, List.findIdx?_append, List.findIdx?_eq_none_iff.2]
    · simp
    · rintro ⟨k, y⟩ hm
      by_contra hk
      simp only [Bool.not_eq_false, Bool.and_eq_true, beq_iff_eq, Option.some.injEq] at hk
      rw [hk.1, hk.2] at hm
      exact hx hm
  unfold cancel; rw [hf]
  show (t'.waiters.remove _).2.toList = _
  rw [Seq.toList_remove hw']
  show t'.waits.eraseIdx _ = _
  rw [hl, eraseIdx_length, List.append_nil]

/-! ## Looking an address up -/

/-- The entry of an address that is asked for the first time. -/
def query (now : Instant) : Neighbor := ⟨.querying 0 (now.add retryInterval), .never⟩

/-- Whether an address may be asked for from the beginning. -/
def Askable (now : Instant) : Option Neighbor → Prop
  | none => True
  | some ⟨.resolved _, e⟩ => e.isExpired now = true
  | some ⟨.failed u, _⟩ => u.total ≤ now.total
  | some ⟨.querying _ _, _⟩ => False

theorem not_asking_of_askable {t : Table} {x : Ipv4.Address} {now : Instant}
    (h : Askable now (t.neighbor? x)) : ¬ t.Asking x := by
  rintro ⟨retries, nextAt, e, hq⟩
  unfold neighbor? at h
  rw [hq] at h
  exact h

/-- The answer of a lookup, and the table after it. -/
inductive LookedUp (t : Table) (x : Ipv4.Address) (task : Option Task) (now : Instant) :
    Except Fault Ethernet.Address → Table → Prop where
  /-- The address is known, or is left alone for now, or there is no room to wait. -/
  | settled (r : Except Fault Ethernet.Address) : LookedUp t x task now r t
  /-- The address is being asked for already. -/
  | joined {u : Table} : t.Asking x → t.wait x task = .ok u →
      LookedUp t x task now (.error .wouldBlock) u
  /-- There is no room for an entry. -/
  | crowded {u : Table} {e : Fault} : Askable now (t.neighbor? x) → t.wait x task = .ok u →
      u.put x (query now) now = .error e → LookedUp t x task now (.error e) (u.cancel x task)
  | asked {u v : Table} : Askable now (t.neighbor? x) → t.wait x task = .ok u →
      u.put x (query now) now = .ok v → LookedUp t x task now (.error .wouldBlock) (v.request x)

theorem ask_lookedUp {t : Table} {x : Ipv4.Address} {now : Instant} (h : Askable now (t.neighbor? x))
    (task : Option Task) :
    LookedUp t x task now (lookup.ask t x task now).1 (lookup.ask t x task now).2 := by
  unfold lookup.ask
  split
  · exact .settled _
  · rename_i u hu
    split
    · rename_i e he
      exact .crowded h hu he
    · rename_i v hv
      exact .asked h hu hv

theorem lookup_lookedUp (t : Table) (x : Ipv4.Address) (task : Option Task) (now : Instant) :
    LookedUp t x task now (t.lookup x task now).1 (t.lookup x task now).2 := by
  have ask : ∀ n, t.neighbors.get? x = n → Askable now n →
      LookedUp t x task now (lookup.ask t x task now).1 (lookup.ask t x task now).2 :=
    fun n hn ha => ask_lookedUp (by unfold neighbor?; rw [hn]; exact ha) task
  unfold lookup
  split
  · exact .settled _
  · split
    · rename_i hq
      split
      · exact .settled _
      · rename_i u hu
        exact .joined ⟨_, _, _, hq⟩ hu
    · rename_i u e hf
      split
      · exact .settled _
      · rename_i hlt
        exact ask _ hf (Int.not_lt.1 hlt)
    · rename_i hr
      split
      · rename_i he
        exact ask _ hr he
      · exact .settled _
    · rename_i hn
      exact ask _ hn trivial

/-! ## Receiving a message -/

theorem enter_of_asking {t : Table} {x : Ipv4.Address} (h : t.Asking x) (hardware : Ethernet.Address)
    (now : Option Instant) : ∃ t', t.enter x hardware now = .ok t' := by
  obtain ⟨_, _, _, hx⟩ := h
  exact ⟨_, put_of_contains (by rw [Map.contains_eq_isSome, hx]; rfl) _ _⟩

/-- The table and the wake-ups after a message. -/
inductive Received (t : Table) (m : Message) (now : Instant) (w : Wakeups) : Table → Wakeups → Prop where
  /-- The message has no proper sender, or cannot be learned from. -/
  | ignored : ¬ (m.srcAddr.isUnicast = true ∧ m.srcHardware.isUnicast = true ∧ t.Asking m.srcAddr) →
      Received t m now w t w
  /-- The sender is learned, who waits for it is woken, and a question may be answered. -/
  | learned {u v t' : Table} {w' : Wakeups} : t.enter m.srcAddr m.srcHardware (some now) = .ok u →
      u.wake m.srcAddr w = (v, w') → (t' = v ∨ t' = v.post (v.answer m)) → Received t m now w t' w'

theorem receive_received (t : Table) (m : Message) (now : Instant) (w : Wakeups) :
    Received t m now w (t.receive m now w).2.1 (t.receive m now w).2.2 := by
  unfold receive
  split
  · rename_i hu
    refine .ignored ?_
    intro hm
    rw [hm.1, hm.2.1] at hu; cases hu
  · dsimp only
    by_cases hk : (t.neighbors.contains m.srcAddr || m.dstAddr == t.addr) = true
    · rw [if_pos hk]
      cases he : t.enter m.srcAddr m.srcHardware (some now) with
      | error f =>
        refine .ignored ?_
        intro hm
        -- an address that is asked for has an entry, so entering it needs no room
        obtain ⟨u, hu⟩ := enter_of_asking hm.2.2 m.srcHardware (some now)
        rw [he] at hu; cases hu
      | ok u =>
        simp only [Except.map]
        split
        · exact .learned he rfl (.inl rfl)
        · split
          · exact .learned he rfl (.inr rfl)
          · exact .learned he rfl (.inl rfl)
    · rw [if_neg hk]
      simp only [Bool.or_eq_true, not_or, Bool.not_eq_true] at hk
      dsimp only
      rw [if_pos (by rw [hk.2]; rfl)]
      refine .ignored ?_
      -- the sender is not known, so it is not asked for
      intro hm
      obtain ⟨_, _, _, ha⟩ := hm.2.2
      rw [Map.contains_eq_isSome, ha] at hk
      exact absurd hk.1 (by simp)

/-! ## The passing of time -/

/-- What becomes of an entry whose question is due: it is asked once more, or given up. -/
def aged (now : Instant) : Neighbor → Neighbor
  | ⟨.querying retries _, e⟩ =>
    if retries < maxRetries then ⟨.querying (retries + 1) (now.add retryInterval), e⟩
    else ⟨.failed (now.add silentTime), e⟩
  | n => n

/-- Whether a question for an address can be asked once more. -/
def asksAgain (t : Table) (x : Ipv4.Address) : Bool :=
  match t.neighbor? x with
  | some ⟨.querying retries _, _⟩ => decide (retries < maxRetries)
  | _ => false

theorem mem_due {t : Table} (hw : t.neighbors.WF) {now : Instant} {x : Ipv4.Address} :
    x ∈ t.due now ↔ ∃ retries nextAt e, t.neighbor? x = some ⟨.querying retries nextAt, e⟩ ∧
      nextAt.total ≤ now.total := by
  unfold due neighbor?
  rw [List.mem_filterMap]
  constructor
  · rintro ⟨⟨y, ⟨mapping, e⟩⟩, hm, h⟩
    cases mapping with
    | resolved _ => cases h
    | failed _ => cases h
    | querying retries nextAt =>
      dsimp only at h
      split at h
      · rename_i hd
        cases h
        exact ⟨retries, nextAt, e, hw.get?_eq_some_iff.2 hm, hd⟩
      · cases h
  · rintro ⟨retries, nextAt, e, hn, hd⟩
    exact ⟨(x, ⟨.querying retries nextAt, e⟩), hw.get?_eq_some_iff.1 hn, if_pos hd⟩

theorem due_sublist (t : Table) (now : Instant) :
    (t.due now).Sublist (t.neighbors.toList.map (·.1)) := by
  unfold due
  generalize t.neighbors.toList = l
  induction l with
  | nil => exact List.Sublist.refl _
  | cons p l ih =>
    rw [List.filterMap_cons, List.map_cons]
    split
    · exact ih.cons _
    · rename_i x hx
      obtain ⟨y, ⟨mapping, e⟩⟩ := p
      cases mapping with
      | resolved _ => cases hx
      | failed _ => cases hx
      | querying retries nextAt =>
        dsimp only at hx
        split at hx
        · cases hx; exact ih.cons_cons _
        · cases hx

theorem due_nodup {t : Table} (hw : t.neighbors.WF) (now : Instant) : (t.due now).Nodup :=
  (due_sublist t now).nodup hw.nodup

/-- On the way through the due questions: those for `done` were dealt with, and the addresses given up
are collected. -/
structure Swept (t : Table) (now : Instant) (done : List Ipv4.Address) (state : Table × List Ipv4.Address) :
    Prop where
  frame : state.1 = { t with neighbors := state.1.neighbors, outbox := state.1.outbox }
  neighbors : state.1.neighbors.WF
  entry : ∀ x, state.1.neighbor? x = if x ∈ done then (t.neighbor? x).map (aged now) else t.neighbor? x
  given : ∀ x, x ∈ state.2 ↔ x ∈ done ∧ t.asksAgain x = false
  posts : Posts t state.1 ((done.filter t.asksAgain).map t.question)

theorem Swept.start {t : Table} (hw : t.neighbors.WF) (now : Instant) : Swept t now [] (t, []) where
  frame := rfl
  neighbors := hw
  entry x := by simp
  given x := by simp
  posts := .of_eq rfl

/-- Dealing with one more due question changes the entry of its address only. -/
theorem entry_sweep {t : Table} {now : Instant} {done : List Ipv4.Address}
    {state : Table × List Ipv4.Address} (h : Swept t now done state) {x : Ipv4.Address} {n : Neighbor}
    (hd : x ∉ done) (hn : t.neighbor? x = some n) (y : Ipv4.Address) :
    (state.1.neighbors.set x (aged now n)).get? y =
      if y ∈ done ++ [x] then (t.neighbor? y).map (aged now) else t.neighbor? y := by
  have hx : state.1.neighbor? x = some n := by rw [h.entry, if_neg hd, hn]
  have hc : state.1.neighbors.contains x = true := by
    rw [Map.contains_eq_isSome]
    unfold neighbor? at hx
    rw [hx]; rfl
  rw [Map.get?_set h.neighbors]
  by_cases hy : y = x
  · subst hy
    rw [if_pos ⟨rfl, hc⟩, if_pos (by simp), hn]; rfl
  · rw [if_neg fun hyx => hy hyx.1]
    have hmem : y ∈ done ++ [x] ↔ y ∈ done := by simp [hy]
    rw [if_congr hmem rfl rfl]
    exact h.entry y

/-- The table with another value for an entry. -/
def setEntry (t : Table) (x : Ipv4.Address) (n : Neighbor) : Table :=
  { t with neighbors := t.neighbors.set x n }

theorem retry_of_again {t : Table} {x : Ipv4.Address} {retries : Nat} {nextAt : Instant} {e : Expiry}
    (now : Instant) (given : List Ipv4.Address)
    (hn : t.neighbor? x = some ⟨.querying retries nextAt, e⟩) (hr : retries < maxRetries) :
    retry now (t, given) x =
      ((t.setEntry x (aged now ⟨.querying retries nextAt, e⟩)).request x, given) := by
  unfold neighbor? at hn
  simp only [retry, hn, aged, if_pos hr]
  rfl

theorem retry_of_spent {t : Table} {x : Ipv4.Address} {retries : Nat} {nextAt : Instant} {e : Expiry}
    (now : Instant) (given : List Ipv4.Address)
    (hn : t.neighbor? x = some ⟨.querying retries nextAt, e⟩) (hr : ¬ retries < maxRetries) :
    retry now (t, given) x = (t.setEntry x (aged now ⟨.querying retries nextAt, e⟩), given ++ [x]) := by
  unfold neighbor? at hn
  simp only [retry, hn, aged, if_neg hr]
  rfl

theorem retry_swept {t : Table} (hw : t.neighbors.WF) {now : Instant} {done : List Ipv4.Address}
    {state : Table × List Ipv4.Address} (h : Swept t now done state) {x : Ipv4.Address}
    (hx : x ∈ t.due now) (hd : x ∉ done) : Swept t now (done ++ [x]) (retry now state x) := by
  obtain ⟨u, given⟩ := state
  obtain ⟨retries, nextAt, e, hn, -⟩ := (mem_due hw).1 hx
  have hu : u.neighbor? x = some ⟨.querying retries nextAt, e⟩ :=
    (h.entry x).trans (by rw [if_neg hd, hn])
  have hframe : u = { t with neighbors := u.neighbors, outbox := u.outbox } := h.frame
  have hentry := entry_sweep h hd hn
  have hset := Map.set_wf h.neighbors x (aged now ⟨.querying retries nextAt, e⟩)
  have hagain : t.asksAgain x = decide (retries < maxRetries) := by unfold asksAgain; rw [hn]
  by_cases hr : retries < maxRetries
  · rw [retry_of_again now given hu hr]
    rw [decide_eq_true hr] at hagain
    generalize aged now ⟨.querying retries nextAt, e⟩ = n at hentry hset
    obtain ⟨outbox, ho⟩ := request_eq (u.setEntry x n) x
    have hp : Posts u ((u.setEntry x n).request x) [t.question x] := by
      have hq : (u.setEntry x n).question x = t.question x := by rw [hframe]; rfl
      rw [← hq]; exact post_posts (u.setEntry x n) _
    refine ⟨?_, ?_, ?_, ?_, ?_⟩
    · rw [ho, hframe]; rfl
    · rw [ho]; exact hset
    · rw [ho]; exact hentry
    · intro y
      rw [h.given y, List.mem_append, List.mem_singleton]
      constructor
      · rintro ⟨hy, hy'⟩
        exact ⟨.inl hy, hy'⟩
      · rintro ⟨hy | rfl, hy'⟩
        · exact ⟨hy, hy'⟩
        · rw [hagain] at hy'; cases hy'
    · rw [List.filter_append, List.map_append, List.filter_cons_of_pos hagain]
      exact h.posts.trans hp
  · rw [retry_of_spent now given hu hr]
    rw [decide_eq_false hr] at hagain
    refine ⟨?_, hset, hentry, ?_, ?_⟩
    · rw [hframe]; rfl
    · intro y
      rw [List.mem_append, List.mem_singleton, List.mem_append, List.mem_singleton, h.given y]
      constructor
      · rintro (⟨hy, hy'⟩ | rfl)
        · exact ⟨.inl hy, hy'⟩
        · exact ⟨.inr rfl, hagain⟩
      · rintro ⟨hy | rfl, hy'⟩
        · exact .inl ⟨hy, hy'⟩
        · exact .inr rfl
    · rw [List.filter_append, List.filter_cons_of_neg (by rw [hagain]; exact Bool.false_ne_true),
        List.filter_nil, List.append_nil]
      exact h.posts

theorem foldl_retry_swept {t : Table} (hw : t.neighbors.WF) {now : Instant} :
    ∀ {xs done : List Ipv4.Address} {state : Table × List Ipv4.Address}, Swept t now done state →
      (∀ x ∈ xs, x ∈ t.due now) → (done ++ xs).Nodup →
      Swept t now (done ++ xs) (xs.foldl (retry now) state)
  | [], done, state, h, _, _ => by rw [List.append_nil]; exact h
  | x :: xs, done, state, h, hx, hn => by
    have hd : x ∉ done := fun hd => (List.nodup_append.1 hn).2.2 x hd x List.mem_cons_self rfl
    have h' := retry_swept hw h (hx x List.mem_cons_self) hd
    have he : done ++ x :: xs = (done ++ [x]) ++ xs := by simp
    rw [he] at hn ⊢
    exact foldl_retry_swept hw h' (fun y hy => hx y (List.mem_cons_of_mem _ hy)) hn

/-- All questions that are due, dealt with one after the other. -/
theorem due_swept {t : Table} (hw : t.neighbors.WF) (now : Instant) :
    Swept t now (t.due now) ((t.due now).foldl (retry now) (t, [])) := by
  have h := foldl_retry_swept hw (Swept.start hw now) (fun x hx => hx)
    (by rw [List.nil_append]; exact due_nodup hw now)
  rwa [List.nil_append] at h

/-- Waking who waits for some addresses, one after the other. -/
def wakeEach (xs : List Ipv4.Address) (t : Table) (w : Wakeups) : Table × Wakeups :=
  xs.foldl (fun (p : Table × Wakeups) x => p.1.wake x p.2) (t, w)

theorem wakeEach_spec : ∀ (xs : List Ipv4.Address) {t : Table} (w : Wakeups), t.waiters.WF →
    (wakeEach xs t w).1 = { t with waiters := (wakeEach xs t w).1.waiters } ∧
      (wakeEach xs t w).1.waiters.WF ∧
      (wakeEach xs t w).1.waits = t.waits.filter (fun e => decide (e.2 ∉ xs)) ∧
      Moves t.waits w (wakeEach xs t w).1.waits (wakeEach xs t w).2
  | [], t, w, hw => ⟨rfl, hw, by simp [wakeEach], Moves.refl _ _⟩
  | x :: xs, t, w, hw => by
    have hwake : t.wake x w = ((t.wake x w).1, (t.wake x w).2) := rfl
    obtain ⟨hue, huw, hl, hm⟩ := wake_spec hw hwake
    obtain ⟨he, hw', hl', hm'⟩ := wakeEach_spec xs (t.wake x w).2 huw
    have hs : wakeEach (x :: xs) t w = wakeEach xs (t.wake x w).1 (t.wake x w).2 := rfl
    rw [hs]
    refine ⟨by rw [he, hue], hw', ?_, hm.trans hm'⟩
    rw [hl', hl, List.filter_filter]
    refine List.filter_congr fun e _ => ?_
    simp [Bool.and_comm]

theorem wakeEach_frame : ∀ (xs : List Ipv4.Address) (t : Table) (w : Wakeups),
    (wakeEach xs t w).1 = { t with waiters := (wakeEach xs t w).1.waiters }
  | [], _, _ => rfl
  | x :: xs, t, w => wakeEach_frame xs (t.wake x w).1 (t.wake x w).2

/-- The passing of time leaves the addresses of the device alone, and waking tasks leaves what waits to be sent
alone. -/
theorem expire_frame {t : Table} (hn : t.neighbors.WF) (now : Instant) (w : Wakeups) :
    (t.expire now w).1 = { t with
      neighbors := (t.expire now w).1.neighbors
      waiters := (t.expire now w).1.waiters
      outbox := ((t.due now).foldl (retry now) (t, [])).1.outbox } := by
  have hs := (due_swept hn now).frame
  have he : t.expire now w = wakeEach ((t.due now).foldl (retry now) (t, [])).2
    ((t.due now).foldl (retry now) (t, [])).1 w := rfl
  rw [he]
  generalize (t.due now).foldl (retry now) (t, []) = state at hs ⊢
  obtain ⟨u, given⟩ := state
  have hv := wakeEach_frame given u w
  dsimp only at hs ⊢
  generalize (wakeEach given u w).1 = v at hv ⊢
  rw [hv, hs]

/-- The table and the wake-ups after the passing of time. -/
structure Expired (t : Table) (now : Instant) (w : Wakeups) (t' : Table) (w' : Wakeups) : Prop where
  neighbors : t'.neighbors.WF
  waiters : t'.waiters.WF
  /-- The entries whose question is due are asked for again or given up, and no other one changes. -/
  entry : ∀ x, t'.neighbor? x = if x ∈ t.due now then (t.neighbor? x).map (aged now) else t.neighbor? x
  /-- Who waits for an address that is given up no longer waits. -/
  waits : t'.waits = t.waits.filter fun e => !(decide (e.2 ∈ t.due now) && !t.asksAgain e.2)
  moves : Moves t.waits w t'.waits w'
  posts : Posts t t' (((t.due now).filter t.asksAgain).map t.question)

theorem expire_expired {t : Table} (hn : t.neighbors.WF) (hw : t.waiters.WF) (now : Instant) (w : Wakeups) :
    Expired t now w (t.expire now w).1 (t.expire now w).2 := by
  have hs := due_swept hn now
  have he : t.expire now w = wakeEach ((t.due now).foldl (retry now) (t, [])).2
    ((t.due now).foldl (retry now) (t, [])).1 w := rfl
  rw [he]
  generalize (t.due now).foldl (retry now) (t, []) = state at hs ⊢
  obtain ⟨u, given⟩ := state
  have hframe : u = { t with neighbors := u.neighbors, outbox := u.outbox } := hs.frame
  have huw : u.waiters = t.waiters := by rw [hframe]
  obtain ⟨hve, hvw, hl, hm⟩ := wakeEach_spec given w (by rw [huw]; exact hw)
  rw [waits_of_eq huw] at hl hm
  dsimp only
  generalize wakeEach given u w = p at hve hvw hl hm ⊢
  refine ⟨by rw [hve]; exact hs.neighbors, hvw, ?_, ?_, hm, ?_⟩
  · rw [hve]; exact hs.entry
  · rw [hl]
    refine List.filter_congr fun e _ => ?_
    have := hs.given e.2
    simp [this]
  · have hp : Posts u p.1 [] := .of_eq (by rw [hve])
    have := hs.posts.trans hp
    rwa [List.append_nil] at this

/-- What is asked for stays so until it is given up. -/
theorem Expired.asking {t t' : Table} {now : Instant} {w w' : Wakeups} (h : Expired t now w t' w')
    {x : Ipv4.Address} (ha : t.Asking x) : t'.Asking x ∨ (x ∈ t.due now ∧ t.asksAgain x = false) := by
  obtain ⟨retries, nextAt, e, hq⟩ := ha
  have hn : t.neighbor? x = some ⟨.querying retries nextAt, e⟩ := hq
  have hx := h.entry x
  rw [hn] at hx
  by_cases hd : x ∈ t.due now
  · rw [if_pos hd] at hx
    by_cases hr : retries < maxRetries
    · refine .inl ⟨retries + 1, now.add retryInterval, e, hx.trans ?_⟩
      simp only [Option.map_some, aged, if_pos hr]
    · refine .inr ⟨hd, ?_⟩
      unfold asksAgain; rw [hn]; exact decide_eq_false hr
  · rw [if_neg hd] at hx
    exact .inl ⟨retries, nextAt, e, hx⟩

end Table

end UdpStack.Arp
