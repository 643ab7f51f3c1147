/-
Waiting for a hardware address, operation by operation. Looking an address up makes at most the
asking task wait, and only when the answer is to wait (`weight_lookup_le`); a message and the
passing of time let tasks go only by waking them (`receive_moves`, `expire_moves`); and once an
address is no longer asked for nobody waits for it (`asking_of_mem_waits`).
-/
import UdpStack.Proofs.Arp.Kept
import UdpStack.Proofs.Arp.Steps

namespace UdpStack.Arp

open Bounded

namespace Table

/-! ## Looking an address up -/

theorem sum_others_le {t : Table} (hw : t.waiters.WF) (task : Task) (c : Task → Nat) :
    ((t.others task).toList.map fun e => c e.1).sum ≤ t.waits.weight c :=
  ((others_sublist hw task).map _).sum_le_sum fun _ _ => Nat.zero_le _

/-- Waiting keeps the entries, and lets at most the task itself wait anew. -/
theorem wait_spec {t t' : Table} (hw : t.waiters.WF) {x : Ipv4.Address} {task : Option Task}
    (h : t.wait x task = .ok t') :
    t' = { t with waiters := t'.waiters } ∧ t'.waiters.WF ∧
      (∀ e ∈ t'.waits, e ∈ t.waits ∨ e.2 = x) ∧
      ∀ c, t'.waits.weight c ≤ t.waits.weight c + task.elim 0 c := by
  cases task with
  | none => cases h; exact ⟨rfl, hw, fun e he => .inl he, fun c => le_rfl⟩
  | some task =>
    obtain ⟨he, hw', hl⟩ := wait_eq_ok hw h
    refine ⟨he, hw', ?_, ?_⟩
    · intro e hm
      rw [hl, List.mem_append, List.mem_singleton] at hm
      rcases hm with hm | rfl
      · exact .inl ((others_sublist hw task).subset hm)
      · exact .inr rfl
    · intro c
      have := sum_others_le hw task c
      rw [hl]
      unfold Waits.weight at this ⊢
      rw [List.map_append, List.sum_append]
      simpa using this

/-- Taking back a wait for an address that nobody else waits for. -/
theorem cancel_spec {t t' : Table} (hw : t.waiters.WF) {x : Ipv4.Address} {task : Option Task}
    (hx : ∀ e ∈ t.waits, e.2 ≠ x) (h : t.wait x task = .ok t') :
    t'.cancel x task = { t with waiters := (t'.cancel x task).waiters } ∧
      (t'.cancel x task).waiters.WF ∧ (t'.cancel x task).waits.Sublist t.waits := by
  obtain ⟨he, hw'⟩ := wait_frame hw h
  obtain ⟨hc, hcw⟩ := cancel_frame hw' x task
  refine ⟨by rw [hc, he], hcw, ?_⟩
  cases task with
  | none => cases h; rw [cancel_none]
  | some task =>
    have hs := others_sublist hw task
    rw [cancel_wait hw (fun hm => hx _ (hs.subset hm) rfl) h]; exact hs

theorem wait_wf {t t' : Table} (hw : t.WF) {x : Ipv4.Address} (ha : t.Asking x) {task : Option Task}
    (h : t.wait x task = .ok t') : t'.WF := by
  obtain ⟨he, hw', hm, -⟩ := wait_spec hw.waiters h
  have hn : t'.neighbors = t.neighbors := by rw [he]
  refine ⟨by rw [hn]; exact hw.neighbors, hw', ?_⟩
  intro e hmem
  rw [asking_of_eq hn]
  rcases hm e hmem with hmem | rfl
  · exact hw.asking e hmem
  · exact ha

/-- What a lookup that does not find an answer does: the table stays proper, and at most the task
waits anew, and only if the answer is to wait. -/
structure Asked (t : Table) (task : Option Task) (r : Except Fault Ethernet.Address) (t' : Table) : Prop where
  wf : t'.WF
  weight_le : ∀ c, t'.waits.weight c ≤ t.waits.weight c + if r = .error .wouldBlock then task.elim 0 c else 0

/-- Asking for an address that nobody waits for yet lets only the task itself wait for it. -/
theorem put_asked {t u v : Table} (hw : t.WF) {x : Ipv4.Address} {task : Option Task} {now : Instant}
    (hu : t.wait x task = .ok u) (hv : u.put x (query now) now = .ok v) :
    t.Asked task (.error .wouldBlock) (v.request x) := by
  obtain ⟨he, hw', hm, hle⟩ := wait_spec hw.waiters hu
  have hn : u.neighbors = t.neighbors := by rw [he]
  have hun : u.neighbors.WF := by rw [hn]; exact hw.neighbors
  obtain ⟨hve, hvw, hvx, -⟩ := put_eq_ok hun hv
  have hvwait : v.waiters = u.waiters := by rw [hve]
  have hvwaits : v.waits = u.waits := waits_of_eq hvwait
  obtain ⟨outbox, hr⟩ := request_eq v x
  rw [hr]
  refine ⟨with_outbox_wf ⟨hvw, by rw [hvwait]; exact hw', ?_⟩ outbox, ?_⟩
  · intro e hmem
    change e ∈ v.waits at hmem
    rw [hvwaits] at hmem
    by_cases hx : e.2 = x
    · rw [hx]; exact ⟨_, _, _, hvx⟩
    · rcases hm e hmem with hmem | he'
      · exact asking_put hun hv hx ((asking_of_eq hn).2 (hw.asking e hmem))
      · exact absurd he' hx
  · intro c
    rw [if_pos rfl]
    show v.waits.weight c ≤ _
    rw [hvwaits]; exact hle c

theorem asked_of_lookedUp {t t' : Table} (hw : t.WF) {x : Ipv4.Address} {task : Option Task}
    {now : Instant} {r : Except Fault Ethernet.Address} (h : LookedUp t x task now r t') : t.Asked task r t' := by
  cases h with
  | settled r => exact ⟨hw, fun c => Nat.le_add_right ..⟩
  | joined ha hu =>
    refine ⟨wait_wf hw ha hu, ?_⟩
    intro c
    rw [if_pos rfl]; exact (wait_spec hw.waiters hu).2.2.2 c
  | @crowded u _ ha hu _ =>
    have hx : ∀ e ∈ t.waits, e.2 ≠ x := by
      rintro e hmem rfl
      exact not_asking_of_askable ha (hw.asking e hmem)
    obtain ⟨hc, hcw, hsub⟩ := cancel_spec hw.waiters hx hu
    have hcn : (u.cancel x task).neighbors = t.neighbors := by rw [hc]
    refine ⟨⟨by rw [hcn]; exact hw.neighbors, hcw, ?_⟩, ?_⟩
    · intro e hmem
      rw [asking_of_eq hcn]; exact hw.asking e (hsub.subset hmem)
    · intro c
      exact le_trans ((hsub.map _).sum_le_sum fun _ _ => Nat.zero_le _) (Nat.le_add_right ..)
  | asked _ hu hv => exact put_asked hw hu hv

theorem lookup_asked {t : Table} (hw : t.WF) (x : Ipv4.Address) (task : Option Task) (now : Instant) :
    t.Asked task (t.lookup x task now).1 (t.lookup x task now).2 :=
  asked_of_lookedUp hw (lookup_lookedUp t x task now)

theorem lookup_wf {t : Table} (hw : t.WF) (x : Ipv4.Address) (task : Option Task) (now : Instant) :
    (t.lookup x task now).2.WF :=
  (lookup_asked hw x task now).wf

/-- Looking up makes at most the task wait anew, and only if the answer is to wait. -/
theorem weight_lookup_le {t : Table} (hw : t.WF) (x : Ipv4.Address) (task : Option Task) (now : Instant)
    (c : Task → Nat) : (t.lookup x task now).2.waits.weight c ≤
      t.waits.weight c + if (t.lookup x task now).1 = .error .wouldBlock then task.elim 0 c else 0 :=
  (lookup_asked hw x task now).weight_le c

theorem lookup_of_ok {t : Table} {x : Ipv4.Address} {task : Option Task} {now : Instant}
    {a : Ethernet.Address} (h : (t.lookup x task now).1 = .ok a) : (t.lookup x task now).2 = t := by
  have hl := lookup_lookedUp t x task now
  rw [h] at hl
  generalize (t.lookup x task now).2 = t' at hl ⊢
  cases hl with
  | settled => rfl

/-! ## Receiving a message -/

/-- Learning an address wakes who waits for it, and disturbs nobody else. -/
theorem enter_wake {t u t' : Table} (hw : t.WF) {x : Ipv4.Address} {hardware : Ethernet.Address}
    {now : Option Instant} (he : t.enter x hardware now = .ok u) {w w' : Wakeups}
    (h : u.wake x w = (t', w')) : t'.WF ∧ Moves t.waits w t'.waits w' ∧ ¬ t'.Asking x := by
  obtain ⟨hue, huw, hux, -⟩ := put_eq_ok hw.neighbors he
  have huwait : u.waiters = t.waiters := by rw [hue]
  obtain ⟨hte, htw, hl, hm⟩ := wake_spec (by rw [huwait]; exact hw.waiters) h
  rw [waits_of_eq huwait] at hl hm
  have hn : t'.neighbors = u.neighbors := by rw [hte]
  refine ⟨⟨by rw [hn]; exact huw, htw, ?_⟩, hm, ?_⟩
  · intro e hmem
    rw [hl, List.mem_filter] at hmem
    have hx : e.2 ≠ x := by simpa using hmem.2
    rw [asking_of_eq hn]
    exact asking_put hw.neighbors he hx (hw.asking e hmem.1)
  · rw [asking_of_eq hn]
    rintro ⟨_, _, _, hq⟩; rw [hux] at hq; cases hq

/-- An answer only adds to the messages that wait to be sent. -/
theorem answered_eq {t t' : Table} {m : Message} (h : t' = t ∨ t' = t.post m) :
    ∃ outbox, t' = { t with outbox := outbox } := by
  rcases h with rfl | rfl
  · exact ⟨t'.outbox, rfl⟩
  · exact post_eq t m

theorem receive_moves {t t' : Table} (hw : t.WF) {m : Message} {now : Instant} {w w' : Wakeups}
    {r : Except Fault Unit} (h : t.receive m now w = (r, t', w')) : t'.WF ∧ Moves t.waits w t'.waits w' := by
  have hr := receive_received t m now w
  rw [h] at hr
  cases hr with
  | ignored => exact ⟨hw, Moves.refl _ _⟩
  | learned he hv ht =>
    obtain ⟨hvw, hm, -⟩ := enter_wake hw he hv
    obtain ⟨outbox, rfl⟩ := answered_eq ht
    exact ⟨with_outbox_wf hvw outbox, hm⟩

/-- A message with a proper sender ends the question for the sender. -/
theorem not_asking_receive {t t' : Table} (hw : t.WF) {m : Message} {now : Instant} {w w' : Wakeups}
    {r : Except Fault Unit} (h : t.receive m now w = (r, t', w')) (hs : m.srcAddr.isUnicast = true)
    (hh : m.srcHardware.isUnicast = true) : ¬ t'.Asking m.srcAddr := by
  have hr := receive_received t m now w
  rw [h] at hr
  cases hr with
  | ignored hn => exact fun ha => hn ⟨hs, hh, ha⟩
  | learned he hv ht =>
    obtain ⟨outbox, rfl⟩ := answered_eq ht
    exact (enter_wake hw he hv).2.2

/-! ## The passing of time -/

theorem expire_moves {t : Table} (hw : t.WF) (now : Instant) (w : Wakeups) :
    (t.expire now w).1.WF ∧ Moves t.waits w (t.expire now w).1.waits (t.expire now w).2 := by
  have h := expire_expired hw.neighbors hw.waiters now w
  refine ⟨⟨h.neighbors, h.waiters, ?_⟩, h.moves⟩
  intro e he
  rw [h.waits, List.mem_filter] at he
  rcases h.asking (hw.asking e he.1) with ha | ⟨hd, hr⟩
  · exact ha
  · simp [hd, hr] at he

end Table

/-! ## Either way of finding addresses -/

namespace Resolver

/-- Tasks wait only for addresses that are being asked for. -/
def WF : Resolver → Prop
  | derived => True
  | table t => t.WF

/-- The waiting tasks with their addresses. -/
def waits : Resolver → Waits
  | derived => []
  | table t => t.waits

/-- A question for an address is under way. -/
def Asking (r : Resolver) (x : Ipv4.Address) : Prop :=
  match r with
  | derived => False
  | table t => t.Asking x

theorem asking_of_mem_waits {r : Resolver} (hw : r.WF) {e : Task × Ipv4.Address} (h : e ∈ r.waits) :
    r.Asking e.2 := by
  cases r with
  | derived => cases h
  | table t => exact Table.WF.asking hw e h

theorem weight_waits_le {r : Resolver} (hw : r.WF) : r.waits.weight (fun _ => 1) ≤ Limits.waiters := by
  cases r with
  | derived => exact Nat.zero_le _
  | table t => exact Table.weight_waits_le (Table.WF.waiters hw)

theorem lookup_wf {r : Resolver} (hw : r.WF) (x : Ipv4.Address) (task : Option Task) (now : Instant) :
    (r.lookup x task now).2.WF := by
  cases r with
  | derived => trivial
  | table t => exact Table.lookup_wf hw x task now

/-- Looking up makes at most the task wait anew, and only if the answer is to wait. -/
theorem weight_lookup_le {r : Resolver} (hw : r.WF) (x : Ipv4.Address) (task : Option Task)
    (now : Instant) (c : Task → Nat) : (r.lookup x task now).2.waits.weight c ≤
      r.waits.weight c + if (r.lookup x task now).1 = .error .wouldBlock then task.elim 0 c else 0 := by
  cases r with
  | derived => exact Nat.le_add_right ..
  | table t => exact Table.weight_lookup_le hw x task now c

theorem lookup_of_ok {r : Resolver} {x : Ipv4.Address} {task : Option Task} {now : Instant}
    {a : Ethernet.Address} (h : (r.lookup x task now).1 = .ok a) : (r.lookup x task now).2 = r := by
  cases r with
  | derived => rfl
  | table t => exact congrArg table (Table.lookup_of_ok h)

theorem expire_moves {r : Resolver} (hw : r.WF) (now : Instant) (w : Wakeups) :
    (r.expire now w).1.WF ∧ Moves r.waits w (r.expire now w).1.waits (r.expire now w).2 := by
  cases r with
  | derived => exact ⟨trivial, Moves.refl _ _⟩
  | table t => exact Table.expire_moves hw now w

theorem outgoing_waits (r : Resolver) : r.outgoing.2.waits = r.waits := by cases r <;> rfl

theorem outgoing_wf {r : Resolver} (hw : r.WF) : r.outgoing.2.WF := by
  cases r with
  | derived => trivial
  | table t => exact Table.with_outbox_wf hw _

/-- The number of messages that wait to be sent. -/
def backlog : Resolver → Nat
  | derived => 0
  | table t => t.outbox.size

theorem backlog_outgoing (r : Resolver) : r.outgoing.2.backlog = r.backlog - 1 := by
  cases r with
  | derived => rfl
  | table t => exact Queue.size_pop t.outbox

theorem outgoing_of_backlog {r : Resolver} (h : r.backlog = 0) : r.outgoing.1 = none := by
  cases r with
  | derived => rfl
  | table t =>
    have hp : t.outbox.pop.1 = none := by rw [Queue.pop_of_isEmpty (beq_iff_eq.2 h)]
    show (t.outbox.pop.1).map _ = none
    rw [hp]
    rfl

theorem outgoing_enter {t t' : Table} {x : Ipv4.Address} {hardware : Ethernet.Address} {now : Option Instant}
    (h : t.enter x hardware now = .ok t') : (table t').outgoing.1 = (table t).outgoing.1 := by
  show (t'.outbox.pop.1).map _ = (t.outbox.pop.1).map _
  rw [Table.enter_outbox h]

theorem receivePass_moves {r r' : Resolver} (hw : r.WF) {p : Packet} {now : Instant} {w w' : Wakeups}
    {next : Except Fault Next} (h : r.receivePass p now w = some (next, r', w')) :
    r'.WF ∧ Moves r.waits w r'.waits w' := by
  rcases receivePass_heard h with ⟨rfl, rfl⟩ | ⟨t, _, m, rfl, -, -, rfl, rfl⟩
  · exact ⟨hw, Moves.refl _ _⟩
  · exact Table.receive_moves hw (r := (t.receive m now w).1) rfl

end Resolver

end UdpStack.Arp
