/-
What finding hardware addresses takes for granted. Wherever an operation goes on in one of several ways, it
comes to the demands of all of them here that are met in any case. The tables that programs can have (`Built`)
meet the demands of every call (`Stored.met_call`), whatever wake-ups are recorded meanwhile, and every answer of
a resolver that programs can have meets its own (`Resolver.Built.met_lookup` and so on).
-/
import UdpStack.Proofs.Arp.Calls
import UdpStack.Proofs.Arp.Kept
import UdpStack.Proofs.Demands.Headers

namespace UdpStack

open Bounded

/-! ## Wake-ups -/

namespace Wakeups

/-- Looking for a task among the recorded ones, and recording it if it is not there. -/
def wakeDemands (w : Wakeups) (t : Task) : List Demand :=
  w.pending.iterDemands ++ if t ∈ w.pending.toList then [] else w.pending.pushDemands

def deliverDemands (w : Wakeups) : List Demand := w.pending.drainDemands w.pending.size

theorem met_wake {w : Wakeups} (hw : w.pending.WF) (t : Task) : AllMet (w.wakeDemands t) :=
  allMet_append.2 ⟨hw.met_iter, allMet_ite (fun _ => allMet_nil) fun _ => hw.met_push⟩

theorem met_deliver {w : Wakeups} (hw : w.pending.WF) : AllMet w.deliverDemands := hw.met_drain _

theorem wakeAll_wf : ∀ (ts : List Task) {w : Wakeups}, w.pending.WF → (w.wakeAll ts).pending.WF
  | [], _, hw => hw
  | t :: ts, _, hw => wakeAll_wf ts (wake_tasks hw t).1

end Wakeups

namespace Arp

theorem Moves.wf {l l' : Waits} {w w' : Wakeups} (h : Moves l w l' w') (hw : w.pending.WF) : w'.pending.WF := by
  obtain ⟨ts, rfl, -⟩ := h
  exact Wakeups.wakeAll_wf ts hw

namespace Table

variable {t : Table}

/-! ## Tasks that wait -/

/-- Taking a task out of those that wait, and putting it back behind the others. -/
def waitDemands (t : Table) : Option Task → List Demand
  | none => []
  | some task => t.waiters.extractDemands (fun e => e.1 == task) ++ (t.others task).pushDemands

def cancelDemands (t : Table) (x : Ipv4.Address) (task : Option Task) : List Demand :=
  t.waiters.extractDemands fun e => some e.1 == task && e.2 == x

/-- Taking out up to `k` tasks that wait for an address, and recording each. -/
def releaseDemands (x : Ipv4.Address) : Nat → Seq (Task × Ipv4.Address) Limits.waiters → Wakeups → List Demand
  | 0, ws, _ => ws.iterDemands
  | k + 1, ws, w => ws.extractDemands (fun e => e.2 == x) ++
    match ws.findIdx? fun e => e.2 == x with
    | none => []
    | some i =>
      match ws.remove i with
      | (some e, rest) => w.wakeDemands e.1 ++ releaseDemands x k rest (w.wake e.1)
      | (none, rest) => releaseDemands x k rest w

def wakeDemands (t : Table) (x : Ipv4.Address) (w : Wakeups) : List Demand :=
  releaseDemands x t.waiters.size t.waiters w

theorem met_wait (hw : t.waiters.WF) : ∀ task : Option Task, AllMet (t.waitDemands task)
  | none => allMet_nil
  | some task => allMet_append.2 ⟨hw.met_extract _, (others_wf hw task).met_push⟩

theorem met_cancel (hw : t.waiters.WF) (x : Ipv4.Address) (task : Option Task) : AllMet (t.cancelDemands x task) :=
  hw.met_extract _

theorem met_release (x : Ipv4.Address) : ∀ (k : Nat) {ws : Seq (Task × Ipv4.Address) Limits.waiters} {w : Wakeups},
    ws.WF → w.pending.WF → AllMet (releaseDemands x k ws w)
  | 0, _, _, hs, _ => hs.met_iter
  | k + 1, ws, w, hs, hw => by
    unfold releaseDemands
    refine allMet_append.2 ⟨hs.met_extract _, ?_⟩
    split
    · exact allMet_nil
    · rename_i i _
      have hrest := Seq.remove_wf hs i
      split
      · rename_i e rest he
        rw [he] at hrest
        exact allMet_append.2 ⟨Wakeups.met_wake hw _, met_release x k hrest (Wakeups.wake_tasks hw _).1⟩
      · rename_i rest he
        rw [he] at hrest
        exact met_release x k hrest hw

theorem met_wake (hs : t.waiters.WF) {w : Wakeups} (hw : w.pending.WF) (x : Ipv4.Address) :
    AllMet (t.wakeDemands x w) :=
  met_release x _ hs hw

/-! ## Entries -/

/-- Setting the entry of an address, which may take the place of another one. -/
def putDemands (t : Table) (x : Ipv4.Address) (n : Neighbor) (now : Instant) : List Demand :=
  t.neighbors.findDemands ++ t.neighbors.insertDemands x ++
    match t.neighbors.insert x n with
    | .ok _ => []
    | .error _ =>
      match t.victim? now with
      | none => []
      | some v => t.neighbors.removeDemands v ++ (t.neighbors.remove v).2.insertDemands x

def enterDemands (t : Table) (x : Ipv4.Address) (hardware : Ethernet.Address) (now : Option Instant) : List Demand :=
  t.putDemands x ⟨.resolved hardware, .ofOption (now.map (·.add lifetime))⟩ (now.getD ⟨0⟩)

theorem met_put (hn : t.neighbors.WF) (x : Ipv4.Address) (n : Neighbor) (now : Instant) :
    AllMet (t.putDemands x n now) := by
  refine allMet_append.2 ⟨allMet_append.2 ⟨hn.met_find, hn.met_insert x⟩, ?_⟩
  split
  · exact allMet_nil
  · split
    · exact allMet_nil
    · exact allMet_append.2 ⟨hn.met_remove _, (Map.remove_wf hn _).met_insert x⟩

theorem met_enter (hn : t.neighbors.WF) (x : Ipv4.Address) (hardware : Ethernet.Address) (now : Option Instant) :
    AllMet (t.enterDemands x hardware now) :=
  met_put hn _ _ _

/-! ## Looking an address up -/

/-- Waiting for an address, setting its entry, and posting a question or giving the wait up again. -/
def askDemands (t : Table) (x : Ipv4.Address) (task : Option Task) (now : Instant) : List Demand :=
  t.waitDemands task ++ match t.wait x task with
    | .error _ => []
    | .ok u => u.putDemands x (query now) now ++ u.cancelDemands x task ++ match u.put x (query now) now with
      | .error _ => []
      | .ok v => v.outbox.pushDemands

def lookupDemands (t : Table) (x : Ipv4.Address) (task : Option Task) (now : Instant) : List Demand :=
  t.neighbors.findDemands ++ t.askDemands x task now

theorem met_lookup (hs : t.Stored) (x : Ipv4.Address) (task : Option Task) (now : Instant) :
    AllMet (t.lookupDemands x task now) := by
  refine allMet_append.2 ⟨hs.neighbors.met_find, allMet_append.2 ⟨met_wait hs.waiters task, ?_⟩⟩
  split
  · exact allMet_nil
  · rename_i u hu
    obtain ⟨he, hw⟩ := wait_frame hs.waiters hu
    have hn : u.neighbors.WF := by rw [he]; exact hs.neighbors
    refine allMet_append.2 ⟨allMet_append.2 ⟨met_put hn _ _ _, met_cancel hw x task⟩, ?_⟩
    split
    · exact allMet_nil
    · exact Queue.met_push (by decide) _

/-! ## Receiving a message -/

/-- Looking for the sender, entering it, waking who waits for it, and posting an answer. -/
def receiveDemands (t : Table) (m : Message) (now : Instant) (w : Wakeups) : List Demand :=
  t.neighbors.findDemands ++ t.enterDemands m.srcAddr m.srcHardware (some now) ++
    match t.enter m.srcAddr m.srcHardware (some now) with
    | .error _ => []
    | .ok u => u.wakeDemands m.srcAddr w ++ (u.wake m.srcAddr w).1.outbox.pushDemands

theorem met_receive (hs : t.Stored) {w : Wakeups} (hw : w.pending.WF) (m : Message) (now : Instant) :
    AllMet (t.receiveDemands m now w) := by
  refine allMet_append.2 ⟨allMet_append.2 ⟨hs.neighbors.met_find, met_enter hs.neighbors _ _ _⟩, ?_⟩
  split
  · exact allMet_nil
  · rename_i u hu
    have he := (put_eq_ok hs.neighbors hu).1
    have hwaiters : u.waiters.WF := by rw [he]; exact hs.waiters
    exact allMet_append.2 ⟨met_wake hwaiters hw _, Queue.met_push (by decide) _⟩

theorem Received.wf {t' : Table} {m : Message} {now : Instant} {w w' : Wakeups} (h : Received t m now w t' w')
    (hs : t.Stored) (hw : w.pending.WF) : w'.pending.WF := by
  cases h with
  | ignored _ => exact hw
  | @learned u v _ _ he hv _ =>
    have hu := (put_eq_ok hs.neighbors he).1
    have hwaiters : u.waiters.WF := by rw [hu]; exact hs.waiters
    exact (wake_spec hwaiters hv).2.2.2.wf hw

/-! ## The passing of time -/

/-- Asking again for the addresses that are due, or collecting those that are given up. -/
def sweepDemands (now : Instant) : List Ipv4.Address → Table × List Ipv4.Address → List Demand
  | [], _ => []
  | x :: xs, state =>
    state.1.neighbors.findDemands ++ state.1.outbox.pushDemands ++
      insertDemands state.2.length state.2.length Limits.neighbors ++ sweepDemands now xs (retry now state x)

/-- Waking who waits for some addresses, one after the other. -/
def wakeEachDemands : List Ipv4.Address → Table → Wakeups → List Demand
  | [], _, _ => []
  | x :: xs, t, w => t.wakeDemands x w ++ wakeEachDemands xs (t.wake x w).1 (t.wake x w).2

/-- The addresses that are due, and those that are given up, are collected in tables as large as the one of
entries. -/
def expireDemands (t : Table) (now : Instant) (w : Wakeups) : List Demand :=
  let due := t.due now
  let swept := due.foldl (retry now) (t, [])
  t.neighbors.findDemands ++ collectDemands due.length Limits.neighbors ++ sweepDemands now due (t, []) ++
    [.range 0 swept.2.length Limits.neighbors] ++ wakeEachDemands swept.2 swept.1 w

theorem retry_wf (now : Instant) {state : Table × List Ipv4.Address} (h : state.1.neighbors.WF) (x : Ipv4.Address) :
    (retry now state x).1.neighbors.WF ∧ (retry now state x).2.length ≤ state.2.length + 1 := by
  obtain ⟨u, given⟩ := state
  have hset := Map.set_wf h x
  unfold retry
  dsimp only
  split
  · exact ⟨h, Nat.le_succ _⟩
  · split
    · split
      · unfold request
        rw [post_neighbors]
        exact ⟨hset _, Nat.le_succ _⟩
      · exact ⟨hset _, List.length_append.le⟩
    · exact ⟨hset _, List.length_append.le⟩

theorem met_sweep (now : Instant) : ∀ (xs : List Ipv4.Address) (state : Table × List Ipv4.Address),
    state.1.neighbors.WF → state.2.length + xs.length ≤ Limits.neighbors →
    AllMet (sweepDemands now xs state) ∧ (xs.foldl (retry now) state).2.length ≤ Limits.neighbors
  | [], _, _, hl => ⟨allMet_nil, hl⟩
  | x :: xs, state, hn, hl => by
    rw [List.length_cons] at hl
    obtain ⟨hn', hlen⟩ := retry_wf now hn x
    obtain ⟨hrest, hend⟩ := met_sweep now xs _ hn' (by omega)
    refine ⟨allMet_append.2 ⟨allMet_append.2 ⟨allMet_append.2 ⟨hn.met_find, ?_⟩, ?_⟩, hrest⟩, hend⟩
    · exact Queue.met_push (by decide) _
    · exact met_insertDemands (by omega) _

theorem met_wakeEach : ∀ (xs : List Ipv4.Address) {t : Table} {w : Wakeups}, t.waiters.WF → w.pending.WF →
    AllMet (wakeEachDemands xs t w)
  | [], _, _, _, _ => allMet_nil
  | x :: xs, t, w, hs, hw => by
    obtain ⟨-, hs', -, hm⟩ := wake_spec hs (rfl : t.wake x w = ((t.wake x w).1, (t.wake x w).2))
    exact allMet_append.2 ⟨met_wake hs hw x, met_wakeEach xs hs' (hm.wf hw)⟩

theorem length_due_le (hn : t.neighbors.WF) (now : Instant) : (t.due now).length ≤ Limits.neighbors := by
  have hle := (due_sublist t now).length_le
  rw [List.length_map] at hle
  exact hle.trans (hn.pairs.length_toList.le.trans hn.pairs.size_le)

theorem met_expire (hs : t.Stored) {w : Wakeups} (hw : w.pending.WF) (now : Instant) :
    AllMet (t.expireDemands now w) := by
  have hdue := length_due_le hs.neighbors now
  obtain ⟨hsweep, hgiven⟩ := met_sweep now (t.due now) (t, []) hs.neighbors (by simpa using hdue)
  have hframe := (due_swept hs.neighbors now).frame
  have hwaiters : ((t.due now).foldl (retry now) (t, [])).1.waiters.WF := by
    rw [hframe]
    exact hs.waiters
  unfold expireDemands
  dsimp only
  simp only [allMet_append, allMet_cons, allMet_nil, and_true]
  exact ⟨⟨⟨⟨hs.neighbors.met_find, met_collect hdue⟩, hsweep⟩, Nat.zero_le _, hgiven⟩, met_wakeEach _ hwaiters hw⟩

/-! ## Calls -/

/-- What a call of an operation takes for granted while some wake-ups are recorded. -/
def callDemands (t : Table) (w : Wakeups) : Call → List Demand
  | .lookup x task now => t.lookupDemands x task now
  | .receive m now => t.receiveDemands m now w
  | .expire now => t.expireDemands now w
  | .outgoing => t.outbox.popDemands
  | .enter x hardware now => t.enterDemands x hardware now

/-- What looking at an entry, or at the tasks that wait, takes for granted. -/
def lookDemands (t : Table) : List Demand := t.neighbors.findDemands ++ t.waiters.iterDemands

theorem Stored.met_call (hs : t.Stored) {w : Wakeups} (hw : w.pending.WF) (c : Call) :
    AllMet (t.callDemands w c) := by
  cases c with
  | lookup x task now => exact met_lookup hs x task now
  | receive m now => exact met_receive hs hw m now
  | expire now => exact met_expire hs hw now
  | outgoing => exact hs.outbox.met_pop (by decide)
  | enter x hardware now => exact met_enter hs.neighbors x hardware now

theorem Stored.met_look (hs : t.Stored) : AllMet t.lookDemands :=
  allMet_append.2 ⟨hs.neighbors.met_find, hs.waiters.met_iter⟩

/-- The tables that programs can have. -/
inductive Built : Table → Prop where
  | create (hardware : Ethernet.Address) (addr mask : Ipv4.Address) : Built (create hardware addr mask)
  | lookup {t : Table} (x : Ipv4.Address) (task : Option Task) (now : Instant) :
      Built t → Built (t.lookup x task now).2
  | receive {t : Table} (m : Message) (now : Instant) (w : Wakeups) : Built t → Built (t.receive m now w).2.1
  | expire {t : Table} (now : Instant) (w : Wakeups) : Built t → Built (t.expire now w).1
  | outgoing {t : Table} : Built t → Built t.outgoing.2
  | enter {t t' : Table} {x : Ipv4.Address} {hardware : Ethernet.Address} {now : Option Instant} :
      Built t → t.enter x hardware now = .ok t' → Built t'

theorem Built.stored (h : t.Built) : t.Stored := by
  induction h with
  | create hardware addr mask => exact create_stored hardware addr mask
  | lookup x task now _ ih => exact stored_kept.lookup x task now ih
  | receive m now w _ ih => exact stored_kept.receive m now w ih
  | expire now w _ ih => exact stored_kept.expire now w ih
  | outgoing _ ih => exact stored_kept.outgoing ih
  | enter _ he ih => exact stored_kept.enter ih he

theorem built_kept : Kept Built where
  lookup x task now ht := .lookup x task now ht
  receive m now w ht := .receive m now w ht
  expire now w ht := .expire now w ht
  outgoing ht := .outgoing ht
  enter ht h := .enter ht h

end Table

/-! ## Resolvers -/

namespace Resolver

/-- The resolvers that programs can have. -/
def Built (r : Resolver) : Prop := ∀ t, r = .table t → t.Built

def lookupDemands (x : Ipv4.Address) (task : Option Task) (now : Instant) : Resolver → List Demand
  | derived => []
  | table t => t.lookupDemands x task now

def expireDemands (now : Instant) (w : Wakeups) : Resolver → List Demand
  | derived => []
  | table t => t.expireDemands now w

def outgoingDemands : Resolver → List Demand
  | derived => []
  | table t => t.outbox.popDemands

def fillDemands (x : Ipv4.Address) (hardware : Ethernet.Address) (now : Option Instant) : Resolver → List Demand
  | derived => []
  | table t => t.enterDemands x hardware now

/-- Reading a message if the bytes suffice for one, and learning from it. -/
def receiveDemands (p : Packet) (now : Instant) (w : Wakeups) : Resolver → List Demand
  | derived => []
  | table t => p.unreadDemands ++ match p.unread? with
    | none => []
    | some bytes => (if bytes.length < Message.size then [] else Message.readDemands bytes.length) ++
      match Message.parse bytes with
      | .error _ => []
      | .ok m => t.receiveDemands m now w

variable {r : Resolver}

theorem Built.met_lookup (hr : r.Built) (x : Ipv4.Address) (task : Option Task) (now : Instant) :
    AllMet (r.lookupDemands x task now) := by
  cases r with
  | derived => exact allMet_nil
  | table t => exact Table.met_lookup (hr t rfl).stored x task now

theorem Built.met_expire (hr : r.Built) {w : Wakeups} (hw : w.pending.WF) (now : Instant) :
    AllMet (r.expireDemands now w) := by
  cases r with
  | derived => exact allMet_nil
  | table t => exact Table.met_expire (hr t rfl).stored hw now

theorem Built.met_outgoing (hr : r.Built) : AllMet r.outgoingDemands := by
  cases r with
  | derived => exact allMet_nil
  | table t => exact (hr t rfl).stored.outbox.met_pop (by decide)

theorem Built.met_fill (hr : r.Built) (x : Ipv4.Address) (hardware : Ethernet.Address) (now : Option Instant) :
    AllMet (r.fillDemands x hardware now) := by
  cases r with
  | derived => exact allMet_nil
  | table t => exact Table.met_enter (hr t rfl).stored.neighbors x hardware now

theorem Built.met_receive (hr : r.Built) {w : Wakeups} (hw : w.pending.WF) {p : Packet} {bytes : Octets}
    (hu : p.unread? = some bytes) (now : Instant) : AllMet (r.receiveDemands p now w) := by
  cases r with
  | derived => exact allMet_nil
  | table t =>
    simp only [receiveDemands, hu]
    refine allMet_append.2 ⟨Packet.met_unread hu, allMet_append.2 ⟨allMet_ite (fun _ => allMet_nil) ?_, ?_⟩⟩
    · exact fun hl => Message.met_read (Nat.not_lt.1 hl)
    · split
      · exact allMet_nil
      · exact Table.met_receive (hr t rfl).stored hw _ now

/-! ## What programs can have stays so -/

theorem Built.lookup (hr : r.Built) (x : Ipv4.Address) (task : Option Task) (now : Instant) :
    (r.lookup x task now).2.Built :=
  All.lookup hr Table.built_kept x task now

theorem Built.expire (hr : r.Built) (now : Instant) (w : Wakeups) : (r.expire now w).1.Built :=
  All.expire hr Table.built_kept now w

theorem Built.outgoing (hr : r.Built) : r.outgoing.2.Built := All.outgoing hr Table.built_kept

/-- A message leaves a resolver that programs can have, and wake-ups that are stored in order. -/
theorem Built.receivePass (hr : r.Built) {p : Packet} {now : Instant} {w w' : Wakeups} {next : Except Fault Next}
    {r' : Resolver} (hw : w.pending.WF) (h : r.receivePass p now w = some (next, r', w')) :
    r'.Built ∧ w'.pending.WF := by
  refine ⟨All.receivePass hr Table.built_kept h, ?_⟩
  rcases receivePass_heard h with ⟨-, rfl⟩ | ⟨t, _, m, rfl, -, -, -, rfl⟩
  · exact hw
  · exact (Table.receive_received t m now w).wf (hr t rfl).stored hw

theorem Built.expire_wf (hr : r.Built) {w : Wakeups} (hw : w.pending.WF) (now : Instant) :
    (r.expire now w).2.pending.WF := by
  cases r with
  | derived => exact hw
  | table t =>
    have hs := (hr t rfl).stored
    exact (Table.expire_expired hs.neighbors hs.waiters now w).moves.wf hw

end Resolver

end Arp

end UdpStack
