/-
Runs of a table of neighbors. A run starts from a table without entries and makes calls in any
order; the wake-ups are delivered after each call, so every call starts without any. Each call takes
the entry of an address, and the questions that it posts for that address, through one of a few
turns (`turn_after`); what holds of whole runs is shown turn by turn.
-/
import UdpStack.Proofs.Arp.Kept
import UdpStack.Proofs.Arp.Steps

namespace UdpStack.Arp

open Bounded

/-- A question for an address. -/
def Message.asksFor (m : Message) (x : Ipv4.Address) : Bool := m.operation == .request && m.dstAddr == x

namespace Table

/-! ## Calls -/

/-- A call of an operation. -/
inductive Call where
  | lookup (x : Ipv4.Address) (task : Option Task) (now : Instant)
  | receive (m : Message) (now : Instant)
  | expire (now : Instant)
  | outgoing
  /-- A mapping entered by hand. -/
  | enter (x : Ipv4.Address) (hardware : Ethernet.Address) (now : Option Instant)

/-- Nothing is entered by hand. -/
def Call.Unaided : Call → Prop
  | enter .. => False
  | _ => True

/-- The moment at which a call is made, if it is told one. -/
def Call.instant? : Call → Option Instant
  | lookup _ _ now | receive _ now | expire now => some now
  | outgoing => none
  | enter _ _ now => now

/-- The table after a call, and the tasks to be notified. -/
def perform (t : Table) : Call → Table × Wakeups
  | .lookup x task now => ((t.lookup x task now).2, .empty)
  | .receive m now => (t.receive m now .empty).2
  | .expire now => t.expire now .empty
  | .outgoing => (t.outgoing.2, .empty)
  | .enter x hardware now => ((t.enter x hardware now).toOption.getD t, .empty)

/-- The table after a call. -/
def after (t : Table) (c : Call) : Table := (t.perform c).1

/-- The table after several calls. -/
def run (t : Table) (cs : List Call) : Table := cs.foldl after t

@[simp] theorem run_nil (t : Table) : t.run [] = t := rfl

@[simp] theorem run_cons (t : Table) (c : Call) (cs : List Call) : t.run (c :: cs) = (t.after c).run cs := rfl

@[simp] theorem run_append (t : Table) (cs ds : List Call) : t.run (cs ++ ds) = (t.run cs).run ds :=
  List.foldl_append

/-- The tables that calls of some kind lead to, from a table without entries. -/
inductive Reachable (allowed : Call → Prop) : Table → Prop where
  | create (hardware : Ethernet.Address) (addr mask : Ipv4.Address) :
      Reachable allowed (create hardware addr mask)
  | call {t : Table} (c : Call) : Reachable allowed t → allowed c → Reachable allowed (t.after c)

theorem Reachable.run {allowed : Call → Prop} : ∀ {cs : List Call} {t : Table}, Reachable allowed t →
    (∀ c ∈ cs, allowed c) → Reachable allowed (t.run cs)
  | [], _, h, _ => h
  | c :: _, _, h, hc =>
    (Reachable.call c h (hc c List.mem_cons_self)).run fun d hd => hc d (List.mem_cons_of_mem _ hd)

/-! ## Questions that a run posts -/

/-- The messages that a call leaves behind those that waited to be sent before. -/
def posted (t : Table) (c : Call) : List Message :=
  (t.after c).outbox.toList.drop t.outbox.toList.length

/-- The moments at which a call posts questions for an address. -/
def questions (x : Ipv4.Address) (t : Table) (c : Call) : List Instant :=
  ((t.posted c).filter (·.asksFor x)).filterMap fun _ => c.instant?

/-- The moments at which a run posts questions for an address. -/
def asked (x : Ipv4.Address) (t : Table) : List Call → List Instant
  | [] => []
  | c :: cs => questions x t c ++ asked x (t.after c) cs

theorem asksFor_question (t : Table) (x y : Ipv4.Address) : (t.question y).asksFor x = (y == x) := by
  simp [Message.asksFor, question]

theorem asksFor_answer (t : Table) (m : Message) (x : Ipv4.Address) : (t.answer m).asksFor x = false := by
  simp [Message.asksFor, answer]

/-- A table whose messages, entries and waiting tasks are stored in order. -/
structure Stored (t : Table) : Prop where
  neighbors : t.neighbors.WF
  waiters : t.waiters.WF
  outbox : t.outbox.WF

section Posted

variable {t t' : Table} {c : Call} {ms : List Message} {x : Ipv4.Address}

theorem posted_sublist (hs : t.Stored) (hc : t.after c = t') (h : Posts t t' ms) :
    (t.posted c).Sublist ms := by
  obtain ⟨-, ns, hn, hsub⟩ := h hs.outbox
  unfold posted
  rw [hc, hn, List.drop_left]; exact hsub

theorem questions_eq_nil (h : ∀ m ∈ t.posted c, m.asksFor x = false) : questions x t c = [] := by
  have hn : (t.posted c).filter (·.asksFor x) = [] :=
    List.filter_eq_nil_iff.2 fun m hm => by rw [h m hm]; exact Bool.false_ne_true
  unfold questions; rw [hn]; rfl

theorem questions_of_posts (hs : t.Stored) (hc : t.after c = t') (h : Posts t t' ms)
    (hm : ∀ m ∈ ms, m.asksFor x = false) : questions x t c = [] :=
  questions_eq_nil fun m hp => hm m ((posted_sublist hs hc h).subset hp)

/-- At most one question for an address is posted at the moment of the call. -/
theorem questions_sublist {now : Instant} {m : Message} (hs : t.Stored) (hc : t.after c = t')
    (hi : c.instant? = some now) (h : Posts t t' ms) (hm : (ms.filter (·.asksFor x)).Sublist [m]) :
    (questions x t c).Sublist [now] := by
  have hsub : (questions x t c).Sublist ([m].filterMap fun _ => c.instant?) :=
    (((posted_sublist hs hc h).filter _).trans hm).filterMap _
  rw [hi] at hsub
  exact hsub

end Posted

/-! ## Turns of an entry -/

/-- Some task waits for an address. -/
def Awaited (t : Table) (x : Ipv4.Address) : Prop := ∃ task, (task, x) ∈ t.waits

/-- What a call makes of the entry of an address, with the moments of the questions that it posts for
the address. Once an entry is given up or learned from a message, `gone` holds. -/
inductive Turn (c : Call) (x : Ipv4.Address) (gone : Prop) :
    Option Neighbor → Option Neighbor → List Instant → Prop where
  | stay (n : Option Neighbor) : Turn c x gone n n []
  | ask {now : Instant} {n : Option Neighbor} {qs : List Instant} : c.instant? = some now →
      Askable now n → qs.Sublist [now] → Turn c x gone n (some (query now)) qs
  | again {now nextAt : Instant} {retries : Nat} {e : Expiry} {qs : List Instant} : c = .expire now →
      nextAt.total ≤ now.total → retries < maxRetries → qs.Sublist [now] →
      Turn c x gone (some ⟨.querying retries nextAt, e⟩)
        (some ⟨.querying (retries + 1) (now.add retryInterval), e⟩) qs
  | giveUp {now nextAt : Instant} {retries : Nat} {e : Expiry} : c = .expire now →
      nextAt.total ≤ now.total → ¬ retries < maxRetries → gone →
      Turn c x gone (some ⟨.querying retries nextAt, e⟩) (some ⟨.failed (now.add silentTime), e⟩) []
  | learn {m : Message} {now : Instant} {n : Option Neighbor} : c = .receive m now → m.srcAddr = x → gone →
      Turn c x gone n (some ⟨.resolved m.srcHardware, .due (now.add lifetime)⟩) []
  | enter {hardware : Ethernet.Address} {now : Option Instant} {n : Option Neighbor} :
      c = .enter x hardware now →
      Turn c x gone n (some ⟨.resolved hardware, .ofOption (now.map (·.add lifetime))⟩) []
  /-- The entry gives way to another one. -/
  | evict {now : Instant} {n : Neighbor} : (c.Unaided → c.instant? = some now) →
      (evictable now n).isSome = true → Turn c x gone (some n) none []

section Turns

variable {t t' : Table} {x : Ipv4.Address}

theorem neighbor?_of_eq {u : Table} (h : u.neighbors = t.neighbors) : u.neighbor? x = t.neighbor? x := by
  unfold neighbor?; rw [h]

/-- The entries of other addresses when one is set. -/
theorem turn_put_other (hn : t.neighbors.WF) {y : Ipv4.Address} {n : Neighbor} {c : Call} {now : Instant}
    (gone : Prop) (hc : c.Unaided → c.instant? = some now) (h : t.put y n now = .ok t') (hx : x ≠ y) :
    Turn c x gone (t.neighbor? x) (t'.neighbor? x) [] := by
  rcases (put_eq_ok hn h).2.2.2 x hx with he | ⟨hv, hnone⟩
  · have he : t'.neighbor? x = t.neighbor? x := he
    rw [he]; exact .stay _
  · obtain ⟨old, ho, he⟩ := victim?_eq_some hn hv
    have ho : t.neighbor? x = some old := ho
    have hnone : t'.neighbor? x = none := hnone
    rw [ho, hnone]; exact .evict hc he

theorem turn_lookup (hs : t.Stored) {y : Ipv4.Address} {task : Option Task} {now : Instant}
    {r : Except Fault Ethernet.Address} (h : LookedUp t y task now r t') (gone : Prop)
    (hc : t.after (.lookup y task now) = t') :
    Turn (.lookup y task now) x gone (t.neighbor? x) (t'.neighbor? x)
      (questions x t (.lookup y task now)) := by
  have same : t'.neighbors = t.neighbors → t'.outbox = t.outbox →
      Turn (.lookup y task now) x gone (t.neighbor? x) (t'.neighbor? x)
        (questions x t (.lookup y task now)) := by
    intro hn ho
    rw [neighbor?_of_eq hn, questions_of_posts hs hc (.of_eq ho) nofun]; exact .stay _
  cases h with
  | settled => exact same rfl rfl
  | joined _ hu =>
    have he := (wait_frame hs.waiters hu).1
    exact same (by rw [he]) (by rw [he])
  | @crowded u _ _ hu _ =>
    obtain ⟨he, hw⟩ := wait_frame hs.waiters hu
    have hf := (cancel_frame hw y task).1
    exact same (by rw [hf, he]) (by rw [hf, he])
  | @asked u v ha hu hv =>
    have he := (wait_frame hs.waiters hu).1
    have hun : u.neighbors.WF := by rw [he]; exact hs.neighbors
    obtain ⟨hve, -, hvx, -⟩ := put_eq_ok hun hv
    have hp : Posts t (v.request y) [v.question y] :=
      Posts.trans (.of_eq (by rw [hve, he])) (post_posts v _)
    have hr : (v.request y).neighbor? x = v.neighbor? x := neighbor?_of_eq (post_neighbors v _)
    have hun' : u.neighbor? x = t.neighbor? x := neighbor?_of_eq (by rw [he])
    rw [hr]
    by_cases hx : x = y
    · subst hx
      have hvx : v.neighbor? x = some (query now) := hvx
      rw [hvx]
      exact .ask rfl ha (questions_sublist hs hc rfl hp (List.filter_sublist ..))
    · rw [questions_of_posts hs hc hp, ← hun']
      · exact turn_put_other hun gone (fun _ => rfl) hv hx
      · intro m hm
        rw [List.mem_singleton.1 hm, asksFor_question]
        simpa using fun h => hx h.symm

theorem turn_receive (hs : t.Stored) {m : Message} {now : Instant} {w' : Wakeups}
    (h : Received t m now .empty t' w') (hc : t.after (.receive m now) = t') :
    Turn (.receive m now) x (¬ t'.Awaited x) (t.neighbor? x) (t'.neighbor? x)
      (questions x t (.receive m now)) := by
  cases h with
  | ignored =>
    rw [questions_of_posts hs hc (.of_eq rfl) nofun]; exact .stay _
  | @learned u v _ _ he hv ht =>
    obtain ⟨hue, hun, hux, -⟩ := put_eq_ok hs.neighbors he
    have huw : u.waiters.WF := by rw [hue]; exact hs.waiters
    obtain ⟨hve, -, hl, -⟩ := wake_spec huw hv
    have hp : Posts t t' [v.answer m] := by
      have hv' : Posts t v [] := .of_eq (by rw [hve, hue])
      rcases ht with rfl | rfl
      · exact Posts.mono hv' (List.nil_sublist _)
      · exact hv'.trans (post_posts v _)
    have hn : t'.neighbor? x = u.neighbor? x := by
      have : t'.neighbors = v.neighbors := by rcases ht with rfl | rfl <;> simp
      exact neighbor?_of_eq (by rw [this, hve])
    have hwaits : t'.waits = v.waits := by rcases ht with rfl | rfl <;> simp
    rw [questions_of_posts hs hc hp, hn]
    · by_cases hx : x = m.srcAddr
      · subst hx
        have hux : u.neighbor? m.srcAddr = _ := hux
        rw [hux]
        refine .learn rfl rfl ?_
        rintro ⟨task, hm⟩
        rw [hwaits, hl, List.mem_filter] at hm
        simp at hm
      · exact turn_put_other hs.neighbors _ (fun _ => rfl) he hx
    · intro m' hm
      rw [List.mem_singleton.1 hm, asksFor_answer]

/-- Questions for different addresses: at most one of them is for `x`. -/
theorem filter_questions_sublist (t : Table) (x : Ipv4.Address) {xs : List Ipv4.Address} (hn : xs.Nodup) :
    ((xs.map t.question).filter (·.asksFor x)).Sublist [t.question x] := by
  have hf : ((fun m => m.asksFor x) ∘ t.question) = fun y => y == x := by
    funext y; exact asksFor_question t x y
  rw [List.filter_map, hf, List.filter_beq, List.map_replicate]
  exact (List.replicate_sublist_replicate (t.question x)).2 (List.nodup_iff_count_le_one.1 hn x)

theorem turn_expire (hs : t.Stored) {now : Instant} {w' : Wakeups} (h : Expired t now .empty t' w')
    (hc : t.after (.expire now) = t') :
    Turn (.expire now) x (¬ t'.Awaited x) (t.neighbor? x) (t'.neighbor? x)
      (questions x t (.expire now)) := by
  have hentry := h.entry x
  have silent : x ∉ (t.due now).filter t.asksAgain → questions x t (.expire now) = [] := by
    intro hx
    refine questions_of_posts hs hc h.posts fun m hm => ?_
    obtain ⟨y, hy, rfl⟩ := List.mem_map.1 hm
    rw [asksFor_question]
    exact beq_false_of_ne fun hyx => hx (hyx ▸ hy)
  by_cases hd : x ∈ t.due now
  · rw [if_pos hd] at hentry
    obtain ⟨retries, nextAt, e, hn, hle⟩ := (mem_due hs.neighbors).1 hd
    have ha : t.asksAgain x = decide (retries < maxRetries) := by unfold asksAgain; rw [hn]
    rw [hentry, hn, Option.map_some]
    unfold aged
    dsimp only
    split
    · rename_i hr
      have hq := filter_questions_sublist t x ((due_nodup hs.neighbors now).filter t.asksAgain)
      exact .again rfl hle hr (questions_sublist hs hc rfl h.posts hq)
    · rename_i hr
      rw [decide_eq_false hr] at ha
      rw [silent (by simp [ha])]
      refine .giveUp rfl hle hr ?_
      rintro ⟨task, hm⟩
      rw [h.waits, List.mem_filter] at hm
      simp [hd, ha] at hm
  · rw [if_neg hd] at hentry
    rw [hentry, silent fun hx => hd (List.mem_of_mem_filter hx)]; exact .stay _

theorem turn_outgoing (gone : Prop) (hs : t.Stored) :
    Turn .outgoing x gone (t.neighbor? x) ((t.after .outgoing).neighbor? x) (questions x t .outgoing) := by
  have hp : t.posted .outgoing = [] := by
    unfold posted
    show t.outbox.pop.2.toList.drop _ = []
    rw [Queue.toList_pop hs.outbox]
    simp
  rw [questions_eq_nil (by rw [hp]; nofun)]; exact .stay _

theorem after_enter_ok {hardware : Ethernet.Address} {now : Option Instant}
    (h : t.enter x hardware now = .ok t') : t.after (.enter x hardware now) = t' := by
  show ((t.enter x hardware now).toOption.getD t) = t'
  rw [h]; rfl

theorem after_enter_error {hardware : Ethernet.Address} {now : Option Instant} {e : Fault}
    (h : t.enter x hardware now = .error e) : t.after (.enter x hardware now) = t := by
  show ((t.enter x hardware now).toOption.getD t) = t
  rw [h]; rfl

theorem turn_enter (gone : Prop) (hs : t.Stored) (y : Ipv4.Address) (hardware : Ethernet.Address)
    (now : Option Instant) :
    Turn (.enter y hardware now) x gone (t.neighbor? x) ((t.after (.enter y hardware now)).neighbor? x)
      (questions x t (.enter y hardware now)) := by
  cases he : t.enter y hardware now with
  | error e =>
    have hc := after_enter_error he
    rw [questions_of_posts hs hc (.of_eq rfl) nofun, hc]; exact .stay _
  | ok u =>
    have hc := after_enter_ok he
    obtain ⟨hue, -, hux, -⟩ := put_eq_ok hs.neighbors he
    rw [questions_of_posts hs hc (.of_eq (by rw [hue])) nofun, hc]
    by_cases hx : x = y
    · subst hx
      have hux : u.neighbor? x = _ := hux
      rw [hux]; exact .enter rfl
    · exact turn_put_other hs.neighbors gone (fun h => h.elim) he hx

/-- Every call takes every entry through one of the turns. -/
theorem turn_after (hs : t.Stored) (c : Call) (x : Ipv4.Address) :
    Turn c x (¬ (t.after c).Awaited x) (t.neighbor? x) ((t.after c).neighbor? x) (questions x t c) := by
  cases c with
  | lookup y task now => exact turn_lookup hs (lookup_lookedUp t y task now) _ rfl
  | receive m now => exact turn_receive hs (receive_received t m now .empty) rfl
  | expire now => exact turn_expire hs (expire_expired hs.neighbors hs.waiters now .empty) rfl
  | outgoing => exact turn_outgoing _ hs
  | enter y hardware now => exact turn_enter _ hs y hardware now

/-- The passing of time asks again for an address, or gives it up, once its question is due. -/
theorem entry_expire (hs : t.Stored) {retries : Nat} {nextAt : Instant} {e : Expiry} (now : Instant)
    (hq : t.neighbor? x = some ⟨.querying retries nextAt, e⟩) :
    (t.after (.expire now)).neighbor? x = some (if nextAt.total ≤ now.total then
      aged now ⟨.querying retries nextAt, e⟩ else ⟨.querying retries nextAt, e⟩) := by
  have hentry : (t.after (.expire now)).neighbor? x = _ :=
    (expire_expired hs.neighbors hs.waiters now .empty).entry x
  rw [hentry, hq]
  by_cases hd : nextAt.total ≤ now.total
  · rw [if_pos ((mem_due hs.neighbors).2 ⟨_, _, _, hq, hd⟩), if_pos hd]; rfl
  · rw [if_neg hd, if_neg]
    intro hx
    obtain ⟨_, _, _, hn, hle⟩ := (mem_due hs.neighbors).1 hx
    rw [hq] at hn; cases hn; exact hd hle

/-- Every other call leaves a question alone, unless the address is learned from a message or entered by
hand. -/
theorem Turn.of_asking {c : Call} {gone : Prop} {retries : Nat} {nextAt : Instant} {e : Expiry}
    {n : Option Neighbor} {qs : List Instant} (h : Turn c x gone (some ⟨.querying retries nextAt, e⟩) n qs)
    (hc : ∀ now, c ≠ .expire now) : (n = some ⟨.querying retries nextAt, e⟩ ∧ qs = []) ∨
      (((∃ m now, c = .receive m now ∧ m.srcAddr = x) ∨ ¬ c.Unaided) ∧
        ∃ hardware e', n = some ⟨.resolved hardware, e'⟩) := by
  cases h with
  | stay => exact .inl ⟨rfl, rfl⟩
  | ask _ ha _ => exact ha.elim
  | again h _ _ _ => exact absurd h (hc _)
  | giveUp h _ _ _ => exact absurd h (hc _)
  | learn h hm _ => exact .inr ⟨.inl ⟨_, _, h, hm⟩, _, _, rfl⟩
  | enter h => exact .inr ⟨.inr (by rw [h]; exact id), _, _, rfl⟩
  | evict _ he => cases he

/-! ## What every table of a run keeps -/

theorem lookedUp_stored (hs : t.Stored) {task : Option Task} {now : Instant}
    {r : Except Fault Ethernet.Address} (h : LookedUp t x task now r t') : t'.Stored := by
  cases h with
  | settled => exact hs
  | joined _ hu =>
    obtain ⟨he, hw⟩ := wait_frame hs.waiters hu
    rw [he]; exact ⟨hs.neighbors, hw, hs.outbox⟩
  | crowded _ hu _ =>
    obtain ⟨he, hw⟩ := wait_frame hs.waiters hu
    obtain ⟨hf, hw'⟩ := cancel_frame hw x task
    exact ⟨by rw [hf, he]; exact hs.neighbors, hw', by rw [hf, he]; exact hs.outbox⟩
  | @asked u v _ hu hv =>
    obtain ⟨he, hw⟩ := wait_frame hs.waiters hu
    obtain ⟨hve, hvn, -⟩ := put_eq_ok (by rw [he]; exact hs.neighbors) hv
    have hvo : v.outbox.WF := by rw [hve, he]; exact hs.outbox
    refine ⟨?_, ?_, (post_posts v _ hvo).1⟩
    · rw [request_eq_post, post_neighbors]; exact hvn
    · rw [request_eq_post, post_waiters, hve]; exact hw

theorem received_stored (hs : t.Stored) {m : Message} {now : Instant} {w w' : Wakeups}
    (h : Received t m now w t' w') : t'.Stored := by
  cases h with
  | ignored => exact hs
  | @learned u v _ _ he hv ht =>
    obtain ⟨hue, hun, -⟩ := put_eq_ok hs.neighbors he
    obtain ⟨hve, hvw, -⟩ := wake_spec (by rw [hue]; exact hs.waiters) hv
    have hvs : v.Stored := ⟨by rw [hve]; exact hun, hvw, by rw [hve, hue]; exact hs.outbox⟩
    rcases ht with rfl | rfl
    · exact hvs
    · refine ⟨?_, ?_, (post_posts v _ hvs.outbox).1⟩
      · rw [post_neighbors]; exact hvs.neighbors
      · rw [post_waiters]; exact hvs.waiters

/-- What every operation keeps, every call keeps. -/
theorem Kept.after {P : Table → Prop} (hk : Kept P) (ht : P t) (c : Call) : P (t.after c) := by
  cases c with
  | lookup y task now => exact hk.lookup y task now ht
  | receive m now => exact hk.receive m now .empty ht
  | expire now => exact hk.expire now .empty ht
  | outgoing => exact hk.outgoing ht
  | enter y hardware now =>
    cases he : t.enter y hardware now with
    | error e => rw [after_enter_error he]; exact ht
    | ok u => rw [after_enter_ok he]; exact hk.enter ht he

theorem stored_kept : Kept Stored where
  lookup y task now hs := lookedUp_stored hs (lookup_lookedUp _ y task now)
  receive m now w hs := received_stored hs (receive_received _ m now w)
  expire now w hs := by
    have h := expire_expired hs.neighbors hs.waiters now w
    exact ⟨h.neighbors, h.waiters, (h.posts hs.outbox).1⟩
  outgoing hs := ⟨hs.neighbors, hs.waiters, Queue.pop_wf hs.outbox⟩
  enter hs he := by
    obtain ⟨hue, hun, -⟩ := put_eq_ok hs.neighbors he
    rw [hue]
    exact ⟨hun, hs.waiters, hs.outbox⟩

theorem stored_after (hs : t.Stored) (c : Call) : (t.after c).Stored := stored_kept.after hs c

theorem create_stored (hardware : Ethernet.Address) (addr mask : Ipv4.Address) :
    (create hardware addr mask).Stored :=
  ⟨Map.empty_wf, Seq.empty_wf, Queue.empty_wf⟩

theorem Reachable.stored {allowed : Call → Prop} (h : Reachable allowed t) : t.Stored := by
  induction h with
  | create hardware addr mask => exact create_stored hardware addr mask
  | call c _ _ ih => exact stored_after ih c

theorem run_stored (hs : t.Stored) : ∀ cs : List Call, (t.run cs).Stored := by
  intro cs
  induction cs generalizing t with
  | nil => exact hs
  | cons c cs ih => exact ih (stored_after hs c)

end Turns

end Table

end UdpStack.Arp
