/-
A question and its answer, seen from either table. A table that knows of no address but one is followed through
what two neighbors say to each other (`Single`): it asks for the address on behalf of a task
(`Single.lookup_unknown`), is left alone until the next question is due (`Single.expire_of_quiet`), learns the
address from a message to itself, which wakes the task and is answered if it was a question
(`Single.receive`), and has it from then on (`Single.lookup_known`).
-/
import UdpStack.Proofs.Arp.Messages

namespace UdpStack.Arp.Table

open Bounded

/-! ## Tables with at most one entry -/

/-- A table of the same device as another one that knows of no address but `x`. -/
structure Single (t own : Table) (x : Ipv4.Address) (known : Option Neighbor) (waiting : Waits)
    (messages : List Message) : Prop extends t.Stored where
  device : t.device = own.device
  entry : ∀ y, t.neighbor? y = if y = x then known else none
  waiting : t.waits = waiting
  messages : t.outbox.toList = messages

variable {t own : Table} {x : Ipv4.Address} {known : Option Neighbor} {waiting : Waits} {messages : List Message}

theorem addr_congr {t' : Table} (h : t'.device = t.device) : t'.addr = t.addr :=
  congrArg (fun d => d.2.1) h

/-- What is left to send after a message to this device. -/
def replied (t : Table) (m : Message) (messages : List Message) : List Message :=
  if m.operation = .request then messages ++ [t.answer m] else messages

namespace Single

theorem entry_self (hs : t.Single own x known waiting messages) : t.neighbors.get? x = known :=
  (hs.entry x).trans (if_pos rfl)

/-- Nothing has to give way to the only entry. -/
theorem put (hs : t.Single own x known waiting messages) (n : Neighbor) (now : Instant) :
    ∃ t', t.put x n now = .ok t' ∧ t'.Single own x (some n) waiting messages := by
  have hput : ∃ t', t.put x n now = .ok t' := by
    cases known with
    | some old => exact ⟨_, put_of_contains (by rw [Map.contains_eq_isSome, hs.entry_self]; rfl) n now⟩
    | none =>
      have hempty : t.neighbors.pairs.toList = [] := by
        refine List.eq_nil_iff_forall_not_mem.2 fun e he => ?_
        have hfound : t.neighbor? e.1 = some e.2 := hs.neighbors.get?_eq_some_iff.2 he
        rw [hs.entry, ite_self] at hfound
        cases hfound
      have hroom : t.neighbors.pairs.size ≠ Limits.neighbors := by
        rw [← hs.neighbors.pairs.length_toList, hempty]
        decide
      obtain ⟨m, hm⟩ := Map.insert_of_room hs.entry_self hroom n
      refine ⟨{ t with neighbors := m }, ?_⟩
      unfold Table.put
      rw [if_neg (by rw [Map.contains_eq_isSome, hs.entry_self]; exact Bool.false_ne_true), hm]
  obtain ⟨t', ht⟩ := hput
  obtain ⟨he, hn, hx, hother⟩ := put_eq_ok hs.neighbors ht
  have hw : t'.waiters = t.waiters := by rw [he]
  have ho : t'.outbox = t.outbox := by rw [he]
  refine ⟨t', ht, ⟨hn, by rw [hw]; exact hs.waiters, by rw [ho]; exact hs.outbox⟩, ?_, fun y => ?_, ?_, ?_⟩
  · rw [← hs.device, he]
    rfl
  · by_cases hy : y = x
    · rw [if_pos hy, hy]
      exact hx
    · rw [if_neg hy]
      have hnone : t.neighbors.get? y = none := (hs.entry y).trans (if_neg hy)
      rcases hother y hy with h | ⟨-, h⟩
      · exact h.trans hnone
      · exact h
  · rw [waits_of_eq hw]
    exact hs.waiting
  · rw [ho]
    exact hs.messages

/-- A message is put behind those that wait to be sent, as long as there is room. -/
theorem post (hs : t.Single own x known waiting messages) (hroom : messages.length < Limits.outbox) (m : Message) :
    (t.post m).Single own x known waiting (messages ++ [m]) := by
  obtain ⟨ho, hl⟩ := post_fills t m hs.outbox
  rw [hs.messages, List.take_of_length_le (by rw [List.length_append]; exact hroom)] at hl
  refine ⟨⟨?_, ?_, ho⟩, (post_device t m).trans hs.device, fun y => ?_, (post_waits t m).trans hs.waiting, hl⟩
  · rw [post_neighbors]
    exact hs.neighbors
  · rw [post_waiters]
    exact hs.waiters
  · rw [neighbor?_of_eq (post_neighbors t m)]
    exact hs.entry y

theorem outgoing {m : Message} (hs : t.Single own x known waiting (m :: messages)) :
    ∃ t', t.outgoing = (some m, t') ∧ t'.Single own x known waiting messages := by
  refine ⟨t.outgoing.2, ?_, ⟨hs.neighbors, hs.waiters, Queue.pop_wf hs.outbox⟩, hs.device, hs.entry, hs.waiting, ?_⟩
  · have hm : t.outgoing.1 = some m := by
      show t.outbox.pop.1 = _
      rw [Queue.fst_pop hs.outbox, hs.messages, List.head?_cons]
    rw [← hm]
  · show t.outbox.pop.2.toList = _
    rw [Queue.toList_pop hs.outbox, hs.messages, List.tail_cons]

/-! ## Asking -/

/-- An address that is not known is asked for, and the task waits for it. -/
theorem lookup_unknown (hs : t.Single own x none [] messages) (hroom : messages.length < Limits.outbox)
    (hf : own.fixed? x = none) (task : Task) (now : Instant) :
    ∃ t', t.lookup x (some task) now = (.error .wouldBlock, t') ∧
      t'.Single own x (some (query now)) [(task, x)] (messages ++ [own.question x]) := by
  have hnobody : t.waiters.toList = [] := hs.waiting
  have hothers : t.others task = t.waiters := by
    unfold others Seq.findIdx?
    rw [hnobody]
    rfl
  have hsize : t.waiters.size < Limits.waiters := by
    rw [← hs.waiters.length_toList, hnobody]
    decide
  obtain ⟨ws, hp⟩ := Wakeups.push_of_size_lt hsize (task, x)
  have hwait : t.wait x (some task) = .ok { t with waiters := ws } := by
    show ((t.others task).push (task, x)).map _ = _
    rw [hothers, hp]
    rfl
  have hl : ws.toList = [(task, x)] := by
    rw [Seq.toList_push hs.waiters hp, hnobody, List.nil_append]
  have hu : Single { t with waiters := ws } own x none [(task, x)] messages :=
    ⟨⟨hs.neighbors, Seq.push_wf hs.waiters hp, hs.outbox⟩, hs.device, hs.entry, hl, hs.messages⟩
  obtain ⟨v, hv, hvs⟩ := hu.put (query now) now
  have hq : v.question x = own.question x := question_congr hvs.device x
  refine ⟨v.request x, ?_, ?_⟩
  · unfold lookup
    rw [fixed?_congr hs.device, hf, hs.entry_self]
    unfold lookup.ask
    rw [hwait]
    dsimp only
    rw [show Table.put { t with waiters := ws } x ⟨.querying 0 (now.add retryInterval), .never⟩ now = .ok v from hv]
  · rw [request_eq_post, hq]
    exact hvs.post hroom _

/-- Until the next question is due time leaves the table alone. -/
theorem expire_of_quiet (hs : t.Single own x known waiting messages) {now : Instant}
    (hquiet : ∀ retries nextAt e, known = some ⟨.querying retries nextAt, e⟩ → now.total < nextAt.total)
    (w : Wakeups) : t.expire now w = (t, w) := by
  have hdue : t.due now = [] := by
    refine List.eq_nil_iff_forall_not_mem.2 fun y hy => ?_
    obtain ⟨retries, nextAt, e, hn, hle⟩ := (mem_due hs.neighbors).1 hy
    rw [hs.entry] at hn
    split at hn
    · exact absurd (hquiet retries nextAt e hn) (Int.not_lt.2 hle)
    · cases hn
  unfold expire
  rw [hdue]
  rfl

/-! ## Learning -/

/-- A message to this device is learned from. It wakes who waits, and a question is answered. -/
theorem receive {m : Message} (hs : t.Single own m.srcAddr known waiting messages)
    (hroom : messages.length < Limits.outbox) (hwaiting : ∀ e ∈ waiting, e.2 = m.srcAddr)
    (haddr : m.srcAddr.isUnicast = true) (hhardware : m.srcHardware.isUnicast = true) (hdst : m.dstAddr = own.addr)
    (now : Instant) (w : Wakeups) :
    ∃ t', t.receive m now w = (.ok (), t', w.wakeAll (waiting.map (·.1))) ∧
      t'.Single own m.srcAddr (some ⟨.resolved m.srcHardware, .due (now.add lifetime)⟩) []
        (own.replied m messages) := by
  obtain ⟨u, hu, hus⟩ := hs.put ⟨.resolved m.srcHardware, .due (now.add lifetime)⟩ now
  have henter : t.enter m.srcAddr m.srcHardware (some now) = .ok u := hu
  -- everybody who waits is woken
  obtain ⟨hrw, hrest, hwoken⟩ := release_spec m.srcAddr u.waiters.size u.waiters w hus.waiters
    hus.waiters.length_toList.le
  have hwaits : u.waiters.toList = waiting := hus.waiting
  rw [hwaits] at hrest hwoken
  rw [List.filter_eq_nil_iff.2 fun e he => by simpa using hwaiting e he] at hrest
  rw [List.filter_eq_self.2 fun e he => by simpa using hwaiting e he] at hwoken
  have hvs : Single (u.wake m.srcAddr w).1 own m.srcAddr
      (some ⟨.resolved m.srcHardware, .due (now.add lifetime)⟩) [] messages :=
    ⟨⟨hus.neighbors, hrw, hus.outbox⟩, hus.device, hus.entry, hrest, hus.messages⟩
  have hw : (u.wake m.srcAddr w).2 = w.wakeAll (waiting.map (·.1)) := hwoken
  have hanswer : (u.wake m.srcAddr w).1.answer m = own.answer m := answer_congr hvs.device m
  have hreceive : t.receive m now w = (.ok (), if m.operation = .request then
      (u.wake m.srcAddr w).1.post ((u.wake m.srcAddr w).1.answer m) else (u.wake m.srcAddr w).1,
        (u.wake m.srcAddr w).2) := by
    have hforus : (m.dstAddr == t.addr) = true := beq_iff_eq.2 (hdst.trans (addr_congr hs.device).symm)
    unfold Table.receive
    rw [if_neg (by simp [haddr, hhardware])]
    dsimp only
    rw [hforus, Bool.or_true, if_pos rfl, henter]
    dsimp only [Except.map]
    rw [if_neg (by simp)]
    split <;> rfl
  refine ⟨_, by rw [hreceive, hw], ?_⟩
  unfold replied
  split
  · rw [hanswer]
    exact hvs.post hroom _
  · exact hvs

/-- What was learned is known until it ends. -/
theorem lookup_known {hardware : Ethernet.Address} {e : Expiry}
    (hs : t.Single own x (some ⟨.resolved hardware, e⟩) waiting messages) (hf : own.fixed? x = none) {now : Instant}
    (he : e.isExpired now = false) (task : Option Task) : t.lookup x task now = (.ok hardware, t) := by
  unfold lookup
  rw [fixed?_congr hs.device, hf, hs.entry_self]
  dsimp only
  rw [he]
  rfl

end Single

end UdpStack.Arp.Table
