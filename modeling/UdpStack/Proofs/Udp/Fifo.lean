/-
The queue of a socket as a list. A delivery that the socket takes is appended, behind what is left when a full
list gives up its first datagram; a receive takes the first datagram; and nothing else changes the list. Every run
of a socket is one of such a list, with the same answers (`run_fifo`). So whatever is received or given up is gone
in the order in which it arrived, each datagram once, and what is given up is older than all that is left
(`Fifo.Run.conserves`).
-/
import UdpStack.Proofs.Udp.Calls

namespace UdpStack.Udp

open Bounded Socket

/-- The datagrams that wait, the oldest one first, and how many were given up for want of room. -/
structure Fifo where
  waiting : List Datagram
  lost : Nat

namespace Fifo

/-- Append a datagram; a full list gives up its first one. -/
def push (q : Fifo) (x : Datagram) : Fifo :=
  if q.waiting.length = Limits.socketQueue then ⟨q.waiting.drop 1 ++ [x], q.lost + 1⟩
  else ⟨q.waiting ++ [x], q.lost⟩

/-- What a call with its answer makes of the datagrams that wait. -/
inductive Step : Fifo → Call × Answer → Fifo → Prop where
  | arrive (q : Fifo) (d : Delivery) : Step q (.deliver d, .done) (q.push d.datagram)
  | refuse (q : Fifo) (d : Delivery) (f : Fault) : Step q (.deliver d, .failed f) q
  | take (x : Datagram) (rest : List Datagram) (lost : Nat) (task : Task) (room : Nat) :
      Step ⟨x :: rest, lost⟩ (.recv task room, .received (x.read room)) ⟨rest, lost⟩
  | wait (q : Fifo) (task : Task) (room : Nat) : Step q (.recv task room, .pending) q
  | fail (q : Fifo) (task : Task) (room : Nat) (f : Fault) : Step q (.recv task room, .failed f) q
  | bind (q : Fifo) (b : Binding) (r : Except Fault Unit) : Step q (.bind b, .ofExcept r) q
  | unbind (q : Fifo) (r : Except Fault Unit) : Step q (.unbind, .ofExcept r) q
  | cancel (q : Fifo) (task : Task) : Step q (.cancel task, .done) q

/-- What several calls with their answers make of the datagrams that wait. -/
inductive Run : Fifo → List (Call × Answer) → Fifo → Prop where
  | nil (q : Fifo) : Run q [] q
  | cons {q r t : Fifo} {e : Call × Answer} {es : List (Call × Answer)} :
      Step q e r → Run r es t → Run q (e :: es) t

/-! ## Order -/

/-- The datagram that arrives in a call. -/
def arrival? : Call × Answer → Option Datagram
  | (.deliver d, .done) => some d.datagram
  | _ => none

/-- What is received in a call. -/
def reception? : Call × Answer → Option Received
  | (_, .received r) => some r
  | _ => none

/-- A datagram that waits no longer: received in a buffer of some room, or given up. -/
structure Gone where
  datagram : Datagram
  room? : Option Nat

/-- What was received of a datagram. -/
def Gone.received? (g : Gone) : Option Received := g.room?.map g.datagram.read

/-- How many datagrams were given up. -/
def givenUp (gone : List Gone) : Nat := gone.countP fun g => g.room?.isNone

/-- From one list to the next some datagrams arrived behind the last one, and some left in front of the first. -/
structure Passes (q : Fifo) (arrived : List Datagram) (received : List Received) (gone : List Gone) (r : Fifo) :
    Prop where
  order : q.waiting ++ arrived = gone.map Gone.datagram ++ r.waiting
  received : received = gone.filterMap Gone.received?
  lost : r.lost = q.lost + givenUp gone

theorem Passes.refl (q : Fifo) : Passes q [] [] [] q := ⟨List.append_nil _, rfl, rfl⟩

theorem Passes.trans {q r t : Fifo} {ds es : List Datagram} {rs ss : List Received} {gone gone' : List Gone}
    (h : Passes q ds rs gone r) (h' : Passes r es ss gone' t) :
    Passes q (ds ++ es) (rs ++ ss) (gone ++ gone') t := by
  refine ⟨?_, ?_, ?_⟩
  · rw [← List.append_assoc, h.order, List.append_assoc, h'.order, List.map_append, List.append_assoc]
  · rw [h.received, h'.received, List.filterMap_append]
  · rw [h'.lost, h.lost]
    unfold givenUp
    rw [List.countP_append, Nat.add_assoc]

theorem push_passes (q : Fifo) (x : Datagram) : ∃ gone, Passes q [x] [] gone (q.push x) := by
  unfold push
  split
  · rename_i hfull
    obtain ⟨y, rest, hy⟩ : ∃ y rest, q.waiting = y :: rest := by
      apply List.exists_cons_of_length_pos
      rw [hfull]; decide
    refine ⟨[⟨y, none⟩], ?_, rfl, rfl⟩
    rw [hy]; rfl
  · exact ⟨[], rfl, rfl, rfl⟩

/-- One call takes at most one datagram, the first one. -/
theorem Step.passes {q r : Fifo} {e : Call × Answer} (h : Step q e r) :
    ∃ gone, Passes q (arrival? e).toList (reception? e).toList gone r := by
  cases h with
  | arrive q d => exact push_passes q d.datagram
  | refuse q d f => exact ⟨[], Passes.refl q⟩
  | take x rest lost task room => exact ⟨[⟨x, some room⟩], List.append_nil _, rfl, rfl⟩
  | wait q task room => exact ⟨[], Passes.refl q⟩
  | fail q task room f => exact ⟨[], Passes.refl q⟩
  | bind q b r => cases r <;> exact ⟨[], Passes.refl q⟩
  | unbind q r => cases r <;> exact ⟨[], Passes.refl q⟩
  | cancel q task => exact ⟨[], Passes.refl q⟩

theorem filterMap_cons_eq {α β : Type} (f : α → Option β) (a : α) (l : List α) :
    (a :: l).filterMap f = (f a).toList ++ l.filterMap f := by
  rw [List.filterMap_cons]
  cases f a <;> rfl

/-- Datagrams leave in the order of their arrival, each once, received or given up. -/
theorem Run.conserves {q r : Fifo} {es : List (Call × Answer)} (h : Run q es r) :
    ∃ gone, Passes q (es.filterMap arrival?) (es.filterMap reception?) gone r := by
  induction h with
  | nil q => exact ⟨[], Passes.refl q⟩
  | cons hs _ ih =>
    obtain ⟨gone, h⟩ := hs.passes
    obtain ⟨gone', h'⟩ := ih
    rw [filterMap_cons_eq, filterMap_cons_eq]
    exact ⟨gone ++ gone', h.trans h'⟩

end Fifo

namespace Socket

/-! ## The queue of a socket -/

/-- The calls of a run with their answers. -/
def events (s : Socket) : List Call → List (Call × Answer)
  | [] => []
  | c :: cs => (c, s.answer c) :: (s.after c).events cs

/-- The queue of a socket is a list, and as many datagrams were given up as it counts. -/
structure Refines (s : Socket) (q : Fifo) : Prop where
  waiting : s.queue.toList = q.waiting
  lost : s.evicted.toNat = q.lost % 2 ^ 32

section Refinement

variable {s s' : Socket} {c : Call} {a : Answer} {ts : List Task} {q : Fifo}

theorem Refines.of_eq (h : s.Refines q) (hq : s'.queue = s.queue) (he : s'.evicted = s.evicted) : s'.Refines q :=
  ⟨by rw [hq]; exact h.waiting, by rw [he]; exact h.lost⟩

theorem isFull_iff (hq : s.queue.WF) : s.queue.isFull = true ↔ s.queue.toList.length = Limits.socketQueue := by
  rw [hq.length_toList]
  exact beq_iff_eq

/-- Every call does to the queue of a socket what it does to the list. -/
theorem Step.fifo (h : Step s c a s' ts) (ho : s.Orderly) (hr : s.Refines q) :
    ∃ r, Fifo.Step q (c, a) r ∧ s'.Refines r := by
  cases h with
  | bind _ => exact ⟨q, .bind q _ (.ok ()), hr.of_eq rfl rfl⟩
  | bound _ => exact ⟨q, .bind q _ (.error .illegal), hr⟩
  | unbind _ => exact ⟨q, .unbind q (.ok ()), hr.of_eq rfl rfl⟩
  | unbound _ => exact ⟨q, .unbind q (.error .illegal), hr⟩
  | @take task room x queue _ hl _ =>
    obtain ⟨waiting, lost⟩ := q
    obtain rfl : waiting = x :: queue.toList := hr.waiting.symm.trans hl
    exact ⟨⟨queue.toList, lost⟩, .take x _ lost task room, rfl, hr.lost⟩
  | wait _ _ _ _ => exact ⟨q, .wait q _ _, hr.of_eq rfl rfl⟩
  | busy _ _ => exact ⟨q, .fail q _ _ .busy, hr⟩
  | closed _ _ => exact ⟨q, .fail q _ _ .illegal, hr⟩
  | cancel => exact ⟨q, .cancel q _, hr.of_eq rfl rfl⟩
  | @arrive d queue _ hl _ =>
    refine ⟨q.push d.datagram, .arrive q d, ?_⟩
    have hfull := isFull_iff ho.queue
    rw [hr.waiting] at hl hfull
    unfold Fifo.push
    by_cases hf : s.queue.isFull = true
    · rw [if_pos hf] at hl
      rw [if_pos (hfull.1 hf)]
      refine ⟨hl, ?_⟩
      show (if s.queue.isFull = true then s.evicted + 1 else s.evicted).toNat = _
      rw [if_pos hf, UInt32.toNat_add, hr.lost]
      simp
    · rw [if_neg hf] at hl
      rw [if_neg fun h => hf (hfull.2 h)]
      refine ⟨hl, ?_⟩
      show (if s.queue.isFull = true then s.evicted + 1 else s.evicted).toNat = _
      rw [if_neg hf]; exact hr.lost
  | refuse _ => exact ⟨q, .refuse q _ .dropped, hr⟩

theorem run_refines : ∀ (cs : List Call) {s : Socket} {q : Fifo}, s.Orderly → s.Refines q →
    ∃ r, Fifo.Run q (s.events cs) r ∧ (s.run cs).Refines r
  | [], _, q, _, hr => ⟨q, .nil q, hr⟩
  | c :: cs, s, q, ho, hr => by
    obtain ⟨r, hs, hr⟩ := (perform_step ho c).fifo ho hr
    obtain ⟨t, ht, hr⟩ := run_refines cs (orderly_after ho c) hr
    exact ⟨t, .cons hs ht, hr⟩

/-- A delivery is taken exactly by a socket that is bound to its destination, or to every address. -/
theorem answer_deliver_iff (ho : s.Orderly) (d : Delivery) :
    s.answer (.deliver d) = .done ↔ s.accepts d.transit.info.dstAddr = true := by
  have h := perform_step ho (.deliver d)
  generalize s.answer (.deliver d) = a at h
  generalize s.after (.deliver d) = s' at h
  generalize s.woken (.deliver d) = ts at h
  cases h with
  | arrive hacc _ _ => exact iff_of_true rfl hacc
  | refuse hacc => exact iff_of_false nofun (by rw [hacc]; nofun)

end Refinement

/-- The queue of a socket is, in every run, what the run makes of a list that is appended to and taken from in
front, and that gives up its first datagram when it is full. The datagrams that arrived are those that were
received or given up, in order, and behind them those that still wait; the received ones were received in order;
and the socket counts those given up, modulo 2^32. -/
theorem run_fifo (cs : List Call) :
    let s := empty.run cs
    let es := empty.events cs
    ∃ q gone, Fifo.Run ⟨[], 0⟩ es q ∧ s.queue.toList = q.waiting ∧ s.available = q.waiting.length ∧
      s.evicted.toNat = q.lost % 2 ^ 32 ∧ q.lost = Fifo.givenUp gone ∧
      es.filterMap Fifo.arrival? = gone.map Fifo.Gone.datagram ++ q.waiting ∧
      es.filterMap Fifo.reception? = gone.filterMap Fifo.Gone.received? ∧
      ∀ d, s.answer (.deliver d) = .done ↔ s.accepts d.transit.info.dstAddr = true := by
  intro s es
  have ho : s.Orderly := run_orderly empty_orderly cs
  obtain ⟨q, hrun, hr⟩ := run_refines cs empty_orderly (q := ⟨[], 0⟩) ⟨rfl, rfl⟩
  obtain ⟨gone, h⟩ := hrun.conserves
  refine ⟨q, gone, hrun, hr.waiting, ?_, hr.lost, ?_, h.order, h.received, answer_deliver_iff ho⟩
  · rw [← hr.waiting, ho.queue.length_toList]; rfl
  · rw [h.lost, Nat.zero_add]

/-- Five datagrams arrive and the first one is given up. Two tasks receive the second one, cut off after a byte, and the
third one; a sixth datagram has arrived in between, and three wait. -/
theorem run_fifo_evicting :
    let deliver := fun n : UInt8 => Call.deliver (.ofContent {} [n, n])
    let kept := fun n : UInt8 => Datagram.mk .unspecified 0 2 [n, n]
    let cs := .bind ⟨.unspecified, 7⟩ :: [1, 2, 3, 4, 5].map deliver ++ [.recv ⟨1⟩ 1, deliver 6, .recv ⟨2⟩ 16]
    ∃ q, ∃ gone : List Fifo.Gone, Fifo.Run ⟨[], 0⟩ (empty.events cs) q ∧ q.waiting = [4, 5, 6].map kept ∧ q.lost = 1 ∧
      gone.map Fifo.Gone.datagram = [1, 2, 3].map kept ∧
      gone.filterMap Fifo.Gone.received? = [⟨[2], 2, .unspecified, 0⟩, ⟨[3, 3], 2, .unspecified, 0⟩] := by
  intro deliver kept cs
  obtain ⟨q, gone, hrun, hwaiting, -, hevicted, hlost, harrived, hreceived, -⟩ := run_fifo cs
  have hq : q.waiting = [4, 5, 6].map kept := hwaiting.symm.trans (by decide +kernel)
  have hgone : gone.map Fifo.Gone.datagram = [1, 2, 3].map kept := by
    have harrivals : (empty.events cs).filterMap Fifo.arrival? = [1, 2, 3].map kept ++ q.waiting := by
      rw [hq]
      decide +kernel
    exact List.append_cancel_right (harrived.symm.trans harrivals)
  refine ⟨q, gone, hrun, hq, ?_, hgone, hreceived.symm.trans (by decide +kernel)⟩
  have hcount : (empty.run cs).evicted.toNat = 1 := by decide +kernel
  have hle : Fifo.givenUp gone ≤ 3 := by
    have hlength : gone.length = 3 := by simpa using congrArg List.length hgone
    exact hlength ▸ List.countP_le_length
  omega

end Socket

end UdpStack.Udp
