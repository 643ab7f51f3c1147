/-
What operations take for granted. A stretch of a buffer lies inside it, a place of a table exists, a copy
has as many bytes as there is room for, and nothing is taken from a smaller number. An operation comes to
such demands one after the other, those of its later steps under the conditions that it has checked by
then; here are the operations of the tables of fixed size. A table that is well-formed meets all demands
that are made of it (`Seq.WF.met_insert`, `Queue.WF.met_pop`, `Pool.met_get` and so on).
-/
import UdpStack.Proofs.Bounded.Map
import UdpStack.Proofs.Bounded.Pool
import UdpStack.Proofs.Bounded.Queue

namespace UdpStack

/-- Something that an operation takes for granted. -/
inductive Demand where
  /-- The bytes or places from `start` up to but not including `stop` are among `size` many. -/
  | range (start stop size : Nat)
  /-- Place `i` is among `size` many. -/
  | place (i size : Nat)
  /-- As many bytes are copied as there is room for. -/
  | copy (room len : Nat)
  /-- An address of `size` octets is made of that many bytes. -/
  | address (size len : Nat)
  /-- The number that is taken away is not the larger one. -/
  | minus (x y : Nat)
  /-- The divisor of a remainder is not zero. -/
  | remainder (n : Nat)
  deriving DecidableEq, Repr

/-- A demand is met. -/
def Demand.Met : Demand → Prop
  | range start stop size => start ≤ stop ∧ stop ≤ size
  | place i size => i < size
  | copy room len => len = room
  | address size len => len = size
  | minus x y => y ≤ x
  | remainder n => 0 < n

instance : DecidablePred Demand.Met
  | .range .. => inferInstanceAs (Decidable (_ ∧ _))
  | .place .. => inferInstanceAs (Decidable (_ < _))
  | .copy .. => inferInstanceAs (Decidable (_ = _))
  | .address .. => inferInstanceAs (Decidable (_ = _))
  | .minus .. => inferInstanceAs (Decidable (_ ≤ _))
  | .remainder _ => inferInstanceAs (Decidable (_ < _))

/-- All demands of an operation are met. -/
def AllMet (ds : List Demand) : Prop := ∀ d ∈ ds, d.Met

@[simp] theorem allMet_nil : AllMet [] := nofun

@[simp] theorem allMet_cons {d : Demand} {ds : List Demand} : AllMet (d :: ds) ↔ d.Met ∧ AllMet ds :=
  List.forall_mem_cons

@[simp] theorem allMet_append {ds es : List Demand} : AllMet (ds ++ es) ↔ AllMet ds ∧ AllMet es :=
  List.forall_mem_append

theorem allMet_ite {p : Prop} [Decidable p] {ds es : List Demand} (hp : p → AllMet ds) (hn : ¬ p → AllMet es) :
    AllMet (if p then ds else es) := by
  split
  · exact hp ‹_›
  · exact hn ‹_›

namespace Bounded

/-! ## Sequences -/

/-- Inserting at place `i` behind `size` elements in `n` places: the elements from there on are turned by
one place, which takes at least one. -/
def insertDemands (size i n : Nat) : List Demand :=
  if size < i ∨ size = n then [] else [.range i (size + 1) n, .place i (size + 1), .place i n]

theorem met_insertDemands {size n : Nat} (h : size ≤ n) (i : Nat) : AllMet (insertDemands size i n) := by
  refine allMet_ite (fun _ => allMet_nil) fun hn => ?_
  simp only [allMet_cons, allMet_nil, Demand.Met, and_true]
  omega

/-- Collecting `k` elements in a table of `n` places, and going through them. -/
def collectDemands (k n : Nat) : List Demand := (List.range k).flatMap (fun i => insertDemands i i n) ++ [.range 0 k n]

theorem met_collect {k n : Nat} (h : k ≤ n) : AllMet (collectDemands k n) := by
  refine allMet_append.2 ⟨fun d hd => ?_, allMet_cons.2 ⟨⟨Nat.zero_le _, h⟩, allMet_nil⟩⟩
  obtain ⟨i, hi, hd⟩ := List.mem_flatMap.1 hd
  exact met_insertDemands ((List.mem_range.1 hi).le.trans h) i d hd

namespace Seq

variable {α : Type} {n : Nat}

/-- Going through the elements. -/
def iterDemands (s : Seq α n) : List Demand := [.range 0 s.size n]

def pushDemands (s : Seq α n) : List Demand := insertDemands s.size s.size n

/-- Taking out the element at place `i`: the elements from there on are turned by one place. -/
def removeDemands (s : Seq α n) (i : Nat) : List Demand :=
  if s.size ≤ i then [] else [.place i n, .range i s.size n, .place i s.size, .minus s.size 1]

variable {s : Seq α n}

theorem WF.met_iter (h : s.WF) : AllMet s.iterDemands := by
  have := h.size_le
  simpa [iterDemands, Demand.Met] using this

theorem WF.met_insert (h : s.WF) (i : Nat) : AllMet (insertDemands s.size i n) := met_insertDemands h.size_le i

theorem WF.met_push (h : s.WF) : AllMet s.pushDemands := h.met_insert s.size

theorem WF.met_remove (h : s.WF) (i : Nat) : AllMet (s.removeDemands i) := by
  have := h.size_le
  refine allMet_ite (fun _ => allMet_nil) fun hi => ?_
  simp only [allMet_cons, allMet_nil, Demand.Met, and_true]
  omega

/-- Looking for an element, and taking it out if there is one. -/
def extractDemands (p : α → Bool) (s : Seq α n) : List Demand :=
  s.iterDemands ++ match s.findIdx? p with
    | none => []
    | some i => s.removeDemands i

theorem WF.met_extract (h : s.WF) (p : α → Bool) : AllMet (s.extractDemands p) := by
  refine allMet_append.2 ⟨h.met_iter, ?_⟩
  split
  · exact allMet_nil
  · exact h.met_remove _

/-- Taking out the first element until none is left, at most `k` times. -/
def drainDemands : Nat → Seq α n → List Demand
  | 0, s => s.removeDemands 0
  | k + 1, s => s.removeDemands 0 ++ drainDemands k (s.remove 0).2

theorem WF.met_drain : ∀ (k : Nat) {s : Seq α n}, s.WF → AllMet (s.drainDemands k)
  | 0, _, h => h.met_remove 0
  | k + 1, _, h => allMet_append.2 ⟨h.met_remove 0, WF.met_drain k (remove_wf h 0)⟩

end Seq

/-! ## Maps -/

namespace Map

variable {κ α : Type} {n : Nat} [DecidableEq κ] {m : Map κ α n}

/-- Looking for a key, for a value, or for anything else among the pairs. -/
def findDemands (m : Map κ α n) : List Demand := m.pairs.iterDemands

def insertDemands (m : Map κ α n) (k : κ) : List Demand :=
  m.findDemands ++ if m.contains k then [] else m.pairs.pushDemands

def removeDemands (m : Map κ α n) (k : κ) : List Demand := m.pairs.extractDemands fun p => decide (p.1 = k)

omit [DecidableEq κ] in
theorem WF.met_find (h : m.WF) : AllMet m.findDemands := h.pairs.met_iter

theorem WF.met_insert (h : m.WF) (k : κ) : AllMet (m.insertDemands k) :=
  allMet_append.2 ⟨h.met_find, allMet_ite (fun _ => allMet_nil) fun _ => h.pairs.met_push⟩

theorem WF.met_remove (h : m.WF) (k : κ) : AllMet (m.removeDemands k) := h.pairs.met_extract _

end Map

/-! ## Queues -/

namespace Queue

variable {α : Type} {n : Nat} {q : Queue α n}

/-- Reaching the place `k` behind the oldest element. -/
def slotDemands (q : Queue α n) (k : Nat) : List Demand := [.remainder n, .place (q.slotAt k) n]

/-- Filling the place behind the newest element. -/
def pushDemands (q : Queue α n) : List Demand := if q.isFull then [] else q.slotDemands q.size

/-- Counting the element behind the newest one. -/
def commitDemands (q : Queue α n) : List Demand :=
  .remainder n :: if q.isFull then [] else [.place (q.slotAt q.size) n]

def frontDemands (q : Queue α n) : List Demand := if q.isEmpty then [] else [.place q.head n]

def popDemands (q : Queue α n) : List Demand :=
  if q.isEmpty then [] else [.place q.head n, .remainder n, .minus q.size 1]

theorem met_slot (hn : 0 < n) (q : Queue α n) (k : Nat) : AllMet (q.slotDemands k) := by
  simp only [slotDemands, allMet_cons, allMet_nil, Demand.Met]
  exact ⟨hn, q.slotAt_lt hn k, trivial⟩

theorem met_push (hn : 0 < n) (q : Queue α n) : AllMet q.pushDemands :=
  allMet_ite (fun _ => allMet_nil) fun _ => met_slot hn q _

theorem met_commit (hn : 0 < n) (q : Queue α n) : AllMet q.commitDemands := by
  refine allMet_cons.2 ⟨hn, allMet_ite (fun _ => allMet_nil) fun _ => ?_⟩
  exact allMet_cons.2 ⟨q.slotAt_lt hn _, allMet_nil⟩

theorem met_front (hn : 0 < n) (h : q.WF) : AllMet q.frontDemands :=
  allMet_ite (fun _ => allMet_nil) fun _ => allMet_cons.2 ⟨h.head_lt hn, allMet_nil⟩

theorem WF.met_pop (hn : 0 < n) (h : q.WF) : AllMet q.popDemands := by
  refine allMet_ite (fun _ => allMet_nil) fun he => ?_
  have hs : q.size ≠ 0 := fun hs => he (beq_iff_eq.2 hs)
  simp only [allMet_cons, allMet_nil, Demand.Met]
  exact ⟨h.head_lt hn, hn, Nat.one_le_iff_ne_zero.2 hs, trivial⟩

end Queue

/-! ## Pools -/

namespace Pool

variable {α : Type} {n : Nat}

/-- Reaching the value of a handle, whose slot is looked at only if the handle is current. -/
def getDemands (p : Pool α n) (h : Handle) : List Demand :=
  if p.isCurrent h then [.place h.index.toNat n] else []

def acquireDemands (p : Pool α n) : List Demand :=
  match p.slots.toList.findIdx? Option.isNone with
  | none => []
  | some i => .place i n :: if 255 < i then [] else [.place i n]

def releaseDemands (p : Pool α n) (h : Handle) : List Demand :=
  p.getDemands h ++ if (p.get? h).isSome then [.place h.index.toNat n] else []

theorem lt_of_isCurrent {p : Pool α n} {h : Handle} (hc : p.isCurrent h = true) : h.index.toNat < n := by
  obtain ⟨hlt, -⟩ := Vector.getElem?_eq_some_iff.1 (isCurrent_iff.1 hc)
  exact hlt

theorem met_get (p : Pool α n) (h : Handle) : AllMet (p.getDemands h) :=
  allMet_ite (fun hc => allMet_cons.2 ⟨lt_of_isCurrent hc, allMet_nil⟩) fun _ => allMet_nil

theorem met_acquire (p : Pool α n) : AllMet p.acquireDemands := by
  unfold acquireDemands
  split
  · exact allMet_nil
  · rename_i i hi
    have hlt : i < n := by
      obtain ⟨hlt, -⟩ := List.findIdx?_eq_some_iff_getElem.1 hi
      rwa [Vector.length_toList] at hlt
    exact allMet_cons.2 ⟨hlt, allMet_ite (fun _ => allMet_nil) fun _ => allMet_cons.2 ⟨hlt, allMet_nil⟩⟩

theorem met_release (p : Pool α n) (h : Handle) : AllMet (p.releaseDemands h) := by
  refine allMet_append.2 ⟨p.met_get h, allMet_ite (fun hs => ?_) fun _ => allMet_nil⟩
  obtain ⟨a, ha⟩ := Option.isSome_iff_exists.1 hs
  exact allMet_cons.2 ⟨lt_of_get? ha, allMet_nil⟩

end Pool

end Bounded

end UdpStack
