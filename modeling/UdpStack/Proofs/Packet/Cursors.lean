/-
The order of a packet's cursors over whole runs of operations, in any order, with any lengths, failing or
not. Headers end at the boundary, the payload behind it ends inside the buffer, and what is left to read lies
between the first header and the end of the payload (`Ordered`). Every operation keeps it so but one: while
headers are read, cutting off can leave less than the headers, and then the payload ends in front of its start
(`ordered_perform_iff`). So the cursors stay in order along a run exactly if no cut reaches into the headers,
and until then every size and every region exists (`cursors_ordered_iff`).
-/
import UdpStack.Proofs.Demands.Packet

namespace UdpStack.Packet

open Octets

/-! ## Operations -/

/-- An operation on a packet. One that hands out a region stands with the bytes that are then written there. -/
inductive Operation where
  | push (data : Octets)
  | pushZeros (len : Nat)
  | claim (len : Nat) (data : Octets)
  | advance (len : Nat)
  | take (len : Nat)
  | peek (len : Nat)
  | poke (len : Nat) (data : Octets)
  | skip (len : Nat)
  | truncate (len : Nat)
  | allocHeader (len : Nat) (data : Octets)
  | overwrite (data : Octets)
  | restack (depth : Nat) (data : Octets)
  | resetRead
  | resetReadHeaders
  | resetWrite
  | resetHeaders
  deriving DecidableEq, Repr

/-- A packet after an operation that hands out nothing. One that fails changes nothing. -/
def settle (p : Packet) : Except Fault Packet → Except Fault Octets × Packet
  | .ok q => (.ok [], q)
  | .error f => (.error f, p)

/-- Hand out a region, none unless all of its bytes exist, and write into it. -/
def writeTo (p : Packet) (data : Octets) (r : Region) : Option (Except Fault Octets × Packet) :=
  (p.content? r).map fun old => (.ok old, p.fill r data)

/-- The bytes that an operation hands out and the packet after it, none if it reached for bytes that do not
exist. -/
def perform (p : Packet) : Operation → Option (Except Fault Octets × Packet)
  | .push data => some (p.settle (p.push data))
  | .pushZeros len => some (p.settle (p.pushZeros len))
  | .claim len data =>
    match p.claim len with
    | .error f => some (.error f, p)
    | .ok (r, q) => q.writeTo data r
  | .advance len => some (p.settle (p.advance len))
  | .take len =>
    match p.take len with
    | .error f => some (.error f, p)
    | .ok (data, q) => some (.ok data, q)
  | .peek len => some (p.peek len, p)
  | .poke len data =>
    match p.peekRegion len with
    | .error f => some (.error f, p)
    | .ok r => p.writeTo data r
  | .skip len => some (p.settle (p.skip len))
  | .truncate len => some (p.settle (p.truncate len))
  | .allocHeader len data =>
    match p.allocHeader len with
    | .error f => some (.error f, p)
    | .ok (r, q) => q.writeTo data r
  | .overwrite data => p.frameRegion?.bind (p.writeTo data)
  | .restack depth data =>
    match p.stackedRegion? depth with
    | none => none
    | some (.error f) => some (.error f, p)
    | some (.ok r) => p.writeTo data r
  | .resetRead => some (.ok [], p.resetRead)
  | .resetReadHeaders => some (.ok [], p.resetReadHeaders)
  | .resetWrite => some (.ok [], p.resetWrite)
  | .resetHeaders => some (.ok [], p.resetHeaders)

/-- The packets of a run, the first one first, up to an operation that reaches for bytes that do not exist. -/
def trail (p : Packet) : List Operation → List Packet
  | [] => [p]
  | op :: ops => p :: match p.perform op with
    | none => []
    | some (_, q) => trail q ops

/-- An operation cuts into the headers: it succeeds, and what it leaves to read ends in front of the payload. -/
def Cuts (p : Packet) : Operation → Prop
  | .truncate len => len ≤ p.available ∧ p.read + len < p.boundary
  | _ => False

/-- No operation of a run cuts into the headers. -/
def CutFree (p : Packet) : List Operation → Prop
  | [] => True
  | op :: ops => ¬ p.Cuts op ∧ match p.perform op with
    | none => True
    | some (_, q) => CutFree q ops

instance (p : Packet) : DecidablePred p.Cuts
  | .truncate _ => inferInstanceAs (Decidable (_ ∧ _))
  | .push _ | .pushZeros _ | .claim .. | .advance _ | .take _ | .peek _ | .poke .. | .skip _ | .allocHeader .. |
    .overwrite _ | .restack .. | .resetRead | .resetReadHeaders | .resetWrite | .resetHeaders => .isFalse id

instance decidableCutFree (p : Packet) : (ops : List Operation) → Decidable (p.CutFree ops)
  | [] => .isTrue trivial
  | op :: ops =>
    match e : p.perform op with
    | none => decidable_of_iff (¬ p.Cuts op) (by rw [CutFree, e, and_true])
    | some (a, q) =>
      have := decidableCutFree q ops
      decidable_of_iff (¬ p.Cuts op ∧ q.CutFree ops) (by rw [CutFree, e])

/-! ## Cursors in order -/

/-- The cursors delimit headers and payload inside the buffer, and what is left to read inside both. -/
structure Ordered (p : Packet) : Prop extends InOrder p where
  header_le_read : p.header ≤ p.read
  read_le : p.read ≤ p.write

variable {p q : Packet}

theorem create_ordered {bytes : Octets} {room : Nat} (h : create bytes room = .ok p) :
    p.Ordered ∧ p.boundary ≤ p.read := by
  unfold create at h
  split at h
  · cases h
  · rename_i hl
    cases h
    exact ⟨⟨⟨le_rfl, le_rfl, Nat.not_lt.1 hl⟩, le_rfl, le_rfl⟩, le_rfl⟩

theorem ofFrame_ordered {bytes : Octets} {len : Nat} (h : ofFrame bytes len = .ok p) :
    p.Ordered ∧ p.boundary ≤ p.read := by
  by_cases hl : len ≤ bytes.length
  · rw [ofFrame_eq hl] at h
    cases h
    exact ⟨⟨⟨le_rfl, Nat.zero_le _, hl⟩, le_rfl, Nat.zero_le _⟩, le_rfl⟩
  · unfold ofFrame create advance claim capacity at h
    rw [if_neg (Nat.not_lt_zero _)] at h
    change Except.map _ (if bytes.length < 0 + len then _ else _) = _ at h
    rw [if_pos (by omega)] at h
    cases h

/-! ## What operations do -/

/-- What an operation did to the cursors, with `b` in place of the bytes if it wrote. -/
inductive Shift (p : Packet) : Operation → Packet → Prop where
  | written {op : Operation} {b : Octets} : ¬ p.Cuts op → b.length = p.bytes.length → Shift p op { p with bytes := b }
  | grown {op : Operation} {b : Octets} {len : Nat} : ¬ p.Cuts op → b.length = p.bytes.length →
      p.write + len ≤ p.bytes.length → Shift p op { p with bytes := b, write := p.write + len }
  | stacked {op : Operation} {b : Octets} {len : Nat} : ¬ p.Cuts op → b.length = p.bytes.length →
      Shift p op { p with bytes := b, header := p.header - len }
  | passed {op : Operation} {len : Nat} : ¬ p.Cuts op → len ≤ p.available →
      Shift p op { p with read := p.read + len }
  | cut {len : Nat} : len ≤ p.available → Shift p (.truncate len) { p with write := p.read + len }
  | resetRead : Shift p .resetRead p.resetRead
  | resetReadHeaders : Shift p .resetReadHeaders p.resetReadHeaders
  | resetWrite : Shift p .resetWrite p.resetWrite
  | resetHeaders : Shift p .resetHeaders p.resetHeaders

theorem Shift.same {op : Operation} (hop : ¬ p.Cuts op) : Shift p op p := .written hop rfl

theorem writeTo_eq_some {data : Octets} {r : Region} {a : Except Fault Octets} (h : p.writeTo data r = some (a, q)) :
    q = { p with bytes := (p.fill r data).bytes } ∧ (p.fill r data).bytes.length = p.bytes.length := by
  obtain ⟨old, ho, he⟩ := Option.map_eq_some_iff.1 h
  cases he
  refine ⟨rfl, length_fill data ?_⟩
  unfold content? slice? at ho
  split at ho
  · rw [List.length_take]
    omega
  · cases ho

theorem writeTo_of_le {r : Region} (hr : r.start + r.len ≤ p.bytes.length) (data : Octets) :
    ∃ x, p.writeTo data r = some x := by
  unfold writeTo content? slice?
  rw [if_pos hr]
  exact ⟨_, rfl⟩

theorem claim_eq_ok {len : Nat} {r : Region} (h : p.claim len = .ok (r, q)) :
    p.write + len ≤ p.bytes.length ∧ r = ⟨p.write, len⟩ ∧ q = { p with write := p.write + len } := by
  unfold claim at h
  split at h
  · cases h
  · rename_i hc
    cases h
    exact ⟨Nat.not_lt.1 hc, rfl, rfl⟩

theorem allocHeader_eq_ok {len : Nat} {r : Region} (h : p.allocHeader len = .ok (r, q)) :
    len ≤ p.header ∧ r = ⟨p.header - len, len⟩ ∧ q = { p with header := p.header - len } := by
  unfold allocHeader at h
  split at h
  · cases h
  · rename_i hc
    cases h
    exact ⟨Nat.not_lt.1 hc, rfl, rfl⟩

theorem shift_settle {op : Operation} {r : Except Fault Packet} {a : Except Fault Octets} (hop : ¬ p.Cuts op)
    (h : some (p.settle r) = some (a, q)) (hr : ∀ q, r = .ok q → Shift p op q) : Shift p op q := by
  cases r with
  | error f => cases h; exact .same hop
  | ok u => cases h; exact hr q rfl

theorem shift_push {op : Operation} (hop : ¬ p.Cuts op) {data : Octets} (h : p.push data = .ok q) : Shift p op q := by
  obtain ⟨hle, rfl⟩ := push_eq_ok h
  refine .grown hop (length_fill data (r := ⟨p.write, data.length⟩) ?_) hle
  rw [List.take_length]
  exact hle

/-- An operation that has a value moved the cursors in one of these ways. -/
theorem perform_shift {op : Operation} {a : Except Fault Octets} (e : p.perform op = some (a, q)) : Shift p op q := by
  cases op with
  | push data => exact shift_settle id e fun q => shift_push id
  | pushZeros len =>
    refine shift_settle id e fun q he => ?_
    unfold pushZeros at he
    split at he
    · cases he
    · exact shift_push id he
  | claim len data =>
    dsimp only [perform] at e
    split at e
    · cases e; exact .same id
    · rename_i hc
      obtain ⟨hl, -, rfl⟩ := claim_eq_ok hc
      obtain ⟨rfl, hb⟩ := writeTo_eq_some e
      exact .grown id hb hl
  | advance len =>
    refine shift_settle id e fun q he => ?_
    unfold advance claim at he
    split at he
    · cases he
    · rename_i hl
      cases he
      exact .grown id rfl (Nat.not_lt.1 hl)
  | take len =>
    dsimp only [perform] at e
    split at e
    · cases e; exact .same id
    · rename_i he
      unfold Packet.take peek at he
      split at he
      · cases he
      · rename_i hl
        cases he
        cases e
        exact .passed id (Nat.not_lt.1 hl)
  | peek len => cases e; exact .same id
  | poke len data =>
    dsimp only [perform] at e
    split at e
    · cases e; exact .same id
    · obtain ⟨rfl, hb⟩ := writeTo_eq_some e
      exact .written id hb
  | skip len =>
    refine shift_settle id e fun q he => ?_
    unfold skip at he
    split at he
    · cases he
    · rename_i hl
      cases he
      exact .passed id (Nat.not_lt.1 hl)
  | truncate len =>
    dsimp only [perform] at e
    unfold truncate at e
    split at e
    · rename_i hl
      cases e
      exact .same fun hc => Nat.not_lt.2 hc.1 hl
    · rename_i hl
      cases e
      exact .cut (Nat.not_lt.1 hl)
  | allocHeader len data =>
    dsimp only [perform] at e
    split at e
    · cases e; exact .same id
    · rename_i hc
      obtain ⟨-, -, rfl⟩ := allocHeader_eq_ok hc
      obtain ⟨rfl, hb⟩ := writeTo_eq_some e
      exact .stacked id hb
  | overwrite data =>
    obtain ⟨r, -, he⟩ := Option.bind_eq_some_iff.1 e
    obtain ⟨rfl, hb⟩ := writeTo_eq_some he
    exact .written id hb
  | restack depth data =>
    dsimp only [perform] at e
    split at e
    · cases e
    · cases e; exact .same id
    · obtain ⟨rfl, hb⟩ := writeTo_eq_some e
      exact .written id hb
  | resetRead => cases e; exact .resetRead
  | resetReadHeaders => cases e; exact .resetReadHeaders
  | resetWrite => cases e; exact .resetWrite
  | resetHeaders => cases e; exact .resetHeaders

/-- An operation keeps the cursors in order exactly if it does not cut into the headers. -/
theorem ordered_perform_iff (h : p.Ordered) {op : Operation} {a : Except Fault Octets}
    (e : p.perform op = some (a, q)) : q.Ordered ↔ ¬ p.Cuts op := by
  obtain ⟨⟨hheader, hboundary, hwrite⟩, hread, hend⟩ := h
  cases perform_shift e with
  | written hop hb => exact iff_of_true ⟨⟨hheader, hboundary, hb ▸ hwrite⟩, hread, hend⟩ hop
  | grown hop hb hl =>
    exact iff_of_true ⟨⟨hheader, hboundary.trans (Nat.le_add_right ..), hb ▸ hl⟩, hread,
      hend.trans (Nat.le_add_right ..)⟩ hop
  | stacked hop hb =>
    exact iff_of_true ⟨⟨(Nat.sub_le ..).trans hheader, hboundary, hb ▸ hwrite⟩, (Nat.sub_le ..).trans hread, hend⟩ hop
  | passed hop hl =>
    unfold available at hl
    exact iff_of_true ⟨⟨hheader, hboundary, hwrite⟩, hread.trans (Nat.le_add_right ..), by dsimp only; omega⟩ hop
  | @cut len hl =>
    -- What is left to read may end in front of the payload, and that is to cut into the headers.
    constructor
    · exact fun hq hc => Nat.not_lt.2 hq.boundary_le hc.2
    · intro hc
      have hb : p.boundary ≤ p.read + len := Nat.not_lt.1 fun hlt => hc ⟨hl, hlt⟩
      unfold available at hl
      exact ⟨⟨hheader, hb, by dsimp only; omega⟩, hread, Nat.le_add_right ..⟩
  | resetRead => exact iff_of_true ⟨⟨hheader, hboundary, hwrite⟩, hheader, hboundary⟩ id
  | resetReadHeaders => exact iff_of_true ⟨⟨hheader, hboundary, hwrite⟩, le_rfl, hheader.trans hboundary⟩ id
  | resetWrite => exact iff_of_true ⟨⟨hheader, le_rfl, hboundary.trans hwrite⟩, hheader, le_rfl⟩ id
  | resetHeaders =>
    exact iff_of_true ⟨⟨le_rfl, hboundary, hwrite⟩, le_max_right .., max_le hend hboundary⟩ id

/-- While payload is read, nothing but starting over at the headers leads back to them. -/
theorem boundary_le_read (hb : p.boundary ≤ p.read) {op : Operation} {a : Except Fault Octets}
    (hop : op ≠ .resetReadHeaders) (e : p.perform op = some (a, q)) : q.boundary ≤ q.read := by
  cases perform_shift e with
  | passed _ _ => exact hb.trans (Nat.le_add_right ..)
  | resetRead => exact le_rfl
  | resetReadHeaders => exact absurd rfl hop
  | resetWrite => exact le_rfl
  | resetHeaders => exact le_max_right ..
  | _ => exact hb

/-- While the cursors are in order every operation has a value. -/
theorem Ordered.perform_total (h : p.Ordered) (op : Operation) : ∃ x, p.perform op = some x := by
  obtain ⟨⟨hheader, hboundary, hwrite⟩, hread, hend⟩ := h
  cases op with
  | claim len data =>
    dsimp only [perform]
    split
    · exact ⟨_, rfl⟩
    · rename_i hc
      obtain ⟨hl, rfl, rfl⟩ := claim_eq_ok hc
      exact writeTo_of_le hl data
  | take len =>
    dsimp only [perform]
    split <;> exact ⟨_, rfl⟩
  | poke len data =>
    dsimp only [perform]
    unfold peekRegion available
    split
    · exact ⟨_, rfl⟩
    · rename_i hc
      split at hc
      · cases hc
      · cases hc
        exact writeTo_of_le (by dsimp only; omega) data
  | allocHeader len data =>
    dsimp only [perform]
    split
    · exact ⟨_, rfl⟩
    · rename_i hc
      obtain ⟨hl, rfl, rfl⟩ := allocHeader_eq_ok hc
      exact writeTo_of_le (by dsimp only; omega) data
  | overwrite data =>
    dsimp only [perform]
    unfold frameRegion? between?
    rw [if_pos ⟨hheader.trans hboundary, hwrite⟩]
    exact writeTo_of_le (by dsimp only; omega) data
  | restack depth data =>
    have hr : p.stackedRegion? depth = some (.error .badSize) ∨
        p.stackedRegion? depth = some (.ok ⟨p.boundary - depth, p.write - (p.boundary - depth)⟩) := by
      unfold stackedRegion? between?
      split
      · exact .inl rfl
      · rw [if_pos ⟨(Nat.sub_le ..).trans hboundary, hwrite⟩]
        exact .inr rfl
    dsimp only [perform]
    rcases hr with hr | hr <;> rw [hr]
    · exact ⟨_, rfl⟩
    · exact writeTo_of_le (by dsimp only; omega) data
  | _ => exact ⟨_, rfl⟩

/-! ## Runs -/

theorem mem_trail_self (p : Packet) (ops : List Operation) : p ∈ p.trail ops := by
  cases ops with
  | nil => exact List.mem_singleton_self p
  | cons op ops => exact List.mem_cons_self ..

theorem trail_cons {op : Operation} {a : Except Fault Octets} (e : p.perform op = some (a, q))
    (ops : List Operation) : p.trail (op :: ops) = p :: q.trail ops := by
  rw [trail, e]

theorem cutFree_cons {op : Operation} {a : Except Fault Octets} (e : p.perform op = some (a, q))
    (ops : List Operation) : p.CutFree (op :: ops) ↔ ¬ p.Cuts op ∧ q.CutFree ops := by
  rw [CutFree, e]

theorem Ordered.trail_iff : ∀ (ops : List Operation) {p : Packet}, p.Ordered →
    ((∀ q ∈ p.trail ops, q.Ordered) ↔ p.CutFree ops)
  | [], p, h => by simpa [trail, CutFree] using h
  | op :: ops, p, h => by
    obtain ⟨⟨a, q⟩, e⟩ := h.perform_total op
    have step := ordered_perform_iff h e
    rw [trail_cons e, cutFree_cons e, List.forall_mem_cons]
    constructor
    · rintro ⟨-, hall⟩
      have hq := hall q (mem_trail_self q ops)
      exact ⟨step.1 hq, (Ordered.trail_iff ops hq).1 hall⟩
    · rintro ⟨hcut, hfree⟩
      exact ⟨h, (Ordered.trail_iff ops (step.2 hcut)).2 hfree⟩

theorem Ordered.length_trail : ∀ (ops : List Operation) {p : Packet}, p.Ordered → p.CutFree ops →
    (p.trail ops).length = ops.length + 1
  | [], _, _, _ => rfl
  | op :: ops, p, h, hfree => by
    obtain ⟨⟨a, q⟩, e⟩ := h.perform_total op
    obtain ⟨hcut, hfree⟩ := (cutFree_cons e ops).1 hfree
    rw [trail_cons e, List.length_cons, Ordered.length_trail ops ((ordered_perform_iff h e).2 hcut) hfree,
      List.length_cons]

theorem cutFree_of_payload : ∀ (ops : List Operation) {p : Packet}, p.boundary ≤ p.read →
    .resetReadHeaders ∉ ops → p.CutFree ops
  | [], _, _, _ => trivial
  | op :: ops, p, hb, hops => by
    constructor
    · cases op with
      | truncate len => exact fun hc => Nat.not_lt.2 (hb.trans (Nat.le_add_right ..)) hc.2
      | _ => exact id
    · have hne : op ≠ .resetReadHeaders := fun h => hops (h ▸ List.mem_cons_self ..)
      split
      · trivial
      · rename_i e
        exact cutFree_of_payload ops (boundary_le_read hb hne e) fun h => hops (List.mem_cons_of_mem _ h)

/-- Cursors in order leave room for every size and every region. -/
theorem Ordered.met (h : p.Ordered) : AllMet (p.availableDemands ++ p.headerLenDemands ++ p.payloadLenDemands ++
    p.unreadDemands ++ p.frameDemands) ∧ ∀ depth, AllMet (p.stackedDemands depth) := by
  have hu := unread?_of_le h.read_le h.write_le
  refine ⟨?_, h.met_stacked⟩
  simp only [allMet_append]
  exact ⟨⟨⟨⟨met_available hu, h.met_headerLen⟩, h.met_payloadLen⟩, met_unread hu⟩, h.met_frame⟩

/-- Along every run from a new packet, or from a received frame, the cursors are in order exactly if no operation
cuts into the headers. Then every operation has a value, and no size and no region of any packet of the run is out
of range. Only while headers are read an operation can cut into them. -/
theorem cursors_ordered_iff {bytes : Octets} {n : Nat} (hp : create bytes n = .ok p ∨ ofFrame bytes n = .ok p)
    (ops : List Operation) :
    ((∀ q ∈ p.trail ops, q.Ordered) ↔ p.CutFree ops) ∧
    (p.CutFree ops → (p.trail ops).length = ops.length + 1 ∧ ∀ q ∈ p.trail ops,
      AllMet (q.availableDemands ++ q.headerLenDemands ++ q.payloadLenDemands ++ q.unreadDemands ++ q.frameDemands) ∧
      ∀ depth, AllMet (q.stackedDemands depth)) ∧
    (.resetReadHeaders ∉ ops → p.CutFree ops) := by
  obtain ⟨ho, hb⟩ := hp.elim create_ordered ofFrame_ordered
  have hiff := ho.trail_iff ops
  exact ⟨hiff, fun hfree => ⟨ho.length_trail ops hfree, fun q hq => (hiff.2 hfree q hq).met⟩,
    cutFree_of_payload ops hb⟩

/-- Headers are read and passed before the end of the payload is cut off. -/
theorem cursors_ordered_iff_bounced : ∃ p : Packet, create (List.replicate 24 0) 8 = .ok p ∧
    let ops := [.push [1, 2], .allocHeader 4 [0xaa], .resetReadHeaders, .skip 4, .truncate 1, .restack 4 [0xbb],
      .resetHeaders, .truncate 2]
    p.CutFree ops ∧ (p.trail ops).length = 9 ∧ ∀ q ∈ p.trail ops, q.Ordered := by
  have hp : create (List.replicate 24 0) 8 = .ok ⟨List.replicate 24 0, 8, 8, 8, 8⟩ := rfl
  refine ⟨_, hp, ?_⟩
  intro ops
  obtain ⟨hiff, hmet, -⟩ := cursors_ordered_iff (.inl hp) ops
  have hfree : CutFree ⟨List.replicate 24 0, 8, 8, 8, 8⟩ ops := by decide
  exact ⟨hfree, (hmet hfree).1, hiff.2 hfree⟩

/-- Of four header bytes two are left to read, so the payload ends in front of its start; and to read the payload
again reaches for bytes that do not exist. -/
theorem cursors_cut : ∃ p q : Packet, create (List.replicate 24 0) 8 = .ok p ∧
    q ∈ p.trail [.push [1, 2], .allocHeader 4 [0xaa, 0xbb, 0xcc, 0xdd], .resetReadHeaders, .truncate 2, .resetRead] ∧
    q.write < q.boundary ∧ q.write < q.read ∧ q.unread? = none ∧ q.stackedRegion? 0 = none := by
  refine ⟨⟨List.replicate 24 0, 8, 8, 8, 8⟩,
    ⟨List.replicate 4 0 ++ [0xaa, 0xbb, 0xcc, 0xdd, 1, 2] ++ List.replicate 14 0, 4, 8, 8, 6⟩, rfl, ?_⟩
  decide

end UdpStack.Packet
