/-
What the layers of a host take for granted. A layer that receives a packet meets its demands wherever the
bytes that are left to read exist, whatever they are (`Router.met_receive`, `Ports.met_receive` and so on), one
that sends or finishes a packet meets them wherever the cursors are in order. Besides, the tables of the layer
are well-formed, the count of a joined group is never zero (`Counted`), and no datagram in a socket is larger
than its slot (`Sized`); every operation keeps this.
-/
import UdpStack.Proofs.Demands.Resolver
import UdpStack.Proofs.Host.Layers

namespace UdpStack

open Bounded Octets

/-! ## Frames -/

namespace Ethernet.Endpoint

variable {e : Endpoint} {t : Transit} {p : Packet} {w : Octets}

/-- Verifying the check sequence and cutting it off. -/
def stripDemands (e : Endpoint) (frame : Octets) (p : Packet) : List Demand :=
  if !e.checked then [] else p.availableDemands ++
    if p.available < Header.size + CheckSequence.size then [] else
      p.unreadDemands ++ CheckSequence.verifyDemands frame.length ++ [.minus p.available CheckSequence.size]

def receiveDemands (e : Endpoint) (t : Transit) : List Demand :=
  t.packet.unreadDemands ++ match t.packet.unread? with
    | none => []
    | some frame =>
      if frame.length < Header.size then [] else
        Header.readDemands frame.length ++ e.groups.findDemands ++ e.stripDemands frame t.packet ++
          e.etherTypes.findDemands ++ match e.stripCheck frame t.packet with
            | .error _ => []
            | .ok p => p.availableDemands

def transmitDemands (e : Endpoint) (r : Arp.Resolver) (now : Instant) (t : Transit) : List Demand :=
  e.etherTypes.findDemands ++
    (if t.info.dstLink.isSome then [] else r.lookupDemands t.info.dstAddr t.info.task now) ++
    t.packet.allocDemands Header.size ++ Header.writeDemands Header.size

/-- Appending zero bytes if a frame is short. -/
def padDemands (p : Packet) (len : Nat) : List Demand :=
  if len < Header.minFrame then .minus Header.minFrame len :: p.claimDemands (Header.minFrame - len) else []

def finishDemands (e : Endpoint) (p : Packet) : List Demand :=
  p.frameDemands ++ match p.frame? with
    | none => []
    | some frame => padDemands p frame.length ++ match pad p frame.length with
      | .error _ => []
      | .ok q => if !e.checked then [] else
        q.frameDemands ++ q.claimDemands CheckSequence.size ++ [.range 0 4 CheckSequence.size]

theorem met_strip (hu : p.unread? = some w) : AllMet (e.stripDemands w p) := by
  refine allMet_ite (fun _ => allMet_nil) fun _ => allMet_append.2 ⟨Packet.met_available hu, ?_⟩
  refine allMet_ite (fun _ => allMet_nil) fun hl => allMet_append.2 ⟨allMet_append.2 ⟨?_, ?_⟩, ?_⟩
  · exact Packet.met_unread hu
  · exact CheckSequence.met_verify _
  · exact allMet_cons.2 ⟨le_trans (Nat.le_add_left ..) (Nat.not_lt.1 hl), allMet_nil⟩

theorem met_receive (hg : e.groups.WF) (ht : e.etherTypes.WF) (hu : t.packet.unread? = some w) :
    AllMet (e.receiveDemands t) := by
  unfold receiveDemands
  rw [hu]
  refine allMet_append.2 ⟨Packet.met_unread hu, allMet_ite (fun _ => allMet_nil) fun hl => ?_⟩
  have hl := Nat.not_lt.1 hl
  simp only [allMet_append]
  refine ⟨⟨⟨⟨Header.met_read hl, hg.met_find⟩, met_strip hu⟩, ht.met_find⟩, ?_⟩
  split
  · exact allMet_nil
  · rename_i q hq
    rcases stripCheck_cases (e := e) hu hl with ⟨-, q', hq', hv, -⟩ | ⟨-, f, hf⟩
    · cases hq'.symm.trans hq
      exact Packet.met_available hv
    · cases hf.symm.trans hq

theorem met_transmit (ht : e.etherTypes.WF) {r : Arp.Resolver} (hr : r.Built) (hp : t.packet.InOrder)
    (now : Instant) : AllMet (e.transmitDemands r now t) := by
  simp only [transmitDemands, allMet_append]
  refine ⟨⟨⟨ht.met_find, ?_⟩, hp.met_alloc _⟩, Header.met_write le_rfl⟩
  exact allMet_ite (fun _ => allMet_nil) fun _ => hr.met_lookup _ _ now

theorem met_pad (p : Packet) (len : Nat) : AllMet (padDemands p len) :=
  allMet_ite (fun hl => allMet_cons.2 ⟨hl.le, p.met_claim _⟩) fun _ => allMet_nil

theorem met_finish (hp : p.InOrder) : AllMet (e.finishDemands p) := by
  unfold finishDemands
  refine allMet_append.2 ⟨hp.met_frame, ?_⟩
  split
  · exact allMet_nil
  · refine allMet_append.2 ⟨met_pad p _, ?_⟩
    split
    · exact allMet_nil
    · rename_i q hq
      refine allMet_ite (fun _ => allMet_nil) fun _ => allMet_append.2 ⟨allMet_append.2 ⟨?_, q.met_claim _⟩, ?_⟩
      · exact (Host.pad_inOrder hp hq).1.met_frame
      · exact allMet_cons.2 ⟨by decide, allMet_nil⟩

/-! ### Groups -/

/-- The groups are stored in order, and each of them was joined at least once. -/
structure Counted (m : Map Address UInt8 Limits.groups) : Prop where
  stored : m.WF
  counts : ∀ {x : Address} {n : UInt8}, m.get? x = some n → 1 ≤ n.toNat

def joinDemands (e : Endpoint) (group : Address) : List Demand :=
  e.groups.findDemands ++ e.groups.insertDemands group

/-- Counting down, and taking the group out if nothing is left. -/
def leaveDemands (e : Endpoint) (group : Address) : List Demand :=
  e.groups.findDemands ++ match e.groups.get? group with
    | none => []
    | some n => .minus n.toNat 1 :: e.groups.removeDemands group

theorem met_join (hg : Counted e.groups) (group : Address) : AllMet (e.joinDemands group) :=
  allMet_append.2 ⟨hg.stored.met_find, hg.stored.met_insert group⟩

theorem met_leave (hg : Counted e.groups) (group : Address) : AllMet (e.leaveDemands group) := by
  refine allMet_append.2 ⟨hg.stored.met_find, ?_⟩
  split
  · exact allMet_nil
  · rename_i hn
    exact allMet_cons.2 ⟨hg.counts hn, hg.stored.met_remove group⟩

theorem counted_empty : Counted .empty := ⟨Map.empty_wf, nofun⟩

theorem Counted.set {m : Map Address UInt8 Limits.groups} (hg : Counted m) {n : UInt8} (hn : 1 ≤ n.toNat)
    (group : Address) : Counted (m.set group n) := by
  refine ⟨Map.set_wf hg.stored group n, fun {x k} hm => ?_⟩
  rw [Map.get?_set hg.stored] at hm
  split at hm
  · cases hm
    exact hn
  · exact hg.counts hm

theorem counted_join {e' : Endpoint} (hg : Counted e.groups) {group : Address} (h : e.join group = .ok e') :
    Counted e'.groups := by
  unfold join at h
  split at h
  · cases h
  · split at h
    · rename_i n _
      split at h
      · cases h
      · rename_i hn
        cases h
        refine hg.set ?_ group
        -- a count is only raised below its bound
        have hlt : n.toNat ≠ 255 := fun hn' => hn (UInt8.toNat_inj.1 hn')
        have := n.toNat_lt
        rw [UInt8.toNat_add]
        simp only [UInt8.toNat_one]
        omega
    · cases hi : e.groups.insert group 1 with
      | error f => rw [hi] at h; cases h
      | ok groups =>
        rw [hi] at h
        cases h
        refine ⟨Map.insert_wf hg.stored hi, fun {x m} hm => ?_⟩
        rw [Map.get?_insert hg.stored hi] at hm
        split at hm
        · cases hm
          decide
        · exact hg.counts hm

theorem counted_leave {e' : Endpoint} (hg : Counted e.groups) {group : Address} (h : e.leave group = .ok e') :
    Counted e'.groups := by
  unfold leave at h
  split at h
  · cases h
  · rename_i n hget
    have hpos := hg.counts hget
    split at h
    · cases h
      refine ⟨Map.remove_wf hg.stored group, fun {x m} hm => ?_⟩
      rw [Map.get?_remove hg.stored] at hm
      split at hm
      · cases hm
      · exact hg.counts hm
    · rename_i hn
      cases h
      refine hg.set ?_ group
      have hne : n.toNat ≠ 1 := fun hn' => hn (UInt8.toNat_inj.1 hn')
      rw [UInt8.toNat_sub_of_le n 1 (UInt8.le_iff_toNat_le.2 hpos)]
      simp only [UInt8.toNat_one]
      omega

end Ethernet.Endpoint

/-! ## Datagrams -/

namespace Ipv4

namespace Routes

def addDemands (rs : Routes) (route : Route) : List Demand :=
  match route.mask.prefixLen? with
  | none => []
  | some n => rs.storage.iterDemands ++
    insertDemands rs.storage.size ((rs.storage.findIdx? fun other => other.prefixLen < n).getD rs.storage.size)
      Limits.routes

def removeDemands (rs : Routes) (net mask : Address) : List Demand :=
  rs.storage.extractDemands fun route => route.net == net && route.mask == mask

theorem met_add {rs : Routes} (h : rs.storage.WF) (route : Route) : AllMet (rs.addDemands route) := by
  unfold addDemands
  split
  · exact allMet_nil
  · exact allMet_append.2 ⟨h.met_iter, h.met_insert _⟩

end Routes

namespace Router

variable {r : Router} {t : Transit}

def receiveDemands (r : Router) (t : Transit) : List Demand :=
  t.packet.unreadDemands ++ match t.packet.unread? with
    | none => []
    | some b => Header.checkDemands b ++ match Header.checkLength b with
      | .error _ => []
      | .ok () =>
        Header.readDemands b.length ++ Header.verifyDemands b ++ t.packet.availableDemands ++
          [.minus t.packet.available (Header.lengthOf b)] ++ r.incoming.findDemands ++ r.protocols.findDemands ++
          t.packet.cutDemands (Header.lengthOf b)

/-- Writing the header, computing its checksum last. -/
def headerDemands (b : Octets) : List Demand := Header.writeDemands b.length ++ Header.fillDemands b

def transmitDemands (r : Router) (t : Transit) (caller : Layer) : List Demand :=
  r.protocols.findDemands ++ match r.protocols.keyOf? caller with
    | none => []
    | some protocol => r.routes.storage.iterDemands ++ match r.routes.lookup t.info.dstAddr with
      | none => []
      | some route =>
        let info := r.chooseSource t.info route.layer
        let totalLen := t.packet.headerLen + t.packet.payloadLen + Header.size
        r.incoming.findDemands ++ t.packet.headerLenDemands ++ t.packet.payloadLenDemands ++
          t.packet.allocDemands Header.size ++
          headerDemands (headerOctets (UInt16.ofNat totalLen) r.ident protocol info.srcAddr info.dstAddr 0)

theorem met_receive (hi : r.incoming.WF) (hp : r.protocols.WF) {b : Octets} (hu : t.packet.unread? = some b) :
    AllMet (r.receiveDemands t) := by
  unfold receiveDemands
  rw [hu]
  refine allMet_append.2 ⟨Packet.met_unread hu, allMet_append.2 ⟨Header.met_check b, ?_⟩⟩
  split
  · exact allMet_nil
  · rename_i hc
    obtain ⟨hsize, hoptions⟩ := Header.complete_of_check hc
    have hlen := (Packet.unread?_eq_some hu).2.2.2
    simp only [allMet_append]
    refine ⟨⟨⟨⟨⟨⟨Header.met_read hsize, ?_⟩, Packet.met_available hu⟩, ?_⟩, hi.met_find⟩, hp.met_find⟩, ?_⟩
    · exact Header.met_verify (lt_of_lt_of_le (by decide) hsize) hoptions
    · exact allMet_cons.2 ⟨hlen ▸ hoptions, allMet_nil⟩
    · exact Packet.met_cut hu _

theorem met_header (totalLen ident : UInt16) (protocol : Protocol) (src dst : Address) :
    AllMet (headerDemands (headerOctets totalLen ident protocol src dst 0)) := by
  have hlen : (headerOctets totalLen ident protocol src dst 0).length = Header.size := rfl
  refine allMet_append.2 ⟨Header.met_write hlen.ge, Header.met_fill hlen.ge ?_⟩
  show 4 * ((0x45 : UInt8).toNat % 16) ≤ Header.size
  decide

theorem met_transmit (hi : r.incoming.WF) (hp : r.protocols.WF) (hr : r.routes.storage.WF)
    (ht : t.packet.InOrder) (caller : Layer) : AllMet (r.transmitDemands t caller) := by
  unfold transmitDemands
  refine allMet_append.2 ⟨hp.met_find, ?_⟩
  split
  · exact allMet_nil
  · refine allMet_append.2 ⟨hr.met_iter, ?_⟩
    split
    · exact allMet_nil
    · simp only [allMet_append]
      refine ⟨⟨⟨⟨hi.met_find, ht.met_headerLen⟩, ht.met_payloadLen⟩, ht.met_alloc _⟩, ?_⟩
      exact met_header _ _ _ _ _

end Router

end Ipv4

namespace Udp

/-! ## User datagrams -/

namespace Ports

variable {u : Ports} {t : Transit}

def receiveDemands (u : Ports) (t : Transit) : List Demand :=
  t.packet.unreadDemands ++ match t.packet.unread? with
    | none => []
    | some b => Header.checkDemands b ++ match Header.checkLength b with
      | .error _ => []
      | .ok () =>
        Header.verifyDemands b ++ Header.readDemands b ++ u.table.findDemands ++ [.minus (word b 4) Header.size] ++
          t.packet.cutDemands Header.size

def transmitDemands (u : Ports) (t : Transit) : List Demand :=
  t.packet.headerLenDemands ++ u.table.findDemands ++ t.packet.payloadLenDemands ++
    t.packet.allocDemands Header.size ++ Header.writeDemands Header.size

/-- Finding the header again in front of the payload, and writing the checksum. -/
def finishDemands (t : Transit) : List Demand :=
  t.packet.stackedDemands Header.size ++ match t.packet.stackedRegion? Header.size with
    | some (.ok r) => ((t.packet.content? r).map Header.fillDemands).getD []
    | _ => []

def bindDemands (u : Ports) (port : UInt16) : List Demand := u.table.findDemands ++ u.table.insertDemands port

theorem met_receive (hw : u.table.WF) {b : Octets} (hu : t.packet.unread? = some b) :
    AllMet (u.receiveDemands t) := by
  unfold receiveDemands
  rw [hu]
  refine allMet_append.2 ⟨Packet.met_unread hu, allMet_append.2 ⟨Header.met_check b, ?_⟩⟩
  split
  · exact allMet_nil
  · rename_i hc
    obtain ⟨hsize, hlen⟩ := Header.complete_of_check hc
    simp only [allMet_append]
    refine ⟨⟨⟨⟨Header.met_verify (hsize.trans hlen) hlen, Header.met_read hsize hlen⟩, hw.met_find⟩, ?_⟩, ?_⟩
    · exact allMet_cons.2 ⟨hsize, allMet_nil⟩
    · exact Packet.met_cut hu _

theorem met_transmit (hw : u.table.WF) (ht : t.packet.InOrder) : AllMet (u.transmitDemands t) := by
  simp only [transmitDemands, allMet_append]
  exact ⟨⟨⟨⟨ht.met_headerLen, hw.met_find⟩, ht.met_payloadLen⟩, ht.met_alloc _⟩, Header.met_write le_rfl⟩

/-- The length in the header is that of the datagram wherever the checksum is written. -/
theorem met_finish (ht : t.packet.InOrder) {x : Except Fault Finish × Packet} (h : finishPass t = some x) :
    AllMet (finishDemands t) := by
  obtain ⟨region, hr, h⟩ := Option.bind_eq_some_iff.1 h
  unfold finishDemands
  rw [hr]
  refine allMet_append.2 ⟨ht.met_stacked _, ?_⟩
  cases region with
  | error f => exact allMet_nil
  | ok region =>
    obtain ⟨b, hb, h⟩ := Option.bind_eq_some_iff.1 h
    obtain ⟨filled, hf, -⟩ := Option.bind_eq_some_iff.1 h
    obtain ⟨hsize, hlen⟩ := Header.complete_of_fill hf
    dsimp only
    rw [hb]
    exact Header.met_fill hsize hlen

theorem met_bind (hw : u.table.WF) (port : UInt16) : AllMet (u.bindDemands port) :=
  allMet_append.2 ⟨hw.met_find, hw.met_insert port⟩

end Ports

/-! ## Sockets -/

namespace Socket

/-- A datagram is not larger than its slot. -/
structure Sized (s : Socket) : Prop where
  queue : s.queue.WF
  length_le : ∀ d ∈ s.queue.toList, d.payload.length ≤ Limits.datagramBytes

variable {s : Socket} {t : Transit}

/-- Giving up the oldest datagram if there is no room, and copying the payload to the place behind the newest
one as far as a slot goes. -/
def enqueueDemands (s : Socket) (t : Transit) : List Demand :=
  let len := min t.packet.available Limits.datagramBytes
  (if s.queue.isFull then s.queue.popDemands else []) ++ t.packet.availableDemands ++
    (makeRoom s.queue).pushDemands ++ [.range 0 len Limits.datagramBytes] ++ t.packet.takeDemands len ++
    (makeRoom s.queue).commitDemands

def receiveDemands (s : Socket) (t : Transit) (w : Wakeups) : List Demand :=
  (if s.accepts t.info.dstAddr then s.enqueueDemands t else []) ++ s.waiters.flatMap w.wakeDemands

/-- Copying the oldest datagram to a buffer as far as it goes. -/
def recvDemands (s : Socket) (room : Nat) : List Demand :=
  s.queue.popDemands ++ match s.queue.pop.1 with
    | none => []
    | some d =>
      let len := min d.payload.length room
      [.range 0 len room, .range 0 len Limits.datagramBytes, .copy len (d.payload.take len).length]

def unbindDemands (s : Socket) (w : Wakeups) : List Demand := s.waiters.flatMap w.wakeDemands

theorem met_waiters {w : Wakeups} (hw : w.pending.WF) (s : Socket) : AllMet (s.waiters.flatMap w.wakeDemands) := by
  intro d hd
  obtain ⟨task, -, hd⟩ := List.mem_flatMap.1 hd
  exact Wakeups.met_wake hw task d hd

theorem met_enqueue (hs : s.Sized) {b : Octets} (hu : t.packet.unread? = some b) : AllMet (s.enqueueDemands t) := by
  simp only [enqueueDemands, allMet_append]
  refine ⟨⟨⟨⟨⟨?_, Packet.met_available hu⟩, ?_⟩, ?_⟩, Packet.met_take hu _⟩, ?_⟩
  · exact allMet_ite (fun _ => hs.queue.met_pop (by decide)) fun _ => allMet_nil
  · exact Queue.met_push (by decide) _
  · exact allMet_cons.2 ⟨⟨Nat.zero_le _, Nat.min_le_right ..⟩, allMet_nil⟩
  · exact Queue.met_commit (by decide) _

theorem met_receive (hs : s.Sized) {w : Wakeups} (hw : w.pending.WF) {b : Octets} (hu : t.packet.unread? = some b) :
    AllMet (s.receiveDemands t w) :=
  allMet_append.2 ⟨allMet_ite (fun _ => met_enqueue hs hu) fun _ => allMet_nil, met_waiters hw s⟩

theorem met_recv (hs : s.Sized) (room : Nat) : AllMet (s.recvDemands room) := by
  refine allMet_append.2 ⟨hs.queue.met_pop (by decide), ?_⟩
  split
  · exact allMet_nil
  · rename_i d hd
    rw [Queue.fst_pop hs.queue] at hd
    have hle := hs.length_le d (List.mem_of_mem_head? hd)
    simp only [allMet_cons, allMet_nil, Demand.Met, List.length_take, and_true]
    omega

theorem receivePass_pending {w : Wakeups} (hw : w.pending.WF) (s : Socket) (t : Transit) :
    (s.receivePass t w).2.2.2.pending.WF := by
  cases ha : s.accepts t.info.dstAddr with
  | false =>
    rw [receivePass_of_rejects ha]
    exact hw
  | true =>
    obtain ⟨q, p, he, -⟩ := receivePass_of_accepts ha w
    rw [he]
    exact Wakeups.wakeAll_wf s.waiters hw

theorem unbind_pending {s' : Socket} {b : Binding} {w w' : Wakeups} (hw : w.pending.WF)
    (h : s.unbind w = .ok (b, s', w')) : w'.pending.WF := by
  cases hb : s.binding with
  | none =>
    unfold unbind at h
    rw [hb] at h
    cases h
  | some b' =>
    rw [unbind_of_bound hb] at h
    cases h
    exact Wakeups.wakeAll_wf s.waiters hw

theorem empty_sized : Sized .empty := ⟨Queue.empty_wf, nofun⟩

theorem Sized.of_queue {s' : Socket} (hs : s.Sized) (h : s'.queue = s.queue ∨ s'.queue = s.queue.pop.2) :
    s'.Sized := by
  rcases h with h | h
  · exact ⟨by rw [h]; exact hs.queue, by rw [h]; exact hs.length_le⟩
  · refine ⟨by rw [h]; exact Queue.pop_wf hs.queue, fun d hd => hs.length_le d ?_⟩
    rw [h] at hd
    exact Queue.mem_of_mem_pop hs.queue hd

theorem Sized.recv {s' : Socket} (hs : s.Sized) {task : Task} {room : Nat} {r : Poll Received}
    (h : s.recv task room = (r, s')) : s'.Sized :=
  hs.of_queue (recv_answered h).queue

/-- A datagram that is put into the queue is cut to the size of a slot. -/
theorem Sized.receivePass (hs : s.Sized) (t : Transit) (w : Wakeups) : (s.receivePass t w).2.1.Sized := by
  cases ha : s.accepts t.info.dstAddr with
  | false =>
    rw [receivePass_of_rejects ha]
    exact hs
  | true =>
    obtain ⟨q, p, he, -, hq⟩ := receivePass_of_accepts ha w
    rw [he]
    have hroom := makeRoom_wf hs.queue
    refine ⟨Queue.push_wf hroom (hq hs.queue), fun d hd => ?_⟩
    rw [Queue.toList_push hroom (hq hs.queue), List.mem_append, List.mem_singleton] at hd
    rcases hd with hd | rfl
    · rw [toList_makeRoom hs.queue] at hd
      exact hs.length_le d (List.mem_of_mem_drop hd)
    · simp only [arriving, List.length_take]
      omega

end Socket

end Udp

end UdpStack
