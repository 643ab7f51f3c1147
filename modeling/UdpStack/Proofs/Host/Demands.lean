/-
What a host takes for granted. The demands of its layers follow a packet through its passes, and those of a call
are all that any of its passes comes to (`callDemands`). In a host whose tables are stored in order (`Orderly`)
every step of a layer meets its demands, as long as the bytes that are left to read exist on the way up and the
cursors are in order on the way down; so every pass that has a value meets them (`Orderly.met_receive`,
`Orderly.met_transmit`), and so does what the host does on its own (`Orderly.met_flush`, `Orderly.met_poll`).
-/
import UdpStack.Proofs.Demands.Devices
import UdpStack.Proofs.Demands.Layers
import UdpStack.Proofs.Host.Sending

namespace UdpStack.Host

open Bounded Device

variable {δ : Type}

/-! ## Single layers -/

/-- Reaching the counters of a layer. -/
def countDemands (h : Host δ) : Layer → List Demand
  | .socket s => h.sockets.getDemands s
  | _ => []

def receiveAtDemands (h : Host δ) (layer : Layer) (t : Transit) : List Demand :=
  match layer with
  | .ethernet => h.endpoint.receiveDemands t
  | .resolver => h.resolver.receiveDemands t.packet h.now h.wakeups
  | .ipv4 => h.router.receiveDemands t
  | .udp => h.ports.receiveDemands t
  | .socket s => h.sockets.getDemands s ++ match h.sockets.get? s with
    | none => []
    | some socket => socket.receiveDemands t h.wakeups
  | .device | .loopback | .user => []

/-- The device reports by how much a frame is too large. -/
def transmitAtDemands [Nic δ] (h : Host δ) (layer caller : Layer) (t : Transit) : List Demand :=
  match layer with
  | .device => t.packet.frameDemands ++ match t.packet.frame? with
    | none => []
    | some frame =>
      let content := frame.length - Ethernet.Header.size
      if (Nic.personality h.device).mtu < content then [.minus content (Nic.personality h.device).mtu] else []
  | .ethernet => h.endpoint.transmitDemands h.resolver h.now t
  | .ipv4 => h.router.transmitDemands t caller
  | .udp => h.ports.transmitDemands t
  | .socket s => h.sockets.getDemands s
  | .resolver | .loopback | .user => []

def finishAtDemands [Nic δ] [Queueing δ] [Demanding δ] (h : Host δ) (layer : Layer) (t : Transit) : List Demand :=
  match layer with
  | .device => t.packet.frameDemands ++ match t.packet.frame? with
    | none => []
    | some frame => Demanding.useDemands h.device (.transmit frame)
  | .ethernet => h.endpoint.finishDemands t.packet
  | .udp => Udp.Ports.finishDemands t
  | .socket s => h.sockets.getDemands s
  | .ipv4 | .resolver | .loopback | .user => []

/-! ## Whole passes -/

def receiveDemands (h : Host δ) (t : Transit) : (depth : Nat) → (layer caller : Layer) → List Demand
  | 0, _, _ => []
  | depth + 1, layer, caller => h.receiveAtDemands layer t ++ h.countDemands layer ++
    match h.receiveAt layer caller t with
    | some (.ok (.layer upper), h, t) => receiveDemands (h.count layer .countRx) t depth upper layer
    | _ => []

section passes

variable [Nic δ]

/-- On the way down the layers are collected in a table. -/
def descendDemands (h : Host δ) (t : Transit) : (depth : Nat) → (layer caller : Layer) → List Demand
  | 0, _, _ => []
  | depth + 1, layer, caller =>
    insertDemands (Limits.depth - (depth + 1)) (Limits.depth - (depth + 1)) Limits.depth ++
      h.transmitAtDemands layer caller t ++ h.countDemands layer ++
      match h.transmitAt layer caller t with
      | some (.ok (.layer lower), h, t) => descendDemands h t depth lower layer
      | _ => []

variable [Queueing δ] [Demanding δ]

def finishDemands (h : Host δ) (t : Transit) : List (Layer × Layer) → List Demand
  | [] => []
  | (layer, caller) :: rest => h.finishAtDemands layer t ++ h.countDemands layer ++
    match h.finishAt layer caller t with
    | some (.ok .pass, h, t) => finishDemands (h.count layer .countTx) t rest
    | some (.ok (.bounce target), h, t) => (h.count layer .countTx).receiveDemands t Limits.depth target layer
    | _ => []

def transmitDemands (h : Host δ) (t : Transit) (layer caller : Layer) : List Demand :=
  h.descendDemands t Limits.depth layer caller ++ match h.descend t Limits.depth layer caller with
    | some (.ok path, h, t) => .range 0 path.length Limits.depth :: h.finishDemands t path
    | _ => []

/-! ## What a host does on its own -/

def sendMessageDemands (h : Host δ) (m : Arp.Message) (dst : Ethernet.Address) : List Demand :=
  match Packet.create h.txBuffer Limits.headerRoom with
  | .error _ => []
  | .ok p => p.claimDemands Arp.Message.size ++ Arp.Message.writeDemands Arp.Message.size ++
    match p.push m.octets with
    | .error _ => []
    | .ok p => h.transmitDemands ⟨p, { dstLink := some dst }⟩ .ethernet .resolver

def sendMessagesDemands (h : Host δ) : Nat → List Demand
  | 0 => h.resolver.outgoingDemands
  | k + 1 => h.resolver.outgoingDemands ++ match h.resolver.outgoing with
    | (none, _) => []
    | (some (m, dst), resolver) =>
      sendMessageDemands { h with resolver := resolver } m dst ++
        match sendMessage { h with resolver := resolver } m dst with
        | none => []
        | some h => sendMessagesDemands h k

def flushDemands (h : Host δ) : List Demand :=
  h.sendMessagesDemands h.resolver.backlog ++ match h.sendMessages h.resolver.backlog with
    | none => []
    | some h => h.wakeups.deliverDemands

def receiveFrameDemands (h : Host δ) (frame : Octets) : List Demand :=
  (h.count .device .countRx).receiveDemands (h.entering frame) Limits.depth .ethernet .device

def receiveFramesDemands (h : Host δ) : Nat → List Demand
  | 0 => []
  | k + 1 => Demanding.useDemands h.device (.receive h.rxBuffer.length) ++
    match Nic.receive h.device h.rxBuffer.length with
    | (.ok none, _) => []
    | (.error _, device) =>
      flushDemands { h with device := device, deviceCounters := h.deviceCounters.countDropped }
    | (.ok (some frame), device) =>
      receiveFrameDemands { h with device := device } frame ++
        match receiveFrame { h with device := device } frame with
        | none => []
        | some g => g.flushDemands ++ match g.flush with
          | none => []
          | some g => receiveFramesDemands g k

def pollDemands (h : Host δ) (now : Instant) : List Demand :=
  h.resolver.expireDemands now h.wakeups ++
    flushDemands { h with
      now := now
      resolver := (h.resolver.expire now h.wakeups).1
      wakeups := (h.resolver.expire now h.wakeups).2 } ++
    match h.refreshed now with
    | none => []
    | some g => g.receiveFramesDemands g.frameBound

end passes

/-! ## Calls -/

def unbindDemands (h : Host δ) (s : Handle) : List Demand :=
  h.sockets.getDemands s ++ match h.sockets.get? s with
    | none => []
    | some socket => socket.unbindDemands h.wakeups ++ match socket.unbind h.wakeups with
      | .error _ => []
      | .ok (b, _, wakeups) => h.ports.table.removeDemands b.port ++ wakeups.deliverDemands

def releaseDemands (h : Host δ) (s : Handle) : List Demand :=
  h.sockets.getDemands s ++ (if (h.binding? s).isSome then h.unbindDemands s else []) ++
    (if (h.binding? s).isSome then (h.unbind s).2 else h).sockets.releaseDemands s

def recvDemands (h : Host δ) (s : Handle) (room : Nat) : List Demand :=
  h.sockets.getDemands s ++ match h.sockets.get? s with
    | none => []
    | some socket => socket.recvDemands room

/-- Joining a group in both filters, or in neither. -/
def joinDemands (h : Host δ) (group : Ipv4.Address) : List Demand :=
  h.router.incoming.insertDemands group ++ match h.router.addIncoming group .ethernet with
    | .error _ => []
    | .ok r => h.endpoint.joinDemands (.ofGroup group) ++ r.incoming.removeDemands group

def leaveDemands (h : Host δ) (group : Ipv4.Address) : List Demand :=
  h.router.incoming.removeDemands group ++ h.endpoint.leaveDemands (.ofGroup group)

/-- The room for a payload is what the headers and the check sequence leave of a buffer. -/
def mtuDemands : List Demand :=
  [.minus Limits.frameBuffer Limits.headerRoom,
    .minus (Limits.frameBuffer - Limits.headerRoom) Ethernet.CheckSequence.size]

theorem met_mtu : AllMet mtuDemands :=
  allMet_cons.2 ⟨by decide, allMet_cons.2 ⟨by decide, allMet_nil⟩⟩

section calls

variable [Nic δ] [Queueing δ] [Demanding δ]

def sendDemands (h : Host δ) (s : Handle) (task : Task) (dst : Ipv4.Address) (port : UInt16) (payload : Octets) :
    List Demand :=
  mtuDemands ++ h.sockets.getDemands s ++
    if h.mtu < payload.length then [] else if (h.sockets.get? s).isNone then [] else
      match Packet.create h.txBuffer Limits.headerRoom with
      | .error _ => h.flushDemands
      | .ok p => p.pushDemands payload ++ match p.push payload with
        | .error _ => h.flushDemands
        | .ok p =>
          let t : Transit := ⟨p, { dstAddr := dst, dstPort := port, task := some task }⟩
          h.transmitDemands t (.socket s) .user ++ match h.transmit t (.socket s) .user with
            | none => []
            | some (_, h, t) => flushDemands { h with txBuffer := t.packet.bytes }

/-- Everything that a call takes for granted. -/
def callDemands (h : Host δ) : Call δ → List Demand
  | .acquire => h.sockets.acquireDemands
  | .release s => h.releaseDemands s
  | .bind s _ port => h.sockets.getDemands s ++ h.ports.bindDemands port
  | .unbind s => h.unbindDemands s
  | .send s task dst port payload => h.sendDemands s task dst port payload
  | .recv s _ room => h.recvDemands s room
  | .cancel s _ => h.sockets.getDemands s
  | .poll now => h.pollDemands now
  | .addRoute route => h.router.routes.addDemands route
  | .removeRoute net mask => h.router.routes.removeDemands net mask
  | .join group => h.joinDemands group
  | .leave group => h.leaveDemands group
  | .device _ => []
  | .fill x hardware now => h.resolver.fillDemands x hardware now
  | .resolver _ => []

/-- Everything that looking at a host takes for granted: at a socket, at counters, at the tables of the layers,
and at the frames of the device. -/
def lookDemands (h : Host δ) (s : Handle) : List Demand :=
  h.sockets.getDemands s ++ mtuDemands ++ h.endpoint.groups.findDemands ++ h.endpoint.etherTypes.findDemands ++
    h.router.routes.storage.iterDemands ++ h.router.incoming.findDemands ++ h.router.protocols.findDemands ++
    h.ports.table.findDemands ++ Demanding.useDemands h.device .inspect ++
    match h.resolver with
    | .derived => []
    | .table t => t.lookDemands

end calls

/-! ## Hosts whose tables are stored in order -/

/-- The tables that decide where packets go are stored in order, and each group was joined. -/
structure Setup.Stored (u : Setup) : Prop where
  etherTypes : u.etherTypes.WF
  groups : Ethernet.Endpoint.Counted u.groups
  routes : u.routes.WF
  incoming : u.incoming.WF
  protocols : u.protocols.WF
  ports : u.ports.WF

/-- Everything in a host is stored in order, and its device and its resolver are such as programs can have. -/
structure Orderly [Nic δ] [Queueing δ] (h : Host δ) : Prop where
  setup : h.setup.Stored
  resolver : h.resolver.Built
  sockets : h.sockets.All Udp.Socket.Sized
  wakeups : h.wakeups.pending.WF
  device : Queueing.Built h.device

theorem sized_count {h : Host δ} (hs : h.sockets.All Udp.Socket.Sized) (layer : Layer) (f : Counters → Counters) :
    (h.count layer f).sockets.All Udp.Socket.Sized := by
  obtain ⟨_, _, _, _, _, _, sockets, he, hsockets⟩ := count_eq h layer f
  rw [he]
  rcases hsockets with rfl | ⟨s, socket, c, hg, rfl⟩
  · exact hs
  · exact hs.set s ((hs s socket hg).of_queue (.inl rfl))

section orderly

variable [Nic δ] [Queueing δ]

theorem stable_orderly : StablePoll fun h : Host δ => h.Orderly where
  count layer f ho := by
    refine ⟨?_, ?_, sized_count ho.sockets layer f, ?_, ?_⟩
    · rw [setup_count]; exact ho.setup
    · rw [resolver_count]; exact ho.resolver
    · rw [wakeups_count]; exact ho.wakeups
    · rw [device_count]; exact ho.device
  numbered _ ho := ⟨ho.setup, ho.resolver, ho.sockets, ho.wakeups, ho.device⟩
  heard ho hx := by
    obtain ⟨hr, hw⟩ := ho.resolver.receivePass ho.wakeups hx
    exact ⟨ho.setup, hr, ho.sockets, hw, ho.device⟩
  handed {h s socket} t ho hs := by
    refine ⟨?_, ho.resolver, ho.sockets.set s ((ho.sockets s socket hs).receivePass t h.wakeups), ?_, ho.device⟩
    · rw [setup_handed t hs]; exact ho.setup
    · exact Udp.Socket.receivePass_pending ho.wakeups socket t
  sent frame ho := ⟨ho.setup, ho.resolver, ho.sockets, ho.wakeups, Queueing.built_transmit frame ho.device⟩
  outgoing ho := ⟨ho.setup, ho.resolver.outgoing, ho.sockets, ho.wakeups, ho.device⟩
  txBuffer _ ho := ⟨ho.setup, ho.resolver, ho.sockets, ho.wakeups, ho.device⟩
  deliver ho := ⟨ho.setup, ho.resolver, ho.sockets, Seq.empty_wf, ho.device⟩
  rxBuffer _ ho := ⟨ho.setup, ho.resolver, ho.sockets, ho.wakeups, ho.device⟩
  expire now ho :=
    ⟨ho.setup, ho.resolver.expire now _, ho.sockets, ho.resolver.expire_wf ho.wakeups now, ho.device⟩
  take room ho := ⟨ho.setup, ho.resolver, ho.sockets, ho.wakeups, Queueing.built_receive room ho.device⟩

theorem Orderly.asked {h : Host δ} (ho : h.Orderly) (x : Ipv4.Address) (task : Option Task) :
    (h.asked x task).Orderly :=
  ⟨ho.setup, ho.resolver.lookup x task h.now, ho.sockets, ho.wakeups, ho.device⟩

variable {h : Host δ} {t : Transit}

/-! ## The way up -/

omit [Nic δ] [Queueing δ] in
theorem met_count (h : Host δ) (layer : Layer) : AllMet (h.countDemands layer) := by
  cases layer with
  | socket s => exact Pool.met_get _ s
  | _ => exact allMet_nil

theorem Orderly.met_receiveAt (ho : h.Orderly) (layer : Layer) {w : Octets} (hu : t.packet.unread? = some w) :
    AllMet (h.receiveAtDemands layer t) := by
  cases layer with
  | ethernet => exact Ethernet.Endpoint.met_receive ho.setup.groups.stored ho.setup.etherTypes hu
  | resolver => exact ho.resolver.met_receive ho.wakeups hu h.now
  | ipv4 => exact Ipv4.Router.met_receive ho.setup.incoming ho.setup.protocols hu
  | udp => exact Udp.Ports.met_receive ho.setup.ports hu
  | socket s =>
    refine allMet_append.2 ⟨Pool.met_get _ s, ?_⟩
    split
    · exact allMet_nil
    · rename_i socket hs
      exact Udp.Socket.met_receive (ho.sockets s socket hs) ho.wakeups hu
  | _ => exact allMet_nil

/-- A packet is received as long as the bytes that are left to read exist, and they do for the layer above. -/
theorem Orderly.met_receive : ∀ (depth : Nat) {h : Host δ} {t : Transit} {w : Octets}, h.Orderly →
    t.packet.unread? = some w → ∀ layer caller : Layer, AllMet (h.receiveDemands t depth layer caller)
  | 0, _, _, _, _, _, _, _ => allMet_nil
  | depth + 1, h, t, w, ho, hu, layer, caller => by
    obtain ⟨r, g, u, he, hnext⟩ := receiveAt_total h layer caller hu
    unfold receiveDemands
    rw [he]
    refine allMet_append.2 ⟨allMet_append.2 ⟨ho.met_receiveAt layer hu, met_count h layer⟩, ?_⟩
    rcases r with f | upper | _
    · exact allMet_nil
    · obtain ⟨w', hu'⟩ := hnext upper rfl
      have hg : g.Orderly := stable_orderly.receiveAt ho he
      exact Orderly.met_receive depth (stable_orderly.count layer .countRx hg) hu' upper layer
    · exact allMet_nil

/-! ## The way down -/

theorem Orderly.met_transmitAt (ho : h.Orderly) (hp : t.packet.InOrder) (layer caller : Layer) :
    AllMet (h.transmitAtDemands layer caller t) := by
  cases layer with
  | device =>
    refine allMet_append.2 ⟨hp.met_frame, ?_⟩
    split
    · exact allMet_nil
    · exact allMet_ite (fun hlt => allMet_cons.2 ⟨hlt.le, allMet_nil⟩) fun _ => allMet_nil
  | ethernet => exact Ethernet.Endpoint.met_transmit ho.setup.etherTypes ho.resolver hp h.now
  | ipv4 => exact Ipv4.Router.met_transmit ho.setup.incoming ho.setup.protocols ho.setup.routes.storage hp caller
  | udp => exact Udp.Ports.met_transmit ho.setup.ports hp
  | socket s => exact Pool.met_get _ s
  | _ => exact allMet_nil

theorem orderly_transmitAt {h' : Host δ} {layer caller : Layer} {t' : Transit} {r : Except Fault Next}
    (ho : h.Orderly) (e : h.transmitAt layer caller t = some (r, h', t')) : h'.Orderly :=
  stable_orderly.transmitAt (.inr fun x task ho => ho.asked x task) ho e

theorem Orderly.met_descend : ∀ (depth : Nat) {h : Host δ} {t : Transit}, h.Orderly → t.packet.InOrder →
    ∀ layer caller : Layer, AllMet (h.descendDemands t depth layer caller)
  | 0, _, _, _, _, _, _ => allMet_nil
  | depth + 1, h, t, ho, hp, layer, caller => by
    unfold descendDemands
    simp only [allMet_append]
    refine ⟨⟨⟨met_insertDemands (Nat.sub_le ..) _, ho.met_transmitAt hp layer caller⟩, met_count h layer⟩, ?_⟩
    split
    · rename_i he
      exact Orderly.met_descend depth (orderly_transmitAt ho he) ((transmitAt_stacked he).inOrder hp).1 _ _
    · exact allMet_nil

omit [Queueing δ] in
theorem length_path_le : ∀ (depth : Nat) {h h' : Host δ} {t t' : Transit} {layer caller : Layer}
    {path : List (Layer × Layer)}, h.descend t depth layer caller = some (.ok path, h', t') → path.length ≤ depth
  | 0, _, _, _, _, _, _, _, e => by cases e
  | depth + 1, h, h', t, t', layer, caller, path, e => by
    unfold Host.descend at e
    split at e
    · cases e
    · cases e
    · cases e
    · cases e
      exact Nat.succ_le_succ (Nat.zero_le _)
    · split at e
      · cases e
      · cases e
      · rename_i hd
        cases e
        exact Nat.succ_le_succ (length_path_le depth hd)

variable [Demanding δ]

theorem Orderly.met_finishAt (ho : h.Orderly) (hp : t.packet.InOrder) {layer caller : Layer}
    {x : Except Fault Finish × Host δ × Transit} (e : h.finishAt layer caller t = some x) :
    AllMet (h.finishAtDemands layer t) := by
  cases layer with
  | device =>
    refine allMet_append.2 ⟨hp.met_frame, ?_⟩
    split
    · exact allMet_nil
    · exact Demanding.met_use ho.device _
  | ethernet => exact Ethernet.Endpoint.met_finish hp
  | udp =>
    obtain ⟨y, hy, -⟩ := Option.map_eq_some_iff.1 e
    exact Udp.Ports.met_finish hp hy
  | socket s => exact Pool.met_get _ s
  | _ => exact allMet_nil

omit [Queueing δ] [Demanding δ] in
/-- A packet is turned around by the loopback only, to the layer that sent it there, and is read from the first of
its headers. -/
theorem finishAt_bounce {h' : Host δ} {layer caller target : Layer} {t' : Transit} (hp : t.packet.InOrder)
    (e : h.finishAt layer caller t = some (.ok (.bounce target), h', t')) :
    layer = .loopback ∧ target = caller ∧ ∃ w, t'.packet.unread? = some w := by
  cases layer with
  | device =>
    obtain ⟨x, hx, he⟩ := Option.map_eq_some_iff.1 e
    obtain ⟨frame, -, hf⟩ := Option.map_eq_some_iff.1 hx
    cases hf
    cases hr : (Nic.transmit h.device frame).1 <;> simp [hr, Except.map] at he
  | ethernet =>
    obtain ⟨⟨r, q⟩, hx, he⟩ := Option.map_eq_some_iff.1 e
    obtain ⟨r', q', hx', hn, -⟩ := endpoint_finishPass_total (e := h.endpoint) hp
    cases hx.symm.trans hx'
    cases he
    exact absurd rfl (hn target)
  | resolver => cases e
  | ipv4 => cases e
  | udp =>
    obtain ⟨⟨r, q⟩, hx, he⟩ := Option.map_eq_some_iff.1 e
    cases he
    obtain ⟨region, -, hx⟩ := Option.bind_eq_some_iff.1 hx
    cases region with
    | error f => cases hx
    | ok region =>
      obtain ⟨b, -, hx⟩ := Option.bind_eq_some_iff.1 hx
      obtain ⟨filled, -, hx⟩ := Option.bind_eq_some_iff.1 hx
      cases hx
  | loopback =>
    cases e
    exact ⟨rfl, rfl, _, Packet.unread?_of_le (hp.header_le.trans hp.boundary_le) hp.write_le⟩
  | socket s =>
    unfold finishAt at e
    dsimp only at e
    split at e <;> cases e
  | user => cases e

theorem Orderly.met_finish : ∀ (path : List (Layer × Layer)) {h : Host δ} {t : Transit}
    {x : Except Fault Unit × Host δ × Transit}, h.Orderly → t.packet.InOrder → h.finish t path = some x →
    AllMet (h.finishDemands t path)
  | [], _, _, _, _, _, _ => allMet_nil
  | (layer, caller) :: rest, h, t, x, ho, hp, e => by
    unfold Host.finish at e
    unfold finishDemands
    split at e
    · cases e
    · rename_i he
      rw [he]
      exact allMet_append.2 ⟨allMet_append.2 ⟨ho.met_finishAt hp he, met_count h layer⟩, allMet_nil⟩
    · rename_i g u he
      rw [he]
      have hg := stable_orderly.count layer .countTx (stable_orderly.finishAt ho he)
      refine allMet_append.2 ⟨allMet_append.2 ⟨ho.met_finishAt hp he, met_count h layer⟩, ?_⟩
      exact Orderly.met_finish rest hg (finishAt_inOrder he hp).1 e
    · rename_i target g u he
      rw [he]
      have hg := stable_orderly.count layer .countTx (stable_orderly.finishAt ho he)
      obtain ⟨-, -, w, hu⟩ := finishAt_bounce hp he
      refine allMet_append.2 ⟨allMet_append.2 ⟨ho.met_finishAt hp he, met_count h layer⟩, ?_⟩
      exact Orderly.met_receive Limits.depth hg hu target layer

/-- A packet that is sent meets the demands of all layers on its way, those behind a loopback included. -/
theorem Orderly.met_transmit (ho : h.Orderly) (hp : t.packet.InOrder) {layer caller : Layer}
    {x : Except Fault Unit × Host δ × Transit} (e : h.transmit t layer caller = some x) :
    AllMet (h.transmitDemands t layer caller) := by
  refine allMet_append.2 ⟨ho.met_descend Limits.depth hp layer caller, ?_⟩
  split
  · rename_i path g u hd
    have hg : g.Orderly := stable_orderly.descend _ (.inr fun x task ho => ho.asked x task) ho hd
    have hfinish : g.finish u path = some x := by
      unfold Host.transmit at e
      rw [hd] at e
      exact e
    refine allMet_cons.2 ⟨⟨Nat.zero_le _, length_path_le _ hd⟩, ?_⟩
    exact Orderly.met_finish path hg ((descend_stacked _ hd).inOrder hp).1 hfinish
  · exact allMet_nil

/-! ## What a host does on its own -/

omit [Nic δ] [Queueing δ] [Demanding δ] in
theorem create_inOrder {b : Octets} {room : Nat} {p : Packet} (h : Packet.create b room = .ok p) : p.InOrder := by
  unfold Packet.create at h
  split at h
  · cases h
  · rename_i hl
    cases h
    exact ⟨le_rfl, le_rfl, Nat.not_lt.1 hl⟩

theorem Orderly.met_sendMessage (ho : h.Orderly) (m : Arp.Message) (dst : Ethernet.Address) :
    AllMet (h.sendMessageDemands m dst) := by
  unfold sendMessageDemands
  split
  · exact allMet_nil
  · rename_i p hp
    refine allMet_append.2 ⟨allMet_append.2 ⟨p.met_claim _, Arp.Message.met_write le_rfl⟩, ?_⟩
    split
    · exact allMet_nil
    · rename_i q hq
      have hqo := (Packet.push_inOrder (create_inOrder hp) hq).1
      obtain ⟨r, g, u, hx, -⟩ := transmit_ethernet h (t := ⟨q, { dstLink := some dst }⟩) hqo rfl .resolver
      exact ho.met_transmit hqo hx

theorem Orderly.met_sendMessages : ∀ (k : Nat) {h : Host δ}, h.Orderly → AllMet (h.sendMessagesDemands k)
  | 0, _, ho => ho.resolver.met_outgoing
  | k + 1, h, ho => by
    have hnext := stable_orderly.outgoing ho
    unfold sendMessagesDemands
    refine allMet_append.2 ⟨ho.resolver.met_outgoing, ?_⟩
    split
    · exact allMet_nil
    · rename_i m dst resolver he
      rw [he] at hnext
      refine allMet_append.2 ⟨hnext.met_sendMessage m dst, ?_⟩
      obtain ⟨g, hg, hf⟩ := sendMessage_total { h with resolver := resolver } m dst
      rw [hg]
      exact Orderly.met_sendMessages k (hf _ stable_orderly.toStableFlush hnext)

theorem Orderly.met_flush (ho : h.Orderly) : AllMet h.flushDemands := by
  refine allMet_append.2 ⟨ho.met_sendMessages _, ?_⟩
  obtain ⟨g, hg, hf⟩ := sendMessages_total h.resolver.backlog h
  rw [hg]
  exact Wakeups.met_deliver (hf _ stable_orderly.toStableFlush ho).wakeups

omit [Demanding δ] in
theorem Orderly.met_receiveFrame (ho : h.Orderly) (frame : Octets) : AllMet (h.receiveFrameDemands frame) :=
  Orderly.met_receive _ (stable_orderly.count .device .countRx ho) (entering_unread? h frame) _ _

theorem Orderly.met_receiveFrames : ∀ (k : Nat) {h : Host δ}, h.Orderly → AllMet (h.receiveFramesDemands k)
  | 0, _, _ => allMet_nil
  | k + 1, h, ho => by
    have htaken := stable_orderly.take h.rxBuffer.length ho
    unfold receiveFramesDemands
    refine allMet_append.2 ⟨Demanding.met_use ho.device _, ?_⟩
    split
    · exact allMet_nil
    · rename_i f device he
      rw [he] at htaken
      exact (stable_orderly.count .device .countDropped htaken).met_flush
    · rename_i frame device he
      rw [he] at htaken
      refine allMet_append.2 ⟨htaken.met_receiveFrame frame, ?_⟩
      split
      · exact allMet_nil
      · rename_i g hg
        have hgo : g.Orderly := stable_orderly.receiveFrame htaken hg
        refine allMet_append.2 ⟨hgo.met_flush, ?_⟩
        split
        · exact allMet_nil
        · rename_i g' hf
          exact Orderly.met_receiveFrames k (stable_orderly.flush hgo hf)

theorem Orderly.met_poll (ho : h.Orderly) (now : Instant) : AllMet (h.pollDemands now) := by
  have hexpired := stable_orderly.expire now ho
  unfold pollDemands
  refine allMet_append.2 ⟨allMet_append.2 ⟨ho.resolver.met_expire ho.wakeups now, hexpired.met_flush⟩, ?_⟩
  split
  · exact allMet_nil
  · rename_i g hg
    exact Orderly.met_receiveFrames _ (stable_orderly.refreshed ho hg)

end orderly

end UdpStack.Host
