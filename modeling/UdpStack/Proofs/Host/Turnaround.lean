/-
Datagrams that come back to a socket of the host that sent them. The loopback has the internet layer
receive them without checksums, so what it reads is exactly what it wrote, header by header: a datagram
is added to the queue of the socket that has its port and listens to its destination, and the waiting
task is woken; without such a socket nothing changes (`receive_turned`). In a host whose resolver is at
most filled a send to the loopback address does that and nothing else (`loopback_round_trip`).
-/
import UdpStack.Proofs.Host.Bindings
import UdpStack.Proofs.Host.Loopback
import UdpStack.Proofs.Host.RoundTrip
import UdpStack.Proofs.Udp.Calls

namespace UdpStack.Host

open Bounded Device Octets

variable {δ : Type}

/-! ## Hosts between calls -/

/-- What holds of a host between calls, whatever is done to its device and its resolver. -/
structure Steady (manual : Bool) (h : Host δ) : Prop where
  assembled : h.setup.Assembled manual
  agree : h.setup.Agree
  sockets : h.sockets.All Udp.Socket.WF
  txBuffer : h.txBuffer.length = Limits.frameBuffer

/-- A steady host that has nothing of its own to send and nobody to notify. -/
structure Calm (manual : Bool) (h : Host δ) : Prop extends Steady manual h where
  idle : h.Idle
  wakeups : h.wakeups = .empty

/-- Every call, as long as the resolver is at most filled. -/
def SparesResolver (_ : Host δ) (c : Call δ) : Prop := ∀ r, c ≠ .resolver r

section calls

variable [Nic δ] {manual : Bool} {h h' : Host δ}

theorem steady_create {d : δ} {config : Config} (e : create d config = .ok h) :
    h.Steady (decide ((Nic.personality d).check = .manual)) := by
  refine ⟨assembled_create e, agree_create e, sockets_create e, ?_⟩
  obtain ⟨endpoint, router, -, -, rfl⟩ := create_eq_ok e
  exact List.length_replicate ..

theorem steady_perform {c : Call δ} {a : Answer} (hs : h.Steady manual) (e : h.perform c = some (a, h')) :
    h'.Steady manual := by
  refine ⟨assembled_perform hs.agree hs.assembled e, agree_perform hs.agree e,
    sockets_perform hs.agree hs.sockets e, ?_⟩
  have htx := hs.txBuffer
  cases effect_perform hs.agree e with
  | send hx => exact (stable_txBuffer_length _).send (fun _ _ hk => hk) htx hx
  | poll hx => exact (stable_txBuffer_length _).poll htx hx
  | _ => exact htx

theorem calm_create {d : δ} {config : Config} (e : create d config = .ok h) :
    h.Calm (decide ((Nic.personality d).check = .manual)) := by
  have hs := steady_create e
  obtain ⟨endpoint, router, -, -, rfl⟩ := create_eq_ok e
  refine ⟨hs, Arp.Resolver.outgoing_of_backlog ?_, rfl⟩
  show (newResolver config).backlog = 0
  unfold newResolver
  cases config.mode <;> rfl

/-- A flush leaves no wake-up behind. -/
theorem wakeups_flush (e : h.flush = some h') : h'.wakeups = .empty := by
  obtain ⟨g, -, rfl⟩ := Option.map_eq_some_iff.1
    (show (h.sendMessages h.resolver.backlog).map deliver = some h' from e)
  rfl

theorem wakeups_receiveFrames : ∀ (k : Nat) {h h' : Host δ} {i : Nat} {r : Except Fault Nat},
    h.wakeups = .empty → h.receiveFrames i k = some (r, h') → h'.wakeups = .empty
  | 0, h, h', i, r, hw, e => by cases e; exact hw
  | k + 1, h, h', i, r, hw, e => by
    unfold Host.receiveFrames at e
    split at e
    · cases e; exact hw
    · obtain ⟨g, hg, he⟩ := Option.map_eq_some_iff.1 e
      cases he
      exact wakeups_flush hg
    · split at e
      · cases e
      · rename_i hy
        obtain ⟨u, -, hf⟩ := Option.bind_eq_some_iff.1 hy
        exact wakeups_receiveFrames k (wakeups_flush hf) e

theorem wakeups_poll {now : Instant} {r : Except Fault Nat} (e : h.poll now = some (r, h')) :
    h'.wakeups = .empty := by
  obtain ⟨g, hg, hr, -⟩ := poll_cases e
  exact wakeups_receiveFrames _ (wakeups_flush hg) hr

theorem wakeups_send {s : Handle} {task : Task} {dst : Ipv4.Address} {port : UInt16} {payload : Octets}
    {r : Poll Nat} (hw : h.wakeups = .empty) (e : h.send s task dst port payload = some (r, h')) :
    h'.wakeups = .empty := by
  rcases send_cases e with ⟨-, rfl | hf⟩ | ⟨_, _, _, _, -, -, -, hf, -⟩
  · exact hw
  · exact wakeups_flush hf
  · exact wakeups_flush hf

theorem calm_perform {c : Call δ} {a : Answer} (hc : h.Calm manual) (hk : h.SparesResolver c)
    (e : h.perform c = some (a, h')) : h'.Calm manual := by
  have hs := steady_perform hc.toSteady e
  have hi := hc.idle
  have hw := hc.wakeups
  cases effect_perform hc.agree e with
  | fill ht ht' =>
    unfold Idle at hi
    rw [ht, ← Arp.Resolver.outgoing_enter ht'] at hi
    exact ⟨hs, hi, hw⟩
  | resolver r => exact absurd rfl (hk r)
  | send hx => exact ⟨hs, idle_send hi hx, wakeups_send hw hx⟩
  | poll hx => exact ⟨hs, idle_poll hx, wakeups_poll hx⟩
  | releaseBound _ _ => exact ⟨hs, hi, rfl⟩
  | unbind _ _ => exact ⟨hs, hi, rfl⟩
  | _ => exact ⟨hs, hi, hw⟩

end calls

/-! ## The address of the loopback -/

/-- Through the loopback its own address is the source of a socket that is bound to any. -/
theorem sourceFrom_loopback {manual : Bool} {h : Host δ} (ha : h.setup.Assembled manual) (b : Udp.Binding) :
    h.sourceFrom b .loopback = if b.addr.isUnspecified then .loopback else b.addr := by
  have hs : h.router.sourceFor .loopback = some .loopback := congrArg (Option.map Prod.fst) ha.home
  unfold sourceFrom
  rw [hs, Option.getD_some]

theorem accepts_loopback {manual : Bool} {h : Host δ} (ha : h.setup.Assembled manual) :
    h.router.accepts .loopback .loopback = true := by
  have hw : h.router.incoming.WF := ha.incoming
  exact beq_iff_eq.2 (hw.get?_eq_some_iff.2 (List.mem_of_find?_eq_some ha.home))

/-! ## Receiving what was sent -/

/-- A socket has a port and is bound to an address or to any. -/
def Attends (h : Host δ) (dst : Ipv4.Address) (port : UInt16) (x : Handle) : Prop :=
  ∃ c, h.binding? x = some c ∧ c.port = port ∧ (c.addr.isUnspecified = true ∨ c.addr = dst)

/-- A socket takes datagrams that come to an address through the loopback. -/
structure LoopsTo (h : Host δ) (dst : Ipv4.Address) (port : UInt16) (x : Handle) : Prop where
  incoming : h.router.accepts dst .loopback = true
  socket : h.Attends dst port x

section receiving

variable {ε : Type} {A : Host ε} {h : Host δ} {b : Udp.Binding} {src dst : Ipv4.Address} {port : UInt16}
  {payload : Octets} {t : Transit}

/-- Behind the ports a segment reaches the socket that its destination is for. -/
theorem segment_turned (hg : h.setup.Agree) (hw : h.sockets.All Udp.Socket.WF) {srcPort : UInt16}
    (hu : t.packet.unread? = some (Udp.Header.segment srcPort port src dst payload))
    (hsrc : t.info.srcAddr = src) (hdst : t.info.dstAddr = dst) (hsize : payload.length ≤ 512) (depth : Nat)
    (caller : Layer) : ∃ res g u, h.receive t (depth + 2) .udp caller = some (res, g, u) ∧
      Turned (h.Attends dst port) ⟨src, srcPort, payload.length, payload⟩ h g := by
  have hsound := Udp.Header.sound_segment (show payload.length + 8 ≤ 65535 by omega) srcPort port src dst
  have hport : UInt16.ofNat (word (Udp.Header.segment srcPort port src dst payload) 2) = port := by
    unfold Udp.Header.segment
    rw [Udp.Header.word_dst_octets, UInt16.ofNat_toNat]
  rcases receive_udp hu (depth + 1) caller (h := h) with ⟨upper, q, hq, hqu, -, hr⟩ | ⟨hn, res, f, u, hr⟩
  · obtain ⟨x, c, rfl, hc, hcp⟩ := (layerOf?_iff hg _ upper).1 hq.port
    obtain ⟨socket, hs, hsc⟩ := Option.bind_eq_some_iff.1 hc
    rw [hsound.2] at hqu
    obtain ⟨res, g, u, hr', ht⟩ := socket_outcome (h := h.count .udp .countRx) (sockets_count hw _ _)
      hs (t := ⟨q, _⟩) hqu depth .udp
    rw [hr]
    refine ⟨res, g, u, hr', ?_⟩
    rw [hsrc, hdst, srcPort_segment,
      List.take_of_length_le (show payload.length ≤ Limits.datagramBytes from hsize)] at ht
    refine ht.of_count.congr fun y => ?_
    rw [accepts_iff hsc]
    constructor
    · rintro ⟨rfl, ha⟩
      exact ⟨c, hc, hcp.trans hport, ha⟩
    · rintro ⟨c', hc', hcp', ha⟩
      obtain rfl := eq_of_port_eq hg hc' hc (hcp'.trans (hcp.trans hport).symm)
      cases hc.symm.trans hc'
      exact ⟨rfl, ha⟩
  · have hnone : ∀ x, ¬ h.Attends dst port x := by
      rintro x ⟨c, hc, hcp, -⟩
      refine hn (.socket x) ⟨?_, (layerOf?_iff hg _ _).2 ⟨x, c, rfl, hc, hcp.trans hport.symm⟩⟩
      rw [hsrc, hdst]
      exact ⟨hsound.1.least, hsound.1.available, .inr (hsound.1.checksum.resolve_left nofun)⟩
    exact ⟨res, _, u, hr, turned_nowhere _ hnone (queue?_count h .udp f) (waiter?_count h .udp f)⟩

/-- A datagram that comes back is read as it was written. -/
theorem receive_turned {manual : Bool} (ha : h.setup.Assembled manual) (hg : h.setup.Agree)
    (hw : h.sockets.All Udp.Socket.WF) (hu : t.packet.unread? = some (A.datagram src b dst port payload))
    (hsize : payload.length ≤ 512) (depth : Nat) :
    ∃ res g u, h.receive t (depth + 3) .ipv4 .loopback = some (res, g, u) ∧
      Turned (h.LoopsTo dst port) ⟨src, b.port, payload.length, payload⟩ h g := by
  rw [← List.append_nil (A.datagram src b dst port payload)] at hu
  have hloops : ∀ x, h.LoopsTo dst port x ↔ h.router.accepts dst .loopback = true ∧ h.Attends dst port x :=
    fun x => ⟨fun hx => ⟨hx.incoming, hx.socket⟩, fun hx => ⟨hx.1, hx.2⟩⟩
  rcases receive_ipv4 hu (depth + 2) .loopback (h := h) with ⟨upper, p, ht, hpu, -, hr⟩ | ⟨hn, res, f, u, hr⟩
  · obtain ⟨-, rfl⟩ := (protocols_get?_iff ha _ upper).1 ht.content
    have hin := ht.dst
    rw [dst_datagram] at hin
    replace hpu : p.unread? = some (Udp.Header.segment b.port port src dst payload) :=
      hpu.trans (congrArg some (segment_datagram hsize []))
    obtain ⟨res, g, u, hr', hturned⟩ := segment_turned (h := h.count .ipv4 .countRx) hg (sockets_count hw _ _)
      (t := ⟨p, { t.info with
        srcAddr := .stored (A.datagram src b dst port payload ++ []) 12
        dstAddr := .stored (A.datagram src b dst port payload ++ []) 16 }⟩)
      hpu (src_datagram []) (dst_datagram []) hsize depth .ipv4
    rw [hr]
    refine ⟨res, g, u, hr', hturned.of_count.congr fun x => ?_⟩
    rw [hloops]
    exact ⟨fun hx => ⟨hin, hx⟩, fun hx => hx.2⟩
  · have hnone : ∀ x, ¬ h.LoopsTo dst port x := by
      intro x hx
      have hs : Ipv4.Header.Sound (A.datagram src b dst port payload ++ []) false := sound_datagram hsize []
      refine hn .udp ⟨{ hs with checksum := .inr (hs.checksum.resolve_left nofun) }, ?_, ?_⟩
      · rw [dst_datagram]
        exact hx.incoming
      · exact (protocols_get?_iff ha _ _).2 ⟨protocol_datagram [], rfl⟩
    exact ⟨res, _, u, hr, turned_nowhere _ hnone (queue?_count h .ipv4 f) (waiter?_count h .ipv4 f)⟩

end receiving

/-! ## Sending to oneself -/

theorem binding?_eq (h : Host δ) (x : Handle) : h.binding? x = (h.setup.bindings x).join := by
  show (h.sockets.get? x).bind _ = ((h.sockets.get? x).map _).join
  cases h.sockets.get? x <;> rfl

theorem loopsTo_congr {g h : Host δ} (hs : g.setup = h.setup) (dst : Ipv4.Address) (port : UInt16) (x : Handle) :
    g.LoopsTo dst port x ↔ h.LoopsTo dst port x := by
  have hi : g.router.incoming = h.router.incoming := congrArg Setup.incoming hs
  have hb : g.binding? x = h.binding? x := by rw [binding?_eq, binding?_eq, hs]
  constructor
  · intro hx
    refine ⟨?_, ?_⟩
    · unfold Ipv4.Router.accepts
      rw [← hi]
      exact hx.incoming
    · unfold Attends
      rw [← hb]
      exact hx.socket
  · intro hx
    refine ⟨?_, ?_⟩
    · unfold Ipv4.Router.accepts
      rw [hi]
      exact hx.incoming
    · unfold Attends
      rw [hb]
      exact hx.socket

theorem sockets_turning {h : Host δ} (hw : h.sockets.All Udp.Socket.WF) (s : Handle) :
    (h.turning s).sockets.All Udp.Socket.WF := by
  have hn : (h.numbered (h.router.ident + 1)).sockets.All Udp.Socket.WF := hw
  unfold turning counted
  iterate 4 refine sockets_count ?_ _ _
  exact hn

/-- Neither the numbering nor the counting of a datagram shows in what becomes of it. -/
theorem Turned.of_turning {A : Handle → Prop} {d : Udp.Datagram} {h h' : Host δ} {s : Handle}
    (ht : Turned A d (h.turning s) h') : Turned A d h h' := by
  refine ht.of_same (fun x => ?_) ?_ fun x => ?_
  · simp only [turning, counted, queue?_count]
    rfl
  · simp only [turning, counted, wakeups_count]
    rfl
  · simp only [turning, counted, waiter?_count]
    rfl

variable [Nic δ] {manual : Bool} {h : Host δ} {s : Handle} {b : Udp.Binding} {dst : Ipv4.Address}
  {route : Ipv4.Route} {payload : Octets}

/-- A datagram of a host to itself comes back before anything else happens. -/
theorem transmit_turned (hs : h.Steady manual) (hb : h.binding? s = some b)
    (hroute : h.router.routes.lookup dst = some route) (hlayer : route.layer = .loopback) (task : Task)
    (port : UInt16) {p : Packet} {front back : Octets} (hl : p.Layout front [] payload back)
    (hfront : 28 ≤ front.length) (hsize : payload.length ≤ 512) :
    ∃ g t, h.transmit ⟨p, { dstAddr := dst, dstPort := port, task := some task }⟩ (.socket s) .user =
        some (.ok (), g, t) ∧ g.device = h.device ∧ g.resolver = h.resolver ∧ g.notified = h.notified ∧
      g.deviceCounters = h.deviceCounters ∧
      Turned (h.LoopsTo dst port) ⟨h.sourceFrom b .loopback, b.port, payload.length, payload⟩ h g := by
  obtain ⟨t, hu, -, hx⟩ := transmit_turning hs.assembled hs.agree hb hroute hlayer task port hl hfront hsize
  have ha : (h.turning s).setup.Assembled manual := by rw [setup_turning]; exact hs.assembled
  have hg : (h.turning s).setup.Agree := by rw [setup_turning]; exact hs.agree
  have hw := sockets_turning hs.sockets s
  obtain ⟨res, g, u, hr, hdevice, hresolver, hnotified, hcounters⟩ := receive_internet ha hg hu 5 .loopback
  obtain ⟨res', g', u', hr', hturned⟩ := receive_turned ha hg hw hu hsize 5
  rw [hr] at hr'
  cases hr'
  rw [show Limits.depth = 5 + 3 from rfl, hr] at hx
  refine ⟨g, u, hx, by rw [hdevice, device_turning], by rw [hresolver, resolver_turning], ?_,
    by rw [hcounters, deviceCounters_turning], hturned.of_turning.congr (loopsTo_congr (setup_turning h s) dst port)⟩
  rw [hnotified]
  simp [turning, counted, numbered]

/-- A host that keeps its resolver at most filled and sends to the address of the loopback, as a route
through the loopback makes it do, hands nothing to its device and changes nothing but one queue: the
datagram, as long as it was and from the address that its socket is bound to or that of the loopback, is
added to the queue of the socket that has the port, a full queue gives up its oldest datagram, and the
task that waits there is notified. -/
theorem loopback_round_trip {d : δ} {config : Config} {h₀ : Host δ} (e : create d config = .ok h₀)
    {es : List (Call δ × Answer)} (hrun : Run SparesResolver h₀ es h)
    (hroute : h.router.routes.lookup .loopback = some route) (hlayer : route.layer = .loopback)
    (hb : h.binding? s = some b) {t : Handle} {c : Udp.Binding} (hc : h.binding? t = some c)
    (haddr : c.addr.isUnspecified = true ∨ c.addr = .loopback) (task : Task) (hsize : payload.length ≤ h.mtu) :
    ∃ h', h.send s task .loopback c.port payload = some (.ready (.ok payload.length), h') ∧
      h'.device = h.device ∧
      Delivered h h' t
        ⟨if b.addr.isUnspecified then .loopback else b.addr, b.port, payload.length, payload⟩ ∧
      h'.notified = h.notified ++ (h.waiter? t).toList ∧
      h'.setup = h.setup ∧ h'.resolver = h.resolver := by
  have hcalm : h.Calm _ := hrun.keeps calm_perform (calm_create e)
  obtain ⟨socket, hs, -⟩ := Option.bind_eq_some_iff.1 hb
  obtain ⟨p, front, back, hl, hfront, -, -, hsend⟩ := send_eq hcalm.txBuffer hs hsize task .loopback c.port
  obtain ⟨g, u, hx, hdevice, hresolver, hnotified, -, hturned⟩ := transmit_turned hcalm.toSteady hb hroute hlayer task
    c.port hl (by omega) (length_of_le_mtu hsize)
  rw [sourceFrom_loopback hcalm.assembled] at hturned
  -- nothing is left for the flush but the task that waited
  have hidle : Idle { g with txBuffer := u.packet.bytes } := by
    show g.resolver.outgoing.1 = none
    rw [hresolver]
    exact hcalm.idle
  have hloops : h.LoopsTo .loopback c.port t := ⟨accepts_loopback hcalm.assembled, c, hc, rfl, haddr⟩
  have hwakeups : g.wakeups.tasks = (h.waiter? t).toList := by
    rw [hturned.woken t hloops, hcalm.wakeups]
    obtain ⟨target, ht, -⟩ := Option.bind_eq_some_iff.1 hc
    have hwaiters : (h.waiter? t).toList = target.waiters := by
      unfold waiter?
      rw [ht]
      rfl
    rw [hwaiters]
    exact Udp.Socket.tasks_wakeAll_waiters target
  have hsent := hsend hx
  rw [flush_of_idle hidle] at hsent
  refine ⟨deliver { g with txBuffer := u.packet.bytes }, hsent, hdevice, ?_, ?_, setup_send hsent, hresolver⟩
  · rcases hturned.outcome with ⟨x, hx, happend⟩ | ⟨hnone, -⟩
    · obtain ⟨c', hc', hcp, -⟩ := hx.socket
      obtain rfl := eq_of_port_eq hcalm.agree hc' hc hcp
      exact Appended.delivered hcalm.sockets (fun _ => rfl) happend
    · exact absurd hloops (hnone t)
  · show g.notified ++ g.wakeups.tasks = _
    rw [hnotified, hwakeups]

theorem loopback_round_trip_awaited : ∃ h h' : Host (External 1),
    h.send ⟨0, 0⟩ ⟨3⟩ .loopback 7 [1, 2, 3] = some (.ready (.ok 3), h') ∧ h'.device = h.device ∧
    h'.notified = h.notified ++ [⟨9⟩] ∧ h'.setup = h.setup ∧ h'.resolver = h.resolver ∧
    ∃ new, h'.queue? ⟨1, 0⟩ = some new ∧ new.toList = [⟨.loopback, 5, 3, [1, 2, 3]⟩] := by
  have hx : (do
      let h ← (create (External.create 1 {}) (.create ⟨10, 0, 0, 1⟩ ⟨255, 255, 255, 0⟩)).toOption
      let x ← h.performAll [.acquire, .acquire, .bind ⟨0, 0⟩ .unspecified 5, .bind ⟨1, 0⟩ .loopback 7,
        .recv ⟨1, 0⟩ ⟨9⟩ 16]
      some (decide (x.2.binding? ⟨0, 0⟩ = some ⟨.unspecified, 5⟩ ∧ x.2.binding? ⟨1, 0⟩ = some ⟨.loopback, 7⟩ ∧
        (x.2.router.routes.lookup .loopback).map (·.layer) = some .loopback ∧ 3 ≤ x.2.mtu ∧
        x.2.waiter? ⟨1, 0⟩ = some ⟨9⟩ ∧ (x.2.queue? ⟨1, 0⟩).map (·.toList.length) = some 0))) = some true := by
    decide +kernel
  obtain ⟨h₀, e, hx⟩ := Option.bind_eq_some_iff.1 hx
  obtain ⟨⟨es, h⟩, hr, hx⟩ := Option.bind_eq_some_iff.1 hx
  simp only [Option.some.injEq, decide_eq_true_eq] at hx
  obtain ⟨hb, hc, hroute, hsize, hwaiter, hqueue⟩ := hx
  obtain ⟨route, hlookup, hlayer⟩ := Option.map_eq_some_iff.1 hroute
  have hrun : Run SparesResolver h₀ _ h := run_performAll _ .nil (by simp [SparesResolver]) hr
  have hpayload : List.length [(1 : UInt8), 2, 3] ≤ h.mtu := hsize
  obtain ⟨h', hsend, hdevice, ⟨⟨old, new, hold, hnew, hlist⟩, -⟩, htold, hset, hresolver⟩ :=
    loopback_round_trip (eq_ok_of_toOption e) hrun hlookup hlayer hb hc (.inr rfl) ⟨3⟩ hpayload
  refine ⟨h, h', hsend, hdevice, by rw [htold, hwaiter]; rfl, hset, hresolver, new, hnew, ?_⟩
  rw [hold] at hqueue
  rw [hlist, List.eq_nil_of_length_eq_zero (Option.some.inj hqueue), List.drop_nil]
  rfl

end UdpStack.Host
