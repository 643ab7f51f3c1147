/-
The two peers of an exchange on their host. Each peer is a task with a socket that no other task receives from.
Between two polls it is one peer's turn, and the other one waits (`Turn`); a peer that has its turn sends one
datagram and waits as well (`Sent`), and then a poll notifies the other one, and nobody else, of just this
datagram (`Sent.poll`). That holds of datagrams through the device and of those through the loopback; only the
first show in the counters of the device.
-/
import UdpStack.Echo.Exchange
import UdpStack.Proofs.Host.Home
import UdpStack.Proofs.Host.Sending

namespace UdpStack

open Bounded Device

/-! ## Sockets of one task -/

namespace Udp.Socket

/-- Only one task receives from a socket. -/
structure Served (s : Socket) (task : Task) : Prop extends Orderly s where
  waits : ∀ other, s.waiter.waiter = some other → other = task
  holds : ∀ other, s.reserved = some other → other = task

variable {s : Socket} {task : Task}

theorem Served.counted (h : s.Served task) (c : Counters) : Served { s with counters := c } task :=
  ⟨⟨⟨h.queue, h.bound⟩, h.idle, h.held⟩, h.waits, h.holds⟩

theorem served_bound (b : Binding) (task : Task) : Served { empty with binding := some b } task :=
  ⟨⟨⟨Queue.empty_wf, nofun⟩, nofun, nofun⟩, nofun, nofun⟩

/-- A datagram holds the queue for the task that waits for it. -/
theorem Served.receivePass (h : s.Served task) (t : Transit) (w : Wakeups) :
    (s.receivePass t w).2.1.Served task := by
  cases ha : s.accepts t.info.dstAddr with
  | false =>
    rw [receivePass_of_rejects ha]
    exact h
  | true =>
    obtain ⟨q, p, he, -, hq⟩ := receivePass_of_accepts ha w
    have hpush := hq h.queue
    have hl := Queue.toList_push (makeRoom_wf h.queue) hpush
    rw [he]
    refine ⟨⟨⟨Queue.push_wf (makeRoom_wf h.queue) hpush, nofun⟩, nofun, ?_⟩, nofun, ?_⟩
    · intro other _
      show q.toList ≠ []
      rw [hl]
      simp
    · intro other hother
      change s.waiter.waiter.or s.reserved = some other at hother
      cases hw : s.waiter.waiter with
      | none =>
        rw [hw] at hother
        exact h.holds other hother
      | some k =>
        rw [hw] at hother
        cases hother
        exact h.waits other hw

/-- The task receives the oldest datagram. -/
theorem Served.recv_of_cons (h : s.Served task) {d : Datagram} {rest : List Datagram}
    (hl : s.queue.toList = d :: rest) (room : Nat) :
    ∃ s', s.recv task room = (.ready (.ok (d.read room)), s') ∧ s'.Served task ∧ s'.binding = s.binding ∧
      s'.queue.toList = rest ∧ s'.waiter.waiter = none := by
  have hw := waiter_of_cons h.toOrderly hl
  refine ⟨_, Socket.recv_of_cons h.toOrderly hl h.holds room, ?_, rfl, ?_, hw⟩
  · refine ⟨⟨⟨Queue.pop_wf h.queue, h.bound⟩, ?_, nofun⟩, h.waits, nofun⟩
    intro other hother
    cases hw.symm.trans hother
  · show s.queue.pop.2.toList = rest
    rw [Queue.toList_pop h.queue, hl]
    rfl

/-- Without a datagram the task waits. -/
theorem Served.recv_of_nil (h : s.Served task) (hl : s.queue.toList = []) (hb : s.binding ≠ none) (room : Nat) :
    ∃ s', s.recv task room = (.pending, s') ∧ s'.Served task ∧ s'.binding = s.binding ∧
      s'.queue.toList = [] ∧ s'.waiter.waiter = some task := by
  have hfree : s.reserved = none := by
    cases hr : s.reserved with
    | none => rfl
    | some other => exact absurd hl (h.held other hr)
  have hrecv : s.recv task room = recv.next task room s := by
    unfold recv
    rw [hfree]
  refine ⟨_, hrecv.trans (next_of_free h.queue hl hb h.waits room), ?_, rfl, hl, rfl⟩
  refine ⟨⟨⟨h.queue, fun _ => Option.isSome_iff_ne_none.2 hb⟩, fun _ _ => ⟨hl, hfree⟩, h.held⟩, ?_, h.holds⟩
  intro other hother
  exact (Option.some.inj hother).symm

end Udp.Socket

/-! ## One socket of a host -/

namespace Host

variable {δ : Type} {h : Host δ} {s : Handle} {socket : Udp.Socket}

/-- What counting and datagrams leave true of a socket survives polls. -/
theorem stable_socket [Nic δ] {P : Udp.Socket → Prop} (s : Handle)
    (hcount : ∀ socket c, P socket → P { socket with counters := c })
    (hhanded : ∀ (socket : Udp.Socket) t w, P socket → P (socket.receivePass t w).2.1) :
    StablePoll fun h : Host δ => ∃ socket, h.sockets.get? s = some socket ∧ P socket where
  count {h} layer f hp := by
    obtain ⟨socket, hs, hp⟩ := hp
    obtain ⟨_, _, _, _, _, _, sockets, he, hx⟩ := count_eq h layer f
    rw [he]
    rcases hx with rfl | ⟨x, other, c, hg, rfl⟩
    · exact ⟨socket, hs, hp⟩
    · by_cases hsx : s = x
      · cases hsx
        cases hs.symm.trans hg
        exact ⟨_, by rw [Pool.get?_set, hs, if_pos ⟨rfl, rfl⟩], hcount socket c hp⟩
      · exact ⟨socket, by rw [Pool.get?_set, if_neg fun h => hsx h.1]; exact hs, hp⟩
  numbered _ hp := hp
  heard hp _ := hp
  handed {h x other} t hp hx := by
    obtain ⟨socket, hs, hp⟩ := hp
    unfold handed
    dsimp only
    by_cases hsx : s = x
    · cases hsx
      cases hs.symm.trans hx
      exact ⟨_, by rw [Pool.get?_set, hs, if_pos ⟨rfl, rfl⟩], hhanded other t _ hp⟩
    · exact ⟨socket, by rw [Pool.get?_set, if_neg fun h => hsx h.1]; exact hs, hp⟩
  sent _ hp := hp
  outgoing hp := hp
  txBuffer _ hp := hp
  deliver hp := hp
  rxBuffer _ hp := hp
  expire _ hp := hp
  take _ hp := hp

theorem recv_eq (hs : h.sockets.get? s = some socket) (task : Task) (room : Nat) : h.recv s task room =
    ((socket.recv task room).1, { h with sockets := h.sockets.set s (socket.recv task room).2 }) := by
  unfold recv
  rw [hs]

theorem Turned.delivered {A : Handle → Prop} {d : Udp.Datagram} {g : Host δ} (ht : Turned A d h g)
    (hw : h.sockets.All Udp.Socket.WF) (hs : A s) (honly : ∀ x, A x → x = s) : Delivered h g s d := by
  rcases ht.outcome with ⟨x, hx, happend⟩ | ⟨hnone, -⟩
  · obtain rfl := honly x hx
    exact happend.delivered hw fun _ => rfl
  · exact absurd hs (hnone s)

theorem waiter?_handedOver [Nic δ] (h : Host δ) (s : Handle) (frame : Octets) (f : Counters → Counters)
    (x : Handle) : (h.handedOver s frame f).waiter? x = h.waiter? x := by
  rw [handedOver, waiter?_count]
  show ((h.counted s).count .ethernet .countTx).waiter? x = _
  simp [counted]

/-- A datagram that the device takes shows there and in the counters only. -/
theorem transmit_taken [Nic δ] {manual : Bool} (ha : h.setup.Assembled manual) (hg : h.setup.Agree) {task : Task}
    {dst : Ipv4.Address} {b : Udp.Binding} {hardware : Ethernet.Address} (hk : h.Knows s task dst b hardware)
    (port : UInt16) {p : Packet} {front payload back frame : Octets} (hl : p.Layout front [] payload back)
    (hfront : 42 ≤ front.length) (hroom : 64 ≤ back.length)
    (hmtu : payload.length + 28 ≤ (Nic.personality h.device).mtu) (hsize : payload.length ≤ 512)
    (hframe : frame = h.wire hardware (h.sourceFrom b .ethernet) b dst port payload)
    (hok : (Nic.transmit h.device frame).1 = .ok ()) :
    ∃ g t, h.transmit ⟨p, { dstAddr := dst, dstPort := port, task := some task }⟩ (.socket s) .user =
        some (.ok (), g, t) ∧ g.device = (Nic.transmit h.device frame).2 ∧ g.resolver = h.resolver ∧
      g.wakeups = h.wakeups ∧ g.notified = h.notified ∧ g.deviceCounters = h.deviceCounters.countTx ∧
      (∀ x, g.queue? x = h.queue? x) ∧ ∀ x, g.waiter? x = h.waiter? x := by
  obtain ⟨f, t, hx, hcounts⟩ := transmit_datagram ha hg hk port hl hfront hroom hmtu hsize hframe
  obtain rfl := hcounts hok
  rw [hok] at hx
  refine ⟨_, t, hx, device_handedOver .., resolver_handedOver .., ?_, ?_, ?_, queue?_handedOver _ s frame _,
    waiter?_handedOver _ s frame _⟩
  · simp [handedOver, sent, counted, numbered]
  · simp [handedOver, sent, counted, numbered]
  · exact congrArg Counters.countTx (deviceCounters_count_socket (h.numbered (h.router.ident + 1)) s _)

end Host

/-! ## The host of an exchange -/

namespace Echo

open Host

/-- The layer that leads to the server. -/
def Options.way (o : Options) : Layer := if o.loopback then .loopback else .ethernet

/-- The counters of the device once a number of datagrams were exchanged. -/
def Options.tally (o : Options) (n : Nat) : Counters := if o.loopback then {} else { rx := .ofNat n, tx := .ofNat n }

/-- What holds of the host of an exchange between calls: it sends nothing on its own and has nobody to notify,
and its way to itself is open. -/
structure Home (o : Options) (h : Net) : Prop extends h.Mounted false o.config where
  wakeups : h.wakeups = .empty
  resolver : h.resolver = newResolver o.config
  personality : h.device.personality = {}
  room : Limits.frameBuffer ≤ h.rxBuffer.length
  route : ∃ route, h.router.routes.lookup o.server = some route ∧ route.layer = o.way

variable {o : Options} {h g : Net}

theorem Home.idle (hh : Home o h) : h.Idle := by
  unfold Idle
  rw [hh.resolver]
  unfold newResolver
  cases o.config.mode <;> rfl

theorem Home.mtu (hh : Home o h) : h.mtu = 512 := by
  have hp : Nic.personality h.device = {} := hh.personality
  unfold Host.mtu
  rw [hp]
  rfl

theorem Home.isUnicast (hh : Home o h) (hunicast : o.host.isUnicast = true) : h.config.addr.isUnicast = true := by
  rw [hh.config]
  exact hunicast

/-- What leaves the setup and the resolver alone keeps it so. -/
theorem Home.of_setup (hh : Home o h) (hset : g.setup = h.setup) (hsockets : g.sockets.All Udp.Socket.WF)
    (htx : g.txBuffer.length = Limits.frameBuffer) (hdevice : Queueing.Built g.device)
    (hw : g.wakeups = .empty) (hr : g.resolver = h.resolver) (hp : g.device.personality = {})
    (hroom : Limits.frameBuffer ≤ g.rxBuffer.length) : Home o g := by
  refine ⟨hh.toMounted.of_setup hset hsockets htx hdevice, hw, hr.trans hh.resolver, hp, hroom, ?_⟩
  rw [show g.router.routes = h.router.routes from congrArg Setup.routes hset]
  exact hh.route

theorem stable_personality (p : Personality) : StablePoll fun h : Net => h.device.personality = p where
  count layer f hp := by rw [device_count]; exact hp
  numbered _ hp := hp
  heard hp _ := hp
  handed _ hp _ := hp
  sent _ hp := hp
  outgoing hp := hp
  txBuffer _ hp := hp
  deliver hp := hp
  rxBuffer _ hp := hp
  expire _ hp := hp
  take {h} room hp := by
    show (Nic.receive h.device room).2.personality = p
    rw [Device.Loopback.receive_unfold]
    split
    · exact hp
    · split <;> exact hp

/-- Polling and sending keep it so, as long as the resolver does not act. -/
theorem Home.of_poll (hh : Home o h) {now : Instant} {r : Except Fault Nat} (e : h.poll now = some (r, g))
    (hr : g.resolver = h.resolver) : Home o g :=
  hh.of_setup (setup_poll e) (stable_sockets.poll hh.sockets e) ((stable_txBuffer_length _).poll hh.txBuffer e)
    (stable_built.poll hh.device e) (wakeups_poll e) hr ((stable_personality _).poll hh.personality e)
    ((stable_room _).poll hh.room e)

theorem Home.of_send (hh : Home o h) {s : Handle} {task : Task} {dst : Ipv4.Address} {port : UInt16}
    {payload : Octets} {r : Poll Nat} (e : h.send s task dst port payload = some (r, g))
    (hr : g.resolver = h.resolver) : Home o g :=
  hh.of_setup (setup_send e) (stable_sockets.send (fun _ _ hp => hp) hh.sockets e)
    ((stable_txBuffer_length _).send (fun _ _ hp => hp) hh.txBuffer e)
    (stable_built.send (fun _ _ hp => hp) hh.device e) (wakeups_send hh.wakeups e) hr
    ((stable_personality _).send (fun _ _ hp => hp) hh.personality e)
    ((stable_room _).send (fun _ _ hp => hp) hh.room e)

/-! ## Peers -/

/-- A task with its socket, which is bound to any address. -/
structure Peer where
  socket : Handle
  task : Task
  port : UInt16

/-- The binding of its socket. -/
def Peer.binding (x : Peer) : Udp.Binding := ⟨.unspecified, x.port⟩

/-- Nobody else receives from the socket of a peer. -/
def Peer.Owns (x : Peer) (h : Net) : Prop :=
  ∃ socket, h.sockets.get? x.socket = some socket ∧ socket.Served x.task ∧ socket.binding = some x.binding

/-- The datagrams that wait in the socket of a peer, and the task that waits for one. -/
structure Peer.Has (x : Peer) (inbox : List Udp.Datagram) (waiter : Option Task) (h : Net) : Prop where
  owns : x.Owns h
  queue : ∃ q, h.queue? x.socket = some q ∧ q.toList = inbox
  waiter : h.waiter? x.socket = waiter

section peers

variable {x y : Peer} {inbox : List Udp.Datagram} {waiter : Option Task}

theorem Peer.stable_owns (x : Peer) : StablePoll x.Owns :=
  stable_socket x.socket (fun _ c hp => ⟨hp.1.counted c, hp.2⟩)
    (fun _ t w hp => ⟨hp.1.receivePass t w, (Udp.Socket.receivePass_binding ..).trans hp.2⟩)

theorem Peer.Owns.binding? (hx : x.Owns h) : h.binding? x.socket = some x.binding := by
  obtain ⟨socket, hs, -, hb⟩ := hx
  unfold Host.binding?
  rw [hs]
  exact hb

theorem Peer.has_of_get? {socket : Udp.Socket} (hs : h.sockets.get? x.socket = some socket)
    (hserved : socket.Served x.task) (hb : socket.binding = some x.binding) :
    x.Has socket.queue.toList socket.waiter.waiter h := by
  refine ⟨⟨socket, hs, hserved, hb⟩, ⟨socket.queue, ?_, rfl⟩, ?_⟩
  · unfold queue?
    rw [hs]
    rfl
  · unfold waiter?
    rw [hs]
    rfl

theorem Peer.Has.get? (hx : x.Has inbox waiter h) : ∃ socket, h.sockets.get? x.socket = some socket ∧
    socket.Served x.task ∧ socket.binding = some x.binding ∧ socket.queue.toList = inbox ∧
    socket.waiter.waiter = waiter := by
  obtain ⟨socket, hs, hserved, hb⟩ := hx.owns
  obtain ⟨q, hq, hl⟩ := hx.queue
  have hw := hx.waiter
  unfold queue? at hq
  unfold waiter? at hw
  rw [hs] at hq hw
  cases hq
  exact ⟨socket, hs, hserved, hb, hl, hw⟩

theorem Peer.Has.congr (hx : x.Has inbox waiter h) (ho : x.Owns g)
    (hq : g.queue? x.socket = h.queue? x.socket) (hw : g.waiter? x.socket = h.waiter? x.socket) :
    x.Has inbox waiter g :=
  ⟨ho, by rw [hq]; exact hx.queue, hw.trans hx.waiter⟩

/-- A peer does not notice what happens to other sockets. -/
theorem Peer.Has.of_same (hx : x.Has inbox waiter h) (hs : g.sockets.get? x.socket = h.sockets.get? x.socket) :
    x.Has inbox waiter g := by
  obtain ⟨socket, hsx, hserved, hb, rfl, rfl⟩ := hx.get?
  exact has_of_get? (hs.trans hsx) hserved hb

/-- A datagram that is added to an empty queue is alone there, and nobody waits any more. -/
theorem Peer.Has.arrive (hx : x.Has [] waiter h) (ho : x.Owns g) {d : Udp.Datagram}
    (hd : Delivered h g x.socket d) : x.Has [d] none g := by
  obtain ⟨old, hold, hl⟩ := hx.queue
  obtain ⟨⟨old', new, hold', hnew, hlist⟩, -⟩ := hd
  cases hold.symm.trans hold'
  rw [hl, List.drop_nil, List.nil_append] at hlist
  obtain ⟨socket, hs, hserved, hb⟩ := ho
  have hqueue : socket.queue = new := by
    unfold queue? at hnew
    rw [hs] at hnew
    exact Option.some.inj hnew
  have hwaiter : socket.waiter.waiter = none :=
    Udp.Socket.waiter_of_cons hserved.toOrderly (by rw [hqueue]; exact hlist)
  have hhas := has_of_get? hs hserved hb
  rwa [hqueue, hlist, hwaiter] at hhas

/-- What a peer does with its own socket leaves the host as it is. -/
theorem Home.of_set (hh : Home o h) {socket socket' : Udp.Socket} (hs : h.sockets.get? x.socket = some socket)
    (hserved : socket'.Served x.task) (hb : socket'.binding = socket.binding) :
    Home o { h with sockets := h.sockets.set x.socket socket' } :=
  hh.of_setup (setup_set hs socket' hb) (hh.sockets.set x.socket hserved.toWF) hh.txBuffer hh.device hh.wakeups rfl
    hh.personality hh.room

/-- The host once a peer received or began to wait. -/
structure Received (o : Options) (y : Peer) (inbox : List Udp.Datagram) (waiter : Option Task) (h g : Net) :
    Prop extends Home o g where
  has : y.Has inbox waiter g
  setup : g.setup = h.setup
  only : ∃ sockets, g = { h with sockets := sockets } ∧
    ∀ s, s ≠ y.socket → sockets.get? s = h.sockets.get? s

theorem Received.of_set (hh : Home o h) {socket socket' : Udp.Socket} (hs : h.sockets.get? y.socket = some socket)
    (hserved : socket'.Served y.task) (hb : socket'.binding = socket.binding)
    (hbound : socket.binding = some y.binding) : Received o y socket'.queue.toList socket'.waiter.waiter h
      { h with sockets := h.sockets.set y.socket socket' } := by
  refine ⟨hh.of_set hs hserved hb, Peer.has_of_get? ?_ hserved (hb.trans hbound), setup_set hs socket' hb, _, rfl, ?_⟩
  · show (h.sockets.set y.socket socket').get? y.socket = _
    rw [Pool.get?_set, hs, if_pos ⟨rfl, rfl⟩]
  · intro s hne
    rw [Pool.get?_set, if_neg fun he => hne he.1]

theorem Home.recv_of_cons (hh : Home o h) {d : Udp.Datagram} {rest : List Udp.Datagram}
    (hy : y.Has (d :: rest) waiter h) (room : Nat) :
    ∃ g, h.recv y.socket y.task room = (.ready (.ok (d.read room)), g) ∧ Received o y rest none h g := by
  obtain ⟨socket, hs, hserved, hbound, hl, -⟩ := hy.get?
  obtain ⟨socket', hr, hserved', hb, hl', hw'⟩ := hserved.recv_of_cons hl room
  have hreceived := Received.of_set hh hs hserved' hb hbound
  rw [hl', hw'] at hreceived
  exact ⟨_, by rw [recv_eq hs, hr], hreceived⟩

theorem Home.recv_of_nil (hh : Home o h) (hy : y.Has [] waiter h) (room : Nat) :
    ∃ g, h.recv y.socket y.task room = (.pending, g) ∧ Received o y [] (some y.task) h g := by
  obtain ⟨socket, hs, hserved, hbound, hl, -⟩ := hy.get?
  obtain ⟨socket', hr, hserved', hb, hl', hw'⟩ := hserved.recv_of_nil hl (by rw [hbound]; nofun) room
  have hreceived := Received.of_set hh hs hserved' hb hbound
  rw [hl', hw'] at hreceived
  exact ⟨_, by rw [recv_eq hs, hr], hreceived⟩

end peers

/-! ## Turns -/

/-- It is the turn of one peer, in whose socket these datagrams wait, and the other one waits. So many datagrams
were exchanged, and none is on its way. -/
structure Turn (o : Options) (x y : Peer) (inbox : List Udp.Datagram) (n : Nat) (h : Net) : Prop
    extends Home o h where
  mine : y.Has inbox none h
  theirs : x.Has [] (some x.task) h
  frames : Queueing.queued h.device = []
  notified : h.notified = []
  tally : h.deviceCounters = o.tally n

/-- A datagram is on its way to a peer, after so many others: in a frame of the device, or through the loopback,
so that it is there already. -/
inductive Underway (o : Options) (x : Peer) (d : Udp.Datagram) (n : Nat) (h : Net) : Prop where
  | framed (frame : Octets) : o.loopback = false → Queueing.queued h.device = [frame] →
      h.setup.Accepts false frame x.socket →
      received (.stored (content false frame) 12) (segment (content false frame)) = d →
      x.Has [] (some x.task) h → h.notified = [] → h.deviceCounters = (o.tally n).countTx → Underway o x d n h
  | turned : o.loopback = true → Queueing.queued h.device = [] → x.Has [d] none h → h.notified = [x.task] →
      h.deviceCounters = o.tally n → Underway o x d n h

/-- One peer sent a datagram to the other, and waits. -/
structure Sent (o : Options) (y x : Peer) (d : Udp.Datagram) (n : Nat) (h : Net) : Prop extends Home o h where
  theirs : y.Has [] (some y.task) h
  underway : Underway o x d n h

section turns

variable {x y : Peer} {n : Nat} {payload : Octets}

theorem Home.server_eq (hh : Home o h) (hloop : o.loopback = false) : o.server = h.config.addr := by
  rw [hh.config]
  unfold Options.server
  rw [hloop]
  rfl

/-- The way to the own address is known without a question. -/
theorem Home.knows (hh : Home o h) (hloop : o.loopback = false) (hunicast : o.host.isUnicast = true)
    (hy : y.Owns h) : h.Knows y.socket y.task o.server y.binding (ownHardware o.config) := by
  obtain ⟨route, hroute, hlayer⟩ := hh.route
  refine ⟨hy.binding?, ⟨route, hroute, ?_⟩, ?_⟩
  · rw [hlayer]
    unfold Options.way
    rw [hloop]
    rfl
  · rw [hh.resolver, hh.server_eq hloop, hh.config]
    exact resolves_own hunicast rfl (some y.task) h.now

/-- The frame of a datagram to the own address is accepted by the socket with its port. -/
theorem Home.accepts_own (hh : Home o h) (hloop : o.loopback = false) (hunicast : o.host.isUnicast = true)
    (hx : x.Owns h) (src : Ipv4.Address) (b : Udp.Binding) (hsize : payload.length ≤ 512) :
    h.setup.Accepts false (h.wire (ownHardware o.config) src b o.server x.port payload) x.socket := by
  refine accepts_wire hh.assembled.checked hh.assembled ⟨?_, ?_, ?_⟩ hsize
  · rw [← hh.config]
    exact accepts_ownHardware hh.assembled
  · rw [hh.server_eq hloop]
    exact Host.accepts_own hh.assembled (hh.isUnicast hunicast)
  · exact ⟨x.binding, hx.binding?, rfl, .inl rfl⟩

/-- A datagram to the own address leaves in a frame that comes back. -/
theorem Turn.send_framed (ht : Turn o x y [] n h) (hloop : o.loopback = false) (hunicast : o.host.isUnicast = true)
    (hsize : payload.length ≤ 512) :
    ∃ g, h.send y.socket y.task o.server x.port payload = some (.ready (.ok payload.length), g) ∧
      Home o g ∧ y.Has [] none g ∧ Underway o x ⟨o.server, y.port, payload.length, payload⟩ n g := by
  obtain ⟨socket, hs, -⟩ := ht.mine.get?
  have hle : payload.length ≤ h.mtu := by rw [ht.mtu]; exact hsize
  have hknows := ht.knows hloop hunicast ht.mine.owns
  have hmtu : payload.length + 28 ≤ (Nic.personality h.device).mtu := by
    rw [show Nic.personality h.device = {} from ht.personality]
    show payload.length + 28 ≤ 1500
    omega
  have hfits := length_wire_fits h (ownHardware o.config) (h.sourceFrom y.binding .ethernet) y.binding o.server x.port
    hsize
  obtain ⟨hok, hqueued⟩ := Device.Loopback.transmit_of_nil ht.device ht.frames (by decide) hfits
  obtain ⟨p, front, back, hl, hfront, hback, hsend⟩ := send_idle ht.idle ht.txBuffer hs hle y.task o.server x.port
  obtain ⟨g, t, hx, hdevice, hresolver, hwakeups, hnotified, hcounters, hqueue, hwaiter⟩ :=
    transmit_taken ht.assembled ht.agree hknows x.port hl hfront hback hmtu hsize rfl hok
  have hsent := hsend hx hresolver
  refine ⟨_, hsent, ht.toHome.of_send hsent hresolver, ?_,
    .framed _ hloop ((congrArg Queueing.queued hdevice).trans hqueued) ?_ ?_ ?_ ?_ ?_⟩
  · exact ht.mine.congr (y.stable_owns.send (fun _ _ hp => hp) ht.mine.owns hsent) (hqueue _) (hwaiter _)
  · rw [setup_send hsent]
    exact ht.accepts_own hloop hunicast ht.theirs.owns _ _ hsize
  · rw [received_wire ht.assembled.checked ht.assembled hsize,
      sourceFrom_ethernet ht.assembled (ht.isUnicast hunicast), ht.server_eq hloop]
    rfl
  · exact ht.theirs.congr (x.stable_owns.send (fun _ _ hp => hp) ht.theirs.owns hsent) (hqueue _) (hwaiter _)
  · show g.notified ++ g.wakeups.tasks = []
    rw [hnotified, hwakeups, ht.notified, ht.wakeups]
    rfl
  · exact hcounters.trans (congrArg Counters.countTx ht.tally)

/-- A datagram to the loopback is there at once. -/
theorem Turn.send_turned (ht : Turn o x y [] n h) (hxy : x.socket ≠ y.socket) (hloop : o.loopback = true)
    (hsize : payload.length ≤ 512) :
    ∃ g, h.send y.socket y.task o.server x.port payload = some (.ready (.ok payload.length), g) ∧
      Home o g ∧ y.Has [] none g ∧ Underway o x ⟨o.server, y.port, payload.length, payload⟩ n g := by
  have hserver : o.server = .loopback := by
    unfold Options.server
    rw [hloop]
    rfl
  have hb := ht.mine.owns.binding?
  have hbx := ht.theirs.owns.binding?
  obtain ⟨socket, hs, -⟩ := ht.mine.get?
  have hle : payload.length ≤ h.mtu := by rw [ht.mtu]; exact hsize
  obtain ⟨route, hroute, hlayer⟩ := ht.route
  have hway : route.layer = .loopback := by
    rw [hlayer]
    unfold Options.way
    rw [hloop]
    rfl
  obtain ⟨p, front, back, hl, hfront, -, hsend⟩ := send_idle ht.idle ht.txBuffer hs hle y.task o.server x.port
  obtain ⟨g, t, hx, hdevice, hresolver, hnotified, hcounters, hturned⟩ :=
    transmit_turned ht.toSteady hb hroute hway y.task x.port hl (by omega) hsize
  rw [sourceFrom_loopback ht.assembled] at hturned
  have hloops : h.LoopsTo o.server x.port x.socket := by
    rw [hserver]
    exact ⟨accepts_loopback ht.assembled, x.binding, hbx, rfl, .inl rfl⟩
  have honly : ∀ s, h.LoopsTo o.server x.port s → s = x.socket := by
    rintro s ⟨-, c, hc, hcp, -⟩
    exact eq_of_port_eq ht.agree hc hbx hcp
  have hsent := hsend hx hresolver
  have hdelivered : Delivered h (deliver { g with txBuffer := t.packet.bytes }) x.socket
      ⟨o.server, y.port, payload.length, payload⟩ := by
    have hd := hturned.delivered ht.sockets hloops honly
    rw [hserver]
    exact hd
  refine ⟨_, hsent, ht.toHome.of_send hsent hresolver, ?_, .turned hloop ?_ ?_ ?_ ?_⟩
  · refine ht.mine.congr (y.stable_owns.send (fun _ _ hp => hp) ht.mine.owns hsent) (hdelivered.2 _ hxy.symm) ?_
    exact hturned.others _ fun hy => hxy (honly _ hy).symm
  · exact (congrArg Queueing.queued hdevice).trans ht.frames
  · exact ht.theirs.arrive (x.stable_owns.send (fun _ _ hp => hp) ht.theirs.owns hsent) hdelivered
  · show g.notified ++ g.wakeups.tasks = _
    rw [hnotified, hturned.woken _ hloops, ht.notified, ht.wakeups, ht.theirs.waiter]
    rfl
  · exact hcounters.trans ht.tally

theorem Underway.of_received {d : Udp.Datagram} {inbox : List Udp.Datagram} {waiter : Option Task}
    (hu : Underway o x d n h) (hxy : x.socket ≠ y.socket) (hr : Received o y inbox waiter h g) :
    Underway o x d n g := by
  have hset := hr.setup
  obtain ⟨sockets, rfl, honly⟩ := hr.only
  cases hu with
  | framed frame hloop hq hacc hd hx hn hc =>
    exact .framed frame hloop hq (by rw [hset]; exact hacc) hd (hx.of_same (honly _ hxy)) hn hc
  | turned hloop hq hx hn hc => exact .turned hloop hq (hx.of_same (honly _ hxy)) hn hc

/-- A peer that has its turn sends a datagram and waits. -/
theorem Turn.send (ht : Turn o x y [] n h) (hxy : x.socket ≠ y.socket) (hunicast : o.host.isUnicast = true)
    (hsize : payload.length ≤ 512) :
    ∃ g g', h.send y.socket y.task o.server x.port payload = some (.ready (.ok payload.length), g) ∧
      g.recv y.socket y.task g.mtu = (.pending, g') ∧
      Sent o y x ⟨o.server, y.port, payload.length, payload⟩ n g' := by
  have hsend : ∃ g, h.send y.socket y.task o.server x.port payload = some (.ready (.ok payload.length), g) ∧
      Home o g ∧ y.Has [] none g ∧ Underway o x ⟨o.server, y.port, payload.length, payload⟩ n g := by
    cases hloop : o.loopback with
    | false => exact ht.send_framed hloop hunicast hsize
    | true => exact ht.send_turned hxy hloop hsize
  obtain ⟨g, hsent, hhome, hmine, hunder⟩ := hsend
  obtain ⟨g', hrecv, hreceived⟩ := hhome.recv_of_nil hmine g.mtu
  exact ⟨g, g', hsent, hrecv, hreceived.toHome, hreceived.has, hunder.of_received hxy hreceived⟩

/-- A peer that has its turn receives the datagram that it was notified of. -/
theorem Turn.recv {d : Udp.Datagram} (ht : Turn o x y [d] n h) (hxy : x.socket ≠ y.socket) :
    ∃ g, h.recv y.socket y.task h.mtu = (.ready (.ok (d.read 512)), g) ∧ Turn o x y [] n g := by
  obtain ⟨g, hrecv, hreceived⟩ := ht.toHome.recv_of_cons ht.mine h.mtu
  rw [ht.mtu] at hrecv ⊢
  refine ⟨g, hrecv, hreceived.toHome, hreceived.has, ?_, ?_, ?_, ?_⟩
  all_goals obtain ⟨sockets, rfl, honly⟩ := hreceived.only
  · exact ht.theirs.of_same (honly _ hxy)
  · exact ht.frames
  · exact ht.notified
  · exact ht.tally

/-! ## Polls -/

/-- The resolver of an exchange does nothing on its own. -/
theorem Home.refreshed (hh : Home o h) (now : Instant) : h.refreshed now = some { h with now := now } := by
  have hidle : Idle { h with now := now, resolver := newResolver o.config, wakeups := .empty } := by
    unfold Idle
    rw [← hh.resolver]
    exact hh.idle
  unfold Host.refreshed
  rw [hh.resolver, hh.wakeups, expire_new, flush_of_idle hidle]
  show some ({ h with
    now := now, resolver := newResolver o.config, wakeups := .empty, notified := h.notified ++ []
    lost := h.lost || false } : Net) = _
  rw [List.append_nil, Bool.or_false, ← hh.resolver, ← hh.wakeups]

/-- Without a frame a poll does nothing. -/
theorem Home.poll_of_nil (hh : Home o h) (hq : Queueing.queued h.device = []) (now : Instant) :
    h.poll now = some (.ok 0, { h with now := now }) := by
  have hreceive := Device.Loopback.receive_of_nil hh.device hq h.rxBuffer.length
  rw [poll_eq, hh.refreshed, Option.bind_some]
  show Host.receiveFrames { h with now := now } 0 (_ + 1) = _
  unfold Host.receiveFrames
  rw [show Nic.receive h.device h.rxBuffer.length = (.ok none, h.device) from hreceive]

/-- A poll takes the only frame, and then it is over unless the resolver has something to send. -/
theorem Home.poll_of_single (hh : Home o h) {now : Instant} {frame : Octets} {d : Device.Loopback 8} {u : Net}
    (hd : d.Built) (hreceive : Nic.receive h.device h.rxBuffer.length = (.ok (some frame), d))
    (hu : Host.receiveFrame { h with now := now, device := d } frame = some u) (hidle : u.Idle)
    (hrest : Queueing.queued d = []) : h.poll now = some (.ok 1, u.deliver) := by
  have hdevice : u.device = d := receiveFrame_device hu
  have hends : Nic.receive u.deliver.device u.deliver.rxBuffer.length = (.ok none, u.device) := by
    show Nic.receive u.device u.rxBuffer.length = _
    rw [hdevice]
    exact Device.Loopback.receive_of_nil hd hrest u.rxBuffer.length
  obtain ⟨k, hk⟩ : ∃ k, frameBound { h with now := now } = k + 2 :=
    ⟨frameBound { h with now := now } - 2, by unfold frameBound Limits.outbox; omega⟩
  rw [poll_eq, hh.refreshed, Option.bind_some, hk]
  unfold Host.receiveFrames
  rw [show Nic.receive h.device h.rxBuffer.length = _ from hreceive]
  dsimp only
  rw [hu, Option.bind_some, flush_of_idle hidle]
  dsimp only
  unfold Host.receiveFrames
  rw [hends]
  rfl

/-- A frame that a socket accepts is received by it, and its task is notified. -/
theorem Home.poll_of_frame (hh : Home o h) {frame : Octets} (hq : Queueing.queued h.device = [frame]) {s : Handle}
    (ha : h.setup.Accepts false frame s) (now : Instant) :
    ∃ g, h.poll now = some (.ok 1, g) ∧ g.resolver = h.resolver ∧ Queueing.queued g.device = [] ∧
      g.deviceCounters = h.deviceCounters.countRx ∧
      g.notified = h.notified ++ (Wakeups.empty.wakeAll (h.waiter? s).toList).tasks ∧
      Delivered h g s (received (.stored (content false frame) 12) (segment (content false frame))) ∧
      ∀ x, x ≠ s → g.waiter? x = h.waiter? x := by
  obtain ⟨d, hd, hrest, hbuilt⟩ := Device.Loopback.receive_of_cons hh.device hq hh.room
  obtain ⟨u, hu, hturned⟩ := receiveFrame_outcome (h := { h with now := now, device := d }) hh.assembled hh.agree
    hh.sockets frame
  obtain ⟨hresolver, hnotified, hcounters⟩ := receiveFrame_internet (h := { h with now := now, device := d })
    hh.assembled hh.agree ((setup_accepts_iff hh.assembled frame s).1 ha).1 hu
  have hdevice : u.device = d := receiveFrame_device hu
  have hidle : u.Idle := by
    unfold Idle
    rw [hresolver]
    exact hh.idle
  have honly : ∀ x, h.setup.Accepts false frame x → x = s := fun x hx => hx.unique hh.agree ha
  refine ⟨u.deliver, hh.poll_of_single hbuilt hd hu hidle hrest, hresolver, ?_, hcounters, ?_,
    hturned.delivered hh.sockets ha honly, ?_⟩
  · show Queueing.queued u.device = []
    rw [hdevice]
    exact hrest
  · show u.notified ++ u.wakeups.tasks = _
    rw [hnotified, hturned.woken s ha, hh.wakeups]
    rfl
  · exact fun x hx => hturned.others x fun hax => hx (honly x hax)

theorem Home.taken (hh : Home o h) : Home o { h with notified := [] } :=
  hh.of_setup rfl hh.sockets hh.txBuffer hh.device hh.wakeups rfl hh.personality hh.room

theorem Options.tally_succ (hloop : o.loopback = false) (n : Nat) :
    (o.tally n).countTx.countRx = o.tally (n + 1) := by
  unfold Options.tally
  rw [hloop]
  show ({ rx := .ofNat n + 1, tx := .ofNat n + 1 } : Counters) = { rx := .ofNat (n + 1), tx := .ofNat (n + 1) }
  rw [UInt32.ofNat_add]
  rfl

theorem Options.tally_of_loopback (hloop : o.loopback = true) (n m : Nat) : o.tally n = o.tally m := by
  unfold Options.tally
  rw [hloop]
  rfl

/-- A poll notifies a peer, and nobody else, of the datagram that is on its way to it. -/
theorem Sent.poll {d : Udp.Datagram} (hs : Sent o y x d n h) (hxy : x.socket ≠ y.socket) (now : Instant) :
    ∃ k g, h.poll now = some (.ok k, g) ∧ g.notified = [x.task] ∧
      Turn o y x [d] (n + 1) { g with notified := [] } := by
  cases hs.underway with
  | framed frame hloop hq hacc hd hx hn hc =>
    obtain ⟨g, hpoll, hresolver, hframes, hcounters, hnotified, hdelivered, hothers⟩ :=
      hs.toHome.poll_of_frame hq hacc now
    rw [hd] at hdelivered
    refine ⟨1, g, hpoll, ?_, (hs.toHome.of_poll hpoll hresolver).taken, ?_, ?_, hframes, rfl, ?_⟩
    · rw [hnotified, hn, hx.waiter]
      rfl
    · exact (hx.arrive (x.stable_owns.poll hx.owns hpoll) hdelivered).of_same rfl
    · have htheirs := hs.theirs.congr (y.stable_owns.poll hs.theirs.owns hpoll) (hdelivered.2 _ hxy.symm)
        (hothers _ hxy.symm)
      exact htheirs.of_same rfl
    · exact hcounters.trans ((congrArg Counters.countRx hc).trans (Options.tally_succ hloop n))
  | turned hloop hq hx hn hc =>
    have hpoll := hs.toHome.poll_of_nil hq now
    refine ⟨0, _, hpoll, hn, (hs.toHome.of_poll hpoll rfl).taken, ?_, ?_, hq, rfl, ?_⟩
    · exact hx.of_same rfl
    · exact hs.theirs.of_same rfl
    · exact hc.trans (Options.tally_of_loopback hloop n (n + 1))

end turns

end Echo

end UdpStack
