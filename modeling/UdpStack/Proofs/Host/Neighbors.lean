/-
Hosts that talk to one neighbor. Between calls such a host knows of no other address, and has nothing left to
send (`Engaged`). It asks for the neighbor instead of sending a datagram to it at first (`Engaged.ask`); it hears
a message to itself when it polls with just that frame waiting, notifies who waited for the neighbor, and answers
what was a question (`Engaged.hear`); from then on it reaches the neighbor at once (`Engaged.reach`), and
datagrams do not concern its resolver (`Engaged.take`).
-/
import UdpStack.Proofs.Arp.Dialog
import UdpStack.Proofs.Host.Broadcast
import UdpStack.Proofs.Host.Frames

namespace UdpStack.Host

open Bounded Device Octets

variable {δ : Type} {n : Nat}

/-! ## Hosts at rest -/

/-- What holds between calls of a host on an external device whose resolver is at most filled. -/
structure AtRest (manual : Bool) (config : Config) (h : Host (External n)) : Prop where
  poised : h.Poised manual config
  calm : h.Calm manual
  mounted : h.Mounted manual config

section rest

variable {manual : Bool} {config : Config} {h h' : Host (External n)}

theorem atRest_perform {c : Call (External n)} {a : Answer} (hr : h.AtRest manual config) (hc : h.FillsOnly c)
    (e : h.perform c = some (a, h')) : h'.AtRest manual config := by
  refine ⟨poised_perform hr.poised hc e, calm_perform hr.calm hc.2 e, mounted_perform hr.mounted ?_ e⟩
  rintro d rfl
  exact hc.1

theorem AtRest.send (hr : h.AtRest manual config) {s : Handle} {task : Task} {dst : Ipv4.Address} {port : UInt16}
    {payload : Octets} {r : Poll Nat} (e : h.send s task dst port payload = some (r, h')) : h'.AtRest manual config :=
  atRest_perform (c := .send s task dst port payload) hr ⟨trivial, nofun⟩ (congrArg (Option.map _) e)

theorem AtRest.poll (hr : h.AtRest manual config) {now : Instant} {r : Except Fault Nat}
    (e : h.poll now = some (r, h')) : h'.AtRest manual config :=
  atRest_perform (c := .poll now) hr ⟨trivial, nofun⟩ (congrArg (Option.map _) e)

/-- Neither time nor what happens to the device disturbs a host. -/
theorem AtRest.onDevice (hr : h.AtRest manual config) {d : External n} (hd : d.Built) (now : Instant) :
    AtRest manual config { h with now := now, device := d } :=
  ⟨⟨⟨hr.poised.assembled, hr.poised.agree, hr.poised.sockets, hr.poised.room, hd.sound⟩, hr.poised.config,
    hr.poised.txBuffer, hr.poised.idle⟩,
    ⟨⟨hr.calm.assembled, hr.calm.agree, hr.calm.sockets, hr.calm.txBuffer⟩, hr.calm.idle, hr.calm.wakeups⟩,
    ⟨⟨hr.calm.assembled, hr.calm.agree, hr.calm.sockets, hr.calm.txBuffer⟩, hr.mounted.config, hd⟩⟩

theorem deliver_of_empty {h : Host δ} (hw : h.wakeups = .empty) : h.deliver = h := by
  unfold deliver
  rw [hw]
  have hn : h.notified ++ (Wakeups.empty.deliver).1 = h.notified := List.append_nil _
  have hl : (h.lost || Wakeups.empty.overflowed) = h.lost := Bool.or_false _
  dsimp only
  rw [hn, hl, show Wakeups.empty.deliver.2 = h.wakeups from hw.symm]

/-- A poll of a host whose resolver need not act comes down to the round of the frame that waits. -/
theorem poll_lone (hr : h.AtRest manual config) {now : Instant}
    (hquiet : h.resolver.expire now .empty = (h.resolver, .empty)) {frame : Octets} (hf : h.device.frames = [frame]) :
    ∃ r : Round (External n), h.poll now = some (.ok 1, r.after) ∧ r.frame = frame ∧ r.Runs ∧
      r.before = { h with now := now, device := (Nic.receive h.device h.rxBuffer.length).2 } ∧
      r.after.device.frames = [] := by
  have hw := hr.calm.wakeups
  have hrefreshed : h.refreshed now = some { h with now := now } := by
    unfold refreshed
    rw [hw, hquiet]
    dsimp only
    rw [← hw]
    exact (flush_of_idle (h := { h with now := now }) hr.poised.idle).trans (congrArg some (deliver_of_empty hw))
  have hready : Ready manual { h with now := now } := (hr.onDevice hr.mounted.device now).poised.toReady
  obtain ⟨k, hk⟩ : ∃ k, frameBound { h with now := now } = k + 2 :=
    ⟨frameBound { h with now := now } - 2, by unfold frameBound Limits.outbox; omega⟩
  obtain ⟨r, hframe, hruns, hbefore, -, hafter, hrest, hgo, -⟩ := receiveFrames_cons hready hf (k + 1) 0
  refine ⟨r, ?_, hframe, hruns, hbefore, hrest⟩
  rw [poll_eq, hrefreshed, Option.bind_some, hk, hgo]
  exact (receiveFrames_nil hafter hrest k 1).1

end rest

theorem stableRound_now [Nic δ] (now : Instant) : StableRound fun h : Host δ => h.now = now where
  count layer f hn := by
    obtain ⟨_, _, _, _, _, _, _, he, -⟩ := count_eq _ layer f
    rw [he]
    exact hn
  numbered _ hn := hn
  heard hn _ := hn
  handed _ hn _ := hn
  sent _ hn := hn
  outgoing hn := hn
  txBuffer _ hn := hn
  deliver hn := hn
  rxBuffer _ hn := hn

/-- The table of neighbors of a new host. -/
def newTable (config : Config) : Arp.Table := .create config.hardware config.addr config.mask

/-- A host whose table of neighbors has at most the entry of one address. -/
def Remembers (h : Host δ) (config : Config) (x : Ipv4.Address) (known : Option Arp.Neighbor) (waiting : Arp.Waits)
    (messages : List Arp.Message) : Prop :=
  ∃ t, h.resolver = .table t ∧ t.Single (newTable config) x known waiting messages

section messages

variable {manual : Bool} {config : Config} {x : Ipv4.Address} {known : Option Arp.Neighbor} {waiting : Arp.Waits}

/-- A message that waits alone is sent. -/
theorem flush_message [Nic δ] [Queueing δ] {h : Host δ} (hm : h.Mounted manual config) (hv : h.Voiced config)
    {m : Arp.Message} (hr : h.Remembers config x known waiting [m]) :
    ∃ h', h.flush = some h' ∧ h'.Remembers config x known waiting [] ∧
      h'.device = (Nic.transmit h.device (messageFrame manual config m (Arp.Resolver.destination m))).2 := by
  obtain ⟨t, ht, hs⟩ := hr
  obtain ⟨t', hout, hs'⟩ := hs.outgoing
  have hone : t.outbox.size = 1 := by
    rw [← hs.outbox.length_toList, hs.messages]
    rfl
  have hnext : h.resolver.outgoing = (some (m, Arp.Resolver.destination m), .table t') := by
    rw [ht]
    unfold Arp.Resolver.outgoing
    dsimp only
    rw [hout]
    rfl
  have hm' : Mounted manual config { h with resolver := .table t' } :=
    hm.of_setup rfl hm.sockets hm.txBuffer hm.device
  obtain ⟨g, hg, hresolver, hdevice⟩ := sendMessage_voiced hm' hv m (Arp.Resolver.destination m)
  refine ⟨g.deliver, ?_, ⟨t', hresolver, hs'⟩, hdevice⟩
  have hsent : h.sendMessages 1 = some g := by
    unfold sendMessages
    rw [hnext]
    dsimp only
    rw [hg]
    rfl
  unfold flush
  rw [ht]
  dsimp only
  rw [hone, hsent]
  rfl

end messages

/-! ## Sending before the neighbor is known -/

section unresolved

variable [Nic δ] {manual : Bool} {h : Host δ} {s : Handle} {task : Task} {dst : Ipv4.Address} {b : Udp.Binding}

theorem transmitAt_unresolved {t : Transit} (caller : Layer) {etherType : Ethernet.EtherType}
    (ht : h.endpoint.etherTypes.keyOf? caller = some etherType) (hl : t.info.dstLink = none)
    (hw : (h.resolver.lookup t.info.dstAddr t.info.task h.now).1 = .error .wouldBlock) :
    h.transmitAt .ethernet caller t = some (.error .wouldBlock, h.asked t.info.dstAddr t.info.task, t) := by
  have hlookup : h.resolver.lookup t.info.dstAddr t.info.task h.now =
      (.error .wouldBlock, (h.resolver.lookup t.info.dstAddr t.info.task h.now).2) := Prod.ext hw rfl
  have hpass : h.endpoint.transmitPass h.resolver h.now t caller =
      (.error .wouldBlock, (h.resolver.lookup t.info.dstAddr t.info.task h.now).2, t) := by
    unfold Ethernet.Endpoint.transmitPass Ethernet.Endpoint.resolve
    rw [ht, hl]
    dsimp only
    rw [hlookup]
  rw [transmitAt_ethernet, hpass]
  rfl

/-- A datagram to a neighbor that is not known yet ends at its address, which is asked for. -/
theorem transmit_unresolved (ha : h.setup.Assembled manual) (hg : h.setup.Agree) (hb : h.binding? s = some b)
    (hroute : ∃ route, h.router.routes.lookup dst = some route ∧ route.layer = .ethernet)
    (hw : (h.resolver.lookup dst (some task) h.now).1 = .error .wouldBlock) (port : UInt16) {p : Packet}
    {front payload back : Octets} (hl : p.Layout front [] payload back) (hfront : 42 ≤ front.length)
    (hsize : payload.length ≤ 512) :
    ∃ u, h.transmit ⟨p, { dstAddr := dst, dstPort := port, task := some task }⟩ (.socket s) .user =
      some (.error .wouldBlock, (h.numbered (h.router.ident + 1)).asked dst (some task), u) := by
  obtain ⟨route, hroute, hlayer⟩ := hroute
  obtain ⟨q, -, hdescend⟩ := descend_routed ha hg hb hroute task port hl (by omega) hsize
  -- framing needs the hardware address
  have hat := transmitAt_unresolved .ipv4 (h := h.numbered (h.router.ident + 1))
    (t := ⟨q, outgoing (h.sourceFrom b route.layer) b task dst port⟩) (keyOf?_etherTypes ha) rfl hw
  have hd := hdescend 5
  rw [hlayer] at hd hat
  have hends : (h.numbered (h.router.ident + 1)).descend
      ⟨q, outgoing (h.sourceFrom b .ethernet) b task dst port⟩ 5 .ethernet .ipv4 =
      some (.error .wouldBlock, (h.numbered (h.router.ident + 1)).asked dst (some task),
        ⟨q, outgoing (h.sourceFrom b .ethernet) b task dst port⟩) := by
    unfold descend
    rw [hat]
    rfl
  rw [hends] at hd
  refine ⟨⟨q, outgoing (h.sourceFrom b .ethernet) b task dst port⟩, ?_⟩
  unfold transmit
  rw [show Limits.depth = 5 + 3 from rfl, hd]
  rfl

end unresolved

/-! ## Hosts that talk to one neighbor -/

/-- A host that is set up as another one, and knows of no neighbor but one. -/
structure Engaged (manual : Bool) (config : Config) (h h₀ : Host (External n)) (x : Ipv4.Address)
    (known : Option Arp.Neighbor) (waiting : Arp.Waits) : Prop where
  rest : h.AtRest manual config
  setup : h.setup = h₀.setup
  personality : h.device.personality = h₀.device.personality
  frames : h.device.frames = []
  remembers : h.Remembers config x known waiting []

section engaged

variable {manual : Bool} {config : Config} {h₀ h h' : Host (External n)} {x : Ipv4.Address}
  {known : Option Arp.Neighbor} {waiting : Arp.Waits}

theorem length_messageFrame_le (manual : Bool) (config : Config) (m : Arp.Message) (hardware : Ethernet.Address) :
    (messageFrame manual config m hardware).length ≤ Limits.frameBuffer := by
  have := Ethernet.Endpoint.length_trailer_le manual
    (Ethernet.Header.octets ⟨hardware, config.hardware, .arp⟩ ++ m.octets)
  unfold messageFrame
  rw [List.length_append, List.length_append, Ethernet.Header.length_octets, Arp.Message.length_octets]
  have : Limits.frameBuffer = 1546 := rfl
  have : Ethernet.Header.size = 14 := rfl
  have : Arp.Message.size = 28 := rfl
  omega

theorem Engaged.voiced (he : h.Engaged manual config h₀ x known waiting) (hv : h₀.Voiced config) :
    h.Voiced config :=
  ⟨hv.1, by
    show 28 ≤ h.device.personality.mtu
    rw [he.personality]
    exact hv.2⟩

theorem Engaged.binding? (he : h.Engaged manual config h₀ x known waiting) (s : Handle) :
    h.binding? s = h₀.binding? s := by
  rw [binding?_eq, binding?_eq, he.setup]

theorem Engaged.routes (he : h.Engaged manual config h₀ x known waiting) :
    h.router.routes = h₀.router.routes :=
  congrArg Setup.routes he.setup

theorem Engaged.mtu (he : h.Engaged manual config h₀ x known waiting) : h.mtu = h₀.mtu := by
  unfold Host.mtu
  rw [show Nic.personality h.device = Nic.personality h₀.device from he.personality]

/-- A frame that is handed to the device stands behind the others, as long as there is room. -/
theorem Engaged.outbound (he : h.Engaged manual config h₀ x known waiting) {frame : Octets}
    (hl : frame.length ≤ Limits.frameBuffer) (hroom : h.device.outbound.isFull = false) :
    (Nic.transmit h.device frame).1 = .ok () ∧
      (Nic.transmit h.device frame).2.outbound.toList = h.device.outbound.toList ++ [⟨frame⟩] :=
  enqueue_of_room he.rest.poised.device.outbound hl hroom

/-- A host whose device was handed a frame, and whose resolver knows of no other neighbor, is still engaged. -/
theorem Engaged.transmitted (he : h.Engaged manual config h₀ x known waiting) {known' : Option Arp.Neighbor}
    {waiting' : Arp.Waits} (hr : h'.AtRest manual config) (hs : h'.setup = h.setup) {frame : Octets}
    (hd : h'.device = (Nic.transmit h.device frame).2) (hm : h'.Remembers config x known' waiting' []) :
    h'.Engaged manual config h₀ x known' waiting' :=
  ⟨hr, hs.trans he.setup, by rw [hd]; exact he.personality, by rw [hd]; exact he.frames, hm⟩

/-- A send to the neighbor has it asked for first. -/
theorem Engaged.ask (he : h.Engaged manual config h₀ x none []) (hv : h₀.Voiced config)
    (hf : (newTable config).fixed? x = none) {s : Handle} {c : Udp.Binding} (hs : h₀.binding? s = some c)
    (hroute : ∃ route, h₀.router.routes.lookup x = some route ∧ route.layer = .ethernet) (task : Task) (port : UInt16)
    {payload : Octets} (hsize : payload.length ≤ h₀.mtu) (hroom : h.device.outbound.isFull = false) :
    ∃ h', h.send s task x port payload = some (.pending, h') ∧
      h'.device.outbound.toList = h.device.outbound.toList ++
        [⟨messageFrame manual config ((newTable config).question x) .broadcast⟩] ∧
      h'.Engaged manual config h₀ x (some (Arp.Table.query h.now)) [(task, x)] ∧ h'.now = h.now := by
  have hb := (he.binding? s).trans hs
  rw [← he.routes] at hroute
  rw [← he.mtu] at hsize
  obtain ⟨socket, hsocket, -⟩ := Option.bind_eq_some_iff.1 hb
  obtain ⟨t, ht, hst⟩ := he.remembers
  obtain ⟨t', hlookup, hst'⟩ := hst.lookup_unknown (by decide) hf task h.now
  have hw : h.resolver.lookup x (some task) h.now = (.error .wouldBlock, .table t') := by
    rw [ht]
    unfold Arp.Resolver.lookup
    dsimp only
    rw [hlookup]
  obtain ⟨p, front, back, hl, hfront, -, hbytes, hsend⟩ := send_eq he.rest.poised.txBuffer hsocket hsize task x port
  obtain ⟨u, hx⟩ := transmit_unresolved he.rest.poised.assembled he.rest.poised.agree hb hroute
    (congrArg Prod.fst hw) port hl hfront (length_of_le_mtu hsize)
  -- the question is all that is flushed
  let g : Host (External n) :=
    { (h.numbered (h.router.ident + 1)).asked x (some task) with txBuffer := u.packet.bytes }
  have hg : g.Mounted manual config :=
    he.rest.mounted.of_setup rfl he.rest.mounted.sockets ((transmit_length hl.inOrder hx).trans hbytes)
      he.rest.mounted.device
  have hgr : g.Remembers config x (some (Arp.Table.query h.now)) [(task, x)] [(newTable config).question x] :=
    ⟨t', congrArg Prod.snd hw, hst'⟩
  obtain ⟨h', hflush, hr, hd⟩ := flush_message hg (he.voiced hv) hgr
  have e : h.send s task x port payload = some (.pending, h') := by
    rw [hsend hx]
    show (flush g).map _ = _
    rw [hflush]
    rfl
  refine ⟨h', e, ?_, he.transmitted (he.rest.send e) (setup_send e) hd hr, ?_⟩
  · rw [hd]
    exact (he.outbound (length_messageFrame_le ..) hroom).2
  · exact (stableRound_now h.now).toStableFlush.flush (h := g) rfl hflush

/-- A known neighbor is one that datagrams go to at once. -/
theorem Engaged.knows {hardware : Ethernet.Address} {e : Expiry}
    (he : h.Engaged manual config h₀ x (some ⟨.resolved hardware, e⟩) waiting) (hexpired : e.isExpired h.now = false)
    (hf : (newTable config).fixed? x = none) {s : Handle} {c : Udp.Binding} (hs : h₀.binding? s = some c)
    (hroute : ∃ route, h₀.router.routes.lookup x = some route ∧ route.layer = .ethernet) (task : Task) :
    h.Knows s task x c hardware := by
  obtain ⟨t, ht, hst⟩ := he.remembers
  refine ⟨(he.binding? s).trans hs, by rw [he.routes]; exact hroute, ?_⟩
  rw [ht]
  unfold Arp.Resolver.lookup
  dsimp only
  rw [hst.lookup_known hf hexpired]

/-! ### Polling for one frame -/

/-- Between two questions a poll with one frame waiting comes down to that frame, and whatever the resolver has to
say about it. -/
theorem Engaged.round (he : h.Engaged manual config h₀ x known waiting) {now : Instant}
    (hquiet : ∀ retries nextAt e, known = some ⟨.querying retries nextAt, e⟩ → now.total < nextAt.total)
    (hn : 0 < n) {frame : Octets} (hl : frame.length ≤ Limits.frameBuffer) :
    ∃ g u h' : Host (External n), (h.device.inject frame).1 = .ok () ∧
      Host.poll { h with device := (h.device.inject frame).2 } now = some (.ok 1, h') ∧
      g.Engaged manual config h₀ x known waiting ∧ g.now = now ∧ g.notified = h.notified ∧
      g.endpoint = h.endpoint ∧ g.device.outbound = h.device.outbound ∧ g.receiveFrame frame = some u ∧
      u.flush = some h' ∧ h'.AtRest manual config ∧ h'.setup = g.setup ∧ h'.now = now := by
  obtain ⟨hin, hframes, hsound⟩ := External.inject_of_nil he.rest.poised.device he.frames hn hl
  have hrest : AtRest manual config { h with device := (h.device.inject frame).2 } :=
    he.rest.onDevice (.inject frame he.rest.mounted.device) h.now
  have hexpire : h.resolver.expire now .empty = (h.resolver, .empty) := by
    obtain ⟨t, ht, hst⟩ := he.remembers
    rw [ht]
    unfold Arp.Resolver.expire
    dsimp only
    rw [hst.expire_of_quiet hquiet]
  obtain ⟨r, hpoll, hframe, hruns, hbefore, -⟩ := poll_lone hrest hexpire hframes
  obtain ⟨d, hd, hempty, -⟩ := External.receive_of_cons hsound hframes he.rest.poised.room
  obtain ⟨inbound, hinbound⟩ := External.receive_eq (h.device.inject frame).2 h.rxBuffer.length
  have hdevice : r.before.device = d := by rw [hbefore, hd]
  have hsame : r.before.device = { (h.device.inject frame).2 with inbound := inbound } := by rw [hbefore, hinbound]
  have hbuilt : External.Built (Nic.receive (h.device.inject frame).2 h.rxBuffer.length).2 :=
    .receive _ (.inject frame he.rest.mounted.device)
  obtain ⟨u, hu, hf⟩ := Option.bind_eq_some_iff.1 hruns
  rw [hframe] at hu
  have hsetup : r.before.setup = h.setup := by rw [hbefore]; rfl
  have hnow : r.before.now = now := by rw [hbefore]
  refine ⟨r.before, u, r.after, hin, hpoll, ?_, hnow, by rw [hbefore], by rw [hbefore], by rw [hsame]; rfl, hu, hf,
    hrest.poll hpoll, (setup_poll hpoll).trans hsetup.symm, ?_⟩
  · refine ⟨?_, hsetup.trans he.setup, by rw [hsame]; exact he.personality, by rw [hdevice]; exact hempty, ?_⟩
    · rw [hbefore]
      exact he.rest.onDevice hbuilt now
    · rw [hbefore]
      exact he.remembers
  · exact (stableRound_now now).toStableFlush.flush ((stableRound_now now).receiveFrame hnow hu) hf

theorem Mounted.received {g : Host (External n)} (hm : h.Mounted manual config) {frame : Octets}
    (e : h.receiveFrame frame = some g) : g.Mounted manual config :=
  hm.of_setup ((stable_setup h.setup).toStableRound.receiveFrame rfl e)
    (stable_sockets.toStableRound.receiveFrame hm.sockets e)
    ((stable_txBuffer_length _).toStableRound.receiveFrame hm.txBuffer e)
    (stable_built.toStableRound.receiveFrame hm.device e)

theorem Remembers.idle {h : Host δ} (hr : h.Remembers config x known waiting []) : h.Idle := by
  obtain ⟨t, ht, hst⟩ := hr
  apply Arp.Resolver.outgoing_of_backlog
  rw [ht]
  show t.outbox.size = 0
  rw [← hst.outbox.length_toList, hst.messages]
  rfl

/-- A datagram is none of the resolver's business. -/
theorem Engaged.take (he : h.Engaged manual config h₀ x known waiting) {now : Instant}
    (hquiet : ∀ retries nextAt e, known = some ⟨.querying retries nextAt, e⟩ → now.total < nextAt.total) (hn : 0 < n)
    {frame : Octets} (hl : frame.length ≤ Limits.frameBuffer) (htakes : h.endpoint.Takes frame .ipv4)
    {r : Except Fault Nat} (e : Host.poll { h with device := (h.device.inject frame).2 } now = some (r, h')) :
    h'.Engaged manual config h₀ x known waiting ∧ h'.now = now ∧ h'.device.outbound = h.device.outbound := by
  obtain ⟨g, u, h'', -, hpoll, hg, -, -, hendpoint, hout, hu, hf, hr, hsetup, hnow⟩ := he.round hquiet hn hl
  cases e.symm.trans hpoll
  have hdevice : u.device = g.device := receiveFrame_device hu
  have hresolver : u.resolver = g.resolver := by
    rw [receiveFrame_eq] at hu
    rcases receive_ethernet (h := g.count .device .countRx) (entering_unread? g frame) 7 .device with
      ⟨upper, p, hupper, hpu, -, hgo⟩ | ⟨hnone, -⟩
    · rw [← hendpoint] at htakes
      obtain rfl : upper = .ipv4 := Option.some.inj (hupper.content.symm.trans htakes.content)
      obtain ⟨res, v, t, hv, -, hresolver, -⟩ := receive_internet
        (h := (g.count .device .countRx).count .ethernet .countRx) (by rw [setup_count, setup_count]; exact
          hg.rest.poised.assembled) (by rw [setup_count, setup_count]; exact hg.rest.poised.agree) (t := ⟨p, _⟩) hpu 4
        .ethernet
      rw [show Limits.depth = 7 + 1 from rfl, hgo, hv] at hu
      cases hu
      exact hresolver
    · rw [← hendpoint] at htakes
      exact absurd htakes (hnone _)
  have hremembers : u.Remembers config x known waiting [] := by
    unfold Remembers
    rw [hresolver]
    exact hg.remembers
  rw [flush_of_idle hremembers.idle] at hf
  cases hf
  refine ⟨⟨hr, hsetup.trans hg.setup, ?_, ?_, hremembers⟩, hnow, ?_⟩
  · show u.device.personality = _
    rw [hdevice]
    exact hg.personality
  · show u.device.frames = _
    rw [hdevice]
    exact hg.frames
  · show u.device.outbound = _
    rw [hdevice]
    exact hout

end engaged

end UdpStack.Host
