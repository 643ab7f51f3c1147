/-
The way of a datagram from a socket to the device. On the way down each layer stacks its header in
front of what is there, and the source is chosen below the ports; on the second way down the checksum,
the padding and the check sequence follow. What the device is handed in the end is one frame (`wire`),
written out as the headers of all layers around the payload (`transmit_datagram`).
-/
import UdpStack.Proofs.Arp.Waiting
import UdpStack.Proofs.Host.Assembly

namespace UdpStack.Host

open Bounded Device Octets

variable {δ : Type}

/-! ## Frames -/

/-- The address that a socket with a binding sends from. -/
def sourceOf (h : Host δ) (b : Udp.Binding) : Ipv4.Address :=
  if b.addr.isUnspecified then h.config.addr else b.addr

/-- The address that a socket with a binding sends from through a layer. -/
def sourceFrom (h : Host δ) (b : Udp.Binding) (layer : Layer) : Ipv4.Address :=
  if b.addr.isUnspecified then (h.router.sourceFor layer).getD .unspecified else b.addr

section frames

variable (h : Host δ) (hardware : Ethernet.Address) (src : Ipv4.Address) (b : Udp.Binding) (dst : Ipv4.Address)
  (port : UInt16) (payload : Octets)

/-- The next datagram of a host. -/
def datagram : Octets :=
  Ipv4.Router.sealedHeader (UInt16.ofNat (8 + payload.length + 20)) h.router.ident .udp src dst ++
    Udp.Header.segment b.port port src dst payload

/-- The datagram behind the header of a frame. -/
def framed : Octets :=
  Ethernet.Header.octets ⟨hardware, h.endpoint.addr, .ipv4⟩ ++ h.datagram src b dst port payload

/-- The frame as it leaves. -/
def wire : Octets :=
  h.framed hardware src b dst port payload ++
    Ethernet.Endpoint.trailer h.endpoint.checked (h.framed hardware src b dst port payload)

theorem length_datagram : (h.datagram src b dst port payload).length = payload.length + 28 := by
  unfold datagram Udp.Header.segment
  simp only [List.length_append, Ipv4.Router.length_sealedHeader, Udp.Header.length_octets]
  omega

theorem length_framed : (h.framed hardware src b dst port payload).length = payload.length + 42 := by
  unfold framed
  rw [List.length_append, Ethernet.Header.length_octets, length_datagram]
  have : Ethernet.Header.size = 14 := rfl
  omega

theorem length_wire_le : (h.wire hardware src b dst port payload).length ≤ payload.length + 106 := by
  have ht := Ethernet.Endpoint.length_trailer_le h.endpoint.checked (h.framed hardware src b dst port payload)
  have hf := h.length_framed hardware src b dst port payload
  unfold wire
  rw [List.length_append]
  omega

theorem length_wire_fits {payload : Octets} (hsize : payload.length ≤ 512) :
    (h.wire hardware src b dst port payload).length ≤ Limits.frameBuffer := by
  have := h.length_wire_le hardware src b dst port payload
  have : Limits.frameBuffer = 1546 := rfl
  omega

end frames

/-! ## What a host knows -/

/-- A bound socket may send to a destination at once: a route leads through Ethernet, and the
hardware address is known. -/
structure Knows (h : Host δ) (s : Handle) (task : Task) (dst : Ipv4.Address) (b : Udp.Binding)
    (hardware : Ethernet.Address) : Prop where
  binding : h.binding? s = some b
  route : ∃ route, h.router.routes.lookup dst = some route ∧ route.layer = .ethernet
  hardware : (h.resolver.lookup dst (some task) h.now).1 = .ok hardware

theorem portOf?_of_binding {h : Host δ} (hg : h.setup.Agree) {s : Handle} {b : Udp.Binding}
    (hb : h.binding? s = some b) : h.ports.portOf? (.socket s) = some b.port := by
  obtain ⟨socket, hs, hsb⟩ := Option.bind_eq_some_iff.1 hb
  have hbs : h.setup.bindings s = some (some b) := by rw [← hsb]; exact bindings_of_get? hs
  have hw : h.ports.table.WF := hg.ports
  have hport := hw.get?_eq_some_iff.1 ((hg.agree b.port (.socket s)).2 ⟨s, b, rfl, hbs, rfl⟩)
  apply Map.keyOf?_eq_some hport
  intro port hp
  obtain ⟨s', b', hs', hb', rfl⟩ := (hg.agree port (.socket s)).1 (hw.get?_eq_some_iff.2 hp)
  cases hs'
  rw [hbs] at hb'
  cases hb'
  rfl

theorem keyOf?_protocols {manual : Bool} {u : Setup} (ha : u.Assembled manual) :
    u.protocols.keyOf? .udp = some .udp := by
  apply Map.keyOf?_eq_some
  · rw [ha.protocol]
    exact List.mem_singleton.2 rfl
  · intro p hp
    rw [ha.protocol, List.mem_singleton] at hp
    exact (Prod.mk.inj hp).1

theorem keyOf?_etherTypes {manual : Bool} {u : Setup} (ha : u.Assembled manual) :
    u.etherTypes.keyOf? .ipv4 = some .ipv4 := by
  apply Map.keyOf?_eq_some
  · rw [ha.contents]
    exact List.mem_cons_self ..
  · intro t ht
    rw [ha.contents, List.mem_cons] at ht
    rcases ht with ht | ht
    · exact (Prod.mk.inj ht).1
    · split at ht
      · cases ht
      · cases (Prod.mk.inj (List.mem_singleton.1 ht)).2

/-- The addresses of a datagram, its source chosen. -/
def outgoing (src : Ipv4.Address) (b : Udp.Binding) (task : Task) (dst : Ipv4.Address) (port : UInt16) : Info where
  srcAddr := src
  dstAddr := dst
  srcPort := b.port
  dstPort := port
  task := some task

/-- The source that a socket with a binding asks for. -/
def boundSource (b : Udp.Binding) : Ipv4.Address := if b.addr.isUnspecified then .unspecified else b.addr

/-- The internet layer chooses the source for a socket that is bound to any address. -/
theorem chooseSource_eq (h : Host δ) (b : Udp.Binding) (layer : Layer) (task : Task) (dst : Ipv4.Address)
    (port : UInt16) : h.router.chooseSource (outgoing (boundSource b) b task dst port) layer =
      outgoing (h.sourceFrom b layer) b task dst port := by
  unfold Ipv4.Router.chooseSource sourceFrom outgoing boundSource
  by_cases hb : b.addr.isUnspecified = true
  · simp only [hb, if_true]
    cases h.router.sourceFor layer <;> rfl
  · simp only [hb, Bool.false_eq_true, if_false]

/-- Through Ethernet the source is that of the socket, or the address of the host. -/
theorem sourceFrom_ethernet {manual : Bool} {h : Host δ} (ha : h.setup.Assembled manual)
    (hu : h.config.addr.isUnicast = true) (b : Udp.Binding) : h.sourceFrom b .ethernet = h.sourceOf b := by
  have hs : h.router.sourceFor .ethernet = some h.config.addr :=
    congrArg (Option.map Prod.fst) (ha.source hu)
  unfold sourceFrom sourceOf
  rw [hs, Option.getD_some]

/-! ## The first way down -/

variable [Nic δ]

/-- The result of a way down with more layers in front. -/
def along (front : List (Layer × Layer)) (x : Except Fault (List (Layer × Layer)) × Host δ × Transit) :
    Except Fault (List (Layer × Layer)) × Host δ × Transit :=
  (x.1.map (front ++ ·), x.2)

omit [Nic δ] in
theorem along_along (front front' : List (Layer × Layer))
    (x : Except Fault (List (Layer × Layer)) × Host δ × Transit) :
    along front (along front' x) = along (front ++ front') x := by
  rcases x with ⟨f | path, g, u⟩
  · rfl
  · simp [along, Except.map]

/-- A layer that names the next one leaves the rest of the way to it. -/
theorem descend_of_layer {h g : Host δ} {layer caller lower : Layer} {t u : Transit}
    (e : h.transmitAt layer caller t = some (.ok (.layer lower), g, u)) (depth : Nat) :
    h.descend t (depth + 1) layer caller = (g.descend u depth lower layer).map (along [(layer, caller)]) := by
  conv_lhs => unfold descend
  rw [e]
  dsimp only
  rcases g.descend u depth lower layer with _ | ⟨f | path, g', u'⟩ <;> rfl

theorem transmitAt_socket {h : Host δ} {s : Handle} {b : Udp.Binding} (hb : h.binding? s = some b) (t : Transit)
    (caller : Layer) : h.transmitAt (.socket s) caller t = some (.ok (.layer .udp), h, { t with
      info := { t.info with srcAddr := if b.addr.isUnspecified then t.info.srcAddr else b.addr } }) := by
  obtain ⟨socket, hs, hsb⟩ := Option.bind_eq_some_iff.1 hb
  unfold transmitAt Udp.Socket.transmitPass
  dsimp only
  rw [hs]
  dsimp only
  rw [hsb]
  dsimp only
  split <;> rfl

/-- The device accepts a packet whose content is not too large, its frame header not counted. -/
theorem descend_device (h : Host δ) {t : Transit} {front headers payload back : Octets}
    (hl : t.packet.Layout front headers payload back) (depth : Nat) (caller : Layer) :
    h.descend t (depth + 1) .device caller =
      some (if (Nic.personality h.device).mtu < headers.length + payload.length - 14 then
        (.error .badSize, h.count .device .countDropped, t) else (.ok [(.device, caller)], h, t)) := by
  unfold descend transmitAt
  dsimp only
  unfold Device.transmitPass
  rw [hl.frame?, Option.map_some, Option.map_some, List.length_append, show Ethernet.Header.size = 14 from rfl]
  by_cases hm : (Nic.personality h.device).mtu < headers.length + payload.length - 14
  · rw [if_pos hm, if_pos hm]
  · rw [if_neg hm, if_neg hm]

omit [Nic δ] in
/-- A hardware address that is known is found without a change. -/
theorem resolve_of_ok {r : Arp.Resolver} {info : Info} {now : Instant} {hardware : Ethernet.Address}
    (hw : (Ethernet.Endpoint.resolve r info now).1 = .ok hardware) :
    Ethernet.Endpoint.resolve r info now = (.ok hardware, r) := by
  unfold Ethernet.Endpoint.resolve at hw ⊢
  split
  · rename_i x hx
    rw [hx] at hw
    exact Prod.ext hw rfl
  · rename_i hx
    rw [hx] at hw
    exact Prod.ext hw (Arp.Resolver.lookup_of_ok hw)

/-- A packet whose hardware address is known is framed, and the device accepts it or does not. -/
theorem descend_framed {h : Host δ} {t : Transit} {caller : Layer} {etherType : Ethernet.EtherType}
    {hardware : Ethernet.Address} {front headers payload back : Octets}
    (hl : t.packet.Layout front headers payload back) (ht : h.endpoint.etherTypes.keyOf? caller = some etherType)
    (hw : (Ethernet.Endpoint.resolve h.resolver t.info h.now).1 = .ok hardware) (hfront : 14 ≤ front.length)
    (depth : Nat) : ∃ p front', p.Layout front'
        (Ethernet.Header.octets ⟨hardware, h.endpoint.addr, etherType⟩ ++ headers) payload back ∧
      h.descend t (depth + 2) .ethernet caller =
        let u : Transit := ⟨p, { t.info with srcLink := some h.endpoint.addr, dstLink := some hardware }⟩
        some (if (Nic.personality h.device).mtu < headers.length + payload.length then
          (.error .badSize, h.count .device .countDropped, u)
          else (.ok [(.ethernet, caller), (.device, .ethernet)], h, u)) := by
  obtain ⟨p, hx, hpl⟩ := Ethernet.Endpoint.transmitPass_of_known hl ht (resolve_of_ok hw) hfront
  have h1 : h.transmitAt .ethernet caller t = some (.ok (.layer .device), h,
      ⟨p, { t.info with srcLink := some h.endpoint.addr, dstLink := some hardware }⟩) := by
    rw [transmitAt_ethernet]
    exact congrArg some (by rw [hx])
  have hlen : (Ethernet.Header.octets ⟨hardware, h.endpoint.addr, etherType⟩ ++ headers).length +
      payload.length - 14 = headers.length + payload.length := by
    rw [List.length_append, Ethernet.Header.length_octets, show Ethernet.Header.size = 14 from rfl]
    omega
  refine ⟨p, _, hpl, ?_⟩
  rw [descend_of_layer h1, descend_device h hpl, hlen]
  dsimp only
  split <;> rfl

/-- The layers that a datagram passes above the one that its route leads to, each with its caller. -/
def above (s : Handle) : List (Layer × Layer) := [(.socket s, .user), (.udp, .socket s), (.ipv4, .udp)]

/-- The layers that a datagram passes on its way to a neighbor. -/
def way (s : Handle) : List (Layer × Layer) := above s ++ [(.ethernet, .ipv4), (.device, .ethernet)]

/-- A bound socket hands its datagram to the internet layer, behind the header with the ports. -/
theorem descend_bound {manual : Bool} {h : Host δ} (ha : h.setup.Assembled manual) (hg : h.setup.Agree)
    {s : Handle} {b : Udp.Binding} (hb : h.binding? s = some b) (task : Task) (dst : Ipv4.Address) (port : UInt16)
    {p : Packet} {front payload back : Octets} (hl : p.Layout front [] payload back) (hfront : 8 ≤ front.length)
    (hsize : payload.length ≤ 512) :
    ∃ q, q.Layout (front.take (front.length - 8))
        (Udp.Header.octets b.port port (UInt16.ofNat (payload.length + 8)) 0) payload back ∧ ∀ depth,
      h.descend ⟨p, { dstAddr := dst, dstPort := port, task := some task }⟩ (depth + 2) (.socket s) .user =
        (h.descend ⟨q, outgoing (boundSource b) b task dst port⟩ depth .ipv4 .udp).map
          (along [(.socket s, .user), (.udp, .socket s)]) := by
  let info : Info := { dstAddr := dst, dstPort := port, task := some task }
  let chosen : Info := { info with srcAddr := boundSource b }
  have h1 : h.transmitAt (.socket s) .user ⟨p, info⟩ = some (.ok (.layer .udp), h, ⟨p, chosen⟩) :=
    transmitAt_socket hb ⟨p, info⟩ .user
  obtain ⟨q, hx, hql⟩ := Udp.Ports.transmitPass_of_port (t := ⟨p, chosen⟩) hl
    (portOf?_of_binding hg hb) (by omega) hfront
  have h2 : h.transmitAt .udp (.socket s) ⟨p, chosen⟩ =
      some (.ok (.layer .ipv4), h, ⟨q, { chosen with srcPort := b.port }⟩) := by
    unfold transmitAt
    dsimp only
    rw [hx, show h.ports.lower = .ipv4 from ha.lower]
  refine ⟨q, hql, fun depth => ?_⟩
  rw [descend_of_layer h1, descend_of_layer h2, Option.map_map]
  congr 1
  funext x
  exact along_along ..

/-- A datagram with a route is headed through the internet layer, the checksum still zero, and goes
where the route leads. -/
theorem descend_routed {manual : Bool} {h : Host δ} (ha : h.setup.Assembled manual) (hg : h.setup.Agree)
    {s : Handle} {b : Udp.Binding} (hb : h.binding? s = some b) {dst : Ipv4.Address} {route : Ipv4.Route}
    (hroute : h.router.routes.lookup dst = some route) (task : Task) (port : UInt16) {p : Packet}
    {front payload back : Octets} (hl : p.Layout front [] payload back) (hfront : 28 ≤ front.length)
    (hsize : payload.length ≤ 512) :
    ∃ q, q.Layout (front.take (front.length - 28))
        (Ipv4.Router.sealedHeader (UInt16.ofNat (8 + payload.length + 20)) h.router.ident .udp
          (h.sourceFrom b route.layer) dst ++
          Udp.Header.octets b.port port (UInt16.ofNat (payload.length + 8)) 0) payload back ∧ ∀ depth,
      h.descend ⟨p, { dstAddr := dst, dstPort := port, task := some task }⟩ (depth + 3) (.socket s) .user =
        ((h.numbered (h.router.ident + 1)).descend ⟨q, outgoing (h.sourceFrom b route.layer) b task dst port⟩ depth
          route.layer .ipv4).map (along (above s)) := by
  obtain ⟨p₂, hl₂, hdescend⟩ := descend_bound ha hg hb task dst port hl (by omega) hsize
  -- the internet layer, where the source is chosen
  obtain ⟨q, hx, hql⟩ := Ipv4.Router.transmitPass_of_route (r := h.router)
    (t := ⟨p₂, outgoing (boundSource b) b task dst port⟩) hl₂ (keyOf?_protocols ha) hroute
    (by rw [Udp.Header.length_octets]; omega) (by rw [List.length_take]; omega)
  dsimp only at hx hql
  rw [chooseSource_eq] at hx hql
  have h3 : h.transmitAt .ipv4 .udp ⟨p₂, outgoing (boundSource b) b task dst port⟩ = some (.ok (.layer route.layer),
      h.numbered (h.router.ident + 1), ⟨q, outgoing (h.sourceFrom b route.layer) b task dst port⟩) := by
    rw [transmitAt_ipv4, hx]
    rfl
  have hfront : (front.take (front.length - 8)).take ((front.take (front.length - 8)).length - 20) =
      front.take (front.length - 28) := by
    rw [List.take_take, List.length_take]
    congr 1
    omega
  rw [hfront] at hql
  refine ⟨q, hql, fun depth => ?_⟩
  rw [hdescend, descend_of_layer h3, Option.map_map]
  congr 1
  funext x
  exact along_along ..

/-- To a neighbor that is known a datagram goes in a frame, the checksum still zero. -/
theorem descend_datagram {manual : Bool} {h : Host δ} (ha : h.setup.Assembled manual) (hg : h.setup.Agree)
    {s : Handle} {task : Task} {dst : Ipv4.Address} {b : Udp.Binding} {hardware : Ethernet.Address}
    (hk : h.Knows s task dst b hardware) (port : UInt16) {p : Packet} {front payload back : Octets}
    (hl : p.Layout front [] payload back) (hfront : 42 ≤ front.length) (hsize : payload.length ≤ 512) :
    ∃ q front', q.Layout front' (Ethernet.Header.octets ⟨hardware, h.endpoint.addr, .ipv4⟩ ++
        (Ipv4.Router.sealedHeader (UInt16.ofNat (8 + payload.length + 20)) h.router.ident .udp
          (h.sourceFrom b .ethernet) dst ++
          Udp.Header.octets b.port port (UInt16.ofNat (payload.length + 8)) 0)) payload back ∧
      h.descend ⟨p, { dstAddr := dst, dstPort := port, task := some task }⟩ Limits.depth (.socket s) .user =
        let g := h.numbered (h.router.ident + 1)
        let u : Transit := ⟨q, { outgoing (h.sourceFrom b .ethernet) b task dst port with
          srcLink := some h.endpoint.addr, dstLink := some hardware }⟩
        some (if (Nic.personality h.device).mtu < payload.length + 28 then
          (.error .badSize, g.count .device .countDropped, u) else (.ok (way s), g, u)) := by
  obtain ⟨route, hroute, hlayer⟩ := hk.route
  obtain ⟨q, hql, hdescend⟩ := descend_routed ha hg hk.binding hroute task port hl (by omega) hsize
  rw [hlayer] at hql hdescend
  -- framing and the device
  obtain ⟨q, front', hl₄, h4⟩ := descend_framed (h := h.numbered (h.router.ident + 1))
    (t := ⟨q, outgoing (h.sourceFrom b .ethernet) b task dst port⟩) hql (keyOf?_etherTypes ha) hk.hardware
    (by rw [List.length_take]; omega) 3
  refine ⟨q, front', hl₄, ?_⟩
  have hlen : (Ipv4.Router.sealedHeader (UInt16.ofNat (8 + payload.length + 20)) h.router.ident .udp
      (h.sourceFrom b .ethernet) dst ++ Udp.Header.octets b.port port (UInt16.ofNat (payload.length + 8)) 0).length +
      payload.length = payload.length + 28 := by
    rw [List.length_append, Ipv4.Router.length_sealedHeader, Udp.Header.length_octets]; omega
  rw [hlen] at h4
  rw [show Limits.depth = 5 + 3 from rfl, hdescend, h4]
  dsimp only
  rw [Option.map_some, apply_ite (along (above s))]
  rfl

/-! ## The second way down -/

/-- A layer that is done with a packet leaves it to the rest of the path. -/
theorem finish_of_pass {h g : Host δ} {layer caller : Layer} {t u : Transit}
    (e : h.finishAt layer caller t = some (.ok .pass, g, u)) (rest : List (Layer × Layer)) :
    h.finish t ((layer, caller) :: rest) = (g.count layer .countTx).finish u rest := by
  conv_lhs => unfold finish
  rw [e]

theorem finishAt_socket {h : Host δ} {s : Handle} {b : Udp.Binding} (hb : h.binding? s = some b) (t : Transit)
    (caller : Layer) : h.finishAt (.socket s) caller t = some (.ok .pass, h, t) := by
  obtain ⟨socket, hs, -⟩ := Option.bind_eq_some_iff.1 hb
  unfold finishAt
  dsimp only
  rw [hs]

/-- The host once the layers above Ethernet counted a datagram of a socket. -/
def counted (h : Host δ) (s : Handle) : Host δ :=
  ((h.count (.socket s) .countTx).count .udp .countTx).count .ipv4 .countTx

/-- Above the layer that a route leads to only the checksum is filled in. -/
theorem finish_routed {h : Host δ} {s : Handle} {b : Udp.Binding} (hb : h.binding? s = some b) {t : Transit}
    {front outer payload back : Octets} {srcPort dstPort len : UInt16}
    (hl : t.packet.Layout front (outer ++ Udp.Header.octets srcPort dstPort len 0) payload back)
    (hlen : len.toNat = payload.length + 8) (rest : List (Layer × Layer)) :
    ∃ p, h.finish t ((.socket s, .user) :: (.udp, .socket s) :: (.ipv4, .udp) :: rest) =
        (h.counted s).finish { t with packet := p } rest ∧
      p.Layout front (outer ++ Udp.Header.octets srcPort dstPort len (Udp.Header.checksumFor
        (Udp.Header.octets srcPort dstPort len 0 ++ payload) t.info.srcAddr t.info.dstAddr)) payload back := by
  obtain ⟨p, hp, hpl⟩ := Udp.Ports.finishPass_of_layout hl hlen
  have h2 : (h.count (.socket s) .countTx).finishAt .udp (.socket s) t =
      some (.ok .pass, h.count (.socket s) .countTx, { t with packet := p }) := by
    unfold finishAt
    dsimp only
    rw [hp, Option.map_some]
  refine ⟨p, ?_, hpl⟩
  rw [finish_of_pass (finishAt_socket hb t .user), finish_of_pass h2, finish_of_pass rfl]
  rfl

/-- The device is handed the packet as it is. -/
theorem finish_sent (h : Host δ) {t : Transit} {frame : Octets} (hf : t.packet.frame? = some frame)
    (caller : Layer) : ∃ f, h.finish t [(.device, caller)] =
      some ((Nic.transmit h.device frame).1, (h.sent frame).count .device f, t) ∧
    ((Nic.transmit h.device frame).1 = .ok () → f = .countTx) := by
  have he : h.finishAt .device caller t =
      some ((Nic.transmit h.device frame).1.map fun _ => .pass, h.sent frame, t) := by
    show (Device.finishPass h.device t.packet).map _ = _
    unfold Device.finishPass
    rw [hf]
    rfl
  unfold finish
  rw [he]
  cases (Nic.transmit h.device frame).1 with
  | error f => exact ⟨_, rfl, fun hok => by cases hok⟩
  | ok _ => exact ⟨_, rfl, fun _ => rfl⟩

/-- A framed packet gets its padding and its check sequence, and the device is handed it. -/
theorem finish_framed (h : Host δ) {t : Transit} {front headers payload back frame : Octets}
    (hl : t.packet.Layout front headers payload back) (hroom : 64 ≤ back.length)
    (hframe : frame = headers ++ payload ++ Ethernet.Endpoint.trailer h.endpoint.checked (headers ++ payload))
    (caller : Layer) : ∃ f u, h.finish t [(.ethernet, caller), (.device, .ethernet)] =
      some ((Nic.transmit h.device frame).1, ((h.count .ethernet .countTx).sent frame).count .device f, u) ∧
    ((Nic.transmit h.device frame).1 = .ok () → f = .countTx) := by
  obtain ⟨q, back', hq, hql⟩ := Ethernet.Endpoint.finishPass_of_layout (e := h.endpoint) hl hroom
  have he : h.finishAt .ethernet caller t = some (.ok .pass, h, { t with packet := q }) := by
    unfold finishAt
    dsimp only
    rw [hq, Option.map_some]
  have hwhole : q.frame? = some frame := by
    rw [hql.frame?, hframe, List.append_assoc]
  obtain ⟨f, hf, hcounts⟩ := finish_sent (h.count .ethernet .countTx) (t := { t with packet := q }) hwhole .ethernet
  rw [device_count] at hf hcounts
  exact ⟨f, _, (finish_of_pass he _).trans hf, hcounts⟩

/-- The host once the layers of a datagram counted it and the device was handed a frame. -/
def handedOver (h : Host δ) (s : Handle) (frame : Octets) (f : Counters → Counters) : Host δ :=
  (((h.counted s).count .ethernet .countTx).sent frame).count .device f

@[simp] theorem device_handedOver (h : Host δ) (s : Handle) (frame : Octets) (f : Counters → Counters) :
    (h.handedOver s frame f).device = (Nic.transmit h.device frame).2 := by
  rw [handedOver, device_count]
  show (Nic.transmit ((h.counted s).count .ethernet .countTx).device frame).2 = _
  simp [counted]

@[simp] theorem resolver_handedOver (h : Host δ) (s : Handle) (frame : Octets) (f : Counters → Counters) :
    (h.handedOver s frame f).resolver = h.resolver := by
  simp [handedOver, sent, counted]

/-- A datagram is completed and handed to the device as one frame, whatever its payload. -/
theorem transmit_datagram {manual : Bool} {h : Host δ} (ha : h.setup.Assembled manual) (hg : h.setup.Agree)
    {s : Handle} {task : Task} {dst : Ipv4.Address} {b : Udp.Binding} {hardware : Ethernet.Address}
    (hk : h.Knows s task dst b hardware) (port : UInt16) {p : Packet} {front payload back frame : Octets}
    (hl : p.Layout front [] payload back) (hfront : 42 ≤ front.length) (hroom : 64 ≤ back.length)
    (hmtu : payload.length + 28 ≤ (Nic.personality h.device).mtu) (hsize : payload.length ≤ 512)
    (hframe : frame = h.wire hardware (h.sourceFrom b .ethernet) b dst port payload) :
    ∃ f t, h.transmit ⟨p, { dstAddr := dst, dstPort := port, task := some task }⟩ (.socket s) .user =
      some ((Nic.transmit h.device frame).1, (h.numbered (h.router.ident + 1)).handedOver s frame f, t) ∧
    ((Nic.transmit h.device frame).1 = .ok () → f = .countTx) := by
  obtain ⟨q, front', hql, hd⟩ := descend_datagram ha hg hk port hl hfront hsize
  dsimp only at hd
  rw [if_neg (by omega)] at hd
  rw [← List.append_assoc] at hql
  -- the checksum
  have hlen : (UInt16.ofNat (payload.length + 8)).toNat = payload.length + 8 := by
    rw [UInt16.toNat_ofNat', Nat.mod_eq_of_lt (by omega)]
  have hbinding : (h.numbered (h.router.ident + 1)).binding? s = some b := hk.binding
  obtain ⟨r, hr, hrl⟩ := finish_routed hbinding (t := ⟨q, { outgoing (h.sourceFrom b .ethernet) b task dst port with
    srcLink := some h.endpoint.addr, dstLink := some hardware }⟩) hql hlen [(.ethernet, .ipv4), (.device, .ethernet)]
  -- the padding and the check sequence
  have hchecked : ((h.numbered (h.router.ident + 1)).counted s).endpoint.checked = h.endpoint.checked := by
    simp [counted, numbered]
  have hdevice : ((h.numbered (h.router.ident + 1)).counted s).device = h.device := by
    simp [counted, numbered]
  obtain ⟨f, u, hu, hcounts⟩ := finish_framed ((h.numbered (h.router.ident + 1)).counted s) (t := ⟨r, _⟩) hrl hroom
    (show frame = _ by
      rw [hframe, hchecked]
      unfold wire framed datagram Udp.Header.segment
      simp only [List.append_assoc]
      rfl) .ipv4
  rw [hdevice] at hu hcounts
  refine ⟨f, u, ?_, hcounts⟩
  unfold transmit
  rw [hd]
  exact hr.trans hu

/-! ## Sending -/

/-- The resolver has no message to send. -/
def Idle (h : Host δ) : Prop := h.resolver.outgoing.1 = none

theorem sendMessages_of_idle {h : Host δ} (hi : h.Idle) : ∀ k, h.sendMessages k = some h
  | 0 => rfl
  | k + 1 => by
    have hi : h.resolver.outgoing.1 = none := hi
    unfold sendMessages
    cases hx : h.resolver.outgoing with
    | mk next resolver =>
      rw [hx] at hi
      dsimp only at hi
      rw [hi]

theorem flush_of_idle {h : Host δ} (hi : h.Idle) : h.flush = some h.deliver := by
  unfold flush
  dsimp only
  rw [sendMessages_of_idle hi]
  rfl

/-- The answer to a send of `len` bytes. -/
def answer (len : Nat) : Except Fault Unit → Poll Nat
  | .ok () => .ready (.ok len)
  | .error .wouldBlock => .pending
  | .error f => .ready (.error f)

omit [Nic δ] in
theorem answer_error (len : Nat) (f : Fault) (n : Nat) : answer len (.error f) ≠ .ready (.ok n) := by
  cases f <;> nofun

theorem length_of_le_mtu {h : Host δ} {len : Nat} (hle : len ≤ h.mtu) : len ≤ 512 :=
  hle.trans (Nat.min_le_right ..)

/-- Bytes that fit the buffer for packets to send stand there behind the room for headers. -/
theorem packet_layout {buffer : Octets} (hb : buffer.length = Limits.frameBuffer) {payload : Octets}
    (hsize : payload.length ≤ 512) : ∃ p front back,
      (Packet.create buffer Limits.headerRoom).bind (fun p => p.push payload) = .ok p ∧
      p.Layout front [] payload back ∧ 42 ≤ front.length ∧ 64 ≤ back.length ∧
      p.bytes.length = Limits.frameBuffer := by
  have hfb : Limits.frameBuffer = 1546 := rfl
  obtain ⟨p, hp, hpl⟩ := Packet.create_layout (buffer.take 42) (buffer.drop 42)
  rw [List.take_append_drop] at hp
  have hfront : (buffer.take 42).length = 42 := by rw [List.length_take]; omega
  obtain ⟨q, hq, hql⟩ := hpl.push payload (by rw [List.length_drop]; omega)
  rw [List.nil_append] at hql
  have hback : ((buffer.drop 42).drop payload.length).length = 1504 - payload.length := by
    rw [List.length_drop, List.length_drop]; omega
  refine ⟨q, _, _, ?_, hql, hfront.ge, by omega, ?_⟩
  · rw [show Limits.headerRoom = (buffer.take 42).length from hfront.symm, hp]
    exact hq
  · rw [hql.bytes]
    simp only [List.length_append, List.length_nil]
    omega

/-- A payload that is not too large goes through the layers as a packet, and everything is flushed. -/
theorem send_eq {h : Host δ} (htx : h.txBuffer.length = Limits.frameBuffer) {s : Handle} {socket : Udp.Socket}
    (hs : h.sockets.get? s = some socket) {payload : Octets} (hle : payload.length ≤ h.mtu) (task : Task)
    (dst : Ipv4.Address) (port : UInt16) :
    ∃ p front back, p.Layout front [] payload back ∧ 42 ≤ front.length ∧ 64 ≤ back.length ∧
      p.bytes.length = Limits.frameBuffer ∧ ∀ {result : Except Fault Unit} {g : Host δ} {t : Transit},
        h.transmit ⟨p, { dstAddr := dst, dstPort := port, task := some task }⟩ (.socket s) .user =
          some (result, g, t) →
        h.send s task dst port payload =
          (flush { g with txBuffer := t.packet.bytes }).map fun g => (answer payload.length result, g) := by
  obtain ⟨p, front, back, hp, hl, hfront, hback, hbytes⟩ := packet_layout htx (length_of_le_mtu hle)
  refine ⟨p, front, back, hl, hfront, hback, hbytes, fun {result g t} hx => ?_⟩
  unfold send
  rw [if_neg (by omega), if_neg (by rw [hs]; exact Bool.false_ne_true), hp]
  dsimp only
  rw [hx]
  dsimp only
  congr 1
  funext g
  rcases result with f | ⟨⟩
  · cases f <;> rfl
  · rfl

/-- A packet that leaves the resolver alone is all that a send of an idle host is about. -/
theorem send_idle {h : Host δ} (hi : h.Idle) (htx : h.txBuffer.length = Limits.frameBuffer) {s : Handle}
    {socket : Udp.Socket} (hs : h.sockets.get? s = some socket) {payload : Octets} (hle : payload.length ≤ h.mtu)
    (task : Task) (dst : Ipv4.Address) (port : UInt16) :
    ∃ p front back, p.Layout front [] payload back ∧ 42 ≤ front.length ∧ 64 ≤ back.length ∧
      ∀ {g : Host δ} {t : Transit},
        h.transmit ⟨p, { dstAddr := dst, dstPort := port, task := some task }⟩ (.socket s) .user =
          some (.ok (), g, t) → g.resolver = h.resolver →
        h.send s task dst port payload =
          some (.ready (.ok payload.length), deliver { g with txBuffer := t.packet.bytes }) := by
  obtain ⟨p, front, back, hl, hfront, hback, -, hsend⟩ := send_eq htx hs hle task dst port
  refine ⟨p, front, back, hl, hfront, hback, fun {g t} hx hr => ?_⟩
  have hidle : Idle { g with txBuffer := t.packet.bytes } := by
    show g.resolver.outgoing.1 = none
    rw [hr]
    exact hi
  rw [hsend hx, flush_of_idle hidle]
  rfl

theorem send_of_transmit {h : Host δ} (hi : h.Idle) (htx : h.txBuffer.length = Limits.frameBuffer) {s : Handle}
    {socket : Udp.Socket} (hs : h.sockets.get? s = some socket) {task : Task} {dst : Ipv4.Address} {port : UInt16}
    {payload : Octets} (hle : payload.length ≤ h.mtu) {d : δ}
    (ht : ∀ {p : Packet} {front back : Octets}, p.Layout front [] payload back → 42 ≤ front.length →
      64 ≤ back.length → ∃ g t, h.transmit ⟨p, { dstAddr := dst, dstPort := port, task := some task }⟩ (.socket s)
        .user = some (.ok (), g, t) ∧ g.resolver = h.resolver ∧ g.device = d) :
    ∃ h', h.send s task dst port payload = some (.ready (.ok payload.length), h') ∧ h'.device = d := by
  obtain ⟨p, front, back, hl, hfront, hback, hsend⟩ := send_idle hi htx hs hle task dst port
  obtain ⟨g, t, hx, hr, hd⟩ := ht hl hfront hback
  exact ⟨_, hsend hx hr, hd⟩

/-- What may be sent fits the device with all headers, and a socket without being cut. -/
theorem length_of_mtu {h : Host δ} {payload : Octets} (hsize : payload.length ≤ h.mtu)
    (hmtu : 28 ≤ (Nic.personality h.device).mtu) :
    payload.length + 28 ≤ (Nic.personality h.device).mtu ∧ payload.length ≤ 512 := by
  have hm : h.mtu = min (min (Nic.personality h.device).mtu 1500 - 28) 512 := rfl
  omega

/-- A send that need not wait hands exactly one frame to the device. -/
theorem send_datagram {manual : Bool} {h : Host δ} (ha : h.setup.Assembled manual) (hg : h.setup.Agree)
    (hu : h.config.addr.isUnicast = true) (hi : h.Idle) (htx : h.txBuffer.length = Limits.frameBuffer)
    {s : Handle} {task : Task} {dst : Ipv4.Address} {b : Udp.Binding} {hardware : Ethernet.Address}
    (hk : h.Knows s task dst b hardware) (port : UInt16) {payload : Octets} (hsize : payload.length ≤ h.mtu)
    (hmtu : 28 ≤ (Nic.personality h.device).mtu)
    (hok : (Nic.transmit h.device (h.wire hardware (h.sourceOf b) b dst port payload)).1 = .ok ()) :
    ∃ h', h.send s task dst port payload = some (.ready (.ok payload.length), h') ∧
      h'.device = (Nic.transmit h.device (h.wire hardware (h.sourceOf b) b dst port payload)).2 := by
  obtain ⟨socket, hs, -⟩ := Option.bind_eq_some_iff.1 hk.binding
  obtain ⟨hle, hsmall⟩ := length_of_mtu hsize hmtu
  apply send_of_transmit hi htx hs hsize
  intro p front back hl hfront hback
  obtain ⟨f, t, hx, -⟩ := transmit_datagram ha hg hk port hl hfront hback hle hsmall
    (by rw [sourceFrom_ethernet ha hu])
  rw [hok] at hx
  exact ⟨_, t, hx, by simp [numbered], by simp [numbered]⟩

end UdpStack.Host
