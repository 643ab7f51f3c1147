/-
Where datagrams go. A socket without a binding and a destination without a route send nothing, nor does
a route to a layer that is no way out; a known neighbor, the device itself and the loopback are the ways
that are left (`heads`, `passage`). A packet that fails on its way down leaves no trace in the device or the queues
(`transmit_of_fails`). One of these is what becomes of every datagram, so every call answers (`perform_total`).
-/
import UdpStack.Proofs.Arp.Failures
import UdpStack.Proofs.Host.Turnaround

namespace UdpStack.Host

open Bounded Device Octets

variable {δ : Type} [Nic δ]

/-! ## Ways down that fail -/

/-- A packet does not get to the end of any way down. -/
def Fails (h : Host δ) (t : Transit) (depth : Nat) (layer caller : Layer) : Prop :=
  ∃ f g u, h.descend t depth layer caller = some (.error f, g, u)

section fails

variable {h g : Host δ} {layer caller lower middle : Layer} {t u : Transit} {depth k : Nat}

theorem fails_of_error {f : Fault} (e : h.transmitAt layer caller t = some (.error f, g, u)) (depth : Nat) :
    h.Fails t (depth + 1) layer caller := by
  unfold Fails descend
  rw [e]
  cases f <;> exact ⟨_, _, _, rfl⟩

/-- A packet is refused on its way down, and not for its size. -/
def Barred (h : Host δ) (t : Transit) (depth : Nat) (layer caller : Layer) : Prop :=
  ∃ f g u, f ≠ Fault.badSize ∧ h.descend t depth layer caller = some (.error f, g, u)

theorem Barred.fails (hb : h.Barred t depth layer caller) : h.Fails t depth layer caller := by
  obtain ⟨f, g, u, -, hd⟩ := hb
  exact ⟨f, g, u, hd⟩

theorem barred_of_error {f : Fault} (hf : f ≠ .badSize)
    (e : h.transmitAt layer caller t = some (.error f, g, u)) (depth : Nat) :
    h.Barred t (depth + 1) layer caller := by
  unfold Barred descend
  rw [e]
  cases f <;> exact ⟨_, _, _, hf, rfl⟩

/-- What is refused further down is refused. -/
theorem Barred.along (hb : g.Barred u k lower middle) {front : List (Layer × Layer)}
    (e : h.descend t depth layer caller = (g.descend u k lower middle).map (Host.along front)) :
    h.Barred t depth layer caller := by
  obtain ⟨f, g', u', hf, hd⟩ := hb
  exact ⟨f, g', u', hf, by rw [e, hd]; rfl⟩

/-- Nothing is sent by a socket that does not exist or is not bound. -/
theorem barred_unbound {s : Handle} (hb : h.binding? s = none) (t : Transit) (caller : Layer) (depth : Nat) :
    h.Barred t (depth + 1) (.socket s) caller := by
  cases hs : h.sockets.get? s with
  | none =>
    refine barred_of_error (f := .unreachable) (g := h) (u := t) (by decide) ?_ _
    unfold transmitAt
    dsimp only
    rw [hs]
  | some socket =>
    have hsb : socket.binding = none := by
      unfold binding? at hb
      rw [hs] at hb
      exact hb
    refine barred_of_error (f := .illegal) (g := h) (u := t) (by decide) ?_ _
    unfold transmitAt Udp.Socket.transmitPass
    dsimp only
    rw [hs]
    dsimp only
    rw [hsb]

omit [Nic δ] in
theorem resolve_ne_badSize (r : Arp.Resolver) (info : Info) (now : Instant) :
    (Ethernet.Endpoint.resolve r info now).1 ≠ .error .badSize := by
  unfold Ethernet.Endpoint.resolve
  split
  · nofun
  · cases r with
    | derived => nofun
    | table table => exact table.lookup_ne_badSize _ _ _

/-- Nothing is framed without a hardware address. -/
theorem barred_unresolved {fault : Fault} (hw : (Ethernet.Endpoint.resolve h.resolver t.info h.now).1 = .error fault)
    (caller : Layer) (depth : Nat) : h.Barred t (depth + 1) .ethernet caller := by
  obtain ⟨f, hne, hf⟩ : ∃ f, f ≠ Fault.badSize ∧ (h.endpoint.transmitPass h.resolver h.now t caller).1 = .error f := by
    unfold Ethernet.Endpoint.transmitPass
    split
    · exact ⟨.unreachable, by decide, rfl⟩
    · split
      · rename_i f _ hx
        refine ⟨f, ?_, rfl⟩
        rintro rfl
        exact resolve_ne_badSize h.resolver t.info h.now (by rw [hx])
      · rename_i hx
        rw [hx] at hw
        cases hw
  have e := transmitAt_ethernet h caller t
  rw [hf] at e
  exact barred_of_error hne e depth

/-- Nothing goes where no route leads. -/
theorem barred_unrouted (hroute : h.router.routes.lookup t.info.dstAddr = none) (caller : Layer) (depth : Nat) :
    h.Barred t (depth + 1) .ipv4 caller := by
  have hf : (h.router.transmitPass t caller).1 = .error .unreachable := by
    unfold Ipv4.Router.transmitPass
    split
    · rfl
    · rw [hroute]
  have e := transmitAt_ipv4 h caller t
  rw [hf] at e
  exact barred_of_error (by decide) e depth

/-- A packet that fails leaves the device and every queue alone. -/
theorem transmit_of_fails (hf : h.Fails t Limits.depth layer caller) : ∃ f g u,
    h.transmit t layer caller = some (.error f, g, u) ∧ g.device = h.device ∧ ∀ x, g.queue? x = h.queue? x := by
  obtain ⟨f, g, u, hd⟩ := hf
  have hs : StableDown fun g : Host δ => g.device = h.device ∧ ∀ x, g.queue? x = h.queue? x :=
    { count := fun layer f hg => ⟨by rw [device_count]; exact hg.1, fun x => by rw [queue?_count]; exact hg.2 x⟩
      numbered := fun _ hg => hg }
  refine ⟨f, g, u, ?_, hs.descend _ (.inr fun _ _ hg => hg) ⟨rfl, fun _ => rfl⟩ hd⟩
  unfold transmit
  rw [hd]

end fails

/-! ## Where routes lead -/

/-- Of the layers that a route may lead to, only the device, Ethernet and the loopback take a datagram. -/
theorem barred_below {manual : Bool} {h : Host δ} (ha : h.setup.Assembled manual) {t : Transit}
    {front headers payload back : Octets} (hl : t.packet.Layout front headers payload back)
    (hheaders : 0 < headers.length) {layer : Layer} (hdevice : layer ≠ .device) (hethernet : layer ≠ .ethernet)
    (hloopback : layer ≠ .loopback) (depth : Nat) : h.Barred t (depth + 2) layer .ipv4 := by
  -- the ports refuse what already has a header
  have hports : ∀ (u : Transit) (caller : Layer), u.packet = t.packet →
      h.transmitAt .udp caller u = some (.error .illegal, h, u) := by
    intro u caller hu
    have hlen : u.packet.headerLen ≠ 0 := by
      unfold Packet.headerLen
      rw [hu, hl.boundary, hl.header]
      omega
    unfold transmitAt Udp.Ports.transmitPass
    dsimp only
    rw [if_pos (bne_iff_ne.2 hlen)]
  cases layer with
  | device => exact absurd rfl hdevice
  | ethernet => exact absurd rfl hethernet
  | loopback => exact absurd rfl hloopback
  | resolver => exact barred_of_error (f := .illegal) (by decide) rfl _
  | user => exact barred_of_error (f := .illegal) (by decide) rfl _
  | udp => exact barred_of_error (by decide) (hports t .ipv4 rfl) _
  | ipv4 =>
    have hk : h.router.protocols.keyOf? .ipv4 = none := by
      cases hk : h.router.protocols.keyOf? .ipv4 with
      | none => rfl
      | some p =>
        have hm := Map.mem_of_keyOf? hk
        rw [show h.router.protocols.toList = [(.udp, .udp)] from ha.protocol] at hm
        cases (Prod.mk.inj (List.mem_singleton.1 hm)).2
    refine barred_of_error (f := .unreachable) (g := h) (u := t) (by decide) ?_ _
    rw [transmitAt_ipv4]
    unfold Ipv4.Router.transmitPass
    rw [hk]
  | socket s =>
    cases hb : h.binding? s with
    | some b =>
      have e := hports { t with info := { t.info with
        srcAddr := if b.addr.isUnspecified then t.info.srcAddr else b.addr } } (.socket s) rfl
      exact (barred_of_error (by decide) e depth).along (descend_of_layer (transmitAt_socket hb t .ipv4) (depth + 1))
    | none => exact barred_unbound hb t .ipv4 _

/-! ## Frames that are handed over -/

/-- A frame of a datagram: the datagram itself where a route leads to the device, and behind the header
for a neighbor where it leads to Ethernet. -/
inductive Carries (h : Host δ) (b : Udp.Binding) (task : Task) (dst : Ipv4.Address) (port : UInt16)
    (payload : Octets) : Layer → Octets → Prop where
  | bare : Carries h b task dst port payload .device (h.datagram (h.sourceFrom b .device) b dst port payload)
  | framed {hardware : Ethernet.Address} : (h.resolver.lookup dst (some task) h.now).1 = .ok hardware →
      Carries h b task dst port payload .ethernet
        (h.wire hardware (h.sourceFrom b .ethernet) b dst port payload)

omit [Nic δ] in
@[simp] theorem queue?_counted (h : Host δ) (s x : Handle) : (h.counted s).queue? x = h.queue? x := by
  simp [counted]

@[simp] theorem queue?_handedOver (h : Host δ) (s : Handle) (frame : Octets) (f : Counters → Counters) (x : Handle) :
    (h.handedOver s frame f).queue? x = h.queue? x := by
  unfold handedOver
  rw [queue?_count]
  show ((h.counted s).count .ethernet .countTx).queue? x = _
  rw [queue?_count, queue?_counted]

section routes

variable {manual : Bool} {h : Host δ} {s : Handle} {b : Udp.Binding} {dst : Ipv4.Address} {route : Ipv4.Route}
  {p : Packet} {front payload back : Octets}

/-- Where a route leads to the device, the device looks at the datagram as if a frame had a header. -/
theorem descend_bare (ha : h.setup.Assembled manual) (hg : h.setup.Agree) (hb : h.binding? s = some b)
    (hroute : h.router.routes.lookup dst = some route) (hlayer : route.layer = .device) (task : Task)
    (port : UInt16) (hl : p.Layout front [] payload back) (hfront : 28 ≤ front.length)
    (hsize : payload.length ≤ 512) :
    ∃ q front', q.Layout front' (Ipv4.Router.sealedHeader (UInt16.ofNat (8 + payload.length + 20)) h.router.ident .udp
        (h.sourceFrom b .device) dst ++
        Udp.Header.octets b.port port (UInt16.ofNat (payload.length + 8)) 0) payload back ∧
      h.descend ⟨p, { dstAddr := dst, dstPort := port, task := some task }⟩ Limits.depth (.socket s) .user =
        let g := h.numbered (h.router.ident + 1)
        let u : Transit := ⟨q, outgoing (h.sourceFrom b .device) b task dst port⟩
        some (if (Nic.personality h.device).mtu < payload.length + 14 then
          (.error .badSize, g.count .device .countDropped, u) else (.ok (above s ++ [(.device, .ipv4)]), g, u)) := by
  obtain ⟨q, hql, hdescend⟩ := descend_routed ha hg hb hroute task port hl hfront hsize
  rw [hlayer] at hql hdescend
  have hlen : (Ipv4.Router.sealedHeader (UInt16.ofNat (8 + payload.length + 20)) h.router.ident .udp
      (h.sourceFrom b .device) dst ++ Udp.Header.octets b.port port (UInt16.ofNat (payload.length + 8)) 0).length +
      payload.length - 14 = payload.length + 14 := by
    rw [List.length_append, Ipv4.Router.length_sealedHeader, Udp.Header.length_octets]; omega
  refine ⟨q, _, hql, ?_⟩
  rw [show Limits.depth = 5 + 3 from rfl, hdescend, descend_device _ hql 4, hlen, Option.map_some,
    apply_ite (along (above s))]
  rfl

/-- The datagram itself is completed and handed to the device. -/
theorem transmit_bare (ha : h.setup.Assembled manual) (hg : h.setup.Agree) (hb : h.binding? s = some b)
    (hroute : h.router.routes.lookup dst = some route) (hlayer : route.layer = .device) (task : Task)
    (port : UInt16) (hl : p.Layout front [] payload back) (hfront : 28 ≤ front.length)
    (hmtu : payload.length + 14 ≤ (Nic.personality h.device).mtu) (hsize : payload.length ≤ 512) {frame : Octets}
    (hframe : frame = h.datagram (h.sourceFrom b .device) b dst port payload) :
    ∃ f t, h.transmit ⟨p, { dstAddr := dst, dstPort := port, task := some task }⟩ (.socket s) .user =
      some ((Nic.transmit h.device frame).1,
        (((h.numbered (h.router.ident + 1)).counted s).sent frame).count .device f, t) := by
  obtain ⟨q, front', hql, hd⟩ := descend_bare ha hg hb hroute hlayer task port hl hfront hsize
  dsimp only at hd
  rw [if_neg (by omega)] at hd
  -- the checksum
  have hlen : (UInt16.ofNat (payload.length + 8)).toNat = payload.length + 8 := by
    rw [UInt16.toNat_ofNat', Nat.mod_eq_of_lt (by omega)]
  have hbinding : (h.numbered (h.router.ident + 1)).binding? s = some b := hb
  obtain ⟨r, hf, hrl⟩ := finish_routed hbinding
    (t := ⟨q, outgoing (h.sourceFrom b .device) b task dst port⟩) hql hlen [(.device, .ipv4)]
  have hwhole : r.frame? = some frame := by
    rw [hrl.frame?, List.append_assoc, hframe]
    rfl
  obtain ⟨f, hsent, -⟩ := finish_sent ((h.numbered (h.router.ident + 1)).counted s)
    (t := ⟨r, outgoing (h.sourceFrom b .device) b task dst port⟩) hwhole .ipv4
  have hdevice : ((h.numbered (h.router.ident + 1)).counted s).device = h.device := by simp [counted, numbered]
  rw [hdevice] at hsent
  refine ⟨f, ⟨r, outgoing (h.sourceFrom b .device) b task dst port⟩, ?_⟩
  unfold transmit
  rw [hd]
  exact hf.trans hsent

/-- A frame of a datagram is handed to the device, unless it is too large for it. -/
theorem transmit_carried (hs : h.Steady manual) (hb : h.binding? s = some b)
    (hroute : h.router.routes.lookup dst = some route) {task : Task} {port : UInt16} {frame : Octets}
    (hc : h.Carries b task dst port payload route.layer frame) (hl : p.Layout front [] payload back)
    (hfront : 42 ≤ front.length) (hback : 64 ≤ back.length) (hsize : payload.length ≤ 512) :
    (h.Fails ⟨p, { dstAddr := dst, dstPort := port, task := some task }⟩ Limits.depth (.socket s) .user ∧
      (Nic.personality h.device).mtu < payload.length + 28) ∨
    ∃ g t, h.transmit ⟨p, { dstAddr := dst, dstPort := port, task := some task }⟩ (.socket s) .user =
        some ((Nic.transmit h.device frame).1, g, t) ∧
      g.device = (Nic.transmit h.device frame).2 ∧ ∀ x, g.queue? x = h.queue? x := by
  have ha := hs.assembled
  have hg := hs.agree
  obtain ⟨net, mask, layer⟩ := route
  cases hc with
  | bare =>
    by_cases hmtu : (Nic.personality h.device).mtu < payload.length + 14
    · obtain ⟨q, front', -, hd⟩ := descend_bare ha hg hb hroute rfl task port hl (by omega) hsize
      dsimp only at hd
      rw [if_pos hmtu] at hd
      exact .inl ⟨⟨_, _, _, hd⟩, by omega⟩
    · obtain ⟨f, t, hx⟩ := transmit_bare ha hg hb hroute rfl task port hl (by omega) (by omega) hsize rfl
      refine .inr ⟨_, t, hx, by simp [sent, numbered, counted], fun x => ?_⟩
      rw [queue?_count]
      exact queue?_counted (h.numbered (h.router.ident + 1)) s x
  | @framed hardware hw =>
    have hk : h.Knows s task dst b hardware := ⟨hb, ⟨_, hroute, rfl⟩, hw⟩
    by_cases hmtu : (Nic.personality h.device).mtu < payload.length + 28
    · obtain ⟨q, front', -, hd⟩ := descend_datagram ha hg hk port hl hfront hsize
      dsimp only at hd
      rw [if_pos hmtu] at hd
      exact .inl ⟨⟨_, _, _, hd⟩, hmtu⟩
    · obtain ⟨f, t, hx, -⟩ := transmit_datagram ha hg hk port hl hfront hback (by omega) hsize rfl
      exact .inr ⟨_, t, hx, by simp [numbered], queue?_handedOver (h.numbered (h.router.ident + 1)) s _ f⟩

/-- Where a route leads to any other layer, nothing is sent. -/
theorem barred_elsewhere (ha : h.setup.Assembled manual) (hg : h.setup.Agree) (hb : h.binding? s = some b)
    (hroute : h.router.routes.lookup dst = some route) (hdevice : route.layer ≠ .device)
    (hethernet : route.layer ≠ .ethernet) (hloopback : route.layer ≠ .loopback) (task : Task) (port : UInt16)
    (hl : p.Layout front [] payload back) (hfront : 28 ≤ front.length) (hsize : payload.length ≤ 512) :
    h.Barred ⟨p, { dstAddr := dst, dstPort := port, task := some task }⟩ Limits.depth (.socket s) .user := by
  obtain ⟨q, hql, hdescend⟩ := descend_routed ha hg hb hroute task port hl hfront hsize
  have hf := barred_below (h := h.numbered (h.router.ident + 1))
    (t := ⟨q, outgoing (h.sourceFrom b route.layer) b task dst port⟩) ha hql
    (by rw [List.length_append, Ipv4.Router.length_sealedHeader]; omega) hdevice hethernet hloopback 3
  exact hf.along (hdescend 5)

end routes

/-! ## Ways out -/

/-- Where a packet with a datagram of a socket is bound for: nowhere, and not for its size, or for the device
in a frame, or back to the host. -/
inductive Heads (h : Host δ) (s : Handle) (task : Task) (dst : Ipv4.Address) (port : UInt16) (payload : Octets)
    (t : Transit) : Prop where
  | barred : h.Barred t Limits.depth (.socket s) .user → Heads h s task dst port payload t
  | away {b : Udp.Binding} {route : Ipv4.Route} {frame : Octets} : h.binding? s = some b →
      h.router.routes.lookup dst = some route → h.Carries b task dst port payload route.layer frame →
      Heads h s task dst port payload t
  | home {b : Udp.Binding} {route : Ipv4.Route} : h.binding? s = some b →
      h.router.routes.lookup dst = some route → route.layer = .loopback → Heads h s task dst port payload t

theorem heads {manual : Bool} {h : Host δ} (hs : h.Steady manual) {p : Packet} {front payload back : Octets}
    (hl : p.Layout front [] payload back) (hfront : 28 ≤ front.length) (hsize : payload.length ≤ 512) (s : Handle)
    (task : Task) (dst : Ipv4.Address) (port : UInt16) :
    h.Heads s task dst port payload ⟨p, { dstAddr := dst, dstPort := port, task := some task }⟩ := by
  have ha := hs.assembled
  have hg := hs.agree
  cases hb : h.binding? s with
  | none => exact .barred (barred_unbound hb _ _ _)
  | some b =>
    cases hroute : h.router.routes.lookup dst with
    | none =>
      obtain ⟨q, -, hdescend⟩ := descend_bound ha hg hb task dst port hl (by omega) hsize
      exact .barred ((barred_unrouted (t := ⟨q, outgoing (boundSource b) b task dst port⟩) hroute .udp 5).along
        (hdescend 6))
    | some route =>
      cases hlayer : route.layer with
      | device =>
        have hc : h.Carries b task dst port payload route.layer
            (h.datagram (h.sourceFrom b .device) b dst port payload) := by
          rw [hlayer]
          exact .bare
        exact .away hb hroute hc
      | ethernet =>
        cases hw : (h.resolver.lookup dst (some task) h.now).1 with
        | error fault =>
          obtain ⟨q, -, hdescend⟩ := descend_routed ha hg hb hroute task port hl hfront hsize
          rw [hlayer] at hdescend
          exact .barred ((barred_unresolved (h := h.numbered (h.router.ident + 1))
            (t := ⟨q, outgoing (h.sourceFrom b .ethernet) b task dst port⟩) hw .ipv4 4).along (hdescend 5))
        | ok hardware =>
          have hc : h.Carries b task dst port payload route.layer
              (h.wire hardware (h.sourceFrom b .ethernet) b dst port payload) := by
            rw [hlayer]
            exact .framed hw
          exact .away hb hroute hc
      | loopback => exact .home hb hroute hlayer
      | _ =>
        exact .barred (barred_elsewhere ha hg hb hroute (by simp [hlayer]) (by simp [hlayer]) (by simp [hlayer]) task
          port hl hfront hsize)

/-- How a packet with a datagram of a socket goes on: it fails, it is handed to the device in a frame, or
it is turned around. -/
inductive Passage (h : Host δ) (s : Handle) (task : Task) (dst : Ipv4.Address) (port : UInt16) (payload : Octets)
    (t : Transit) : Prop where
  | fails : h.Fails t Limits.depth (.socket s) .user → Passage h s task dst port payload t
  | away {b : Udp.Binding} {route : Ipv4.Route} {frame : Octets} {g : Host δ} {u : Transit} :
      h.binding? s = some b → h.router.routes.lookup dst = some route →
      h.Carries b task dst port payload route.layer frame →
      h.transmit t (.socket s) .user = some ((Nic.transmit h.device frame).1, g, u) →
      g.device = (Nic.transmit h.device frame).2 → (∀ x, g.queue? x = h.queue? x) →
      Passage h s task dst port payload t
  | home {b : Udp.Binding} {route : Ipv4.Route} {g : Host δ} {u : Transit} :
      h.binding? s = some b → h.router.routes.lookup dst = some route → route.layer = .loopback →
      h.transmit t (.socket s) .user = some (.ok (), g, u) → g.device = h.device →
      Outcome (h.LoopsTo dst port) ⟨h.sourceFrom b .loopback, b.port, payload.length, payload⟩ h g →
      Passage h s task dst port payload t

/-- Every datagram of a socket goes on in one of these ways. -/
theorem passage {manual : Bool} {h : Host δ} (hs : h.Steady manual) {p : Packet} {front payload back : Octets}
    (hl : p.Layout front [] payload back) (hfront : 42 ≤ front.length) (hback : 64 ≤ back.length)
    (hsize : payload.length ≤ 512) (s : Handle) (task : Task) (dst : Ipv4.Address) (port : UInt16) :
    h.Passage s task dst port payload ⟨p, { dstAddr := dst, dstPort := port, task := some task }⟩ := by
  cases heads hs hl (by omega) hsize s task dst port with
  | barred hb => exact .fails hb.fails
  | away hb hroute hc =>
    rcases transmit_carried hs hb hroute hc hl hfront hback hsize with ⟨hf, -⟩ | ⟨g, t, hx, hd, hq⟩
    · exact .fails hf
    · exact .away hb hroute hc hx hd hq
  | home hb hroute hlayer =>
    obtain ⟨g, t, hx, hd, -, -, -, hturned⟩ := transmit_turned hs hb hroute hlayer task port hl (by omega) hsize
    exact .home hb hroute hlayer hx hd hturned.outcome

/-! ## Every call answers -/

/-- No send touches bytes that do not exist. -/
theorem send_total {manual : Bool} {h : Host δ} (hs : h.Steady manual) (s : Handle) (task : Task)
    (dst : Ipv4.Address) (port : UInt16) (payload : Octets) : ∃ x, h.send s task dst port payload = some x := by
  by_cases hle : h.mtu < payload.length
  · exact ⟨(.ready (.error .badSize), h), by unfold send; rw [if_pos hle]⟩
  cases hsocket : h.sockets.get? s with
  | none =>
    refine ⟨(.ready (.error .illegal), h), ?_⟩
    unfold send
    rw [if_neg hle, if_pos (by rw [hsocket]; rfl)]
  | some socket =>
    have hle := Nat.le_of_not_lt hle
    obtain ⟨p, front, back, hl, hfront, hback, -, hsend⟩ := send_eq hs.txBuffer hsocket hle task dst port
    obtain ⟨result, g, t, hx⟩ : ∃ result g t,
        h.transmit ⟨p, { dstAddr := dst, dstPort := port, task := some task }⟩ (.socket s) .user =
          some (result, g, t) := by
      cases passage hs hl hfront hback (length_of_le_mtu hle) s task dst port with
      | fails hf => obtain ⟨f, g, u, hx, -⟩ := transmit_of_fails hf; exact ⟨_, _, _, hx⟩
      | away _ _ _ hx => exact ⟨_, _, _, hx⟩
      | home _ _ _ hx => exact ⟨_, _, _, hx⟩
    obtain ⟨h', hf, -⟩ := flush_total { g with txBuffer := t.packet.bytes }
    exact ⟨_, by rw [hsend hx, hf]; rfl⟩

/-- Every call answers, whatever was done to the device and the resolver before. -/
theorem perform_total {manual : Bool} {h : Host δ} (hs : h.Steady manual) (c : Call δ) :
    ∃ a h', h.perform c = some (a, h') := by
  cases c with
  | send s task dst port payload =>
    obtain ⟨⟨r, h'⟩, hx⟩ := send_total hs s task dst port payload
    exact ⟨_, _, congrArg (Option.map _) hx⟩
  | poll now =>
    obtain ⟨⟨r, h'⟩, hx⟩ := poll_total h now
    exact ⟨_, _, congrArg (Option.map _) hx⟩
  | _ => exact ⟨_, _, rfl⟩

end UdpStack.Host
