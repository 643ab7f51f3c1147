/-
Datagrams that a host sends to itself. Where a route leads through the loopback the way down ends
there, and the internet layer receives the completed packet at once (`transmit_turning`). Neither the
device nor the resolver takes part in this (`transmit_looped`), so such a send succeeds, and no frame
leaves (`send_looped`).
-/
import UdpStack.Proofs.Host.Acceptance
import UdpStack.Proofs.Host.Transmission

namespace UdpStack.Host

open Bounded Device Octets

variable {δ : Type}

/-- From the internet layer on a packet reaches a socket at most. -/
theorem receive_internet {manual : Bool} {h : Host δ} (ha : h.setup.Assembled manual) (hg : h.setup.Agree)
    {t : Transit} {b : Octets} (hu : t.packet.unread? = some b) (depth : Nat) (caller : Layer) :
    ∃ res h' t', h.receive t (depth + 3) .ipv4 caller = some (res, h', t') ∧ h'.device = h.device ∧
      h'.resolver = h.resolver ∧ h'.notified = h.notified ∧ h'.deviceCounters = h.deviceCounters := by
  rcases receive_ipv4 hu (depth + 2) caller (h := h) with ⟨upper, p, ht, hpu, -, hr⟩ | ⟨-, res, f, t', hr⟩
  · obtain ⟨-, rfl⟩ := (protocols_get?_iff ha _ upper).1 ht.content
    rw [hr]
    rcases receive_udp (h := h.count .ipv4 .countRx) (t := ⟨p, { t.info with
      srcAddr := .stored b 12, dstAddr := .stored b 16 }⟩) hpu (depth + 1) .ipv4 with
      ⟨upper, q, hq, -, -, hr⟩ | ⟨-, res, f, t', hr⟩
    · obtain ⟨s, c, rfl, hc, -⟩ := (hg.agree _ upper).1 hq.port
      obtain ⟨socket, hs, -⟩ := Option.map_eq_some_iff.1 hc
      rw [hr]
      obtain ⟨res, f, t', hr⟩ := receive_socket
        (h := (h.count .ipv4 .countRx).count .udp .countRx) hs (t := ⟨q, _⟩) depth .udp
      exact ⟨res, _, t', hr, device_count .., resolver_count .., notified_count .., deviceCounters_count_socket ..⟩
    · exact ⟨res, _, t', hr, rfl, rfl, rfl, rfl⟩
  · exact ⟨res, _, t', hr, rfl, rfl, rfl, rfl⟩

/-- An internet datagram in a frame counts at the device, and is for a socket at most. -/
theorem receiveFrame_internet {manual : Bool} {h g : Host δ} (ha : h.setup.Assembled manual) (hg : h.setup.Agree)
    {frame : Octets} (ht : h.endpoint.Takes frame .ipv4) (e : h.receiveFrame frame = some g) :
    g.resolver = h.resolver ∧ g.notified = h.notified ∧ g.deviceCounters = h.deviceCounters.countRx := by
  rw [receiveFrame_eq] at e
  rcases receive_ethernet (h := h.count .device .countRx) (entering_unread? h frame) 7 .device with
    ⟨upper, p, hu, hpu, -, hr⟩ | ⟨hn, -⟩
  · cases ht.content.symm.trans hu.content
    obtain ⟨res, g', u, hx, -, hresolver, hnotified, hcounters⟩ := receive_internet
      (h := (h.count .device .countRx).count .ethernet .countRx) ha hg (t := ⟨p, _⟩) hpu 4 .ethernet
    rw [show Limits.depth = 7 + 1 from rfl, hr, hx] at e
    cases e
    exact ⟨hresolver, hnotified, hcounters⟩
  · exact absurd ht (hn .ipv4)

variable [Nic δ]

theorem descend_loopback (h : Host δ) (t : Transit) (depth : Nat) (caller : Layer) :
    h.descend t (depth + 1) .loopback caller = some (.ok [(.loopback, caller)], h, t) := rfl

/-- The loopback hands a completed packet to the layer above it, whose result does not matter. -/
theorem finish_loopback (h : Host δ) (t : Transit) (caller : Layer) :
    h.finish t [(.loopback, caller)] = ((h.count .loopback .countTx).receive
      ⟨t.packet.resetReadHeaders, { t.info with skipChecksum := true }⟩ Limits.depth caller .loopback).map
        fun x => (.ok (), x.2) := rfl

/-- The host as it receives a datagram of one of its sockets. -/
def turning (h : Host δ) (s : Handle) : Host δ :=
  ((h.numbered (h.router.ident + 1)).counted s).count .loopback .countTx

omit [Nic δ] in
@[simp] theorem setup_turning (h : Host δ) (s : Handle) : (h.turning s).setup = h.setup := by
  rw [turning, counted, setup_count, setup_count, setup_count, setup_count]
  rfl

omit [Nic δ] in
@[simp] theorem device_turning (h : Host δ) (s : Handle) : (h.turning s).device = h.device := by
  simp [turning, counted, numbered]

omit [Nic δ] in
@[simp] theorem deviceCounters_turning (h : Host δ) (s : Handle) : (h.turning s).deviceCounters = h.deviceCounters :=
  deviceCounters_count_socket (h.numbered (h.router.ident + 1)) s _

omit [Nic δ] in
@[simp] theorem resolver_turning (h : Host δ) (s : Handle) : (h.turning s).resolver = h.resolver := by
  simp [turning, counted, numbered]

/-- A datagram to this host is received by its internet layer, completed and without checksums. -/
theorem transmit_turning {manual : Bool} {h : Host δ} (ha : h.setup.Assembled manual) (hg : h.setup.Agree)
    {s : Handle} {b : Udp.Binding} (hb : h.binding? s = some b) {dst : Ipv4.Address} {route : Ipv4.Route}
    (hroute : h.router.routes.lookup dst = some route) (hlayer : route.layer = .loopback) (task : Task)
    (port : UInt16) {p : Packet} {front payload back : Octets} (hl : p.Layout front [] payload back)
    (hfront : 28 ≤ front.length) (hsize : payload.length ≤ 512) :
    ∃ t, t.packet.unread? = some (h.datagram (h.sourceFrom b .loopback) b dst port payload) ∧
      t.info.skipChecksum = true ∧
      h.transmit ⟨p, { dstAddr := dst, dstPort := port, task := some task }⟩ (.socket s) .user =
        ((h.turning s).receive t Limits.depth .ipv4 .loopback).map fun x => (.ok (), x.2) := by
  obtain ⟨q, hql, hdescend⟩ := descend_routed ha hg hb hroute task port hl hfront hsize
  rw [hlayer] at hql hdescend
  have hd := hdescend 5
  rw [descend_loopback _ _ 4, Option.map_some] at hd
  -- above the loopback the datagram is completed
  have hlen : (UInt16.ofNat (payload.length + 8)).toNat = payload.length + 8 := by
    rw [UInt16.toNat_ofNat', Nat.mod_eq_of_lt (by omega)]
  have hbinding : (h.numbered (h.router.ident + 1)).binding? s = some b := hb
  obtain ⟨r, hf, hrl⟩ := finish_routed hbinding
    (t := ⟨q, outgoing (h.sourceFrom b .loopback) b task dst port⟩) hql hlen [(.loopback, .ipv4)]
  refine ⟨⟨r.resetReadHeaders, { outgoing (h.sourceFrom b .loopback) b task dst port with skipChecksum := true }⟩,
    ?_, rfl, ?_⟩
  · show r.frame? = _
    rw [hrl.frame?, List.append_assoc]
    rfl
  · unfold transmit
    rw [show Limits.depth = 5 + 3 from rfl, hd]
    exact hf.trans (finish_loopback ..)

/-- A datagram to this host is turned around. -/
theorem transmit_looped {manual : Bool} {h : Host δ} (ha : h.setup.Assembled manual) (hg : h.setup.Agree)
    {s : Handle} {b : Udp.Binding} (hb : h.binding? s = some b) {dst : Ipv4.Address} {route : Ipv4.Route}
    (hroute : h.router.routes.lookup dst = some route) (hlayer : route.layer = .loopback) (task : Task)
    (port : UInt16) {p : Packet} {front payload back : Octets} (hl : p.Layout front [] payload back)
    (hfront : 28 ≤ front.length) (hsize : payload.length ≤ 512) :
    ∃ g t, h.transmit ⟨p, { dstAddr := dst, dstPort := port, task := some task }⟩ (.socket s) .user =
        some (.ok (), g, t) ∧ g.resolver = h.resolver ∧ g.device = h.device := by
  obtain ⟨t, hu, -, hx⟩ := transmit_turning ha hg hb hroute hlayer task port hl hfront hsize
  obtain ⟨res, g, u, hr, hdevice, hresolver, -⟩ := receive_internet (h := h.turning s)
    (by rw [setup_turning]; exact ha) (by rw [setup_turning]; exact hg) hu 5 .loopback
  rw [show Limits.depth = 5 + 3 from rfl, hr] at hx
  exact ⟨g, u, hx, by rw [hresolver, resolver_turning], by rw [hdevice, device_turning]⟩

/-- A send to this host succeeds and leaves the device alone. -/
theorem send_looped {manual : Bool} {h : Host δ} (ha : h.setup.Assembled manual) (hg : h.setup.Agree)
    (hi : h.Idle) (htx : h.txBuffer.length = Limits.frameBuffer) {s : Handle} {b : Udp.Binding}
    (hb : h.binding? s = some b) {dst : Ipv4.Address} {route : Ipv4.Route}
    (hroute : h.router.routes.lookup dst = some route) (hlayer : route.layer = .loopback) (task : Task)
    (port : UInt16) {payload : Octets} (hsize : payload.length ≤ h.mtu) :
    ∃ h', h.send s task dst port payload = some (.ready (.ok payload.length), h') ∧ h'.device = h.device := by
  obtain ⟨socket, hs, -⟩ := Option.bind_eq_some_iff.1 hb
  apply send_of_transmit hi htx hs hsize
  intro p front back hl hfront _
  exact transmit_looped ha hg hb hroute hlayer task port hl (by omega) (length_of_le_mtu hsize)

end UdpStack.Host
