/-
What a layer can do to a host and to a packet, said once. Receiving leaves the host alone, lets the
resolver hear a packet or hands one to a socket (`receiveAt_cases`); stacking a header leaves it
alone, numbers a datagram or looks an address up (`transmitAt_cases`); finishing leaves it alone or
sends a frame (`finishAt_cases`). No layer changes the size of the buffer.
-/
import UdpStack.Host.Sockets
import UdpStack.Proofs.Ethernet.Endpoint
import UdpStack.Proofs.Ipv4.Router
import UdpStack.Proofs.Udp.Ports
import UdpStack.Proofs.Udp.Socket

namespace UdpStack.Host

open Device

variable {δ : Type}

/-! ## What the layers do to a host -/

/-- The host after its resolver received a packet. -/
def heard (h : Host δ) (resolver : Arp.Resolver) (wakeups : Wakeups) : Host δ :=
  { h with resolver := resolver, wakeups := wakeups }

/-- The host after a socket was handed a packet. -/
def handed (h : Host δ) (s : Bounded.Handle) (socket : Udp.Socket) (t : Transit) : Host δ :=
  { h with
    sockets := h.sockets.set s (socket.receivePass t h.wakeups).2.1
    wakeups := (socket.receivePass t h.wakeups).2.2.2 }

/-- The host after the number of the next datagram changed. -/
def numbered (h : Host δ) (ident : UInt16) : Host δ := { h with router := { h.router with ident := ident } }

/-- The host after an address was looked up for a task. -/
def asked (h : Host δ) (x : Ipv4.Address) (task : Option Task) : Host δ :=
  { h with resolver := (h.resolver.lookup x task h.now).2 }

/-- The host after its device was handed a frame. -/
def sent [Nic δ] (h : Host δ) (frame : Octets) : Host δ := { h with device := (Nic.transmit h.device frame).2 }

theorem receiveAt_ethernet (h : Host δ) (caller : Layer) (t : Transit) :
    h.receiveAt .ethernet caller t = (h.endpoint.receivePass t).map fun x => (x.1, h, x.2) := rfl

theorem receiveAt_resolver (h : Host δ) (caller : Layer) (t : Transit) :
    h.receiveAt .resolver caller t = (h.resolver.receivePass t.packet h.now h.wakeups).map fun x =>
      (x.1, h.heard x.2.1 x.2.2, t) := rfl

theorem receiveAt_ipv4 (h : Host δ) (caller : Layer) (t : Transit) :
    h.receiveAt .ipv4 caller t = (h.router.receivePass t caller).map fun x => (x.1, h, x.2) := rfl

theorem receiveAt_udp (h : Host δ) (caller : Layer) (t : Transit) :
    h.receiveAt .udp caller t = (h.ports.receivePass t).map fun x => (x.1, h, x.2) := rfl

theorem receiveAt_cases {h h' : Host δ} {layer caller : Layer} {t t' : Transit} {r : Except Fault Next}
    (e : h.receiveAt layer caller t = some (r, h', t')) :
    h' = h ∨
      (∃ (next : Except Fault Next) (resolver : Arp.Resolver) (wakeups : Wakeups), layer = .resolver ∧
        h.resolver.receivePass t.packet h.now h.wakeups = some (next, resolver, wakeups) ∧
        h' = h.heard resolver wakeups) ∨
      ∃ s socket, layer = .socket s ∧ h.sockets.get? s = some socket ∧ h' = h.handed s socket t := by
  cases layer with
  | device => cases e; exact .inl rfl
  | ethernet => obtain ⟨x, -, hx⟩ := Option.map_eq_some_iff.1 e; cases hx; exact .inl rfl
  | resolver =>
    obtain ⟨⟨next, resolver, wakeups⟩, hx, hr⟩ := Option.map_eq_some_iff.1 e
    cases hr
    exact .inr (.inl ⟨_, resolver, wakeups, rfl, hx, rfl⟩)
  | ipv4 => obtain ⟨x, -, hx⟩ := Option.map_eq_some_iff.1 e; cases hx; exact .inl rfl
  | udp => obtain ⟨x, -, hx⟩ := Option.map_eq_some_iff.1 e; cases hx; exact .inl rfl
  | loopback => cases e; exact .inl rfl
  | socket s =>
    unfold receiveAt at e
    dsimp only at e
    split at e
    · cases e; exact .inl rfl
    · rename_i socket hs
      cases e; exact .inr (.inr ⟨s, socket, rfl, hs, rfl⟩)
  | user => cases e; exact .inl rfl

theorem receiveAt_bytes {h h' : Host δ} {layer caller : Layer} {t t' : Transit} {r : Except Fault Next}
    (e : h.receiveAt layer caller t = some (r, h', t')) : t'.packet.bytes = t.packet.bytes := by
  cases layer with
  | device => cases e; rfl
  | ethernet =>
    obtain ⟨⟨r, u⟩, hx, he⟩ := Option.map_eq_some_iff.1 e
    cases he; exact Ethernet.Endpoint.receivePass_bytes hx
  | resolver => obtain ⟨_, -, hx⟩ := Option.map_eq_some_iff.1 e; cases hx; rfl
  | ipv4 =>
    obtain ⟨⟨r, u⟩, hx, he⟩ := Option.map_eq_some_iff.1 e
    cases he; exact Ipv4.Router.receivePass_bytes hx
  | udp =>
    obtain ⟨⟨r, u⟩, hx, he⟩ := Option.map_eq_some_iff.1 e
    cases he; exact Udp.Ports.receivePass_bytes hx
  | loopback => cases e; rfl
  | socket s =>
    unfold receiveAt at e
    dsimp only at e
    split at e
    · cases e; rfl
    · rename_i socket hs
      cases e; exact Udp.Socket.receivePass_bytes socket t h.wakeups
  | user => cases e; rfl

variable [Nic δ]

theorem transmitAt_ethernet (h : Host δ) (caller : Layer) (t : Transit) :
    h.transmitAt .ethernet caller t =
      some ((h.endpoint.transmitPass h.resolver h.now t caller).1,
        { h with resolver := (h.endpoint.transmitPass h.resolver h.now t caller).2.1 },
        (h.endpoint.transmitPass h.resolver h.now t caller).2.2) := rfl

theorem transmitAt_ipv4 (h : Host δ) (caller : Layer) (t : Transit) :
    h.transmitAt .ipv4 caller t =
      some ((h.router.transmitPass t caller).1, { h with router := (h.router.transmitPass t caller).2.1 },
        (h.router.transmitPass t caller).2.2) := rfl

/-- Framing looks an address up only for a packet without a hardware address. -/
theorem ethernet_transmitPass_resolver (e : Ethernet.Endpoint) (r : Arp.Resolver) (now : Instant)
    (t : Transit) (caller : Layer) :
    (e.transmitPass r now t caller).2.1 = r ∨
      (t.info.dstLink = none ∧
        (e.transmitPass r now t caller).2.1 = (r.lookup t.info.dstAddr t.info.task now).2 ∧
        ∀ f, (r.lookup t.info.dstAddr t.info.task now).1 = .error f →
          (e.transmitPass r now t caller).1 = .error f) := by
  unfold Ethernet.Endpoint.transmitPass
  cases hk : e.etherTypes.keyOf? caller with
  | none => exact .inl rfl
  | some etherType =>
    unfold Ethernet.Endpoint.resolve
    cases hl : t.info.dstLink with
    | some x => dsimp only; split <;> exact .inl rfl
    | none =>
      cases r.lookup t.info.dstAddr t.info.task now with
      | mk answer resolver =>
        cases answer with
        | error f => exact .inr ⟨rfl, rfl, fun _ hf => by cases hf; rfl⟩
        | ok x => dsimp only; split <;> exact .inr ⟨rfl, rfl, nofun⟩

theorem router_transmitPass_router (r : Ipv4.Router) (t : Transit) (caller : Layer) :
    ∃ ident, (r.transmitPass t caller).2.1 = { r with ident := ident } := by
  unfold Ipv4.Router.transmitPass
  split
  · exact ⟨r.ident, rfl⟩
  · split
    · exact ⟨r.ident, rfl⟩
    · dsimp only
      split
      · exact ⟨r.ident, rfl⟩
      · split <;> exact ⟨_, rfl⟩

theorem transmitAt_cases {h h' : Host δ} {layer caller : Layer} {t t' : Transit} {r : Except Fault Next}
    (e : h.transmitAt layer caller t = some (r, h', t')) :
    h' = h ∨ (∃ ident, h' = h.numbered ident) ∨
      (t.info.dstLink = none ∧ h' = h.asked t.info.dstAddr t.info.task ∧
        ∀ f, (h.resolver.lookup t.info.dstAddr t.info.task h.now).1 = .error f → r = .error f) := by
  cases layer with
  | device => obtain ⟨x, -, hx⟩ := Option.map_eq_some_iff.1 e; cases hx; exact .inl rfl
  | ethernet =>
    rw [transmitAt_ethernet] at e
    simp only [Option.some.injEq, Prod.mk.injEq] at e
    obtain ⟨rfl, rfl, rfl⟩ := e
    rcases ethernet_transmitPass_resolver h.endpoint h.resolver h.now t caller with hr | ⟨hl, hr, hf⟩
    · rw [hr]; exact .inl rfl
    · rw [hr]; exact .inr (.inr ⟨hl, rfl, hf⟩)
  | resolver => cases e; exact .inl rfl
  | ipv4 =>
    rw [transmitAt_ipv4] at e
    simp only [Option.some.injEq, Prod.mk.injEq] at e
    obtain ⟨rfl, rfl, rfl⟩ := e
    obtain ⟨ident, hr⟩ := router_transmitPass_router h.router t caller
    rw [hr]; exact .inr (.inl ⟨ident, rfl⟩)
  | udp => cases e; exact .inl rfl
  | loopback => cases e; exact .inl rfl
  | socket s =>
    unfold transmitAt at e
    dsimp only at e
    split at e <;> cases e <;> exact .inl rfl
  | user => cases e; exact .inl rfl

theorem finishAt_cases {h h' : Host δ} {layer caller : Layer} {t t' : Transit} {r : Except Fault Finish}
    (e : h.finishAt layer caller t = some (r, h', t')) : h' = h ∨ ∃ frame, h' = h.sent frame := by
  cases layer with
  | device =>
    obtain ⟨x, hx, he⟩ := Option.map_eq_some_iff.1 e
    obtain ⟨frame, -, hf⟩ := Option.map_eq_some_iff.1 hx
    cases hf; cases he
    exact .inr ⟨frame, rfl⟩
  | ethernet => obtain ⟨x, -, hx⟩ := Option.map_eq_some_iff.1 e; cases hx; exact .inl rfl
  | resolver => cases e; exact .inl rfl
  | ipv4 => cases e; exact .inl rfl
  | udp => obtain ⟨x, -, hx⟩ := Option.map_eq_some_iff.1 e; cases hx; exact .inl rfl
  | loopback => cases e; exact .inl rfl
  | socket s =>
    unfold finishAt at e
    dsimp only at e
    split at e <;> cases e <;> exact .inl rfl
  | user => cases e; exact .inl rfl

/-! ## What the layers keep of a packet -/

/-- A packet further down on its way, its cursors in order and its buffer as large as before. -/
structure Stacked (t t' : Transit) : Prop where
  task : t'.info.task = t.info.task
  link : t.info.dstLink.isSome = true → t'.info.dstLink.isSome = true
  inOrder : t.packet.InOrder → t'.packet.InOrder ∧ t'.packet.bytes.length = t.packet.bytes.length

theorem Stacked.refl (t : Transit) : Stacked t t := ⟨rfl, id, fun h => ⟨h, rfl⟩⟩

theorem Stacked.trans {t u v : Transit} (h : Stacked t u) (h' : Stacked u v) : Stacked t v :=
  ⟨h'.task.trans h.task, fun hl => h'.link (h.link hl), fun hp =>
    ⟨(h'.inOrder (h.inOrder hp).1).1, (h'.inOrder (h.inOrder hp).1).2.trans (h.inOrder hp).2⟩⟩

theorem Stacked.pushed {t : Transit} {p : Packet} {data : Octets} {info : Info}
    (hp : t.packet.pushHeader data = .ok p) (ht : info.task = t.info.task)
    (hl : t.info.dstLink.isSome = true → info.dstLink.isSome = true) : Stacked t ⟨p, info⟩ :=
  ⟨ht, hl, fun h => Packet.pushHeader_inOrder h hp⟩

theorem chooseSource_keeps (r : Ipv4.Router) (info : Info) (lower : Layer) :
    (r.chooseSource info lower).task = info.task ∧ (r.chooseSource info lower).dstLink = info.dstLink := by
  unfold Ipv4.Router.chooseSource
  split
  · split <;> exact ⟨rfl, rfl⟩
  · exact ⟨rfl, rfl⟩

theorem ethernet_transmitPass_stacked (e : Ethernet.Endpoint) (r : Arp.Resolver) (now : Instant)
    (t : Transit) (caller : Layer) : Stacked t (e.transmitPass r now t caller).2.2 := by
  unfold Ethernet.Endpoint.transmitPass
  split
  · exact Stacked.refl t
  · split
    · exact Stacked.refl t
    · split
      · exact Stacked.refl t
      · rename_i hp; exact Stacked.pushed hp rfl fun _ => rfl

theorem router_transmitPass_stacked (r : Ipv4.Router) (t : Transit) (caller : Layer) :
    Stacked t (r.transmitPass t caller).2.2 := by
  unfold Ipv4.Router.transmitPass
  split
  · exact Stacked.refl t
  · split
    · exact Stacked.refl t
    · rename_i route _
      obtain ⟨ht, hl⟩ := chooseSource_keeps r t.info route.layer
      dsimp only
      split
      · exact ⟨ht, fun h => by rw [hl]; exact h, fun h => ⟨h, rfl⟩⟩
      · split
        · exact ⟨ht, fun h => by rw [hl]; exact h, fun h => ⟨h, rfl⟩⟩
        · rename_i hp; exact Stacked.pushed hp ht fun h => by rw [hl]; exact h

theorem ports_transmitPass_stacked (u : Udp.Ports) (t : Transit) (caller : Layer) :
    Stacked t (u.transmitPass t caller).2 := by
  unfold Udp.Ports.transmitPass
  split
  · exact Stacked.refl t
  · split
    · exact Stacked.refl t
    · dsimp only
      split
      · exact Stacked.refl t
      · split
        · exact Stacked.refl t
        · rename_i hp; exact Stacked.pushed hp rfl id

theorem socket_transmitPass_keeps (s : Udp.Socket) (info : Info) :
    (s.transmitPass info).2.task = info.task ∧ (s.transmitPass info).2.dstLink = info.dstLink := by
  unfold Udp.Socket.transmitPass
  split
  · exact ⟨rfl, rfl⟩
  · dsimp only; split <;> exact ⟨rfl, rfl⟩

theorem transmitAt_stacked {h h' : Host δ} {layer caller : Layer} {t t' : Transit} {r : Except Fault Next}
    (e : h.transmitAt layer caller t = some (r, h', t')) : Stacked t t' := by
  cases layer with
  | device => obtain ⟨x, -, hx⟩ := Option.map_eq_some_iff.1 e; cases hx; exact Stacked.refl t
  | ethernet =>
    rw [transmitAt_ethernet] at e
    simp only [Option.some.injEq, Prod.mk.injEq] at e
    rw [← e.2.2]; exact ethernet_transmitPass_stacked ..
  | resolver => cases e; exact Stacked.refl t
  | ipv4 =>
    rw [transmitAt_ipv4] at e
    simp only [Option.some.injEq, Prod.mk.injEq] at e
    rw [← e.2.2]; exact router_transmitPass_stacked ..
  | udp =>
    have hs := ports_transmitPass_stacked h.ports t caller
    cases e; exact hs
  | loopback => cases e; exact Stacked.refl t
  | socket s =>
    unfold transmitAt at e
    dsimp only at e
    split at e
    · cases e; exact Stacked.refl t
    · rename_i socket _
      obtain ⟨ht, hl⟩ := socket_transmitPass_keeps socket t.info
      cases e; exact ⟨ht, fun h => by rw [hl]; exact h, fun h => ⟨h, rfl⟩⟩
  | user => cases e; exact Stacked.refl t

theorem pad_inOrder {p q : Packet} {len : Nat} (hp : p.InOrder) (h : Ethernet.Endpoint.pad p len = .ok q) :
    q.InOrder ∧ q.bytes.length = p.bytes.length := by
  unfold Ethernet.Endpoint.pad at h
  split at h
  · unfold Packet.pushZeros at h
    split at h
    · cases h
    · exact Packet.push_inOrder hp h
  · cases h; exact ⟨hp, rfl⟩

theorem endpoint_finishPass_inOrder {e : Ethernet.Endpoint} {p q : Packet} {r : Except Fault Finish}
    (hp : p.InOrder) (h : e.finishPass p = some (r, q)) : q.InOrder ∧ q.bytes.length = p.bytes.length := by
  obtain ⟨frame, -, h⟩ := Option.bind_eq_some_iff.1 h
  split at h
  · cases h; exact ⟨hp, rfl⟩
  · rename_i u hu
    have h1 := pad_inOrder hp hu
    split at h
    · cases h; exact h1
    · obtain ⟨padded, -, h⟩ := Option.bind_eq_some_iff.1 h
      split at h
      · cases h; exact h1
      · rename_i v hv
        have h2 := Packet.push_inOrder h1.1 hv
        cases h; exact ⟨h2.1, h2.2.trans h1.2⟩

theorem ports_finishPass_inOrder {t : Transit} {q : Packet} {r : Except Fault Finish}
    (hp : t.packet.InOrder) (h : Udp.Ports.finishPass t = some (r, q)) :
    q.InOrder ∧ q.bytes.length = t.packet.bytes.length := by
  obtain ⟨region, hr, h⟩ := Option.bind_eq_some_iff.1 h
  split at h
  · cases h; exact ⟨hp, rfl⟩
  · rename_i region
    obtain ⟨bytes, hb, h⟩ := Option.bind_eq_some_iff.1 h
    obtain ⟨filled, -, h⟩ := Option.bind_eq_some_iff.1 h
    cases h
    have hle : region.start + region.len ≤ t.packet.bytes.length := by
      unfold Packet.content? Octets.slice? at hb
      split at hb
      · assumption
      · cases hb
    have hl : (t.packet.fill region filled).bytes.length = _ := Packet.length_fill filled (by
      rw [List.length_take]; omega)
    exact ⟨⟨hp.header_le, hp.boundary_le, by rw [hl]; exact hp.write_le⟩, hl⟩

theorem finishAt_inOrder {h h' : Host δ} {layer caller : Layer} {t t' : Transit} {r : Except Fault Finish}
    (e : h.finishAt layer caller t = some (r, h', t')) (hp : t.packet.InOrder) :
    t'.packet.InOrder ∧ t'.packet.bytes.length = t.packet.bytes.length := by
  cases layer with
  | device => obtain ⟨x, -, hx⟩ := Option.map_eq_some_iff.1 e; cases hx; exact ⟨hp, rfl⟩
  | ethernet =>
    obtain ⟨⟨r, q⟩, hx, he⟩ := Option.map_eq_some_iff.1 e
    cases he; exact endpoint_finishPass_inOrder hp hx
  | resolver => cases e; exact ⟨hp, rfl⟩
  | ipv4 => cases e; exact ⟨hp, rfl⟩
  | udp =>
    obtain ⟨⟨r, q⟩, hx, he⟩ := Option.map_eq_some_iff.1 e
    cases he; exact ports_finishPass_inOrder hp hx
  | loopback => cases e; exact ⟨⟨hp.header_le, hp.boundary_le, hp.write_le⟩, rfl⟩
  | socket s =>
    unfold finishAt at e
    dsimp only at e
    split at e <;> cases e <;> exact ⟨hp, rfl⟩
  | user => cases e; exact ⟨hp, rfl⟩

end UdpStack.Host
