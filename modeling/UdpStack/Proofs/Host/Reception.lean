/-
The way of a received frame, layer by layer. At each layer a frame goes on to the layer above
exactly if it is taken there, and ends otherwise with nothing but a count (`receive_ethernet`,
`receive_ipv4`, `receive_udp`); a socket that accepts a datagram is handed it (`receive_socket`).
-/
import UdpStack.Host.Poll
import UdpStack.Proofs.Host.Layers

namespace UdpStack.Host

open Device

variable {δ : Type}

theorem receive_of_ends {h h' : Host δ} {layer caller : Layer} {t t' : Transit} {r : Except Fault Next}
    (e : h.receiveAt layer caller t = some (r, h', t')) (hr : ∀ upper, r ≠ .ok (.layer upper)) (depth : Nat) :
    ∃ res f, h.receive t (depth + 1) layer caller = some (res, h'.count layer f, t') := by
  unfold receive
  rw [e]
  rcases r with f | upper | _
  · exact ⟨_, _, rfl⟩
  · exact absurd rfl (hr upper)
  · exact ⟨_, _, rfl⟩

theorem receive_of_layer {h h' : Host δ} {layer caller upper : Layer} {t t' : Transit}
    (e : h.receiveAt layer caller t = some (.ok (.layer upper), h', t')) (depth : Nat) :
    h.receive t (depth + 1) layer caller = (h'.count layer .countRx).receive t' depth upper layer := by
  conv_lhs => unfold receive
  rw [e]

/-- A frame goes on to the layer of its content, or ends here. -/
theorem receive_ethernet {h : Host δ} {t : Transit} {w : Octets} (hu : t.packet.unread? = some w)
    (depth : Nat) (caller : Layer) :
    (∃ upper p, h.endpoint.Takes w upper ∧ p.unread? = some ((h.endpoint.body w).drop 14) ∧
      p.bytes = t.packet.bytes ∧
      h.receive t (depth + 1) .ethernet caller = (h.count .ethernet .countRx).receive ⟨p, { t.info with
        srcLink := some (.stored w 6), dstLink := some (.stored w 0) }⟩ depth upper .ethernet) ∨
    ((∀ upper, ¬ h.endpoint.Takes w upper) ∧ ∃ res f t',
      h.receive t (depth + 1) .ethernet caller = some (res, h.count .ethernet f, t')) := by
  have he := receiveAt_ethernet h caller t
  rcases Ethernet.Endpoint.receivePass_cases (e := h.endpoint) hu with
    ⟨upper, p, ht, hr, hpu, hpb⟩ | ⟨r, t', hr, hn, -, ht⟩
  · rw [hr] at he
    exact .inl ⟨upper, p, ht, hpu, hpb, receive_of_layer he depth⟩
  · rw [hr] at he
    obtain ⟨res, f, hres⟩ := receive_of_ends he hn depth
    exact .inr ⟨ht, res, f, t', hres⟩

/-- A datagram goes on to the layer of its protocol, or ends here. -/
theorem receive_ipv4 {h : Host δ} {t : Transit} {b : Octets} (hu : t.packet.unread? = some b)
    (depth : Nat) (caller : Layer) :
    (∃ upper p, h.router.Takes b caller t.info.skipChecksum upper ∧
      p.unread? = some ((b.take (Octets.word b 2)).drop (Ipv4.Header.lengthOf b)) ∧
      p.bytes = t.packet.bytes ∧
      h.receive t (depth + 1) .ipv4 caller = (h.count .ipv4 .countRx).receive ⟨p, { t.info with
        srcAddr := .stored b 12, dstAddr := .stored b 16 }⟩ depth upper .ipv4) ∨
    ((∀ upper, ¬ h.router.Takes b caller t.info.skipChecksum upper) ∧ ∃ res f t',
      h.receive t (depth + 1) .ipv4 caller = some (res, h.count .ipv4 f, t')) := by
  have he := receiveAt_ipv4 h caller t
  rcases Ipv4.Router.receivePass_cases (r := h.router) hu caller with
    ⟨upper, p, ht, hr, hpu, hpb⟩ | ⟨f, t', hr, -, ht⟩
  · rw [hr] at he
    exact .inl ⟨upper, p, ht, hpu, hpb, receive_of_layer he depth⟩
  · rw [hr] at he
    obtain ⟨res, f, hres⟩ := receive_of_ends he (by simp) depth
    exact .inr ⟨ht, res, f, t', hres⟩

/-- A user datagram goes on to the layer of its port, or ends here. -/
theorem receive_udp {h : Host δ} {t : Transit} {b : Octets} (hu : t.packet.unread? = some b)
    (depth : Nat) (caller : Layer) :
    (∃ upper p, h.ports.Takes b t.info.srcAddr t.info.dstAddr t.info.skipChecksum upper ∧
      p.unread? = some ((b.take (Octets.word b 4)).drop 8) ∧ p.bytes = t.packet.bytes ∧
      h.receive t (depth + 1) .udp caller = (h.count .udp .countRx).receive ⟨p, { t.info with
        srcPort := UInt16.ofNat (Octets.word b 0), dstPort := UInt16.ofNat (Octets.word b 2) }⟩
        depth upper .udp) ∨
    ((∀ upper, ¬ h.ports.Takes b t.info.srcAddr t.info.dstAddr t.info.skipChecksum upper) ∧ ∃ res f t',
      h.receive t (depth + 1) .udp caller = some (res, h.count .udp f, t')) := by
  have he := receiveAt_udp h caller t
  rcases Udp.Ports.receivePass_cases (u := h.ports) hu with
    ⟨upper, p, ht, hr, hpu, hpb⟩ | ⟨f, t', hr, -, ht⟩
  · rw [hr] at he
    exact .inl ⟨upper, p, ht, hpu, hpb, receive_of_layer he depth⟩
  · rw [hr] at he
    obtain ⟨res, f, hres⟩ := receive_of_ends he (by simp) depth
    exact .inr ⟨ht, res, f, t', hres⟩

/-- A socket is handed a datagram, whether or not it accepts it. -/
theorem receive_socket {h : Host δ} {s : Bounded.Handle} {socket : Udp.Socket}
    (hs : h.sockets.get? s = some socket) (t : Transit) (depth : Nat) (caller : Layer) :
    ∃ res f t', h.receive t (depth + 1) (.socket s) caller =
      some (res, (h.handed s socket t).count (.socket s) f, t') := by
  have he : h.receiveAt (.socket s) caller t = some ((socket.receivePass t h.wakeups).1,
      h.handed s socket t, { t with packet := (socket.receivePass t h.wakeups).2.2.1 }) := by
    unfold receiveAt
    dsimp only
    rw [hs]
    rfl
  obtain ⟨res, f, hres⟩ := receive_of_ends he (socket.receivePass_ends t h.wakeups) depth
  exact ⟨res, f, _, hres⟩

/-! ## No layer reads behind the end -/

theorem receiveAt_total (h : Host δ) (layer caller : Layer) {t : Transit} {w : Octets}
    (hu : t.packet.unread? = some w) :
    ∃ r h' t', h.receiveAt layer caller t = some (r, h', t') ∧
      ∀ upper, r = .ok (.layer upper) → ∃ w', t'.packet.unread? = some w' := by
  cases layer with
  | device => exact ⟨_, _, _, rfl, by simp [Device.receivePass]⟩
  | ethernet =>
    rw [receiveAt_ethernet]
    rcases Ethernet.Endpoint.receivePass_cases (e := h.endpoint) hu with
      ⟨upper, p, -, hr, hpu, -⟩ | ⟨r, t', hr, hn, -⟩
    · rw [hr]; exact ⟨_, _, _, rfl, fun _ _ => ⟨_, hpu⟩⟩
    · rw [hr]; exact ⟨_, _, _, rfl, fun upper hx => absurd hx (hn upper)⟩
  | resolver =>
    rw [receiveAt_resolver]
    unfold Arp.Resolver.receivePass
    cases h.resolver with
    | derived => exact ⟨_, _, _, rfl, fun _ _ => ⟨w, hu⟩⟩
    | table table =>
      dsimp only
      rw [hu]
      exact ⟨_, _, _, rfl, fun _ _ => ⟨w, hu⟩⟩
  | ipv4 =>
    rw [receiveAt_ipv4]
    rcases Ipv4.Router.receivePass_cases (r := h.router) hu caller with
      ⟨upper, p, -, hr, hpu, -⟩ | ⟨f, t', hr, -⟩
    · rw [hr]; exact ⟨_, _, _, rfl, fun _ _ => ⟨_, hpu⟩⟩
    · rw [hr]; exact ⟨_, _, _, rfl, by simp⟩
  | udp =>
    rw [receiveAt_udp]
    rcases Udp.Ports.receivePass_cases (u := h.ports) hu with ⟨upper, p, -, hr, hpu, -⟩ | ⟨f, t', hr, -⟩
    · rw [hr]; exact ⟨_, _, _, rfl, fun _ _ => ⟨_, hpu⟩⟩
    · rw [hr]; exact ⟨_, _, _, rfl, by simp⟩
  | loopback => exact ⟨_, _, _, rfl, by simp [Loopback.receivePass]⟩
  | socket s =>
    unfold receiveAt
    dsimp only
    split
    · exact ⟨_, _, _, rfl, by simp⟩
    · rename_i socket _
      exact ⟨_, _, _, rfl, fun upper hx => absurd hx (socket.receivePass_ends t h.wakeups upper)⟩
  | user => exact ⟨_, _, _, rfl, by simp⟩

theorem receive_total : ∀ (depth : Nat) (h : Host δ) (layer caller : Layer) {t : Transit} {w : Octets},
    t.packet.unread? = some w → ∃ x, h.receive t depth layer caller = some x
  | 0, h, _, _, t, _, _ => ⟨_, rfl⟩
  | depth + 1, h, layer, caller, t, w, hu => by
    obtain ⟨r, h', t', he, hnext⟩ := receiveAt_total h layer caller hu
    rcases r with f | upper | _
    · obtain ⟨res, f, hx⟩ := receive_of_ends he (by simp) depth
      exact ⟨_, hx⟩
    · obtain ⟨w', hu'⟩ := hnext upper rfl
      rw [receive_of_layer he depth]
      exact receive_total depth _ upper layer hu'
    · obtain ⟨res, f, hx⟩ := receive_of_ends he (by simp) depth
      exact ⟨_, hx⟩

/-! ## Frames -/

/-- A received frame in the buffer as it enters the layers. -/
def entering (h : Host δ) (frame : Octets) : Transit :=
  ⟨⟨frame ++ h.rxBuffer.drop frame.length, 0, 0, 0, frame.length⟩, {}⟩

theorem entering_unread? (h : Host δ) (frame : Octets) :
    (h.entering frame).packet.unread? = some frame := by
  rw [Packet.unread?_of_le (by simp [entering]) (by simp [entering])]
  simp [entering]

theorem receiveFrame_eq (h : Host δ) (frame : Octets) : h.receiveFrame frame =
    ((h.count .device .countRx).receive (h.entering frame) Limits.depth .ethernet .device).map fun x =>
      { x.2.1 with rxBuffer := x.2.2.packet.bytes } := by
  have hr : (h.count .device .countRx).rxBuffer = h.rxBuffer := rfl
  unfold receiveFrame entering
  dsimp only
  rw [hr, Packet.ofFrame_eq (by simp)]
  dsimp only
  cases (h.count .device .countRx).receive _ Limits.depth .ethernet .device <;> rfl

theorem receiveFrame_total (h : Host δ) (frame : Octets) : ∃ h', h.receiveFrame frame = some h' := by
  rw [receiveFrame_eq]
  obtain ⟨x, hx⟩ := receive_total Limits.depth (h.count .device .countRx) .ethernet .device
    (entering_unread? h frame)
  rw [hx]
  exact ⟨_, rfl⟩

end UdpStack.Host
