/-
Buffers that show nothing of their past. Both buffers of a host are used again and again without being
cleared, yet what was in them before makes no difference: every pass of a packet goes the same way over
any other bytes in the same place (`Alike`), so two hosts that differ in their buffers alone answer every
call alike and differ in their buffers alone after it (`perform_twin`). To a program and to whoever is at
the other end of the wire they are one host, whatever happens to them (`buffers_unobservable`).
-/
import UdpStack.Proofs.Alike
import UdpStack.Proofs.Host.Passage

namespace UdpStack.Host

open Bounded Device

variable {δ : Type}

/-! ## Other bytes in the same place -/

/-- The host with other buffers. -/
def rebuffered (h : Host δ) (tx rx : Octets) : Host δ := { h with txBuffer := tx, rxBuffer := rx }

/-- Two hosts that differ in nothing but the contents of their buffers. -/
def Twin (h g : Host δ) : Prop :=
  ∃ tx rx, tx.length = h.txBuffer.length ∧ rx.length = h.rxBuffer.length ∧ g = h.rebuffered tx rx

/-- Outcomes of a pass that cannot be told apart, over two pairs of buffers. -/
structure Mirrored (tx rx : Octets) {α : Type} (x y : α × Host δ × Transit) : Prop where
  result : y.1 = x.1
  host : y.2.1 = x.2.1.rebuffered tx rx
  transit : x.2.2.Alike y.2.2

variable {tx rx : Octets}

theorem count_rebuffered (h : Host δ) (layer : Layer) (f : Counters → Counters) :
    (h.rebuffered tx rx).count layer f = (h.count layer f).rebuffered tx rx := by
  cases layer with
  | socket s =>
    unfold count modifySocket rebuffered
    dsimp only
    split <;> rfl
  | _ => rfl

theorem map_mirrored {α β : Type} {R : α → α → Prop} {x y : Option α} (hr : Option.Rel R x y)
    {f g : α → β × Host δ × Transit} (hf : ∀ {a b}, R a b → Mirrored tx rx (f a) (g b)) :
    Option.Rel (Mirrored tx rx) (x.map f) (y.map g) := by
  cases hr with
  | none => exact .none
  | some hab => exact .some (hf hab)

theorem mirrored_cases {α : Type} {x y : Option (α × Host δ × Transit)} (hr : Option.Rel (Mirrored tx rx) x y) :
    (x = none ∧ y = none) ∨
      ∃ r g t u, x = some (r, g, t) ∧ y = some (r, g.rebuffered tx rx, u) ∧ t.Alike u := by
  cases hr with
  | none => exact .inl ⟨rfl, rfl⟩
  | @some x y hm =>
    obtain ⟨r, g, t⟩ := x
    obtain ⟨r', g', u⟩ := y
    obtain ⟨hr, hg, ha⟩ := hm
    dsimp only at hr hg ha
    subst hr hg
    exact .inr ⟨_, g, t, u, rfl, rfl, ha⟩

/-! ## Layers -/

variable {t u : Transit} (tx rx)

theorem receiveAt_mirrored (h : Host δ) (layer caller : Layer) (ha : t.Alike u) :
    Option.Rel (Mirrored tx rx) (h.receiveAt layer caller t) ((h.rebuffered tx rx).receiveAt layer caller u) := by
  cases layer with
  | ethernet =>
    exact map_mirrored (endpoint_receivePass_alike h.endpoint ha) fun hp => ⟨hp.result, rfl, hp.transit⟩
  | resolver =>
    unfold receiveAt Arp.Resolver.receivePass
    rw [ha.packet.unread?]
    dsimp only [rebuffered]
    cases h.resolver with
    | derived => exact .some ⟨rfl, rfl, ha⟩
    | table table =>
      cases t.packet.unread? with
      | none => exact .none
      | some bytes => exact .some ⟨rfl, rfl, ha⟩
  | ipv4 =>
    exact map_mirrored (router_receivePass_alike h.router ha caller) fun hp => ⟨hp.result, rfl, hp.transit⟩
  | udp => exact map_mirrored (ports_receivePass_alike h.ports ha) fun hp => ⟨hp.result, rfl, hp.transit⟩
  | socket s =>
    unfold receiveAt
    dsimp only [rebuffered]
    cases h.sockets.get? s with
    | none => exact .some ⟨rfl, rfl, ha⟩
    | some socket =>
      obtain ⟨hr, hs, hp, hw⟩ := socket_receivePass_alike socket ha h.wakeups
      refine .some ⟨hr, ?_, hp, ha.info⟩
      dsimp only
      rw [hs, hw]
      rfl
  | _ => exact .some ⟨rfl, rfl, ha⟩

section down

variable [Nic δ]

theorem transmitAt_mirrored (h : Host δ) (layer caller : Layer) (ha : t.Alike u) :
    Option.Rel (Mirrored tx rx) (h.transmitAt layer caller t) ((h.rebuffered tx rx).transmitAt layer caller u) := by
  cases layer with
  | device =>
    unfold transmitAt Device.transmitPass
    dsimp only [rebuffered]
    rw [ha.packet.frame?]
    cases t.packet.frame? with
    | none => exact .none
    | some frame => exact .some ⟨rfl, rfl, ha⟩
  | ethernet =>
    obtain ⟨hr, hresolver, ht⟩ := endpoint_transmitPass_alike h.endpoint h.resolver h.now ha caller
    rw [transmitAt_ethernet, transmitAt_ethernet]
    refine .some ⟨hr, ?_, ht⟩
    exact congrArg (fun resolver => ({ h with resolver := resolver } : Host δ).rebuffered tx rx) hresolver
  | ipv4 =>
    obtain ⟨hr, hrouter, ht⟩ := router_transmitPass_alike h.router ha caller
    rw [transmitAt_ipv4, transmitAt_ipv4]
    exact .some ⟨hr, congrArg (fun router => ({ h with router := router } : Host δ).rebuffered tx rx) hrouter, ht⟩
  | udp =>
    have hp := ports_transmitPass_alike h.ports ha caller
    exact .some ⟨hp.result, rfl, hp.transit⟩
  | socket s =>
    unfold transmitAt
    dsimp only [rebuffered]
    rw [ha.info]
    cases h.sockets.get? s with
    | none => exact .some ⟨rfl, rfl, ha⟩
    | some socket => exact .some ⟨rfl, rfl, ha.packet, rfl⟩
  | _ => exact .some ⟨rfl, rfl, ha⟩

theorem finishAt_mirrored (h : Host δ) (layer caller : Layer) (ha : t.Alike u) :
    Option.Rel (Mirrored tx rx) (h.finishAt layer caller t) ((h.rebuffered tx rx).finishAt layer caller u) := by
  cases layer with
  | device =>
    unfold finishAt Device.finishPass
    dsimp only [rebuffered]
    rw [ha.packet.frame?]
    cases t.packet.frame? with
    | none => exact .none
    | some frame => exact .some ⟨rfl, rfl, ha⟩
  | ethernet =>
    exact map_mirrored (endpoint_finishPass_alike h.endpoint ha.packet) fun hp => ⟨hp.result, rfl, hp.packet, ha.info⟩
  | udp => exact map_mirrored (ports_finishPass_alike ha) fun hp => ⟨hp.result, rfl, hp.packet, ha.info⟩
  | loopback =>
    unfold finishAt Loopback.finishPass
    rw [ha.info]
    exact .some ⟨rfl, rfl, ha.packet.resetReadHeaders, rfl⟩
  | socket s =>
    unfold finishAt
    dsimp only [rebuffered]
    cases h.sockets.get? s with
    | none => exact .some ⟨rfl, rfl, ha⟩
    | some socket => exact .some ⟨rfl, rfl, ha⟩
  | _ => exact .some ⟨rfl, rfl, ha⟩

end down

/-! ## Passes -/

theorem receive_mirrored : ∀ (depth : Nat) (h : Host δ) (layer caller : Layer) {t u : Transit}, t.Alike u →
    Option.Rel (Mirrored tx rx) (h.receive t depth layer caller)
      ((h.rebuffered tx rx).receive u depth layer caller)
  | 0, h, layer, caller, t, u, ha => .some ⟨rfl, rfl, ha⟩
  | depth + 1, h, layer, caller, t, u, ha => by
    unfold Host.receive
    rcases mirrored_cases (receiveAt_mirrored tx rx h layer caller ha) with
      ⟨hx, hy⟩ | ⟨r, g, t, u, hx, hy, ha⟩
    · rw [hx, hy]; exact .none
    · rw [hx, hy]
      rcases r with f | upper | _
      · exact .some ⟨rfl, count_rebuffered .., ha⟩
      · dsimp only
        rw [count_rebuffered]
        exact receive_mirrored depth _ upper layer ha
      · exact .some ⟨rfl, count_rebuffered .., ha⟩

section down

variable [Nic δ]

theorem descend_mirrored : ∀ (depth : Nat) (h : Host δ) (layer caller : Layer) {t u : Transit}, t.Alike u →
    Option.Rel (Mirrored tx rx) (h.descend t depth layer caller)
      ((h.rebuffered tx rx).descend u depth layer caller)
  | 0, h, layer, caller, t, u, ha => .some ⟨rfl, rfl, ha⟩
  | depth + 1, h, layer, caller, t, u, ha => by
    unfold Host.descend
    rcases mirrored_cases (transmitAt_mirrored tx rx h layer caller ha) with
      ⟨hx, hy⟩ | ⟨r, g, t, u, hx, hy, ha⟩
    · rw [hx, hy]; exact .none
    · rw [hx, hy]
      rcases r with f | lower | _
      · cases f with
        | wouldBlock => exact .some ⟨rfl, rfl, ha⟩
        | _ => exact .some ⟨rfl, count_rebuffered .., ha⟩
      · dsimp only
        rcases mirrored_cases (descend_mirrored depth g lower layer ha) with
          ⟨hx, hy⟩ | ⟨r, g, t, u, hx, hy, ha⟩
        · rw [hx, hy]; exact .none
        · rw [hx, hy]
          rcases r with f | path
          · exact .some ⟨rfl, rfl, ha⟩
          · exact .some ⟨rfl, rfl, ha⟩
      · exact .some ⟨rfl, rfl, ha⟩

theorem finish_mirrored : ∀ (path : List (Layer × Layer)) (h : Host δ) {t u : Transit}, t.Alike u →
    Option.Rel (Mirrored tx rx) (h.finish t path) ((h.rebuffered tx rx).finish u path)
  | [], h, t, u, ha => .some ⟨rfl, rfl, ha⟩
  | (layer, caller) :: rest, h, t, u, ha => by
    unfold Host.finish
    rcases mirrored_cases (finishAt_mirrored tx rx h layer caller ha) with
      ⟨hx, hy⟩ | ⟨r, g, t, u, hx, hy, ha⟩
    · rw [hx, hy]; exact .none
    · rw [hx, hy]
      rcases r with f | _ | target
      · exact .some ⟨rfl, count_rebuffered .., ha⟩
      · dsimp only
        rw [count_rebuffered]
        exact finish_mirrored rest _ ha
      · dsimp only
        rw [count_rebuffered]
        exact map_mirrored (receive_mirrored tx rx Limits.depth _ target layer ha) fun hm => ⟨rfl, hm.host, hm.transit⟩

theorem transmit_mirrored (h : Host δ) (layer caller : Layer) (ha : t.Alike u) :
    Option.Rel (Mirrored tx rx) (h.transmit t layer caller) ((h.rebuffered tx rx).transmit u layer caller) := by
  unfold Host.transmit
  rcases mirrored_cases (descend_mirrored tx rx Limits.depth h layer caller ha) with
    ⟨hx, hy⟩ | ⟨r, g, t, u, hx, hy, ha⟩
  · rw [hx, hy]; exact .none
  · rw [hx, hy]
    rcases r with f | path
    · exact .some ⟨rfl, rfl, ha⟩
    · exact finish_mirrored tx rx path g ha

end down

/-! ## What a host does on its own -/

variable {tx rx}

/-- Bytes that are put into two buffers for packets to send make packets that are alike. -/
theorem packet_alike {b c : Octets} (hl : c.length = b.length) (data : Octets) :
    Both Packet.Alike ((Packet.create b Limits.headerRoom).bind fun p => p.push data)
      ((Packet.create c Limits.headerRoom).bind fun p => p.push data) := by
  rcases (Packet.create_alike hl Limits.headerRoom).cases with ⟨f, hp, hq⟩ | ⟨p, q, hp, hq, ha⟩
  · rw [hp, hq]; exact .error f
  · rw [hp, hq]; exact ha.push data

/-- A received frame is followed by what was in the buffer, where no layer looks. -/
theorem entering_alike (tx : Octets) (h : Host δ) (frame : Octets) (hrx : rx.length = h.rxBuffer.length) :
    (h.entering frame).Alike ((h.rebuffered tx rx).entering frame) := by
  refine ⟨⟨rfl, rfl, rfl, rfl, ?_, le_rfl, Nat.zero_le _, ?_, fun i _ hi => ?_⟩, rfl⟩
  · show (frame ++ rx.drop frame.length).length = (frame ++ h.rxBuffer.drop frame.length).length
    rw [List.length_append, List.length_append, List.length_drop, List.length_drop, hrx]
  · show frame.length ≤ (frame ++ h.rxBuffer.drop frame.length).length
    rw [List.length_append]
    omega
  · show (frame ++ rx.drop frame.length)[i]? = (frame ++ h.rxBuffer.drop frame.length)[i]?
    rw [List.getElem?_append_left hi, List.getElem?_append_left hi]

theorem Twin.count {h g : Host δ} (ht : Twin h g) (layer : Layer) (f : Counters → Counters) :
    Twin (h.count layer f) (g.count layer f) := by
  obtain ⟨tx, rx, htx, hrx, rfl⟩ := ht
  exact ⟨tx, rx, by rw [txBuffer_count, htx], by rw [rxBuffer_count, hrx], count_rebuffered ..⟩

section flushes

variable [Nic δ] {h g h' : Host δ}

theorem transmit_twin (ht : Twin h g) (ha : t.Alike u) {layer caller : Layer} {r : Except Fault Unit} {t' : Transit}
    (e : h.transmit t layer caller = some (r, h', t')) :
    ∃ g' u', g.transmit u layer caller = some (r, g', u') ∧ Twin h' g' ∧ t'.Alike u' := by
  obtain ⟨tx, rx, htx, hrx, rfl⟩ := ht
  rcases mirrored_cases (transmit_mirrored tx rx h layer caller ha) with
    ⟨hx, -⟩ | ⟨r, h', t', u', hx, hy, ha'⟩
  · cases hx.symm.trans e
  · cases hx.symm.trans e
    have htx' := (stable_txBuffer h.txBuffer).transmit (.inr fun _ _ hb => hb) rfl hx
    have hrx' := (stable_rxBuffer h.rxBuffer).transmit (.inr fun _ _ hb => hb) rfl hx
    exact ⟨_, u', hy, ⟨tx, rx, by rw [htx', htx], by rw [hrx', hrx], rfl⟩, ha'⟩

theorem sendMessage_twin (ht : Twin h g) {m : Arp.Message} {dst : Ethernet.Address}
    (e : h.sendMessage m dst = some h') : ∃ g', g.sendMessage m dst = some g' ∧ Twin h' g' := by
  have hl : g.txBuffer.length = h.txBuffer.length := by obtain ⟨tx, rx, htx, -, rfl⟩ := ht; exact htx
  unfold Host.sendMessage at e ⊢
  rcases (packet_alike hl m.octets).cases with ⟨f, hp, hq⟩ | ⟨p, q, hp, hq, ha⟩
  · rw [hp] at e
    rw [hq]
    cases e
    exact ⟨_, rfl, ht.count ..⟩
  · rw [hp] at e
    rw [hq]
    dsimp only at e ⊢
    split at e
    · cases e
    · rename_i result k t hx
      have hpq : Transit.Alike ⟨p, { dstLink := some dst }⟩ ⟨q, { dstLink := some dst }⟩ := ⟨ha, rfl⟩
      obtain ⟨g', u, hy, ⟨tx, rx, htx, hrx, rfl⟩, ha'⟩ := transmit_twin ht hpq hx
      have hk : Twin { k with txBuffer := t.packet.bytes }
          { k.rebuffered tx rx with txBuffer := u.packet.bytes } := ⟨_, rx, ha'.packet.length, hrx, rfl⟩
      rw [hy]
      cases result with
      | error f => cases e; exact ⟨_, rfl, hk.count ..⟩
      | ok _ => cases e; exact ⟨_, rfl, hk.count ..⟩

theorem sendMessages_twin : ∀ (k : Nat) {h g h' : Host δ}, Twin h g → h.sendMessages k = some h' →
    ∃ g', g.sendMessages k = some g' ∧ Twin h' g'
  | 0, h, g, h', ht, e => by cases e; exact ⟨g, rfl, ht⟩
  | k + 1, h, g, h', ⟨tx, rx, htx, hrx, hg⟩, e => by
    subst hg
    unfold Host.sendMessages at e ⊢
    dsimp only [rebuffered]
    split at e
    · cases e
      exact ⟨_, rfl, tx, rx, htx, hrx, rfl⟩
    · rename_i m dst resolver _
      split at e
      · cases e
      · rename_i k' hy
        have ht : Twin { h with resolver := resolver }
            { h with
              resolver := resolver
              txBuffer := tx
              rxBuffer := rx } := ⟨tx, rx, htx, hrx, rfl⟩
        obtain ⟨g', hz, ht'⟩ := sendMessage_twin ht hy
        rw [hz]
        exact sendMessages_twin k ht' e

theorem flush_twin (ht : Twin h g) (e : h.flush = some h') : ∃ g', g.flush = some g' ∧ Twin h' g' := by
  obtain ⟨k, hk, rfl⟩ := Option.map_eq_some_iff.1
    (show (h.sendMessages h.resolver.backlog).map deliver = some h' from e)
  obtain ⟨g', hg', ⟨tx, rx, htx, hrx, rfl⟩⟩ := sendMessages_twin _ ht hk
  have hr : g.resolver = h.resolver := by obtain ⟨_, _, -, -, rfl⟩ := ht; rfl
  refine ⟨_, ?_, tx, rx, htx, hrx, rfl⟩
  show (g.sendMessages g.resolver.backlog).map deliver = _
  rw [hr, hg']
  rfl

theorem receiveFrame_twin (ht : Twin h g) {frame : Octets} (e : h.receiveFrame frame = some h') :
    ∃ g', g.receiveFrame frame = some g' ∧ Twin h' g' := by
  obtain ⟨tx, rx, htx, hrx, rfl⟩ := ht
  rw [receiveFrame_eq] at e ⊢
  rcases mirrored_cases (receive_mirrored tx rx Limits.depth (h.count .device .countRx) .ethernet
    .device (entering_alike tx h frame hrx)) with ⟨hx, -⟩ | ⟨r, k, t, u, hx, hy, ha⟩
  · rw [hx] at e; cases e
  · rw [hx] at e
    cases e
    rw [count_rebuffered, hy]
    refine ⟨_, rfl, tx, u.packet.bytes, ?_, ha.packet.length, rfl⟩
    show tx.length = k.txBuffer.length
    rw [(stable_txBuffer h.txBuffer).receive _ (h := h.count .device .countRx) rfl hx, htx]

theorem receiveFrames_twin : ∀ (k : Nat) {h g h' : Host δ} {i : Nat} {r : Except Fault Nat}, Twin h g →
    h.receiveFrames i k = some (r, h') → ∃ g', g.receiveFrames i k = some (r, g') ∧ Twin h' g'
  | 0, h, g, h', i, r, ht, e => by cases e; exact ⟨g, rfl, ht⟩
  | k + 1, h, g, h', i, r, ⟨tx, rx, htx, hrx, hg⟩, e => by
    subst hg
    unfold Host.receiveFrames at e ⊢
    dsimp only [rebuffered]
    rw [hrx]
    split at e
    · cases e
      exact ⟨_, rfl, tx, rx, htx, hrx, rfl⟩
    · rename_i f device _
      obtain ⟨k', hk, he⟩ := Option.map_eq_some_iff.1 e
      cases he
      have ht : Twin { h with device := device, deviceCounters := h.deviceCounters.countDropped }
          { h with
            device := device
            deviceCounters := h.deviceCounters.countDropped
            txBuffer := tx
            rxBuffer := rx } := ⟨tx, rx, htx, hrx, rfl⟩
      obtain ⟨g', hg', ht'⟩ := flush_twin ht hk
      rw [hg']
      exact ⟨_, rfl, ht'⟩
    · rename_i frame device _
      split at e
      · cases e
      · rename_i k' hy
        obtain ⟨k'', hr, hf⟩ := Option.bind_eq_some_iff.1 hy
        have ht : Twin { h with device := device }
            { h with
              device := device
              txBuffer := tx
              rxBuffer := rx } := ⟨tx, rx, htx, hrx, rfl⟩
        obtain ⟨g', hg', ht'⟩ := receiveFrame_twin ht hr
        obtain ⟨g'', hg'', ht''⟩ := flush_twin ht' hf
        rw [hg', Option.bind_some, hg'']
        exact receiveFrames_twin k ht'' e

theorem poll_twin (ht : Twin h g) {now : Instant} {r : Except Fault Nat} (e : h.poll now = some (r, h')) :
    ∃ g', g.poll now = some (r, g') ∧ Twin h' g' := by
  obtain ⟨tx, rx, htx, hrx, rfl⟩ := ht
  obtain ⟨k, hk, hr, -⟩ := poll_cases e
  have ht : Twin { h with
      now := now
      resolver := (h.resolver.expire now h.wakeups).1
      wakeups := (h.resolver.expire now h.wakeups).2 }
    { h with
      now := now
      resolver := (h.resolver.expire now h.wakeups).1
      wakeups := (h.resolver.expire now h.wakeups).2
      txBuffer := tx
      rxBuffer := rx } := ⟨tx, rx, htx, hrx, rfl⟩
  obtain ⟨k', hk', ⟨tx', rx', htx', hrx', rfl⟩⟩ := flush_twin ht hk
  obtain ⟨g', hg', ht'⟩ := receiveFrames_twin _ ⟨tx', rx', htx', hrx', rfl⟩ hr
  refine ⟨g', ?_, ht'⟩
  rw [poll_eq, show (h.rebuffered tx rx).refreshed now = some (k.rebuffered tx' rx') from hk']
  exact hg'

theorem send_twin (ht : Twin h g) {s : Handle} {task : Task} {dst : Ipv4.Address} {port : UInt16} {payload : Octets}
    {r : Poll Nat} (e : h.send s task dst port payload = some (r, h')) :
    ∃ g', g.send s task dst port payload = some (r, g') ∧ Twin h' g' := by
  obtain ⟨tx, rx, htx, hrx, rfl⟩ := ht
  have ht : Twin h (h.rebuffered tx rx) := ⟨tx, rx, htx, hrx, rfl⟩
  unfold Host.send at e ⊢
  split at e
  · rename_i hle
    cases e
    exact ⟨_, if_pos hle, ht⟩
  rw [if_neg (by assumption)]
  split at e
  · rename_i hs
    cases e
    exact ⟨_, if_pos hs, ht⟩
  rw [if_neg (by assumption)]
  rcases (packet_alike (c := (h.rebuffered tx rx).txBuffer) htx payload).cases with ⟨f, hp, hq⟩ | ⟨p, q, hp, hq, ha⟩
  · rw [hp] at e
    rw [hq]
    obtain ⟨k, hk, he⟩ := Option.map_eq_some_iff.1 e
    cases he
    obtain ⟨g', hg', ht'⟩ := flush_twin ht hk
    dsimp only
    rw [hg']
    exact ⟨g', rfl, ht'⟩
  · rw [hp] at e
    rw [hq]
    dsimp only at e ⊢
    split at e
    · cases e
    · rename_i result k t hx
      obtain ⟨k', hk, he⟩ := Option.map_eq_some_iff.1 e
      have hpq : Transit.Alike ⟨p, { dstAddr := dst, dstPort := port, task := some task }⟩
        ⟨q, { dstAddr := dst, dstPort := port, task := some task }⟩ := ⟨ha, rfl⟩
      obtain ⟨g', u, hy, ⟨tx, rx, -, hrx, rfl⟩, ha'⟩ := transmit_twin ht hpq hx
      have ht' : Twin { k with txBuffer := t.packet.bytes } { k.rebuffered tx rx with txBuffer := u.packet.bytes } :=
        ⟨_, rx, ha'.packet.length, hrx, rfl⟩
      obtain ⟨g'', hg'', ht''⟩ := flush_twin ht' hk
      rw [hy]
      dsimp only
      rw [hg'']
      rcases result with f | ⟨⟩
      · cases f <;> (cases he; exact ⟨g'', rfl, ht''⟩)
      · cases he
        exact ⟨g'', rfl, ht''⟩

end flushes

/-! ## Calls -/

theorem unbind_rebuffered (h : Host δ) (s : Handle) :
    (h.rebuffered tx rx).unbind s = ((h.unbind s).1, (h.unbind s).2.rebuffered tx rx) := by
  unfold unbind rebuffered
  dsimp only
  split
  · rfl
  split
  · rfl
  split <;> rfl

theorem vacate_rebuffered (h : Host δ) (s : Handle) :
    (h.rebuffered tx rx).vacate s = ((h.vacate s).1, (h.vacate s).2.rebuffered tx rx) := by
  unfold vacate rebuffered
  dsimp only
  split <;> rfl

theorem release_rebuffered (h : Host δ) (s : Handle) :
    (h.rebuffered tx rx).release s = ((h.release s).1, (h.release s).2.rebuffered tx rx) := by
  unfold release
  rw [show (h.rebuffered tx rx).binding? s = h.binding? s from rfl, unbind_rebuffered]
  split
  · rcases h.unbind s with ⟨f | _, g⟩
    · rfl
    · exact vacate_rebuffered g s
  · exact vacate_rebuffered h s

section calls

variable [Nic δ] {h g h' : Host δ}

/-- A call that sends and receives nothing does not touch a buffer. -/
theorem perform_rebuffered (h : Host δ) (c : Call δ) :
    (∃ s task dst port payload, c = .send s task dst port payload) ∨ (∃ now, c = .poll now) ∨
      ∀ tx rx, (h.rebuffered tx rx).perform c = (h.perform c).map fun (a, g) => (a, g.rebuffered tx rx) := by
  cases c with
  | send s task dst port payload => exact .inl ⟨s, task, dst, port, payload, rfl⟩
  | poll now => exact .inr (.inl ⟨now, rfl⟩)
  | acquire =>
    refine .inr (.inr fun tx rx => ?_)
    unfold perform acquire rebuffered
    dsimp only
    split <;> rfl
  | release s =>
    refine .inr (.inr fun tx rx => ?_)
    show some (Answer.result ((h.rebuffered tx rx).release s).1, ((h.rebuffered tx rx).release s).2) = _
    rw [release_rebuffered]
    rfl
  | bind s addr port =>
    refine .inr (.inr fun tx rx => ?_)
    unfold perform bind rebuffered
    dsimp only
    split
    · rfl
    split
    · rfl
    split
    · rfl
    split <;> rfl
  | unbind s =>
    refine .inr (.inr fun tx rx => ?_)
    show some (Answer.result ((h.rebuffered tx rx).unbind s).1, ((h.rebuffered tx rx).unbind s).2) = _
    rw [unbind_rebuffered]
    rfl
  | recv s task room =>
    refine .inr (.inr fun tx rx => ?_)
    unfold perform recv rebuffered
    dsimp only
    split <;> rfl
  | cancel s task =>
    refine .inr (.inr fun tx rx => ?_)
    unfold perform cancel modifySocket rebuffered
    dsimp only
    split <;> rfl
  | addRoute route =>
    refine .inr (.inr fun tx rx => ?_)
    unfold perform addRoute rebuffered
    dsimp only
    split <;> rfl
  | removeRoute net mask =>
    refine .inr (.inr fun tx rx => ?_)
    unfold perform removeRoute rebuffered
    dsimp only
    split <;> rfl
  | join group =>
    refine .inr (.inr fun tx rx => ?_)
    unfold perform join rebuffered
    dsimp only
    split
    · rfl
    split
    · rfl
    split
    · rfl
    split <;> rfl
  | leave group =>
    refine .inr (.inr fun tx rx => ?_)
    unfold perform leave rebuffered
    dsimp only
    split
    · rfl
    split
    · rfl
    split <;> rfl
  | device d => exact .inr (.inr fun _ _ => rfl)
  | fill x hardware now =>
    refine .inr (.inr fun tx rx => ?_)
    unfold perform fill rebuffered
    dsimp only
    split
    · rfl
    split <;> rfl
  | resolver r => exact .inr (.inr fun _ _ => rfl)

/-- Hosts that differ in their buffers alone answer every call alike, and go on to differ in nothing else. -/
theorem perform_twin (ht : Twin h g) {c : Call δ} {a : Answer} (e : h.perform c = some (a, h')) :
    ∃ g', g.perform c = some (a, g') ∧ Twin h' g' := by
  rcases perform_rebuffered h c with ⟨s, task, dst, port, payload, rfl⟩ | ⟨now, rfl⟩ | hlocal
  · obtain ⟨⟨r, k⟩, hx, he⟩ := Option.map_eq_some_iff.1 e
    cases he
    obtain ⟨g', hg', ht'⟩ := send_twin ht hx
    exact ⟨g', congrArg (Option.map _) hg', ht'⟩
  · obtain ⟨⟨r, k⟩, hx, he⟩ := Option.map_eq_some_iff.1 e
    cases he
    obtain ⟨g', hg', ht'⟩ := poll_twin ht hx
    exact ⟨g', congrArg (Option.map _) hg', ht'⟩
  · obtain ⟨tx, rx, htx, hrx, rfl⟩ := ht
    -- the host itself is one with its own buffers
    have hkept : h' = h'.rebuffered h.txBuffer h.rxBuffer := by
      have hself := hlocal h.txBuffer h.rxBuffer
      rw [show h.rebuffered h.txBuffer h.rxBuffer = h from rfl, e] at hself
      exact (Prod.mk.inj (Option.some.inj hself)).2
    refine ⟨h'.rebuffered tx rx, by rw [hlocal, e]; rfl, tx, rx, ?_, ?_, rfl⟩
    · rw [hkept]; exact htx
    · rw [hkept]; exact hrx

end calls

/-! ## A host and the world -/

/-- What happens to a host on an external device: a program makes a call, a frame arrives, and someone
takes the next frame that was sent or the tasks that were notified. -/
inductive Event (n : Nat) where
  | call (c : Call (External n))
  | arrival (frame : Octets)
  | departure
  | notification

/-- What is seen of it. -/
inductive Observation where
  | answered (a : Answer)
  | arrived (r : Except Fault Unit)
  | departed (frame : Option Frame)
  | notified (tasks : List Task)

variable {n : Nat}

/-- What is seen of an event, and the host after it. -/
def occur (h : Host (External n)) : Event n → Option (Observation × Host (External n))
  | .call c => (h.perform c).map fun (a, g) => (.answered a, g)
  | .arrival frame =>
    some (.arrived (h.device.inject frame).1, { h with device := (h.device.inject frame).2 })
  | .departure => some (.departed h.device.takeSent.1, { h with device := h.device.takeSent.2 })
  | .notification => some (.notified h.takeNotified.1, h.takeNotified.2)

/-- What is seen of events one after the other, and the host after them. -/
def observe (h : Host (External n)) : List (Event n) → Option (List Observation × Host (External n))
  | [] => some ([], h)
  | e :: es => (h.occur e).bind fun (o, g) => (observe g es).map fun (os, g) => (o :: os, g)

theorem observe_cons {h k h' : Host (External n)} {e : Event n} {es : List (Event n)} {o : Observation}
    {os : List Observation} (hx : h.occur e = some (o, k)) (hy : k.observe es = some (os, h')) :
    h.observe (e :: es) = some (o :: os, h') := by
  unfold observe
  rw [hx, Option.bind_some]
  dsimp only
  rw [hy]
  rfl

theorem occur_spec {manual : Bool} {h : Host (External n)} (hs : h.Steady manual) (e : Event n) :
    ∃ o h', h.occur e = some (o, h') ∧ h'.Steady manual ∧
      ∀ {g}, Twin h g → ∃ g', g.occur e = some (o, g') ∧ Twin h' g' := by
  cases e with
  | call c =>
    obtain ⟨a, h', hx⟩ := perform_total hs c
    refine ⟨_, h', congrArg (Option.map _) hx, steady_perform hs hx, fun {g} ht => ?_⟩
    obtain ⟨g', hg', ht'⟩ := perform_twin ht hx
    exact ⟨g', congrArg (Option.map _) hg', ht'⟩
  | arrival frame =>
    refine ⟨_, _, rfl, ⟨hs.assembled, hs.agree, hs.sockets, hs.txBuffer⟩, ?_⟩
    rintro _ ⟨tx, rx, htx, hrx, rfl⟩
    exact ⟨_, rfl, tx, rx, htx, hrx, rfl⟩
  | departure =>
    refine ⟨_, _, rfl, ⟨hs.assembled, hs.agree, hs.sockets, hs.txBuffer⟩, ?_⟩
    rintro _ ⟨tx, rx, htx, hrx, rfl⟩
    exact ⟨_, rfl, tx, rx, htx, hrx, rfl⟩
  | notification =>
    refine ⟨_, _, rfl, ⟨hs.assembled, hs.agree, hs.sockets, hs.txBuffer⟩, ?_⟩
    rintro _ ⟨tx, rx, htx, hrx, rfl⟩
    exact ⟨_, rfl, tx, rx, htx, hrx, rfl⟩

theorem observe_spec {manual : Bool} : ∀ (es : List (Event n)) {h : Host (External n)}, h.Steady manual →
    ∃ os h', h.observe es = some (os, h') ∧ h'.Steady manual ∧
      ∀ {g}, Twin h g → ∃ g', g.observe es = some (os, g') ∧ Twin h' g'
  | [], h, hs => ⟨[], h, rfl, hs, fun {g} ht => ⟨g, rfl, ht⟩⟩
  | e :: es, h, hs => by
    obtain ⟨o, k, hx, hk, htwin⟩ := occur_spec hs e
    obtain ⟨os, h', hy, hs', htwins⟩ := observe_spec es hk
    refine ⟨o :: os, h', observe_cons hx hy, hs', fun {g} ht => ?_⟩
    obtain ⟨k', hx', ht'⟩ := htwin ht
    obtain ⟨g', hy', ht''⟩ := htwins ht'
    exact ⟨g', observe_cons hx' hy', ht''⟩

/-- Whatever is in the buffers of a host, nobody ever sees it. Let anything have happened to a new host on
an external device, and let another one differ from it in nothing but the contents of its two buffers: then
whatever happens to both is answered, and the answers, the received payloads, the notified tasks and every
byte of the frames that leave are the same. Again they differ in their buffers alone. -/
theorem buffers_unobservable {d : External n} {config : Config} {h₀ h g : Host (External n)}
    (e : create d config = .ok h₀) {before : List (Event n)} {os₀ : List Observation}
    (hbefore : h₀.observe before = some (os₀, h)) (ht : Twin h g) (events : List (Event n)) :
    ∃ os h' g', h.observe events = some (os, h') ∧ g.observe events = some (os, g') ∧ Twin h' g' := by
  obtain ⟨_, _, hb, hs, -⟩ := observe_spec before (steady_create e)
  cases hb.symm.trans hbefore
  obtain ⟨os, h', hx, -, htwin⟩ := observe_spec events hs
  obtain ⟨g', hy, ht'⟩ := htwin ht
  exact ⟨os, h', g', hx, hy, ht'⟩

theorem buffers_unobservable_padding :
    let config : Config := ⟨⟨2, 0, 0, 0, 0, 1⟩, ⟨10, 0, 0, 1⟩, ⟨255, 255, 255, 0⟩, .derived⟩
    let filler : Octets := List.replicate Limits.frameBuffer 0xff
    ∃ (h₀ h : Host (External 2)) (os₀ : List Observation),
      create (External.create 2 {}) config = .ok h₀ ∧
      h₀.observe [.call .acquire, .call (.bind ⟨0, 0⟩ .unspecified 7),
        .call (.send ⟨0, 0⟩ ⟨1⟩ ⟨10, 0, 0, 2⟩ 9 (List.replicate 100 0xee)), .departure] = some (os₀, h) ∧
      (h.txBuffer.drop 45).take 15 = List.replicate 15 0xee ∧ Twin h (h.rebuffered filler filler) ∧
      ∃ os h' g' frame, h.observe [.call (.send ⟨0, 0⟩ ⟨1⟩ ⟨10, 0, 0, 2⟩ 9 [1, 2, 3])] = some (os, h') ∧
        (h.rebuffered filler filler).observe [.call (.send ⟨0, 0⟩ ⟨1⟩ ⟨10, 0, 0, 2⟩ 9 [1, 2, 3])] = some (os, g') ∧
        Twin h' g' ∧ h'.device.outbound.toList.map (·.bytes) = [frame] ∧
        frame.drop 42 = [1, 2, 3] ++ List.replicate 15 0 := by
  intro config filler
  have hx : (do
      let h₀ ← (create (External.create 2 {}) config).toOption
      let h ← h₀.observe [.call .acquire, .call (.bind ⟨0, 0⟩ .unspecified 7),
        .call (.send ⟨0, 0⟩ ⟨1⟩ ⟨10, 0, 0, 2⟩ 9 (List.replicate 100 0xee)), .departure]
      let h' ← h.2.observe [.call (.send ⟨0, 0⟩ ⟨1⟩ ⟨10, 0, 0, 2⟩ 9 [1, 2, 3])]
      some (decide ((h.2.txBuffer.drop 45).take 15 = List.replicate 15 0xee ∧
        filler.length = h.2.txBuffer.length ∧ filler.length = h.2.rxBuffer.length ∧
        (h'.2.device.outbound.toList.map (·.bytes)).map (·.drop 42) = [[1, 2, 3] ++ List.replicate 15 0]))) =
      some true := by
    decide +kernel
  obtain ⟨h₀, e, hx⟩ := Option.bind_eq_some_iff.1 hx
  obtain ⟨⟨os₀, h⟩, hbefore, hx⟩ := Option.bind_eq_some_iff.1 hx
  obtain ⟨⟨os, h'⟩, hafter, hx⟩ := Option.bind_eq_some_iff.1 hx
  simp only [Option.some.injEq, decide_eq_true_eq] at hx
  obtain ⟨hstale, htx, hrx, hframes⟩ := hx
  have ht : Twin h (h.rebuffered filler filler) := ⟨filler, filler, htx, hrx, rfl⟩
  obtain ⟨os', h'', g', hx, hy, ht'⟩ := buffers_unobservable (eq_ok_of_toOption e) hbefore ht
    [.call (.send ⟨0, 0⟩ ⟨1⟩ ⟨10, 0, 0, 2⟩ 9 [1, 2, 3])]
  cases hafter.symm.trans hx
  obtain ⟨frame, hframe, hdrop⟩ := List.map_eq_singleton_iff.1 hframes
  exact ⟨h₀, h, os₀, eq_ok_of_toOption e, hbefore, hstale, ht, os, h', g', frame, hx, hy, ht', hframe, hdrop⟩

end UdpStack.Host
