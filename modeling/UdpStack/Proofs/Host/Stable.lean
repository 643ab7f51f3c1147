/-
Properties of a host that survive its passes. What every step of a layer keeps, a whole pass keeps
(`Stable`); looking an address up stands apart, since only a packet without a hardware address does
so (`MayAsk`). Each pass is treated once, by its own recursion; an invariant is then a matter of
single steps.
-/
import UdpStack.Proofs.Host.Layers

namespace UdpStack.Host

open Device

variable {δ : Type}

/-! ## Counting -/

theorem count_eq (h : Host δ) (layer : Layer) (f : Counters → Counters) : ∃ dc ec rc ic uc lo sockets,
    h.count layer f = { h with
      deviceCounters := dc
      endpoint := { h.endpoint with counters := ec }
      resolverCounters := rc
      router := { h.router with counters := ic }
      ports := { h.ports with counters := uc }
      loopback := lo
      sockets := sockets } ∧
    (sockets = h.sockets ∨ ∃ s socket c, h.sockets.get? s = some socket ∧
      sockets = h.sockets.set s { socket with counters := c }) := by
  cases layer with
  | socket s =>
    unfold count modifySocket
    dsimp only
    split
    · exact ⟨_, _, _, _, _, _, _, rfl, .inl rfl⟩
    · rename_i socket hs
      exact ⟨_, _, _, _, _, _, _, rfl, .inr ⟨s, socket, _, hs, rfl⟩⟩
  | _ => exact ⟨_, _, _, _, _, _, _, rfl, .inl rfl⟩

@[simp] theorem device_count (h : Host δ) (layer : Layer) (f : Counters → Counters) :
    (h.count layer f).device = h.device := by
  obtain ⟨_, _, _, _, _, _, _, he, -⟩ := count_eq h layer f
  rw [he]

@[simp] theorem resolver_count (h : Host δ) (layer : Layer) (f : Counters → Counters) :
    (h.count layer f).resolver = h.resolver := by
  obtain ⟨_, _, _, _, _, _, _, he, -⟩ := count_eq h layer f
  rw [he]

@[simp] theorem wakeups_count (h : Host δ) (layer : Layer) (f : Counters → Counters) :
    (h.count layer f).wakeups = h.wakeups := by
  obtain ⟨_, _, _, _, _, _, _, he, -⟩ := count_eq h layer f
  rw [he]

@[simp] theorem notified_count (h : Host δ) (layer : Layer) (f : Counters → Counters) :
    (h.count layer f).notified = h.notified := by
  obtain ⟨_, _, _, _, _, _, _, he, -⟩ := count_eq h layer f
  rw [he]

@[simp] theorem txBuffer_count (h : Host δ) (layer : Layer) (f : Counters → Counters) :
    (h.count layer f).txBuffer = h.txBuffer := by
  obtain ⟨_, _, _, _, _, _, _, he, -⟩ := count_eq h layer f
  rw [he]

@[simp] theorem rxBuffer_count (h : Host δ) (layer : Layer) (f : Counters → Counters) :
    (h.count layer f).rxBuffer = h.rxBuffer := by
  obtain ⟨_, _, _, _, _, _, _, he, -⟩ := count_eq h layer f
  rw [he]

@[simp] theorem deviceCounters_count_socket (h : Host δ) (s : Bounded.Handle) (f : Counters → Counters) :
    (h.count (.socket s) f).deviceCounters = h.deviceCounters := by
  unfold count modifySocket
  dsimp only
  split <;> rfl

@[simp] theorem checked_count (h : Host δ) (layer : Layer) (f : Counters → Counters) :
    (h.count layer f).endpoint.checked = h.endpoint.checked := by
  cases layer with
  | socket s => unfold count modifySocket; dsimp only; split <;> rfl
  | _ => rfl

/-! ## Properties that survive passes -/

/-- A lookup is harmless on the way of a packet: its hardware address is known, or the property
survives lookups. -/
def MayAsk (P : Host δ → Prop) (t : Transit) : Prop :=
  t.info.dstLink.isSome = true ∨ ∀ {h : Host δ} (x : Ipv4.Address) (task : Option Task), P h → P (h.asked x task)

theorem MayAsk.stacked {t t' : Transit} (hm : MayAsk P t) (hs : Stacked t t') : MayAsk P t' :=
  hm.imp hs.link id

theorem receive_bytes : ∀ (depth : Nat) {h h' : Host δ} {layer caller : Layer} {t t' : Transit}
    {r : Except Fault Unit}, h.receive t depth layer caller = some (r, h', t') →
    t'.packet.bytes = t.packet.bytes
  | 0, h, h', layer, caller, t, t', r, e => by cases e; rfl
  | depth + 1, h, h', layer, caller, t, t', r, e => by
    unfold Host.receive at e
    split at e
    · cases e
    · rename_i hx; cases e; exact receiveAt_bytes hx
    · rename_i hx; cases e; exact receiveAt_bytes hx
    · rename_i hx; exact (receive_bytes depth e).trans (receiveAt_bytes hx)

/-- On its way up a packet leaves no trace in the device. -/
theorem receive_device : ∀ (depth : Nat) {h h' : Host δ} {layer caller : Layer} {t t' : Transit}
    {r : Except Fault Unit}, h.receive t depth layer caller = some (r, h', t') → h'.device = h.device
  | 0, h, h', layer, caller, t, t', r, e => by cases e; rfl
  | depth + 1, h, h', layer, caller, t, t', r, e => by
    have hat : ∀ {g : Host δ} {u : Transit} {next : Except Fault Next},
        h.receiveAt layer caller t = some (next, g, u) → g.device = h.device := by
      intro g u next hx
      rcases receiveAt_cases hx with rfl | ⟨_, _, _, -, -, rfl⟩ | ⟨_, _, -, -, rfl⟩ <;> rfl
    unfold Host.receive at e
    split at e
    · cases e
    · rename_i hx; cases e; rw [device_count]; exact hat hx
    · rename_i hx; cases e; rw [device_count]; exact hat hx
    · rename_i hx; exact (receive_device depth e).trans ((device_count ..).trans (hat hx))

variable [Nic δ]

/-- A property that counting and stacking headers keep, looking up an address apart. -/
structure StableDown (P : Host δ → Prop) : Prop where
  count : ∀ {h : Host δ} (layer : Layer) (f : Counters → Counters), P h → P (h.count layer f)
  numbered : ∀ {h : Host δ} (ident : UInt16), P h → P (h.numbered ident)

/-- A property that every step of a layer keeps, looking up an address apart. -/
structure Stable (P : Host δ → Prop) : Prop extends StableDown P where
  heard : ∀ {h : Host δ} {p : Packet} {next : Except Fault Next} {r : Arp.Resolver} {w : Wakeups},
    P h → h.resolver.receivePass p h.now h.wakeups = some (next, r, w) → P (h.heard r w)
  handed : ∀ {h : Host δ} {s : Bounded.Handle} {socket : Udp.Socket} (t : Transit),
    P h → h.sockets.get? s = some socket → P (h.handed s socket t)
  sent : ∀ {h : Host δ} (frame : Octets), P h → P (h.sent frame)

variable {P : Host δ → Prop}

/-! ## Passes -/

theorem Stable.receiveAt (hs : Stable P) {h h' : Host δ} {layer caller : Layer} {t t' : Transit}
    {r : Except Fault Next} (hp : P h) (e : h.receiveAt layer caller t = some (r, h', t')) : P h' := by
  rcases receiveAt_cases e with rfl | ⟨_, _, _, -, hx, rfl⟩ | ⟨s, socket, -, hx, rfl⟩
  · exact hp
  · exact hs.heard hp hx
  · exact hs.handed t hp hx

theorem Stable.receive (hs : Stable P) : ∀ (depth : Nat) {h h' : Host δ} {layer caller : Layer}
    {t t' : Transit} {r : Except Fault Unit}, P h →
    h.receive t depth layer caller = some (r, h', t') → P h'
  | 0, h, h', layer, caller, t, t', r, hp, e => by cases e; exact hp
  | depth + 1, h, h', layer, caller, t, t', r, hp, e => by
    unfold Host.receive at e
    split at e
    · cases e
    · rename_i hx; cases e; exact hs.count _ _ (hs.receiveAt hp hx)
    · rename_i hx; cases e; exact hs.count _ _ (hs.receiveAt hp hx)
    · rename_i hx; exact Stable.receive hs depth (hs.count _ _ (hs.receiveAt hp hx)) e

theorem StableDown.transmitAt (hs : StableDown P) {h h' : Host δ} {layer caller : Layer} {t t' : Transit}
    {r : Except Fault Next} (hm : MayAsk P t) (hp : P h)
    (e : h.transmitAt layer caller t = some (r, h', t')) : P h' := by
  rcases transmitAt_cases e with rfl | ⟨ident, rfl⟩ | ⟨hl, rfl, -⟩
  · exact hp
  · exact hs.numbered ident hp
  · rcases hm with hm | hm
    · rw [hl] at hm; cases hm
    · exact hm _ _ hp

theorem StableDown.descend (hs : StableDown P) : ∀ (depth : Nat) {h h' : Host δ} {layer caller : Layer}
    {t t' : Transit} {r : Except Fault (List (Layer × Layer))}, MayAsk P t → P h →
    h.descend t depth layer caller = some (r, h', t') → P h'
  | 0, h, h', layer, caller, t, t', r, hm, hp, e => by cases e; exact hp
  | depth + 1, h, h', layer, caller, t, t', r, hm, hp, e => by
    unfold Host.descend at e
    split at e
    · cases e
    · rename_i hx; cases e; exact hs.transmitAt hm hp hx
    · rename_i hx; cases e; exact hs.count _ _ (hs.transmitAt hm hp hx)
    · rename_i hx; cases e; exact hs.transmitAt hm hp hx
    · rename_i hx
      have hp' := hs.transmitAt hm hp hx
      have hm' := hm.stacked (transmitAt_stacked hx)
      split at e
      · cases e
      · rename_i hy; cases e; exact StableDown.descend hs depth hm' hp' hy
      · rename_i hy; cases e; exact StableDown.descend hs depth hm' hp' hy

theorem descend_stacked : ∀ (depth : Nat) {h h' : Host δ} {layer caller : Layer} {t t' : Transit}
    {r : Except Fault (List (Layer × Layer))},
    h.descend t depth layer caller = some (r, h', t') → Stacked t t'
  | 0, h, h', layer, caller, t, t', r, e => by cases e; exact Stacked.refl t
  | depth + 1, h, h', layer, caller, t, t', r, e => by
    unfold Host.descend at e
    split at e
    · cases e
    · rename_i hx; cases e; exact transmitAt_stacked hx
    · rename_i hx; cases e; exact transmitAt_stacked hx
    · rename_i hx; cases e; exact transmitAt_stacked hx
    · rename_i hx
      split at e
      · cases e
      · rename_i hy; cases e; exact (transmitAt_stacked hx).trans (descend_stacked depth hy)
      · rename_i hy; cases e; exact (transmitAt_stacked hx).trans (descend_stacked depth hy)

theorem Stable.finishAt (hs : Stable P) {h h' : Host δ} {layer caller : Layer} {t t' : Transit}
    {r : Except Fault Finish} (hp : P h) (e : h.finishAt layer caller t = some (r, h', t')) : P h' := by
  rcases finishAt_cases e with rfl | ⟨frame, rfl⟩
  · exact hp
  · exact hs.sent frame hp

theorem Stable.finish (hs : Stable P) : ∀ (path : List (Layer × Layer)) {h h' : Host δ}
    {t t' : Transit} {r : Except Fault Unit}, P h → h.finish t path = some (r, h', t') → P h'
  | [], h, h', t, t', r, hp, e => by cases e; exact hp
  | (layer, caller) :: rest, h, h', t, t', r, hp, e => by
    unfold Host.finish at e
    split at e
    · cases e
    · rename_i hx; cases e; exact hs.count _ _ (hs.finishAt hp hx)
    · rename_i hx; exact Stable.finish hs rest (hs.count _ _ (hs.finishAt hp hx)) e
    · rename_i hx
      obtain ⟨⟨_, _, _⟩, hy, he⟩ := Option.map_eq_some_iff.1 e
      cases he
      exact hs.receive _ (hs.count _ _ (hs.finishAt hp hx)) hy

theorem finish_length : ∀ (path : List (Layer × Layer)) {h h' : Host δ} {t t' : Transit}
    {r : Except Fault Unit}, t.packet.InOrder → h.finish t path = some (r, h', t') →
    t'.packet.bytes.length = t.packet.bytes.length
  | [], h, h', t, t', r, hp, e => by cases e; rfl
  | (layer, caller) :: rest, h, h', t, t', r, hp, e => by
    unfold Host.finish at e
    split at e
    · cases e
    · rename_i hx; cases e; exact (finishAt_inOrder hx hp).2
    · rename_i hx
      obtain ⟨hp', hl⟩ := finishAt_inOrder hx hp
      exact (finish_length rest hp' e).trans hl
    · rename_i hx
      obtain ⟨⟨_, _, _⟩, hy, he⟩ := Option.map_eq_some_iff.1 e
      cases he
      rw [receive_bytes _ hy]; exact (finishAt_inOrder hx hp).2

/-- Sending ends on the way down, or finishes the packet along the way taken. -/
theorem transmit_cases {h h' : Host δ} {layer caller : Layer} {t t' : Transit} {r : Except Fault Unit}
    (e : h.transmit t layer caller = some (r, h', t')) :
    (∃ f, r = .error f ∧ h.descend t Limits.depth layer caller = some (.error f, h', t')) ∨
      ∃ path g u, h.descend t Limits.depth layer caller = some (.ok path, g, u) ∧
        g.finish u path = some (r, h', t') := by
  unfold Host.transmit at e
  split at e
  · cases e
  · rename_i hx; cases e; exact .inl ⟨_, rfl, hx⟩
  · rename_i hx; exact .inr ⟨_, _, _, hx, e⟩

theorem Stable.transmit (hs : Stable P) {h h' : Host δ} {layer caller : Layer} {t t' : Transit}
    {r : Except Fault Unit} (hm : MayAsk P t) (hp : P h)
    (e : h.transmit t layer caller = some (r, h', t')) : P h' := by
  rcases transmit_cases e with ⟨f, -, hx⟩ | ⟨path, g, u, hx, hf⟩
  · exact hs.descend _ hm hp hx
  · exact hs.finish _ (hs.descend _ hm hp hx) hf

theorem transmit_length {h h' : Host δ} {layer caller : Layer} {t t' : Transit} {r : Except Fault Unit}
    (hp : t.packet.InOrder) (e : h.transmit t layer caller = some (r, h', t')) :
    t'.packet.bytes.length = t.packet.bytes.length := by
  rcases transmit_cases e with ⟨f, -, hx⟩ | ⟨path, g, u, hx, hf⟩
  · exact ((descend_stacked _ hx).inOrder hp).2
  · obtain ⟨hu, hl⟩ := (descend_stacked _ hx).inOrder hp
    exact (finish_length _ hu hf).trans hl

end UdpStack.Host
