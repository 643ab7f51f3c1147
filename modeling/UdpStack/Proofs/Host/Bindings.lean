/-
Ports and bindings in whole runs. The port of a socket is kept in the socket and among the ports, and each of the
two changes with the other: a call that fails to bind a socket, to give up its binding or to give it back changes
nothing (`unchanged_of_release_error`). So in every host of a run the ports are those of the current bound sockets, each
once and none of them zero, a datagram is handed only to a socket that has its port, and a socket that is given
back leaves no port behind (`ports_agree`).
-/
import UdpStack.Proofs.Host.Effects
import UdpStack.Proofs.Udp.Ports

namespace UdpStack.Host

open Bounded Device

variable {δ : Type}

/-! ## Calls that fail -/

section Failures

variable {h h' : Host δ} {s : Handle} {f : Fault}

theorem unchanged_of_bind_error {addr : Ipv4.Address} {port : UInt16}
    (e : h.bind s addr port = (.error f, h')) : h' = h := by
  rcases bind_cases e with he | ⟨socket, ports, hs, hn, hp, -⟩
  · exact he
  · have hk : h.bind s addr port = (.ok (), h.bound s socket ⟨addr, port⟩ ports) := by
      unfold Host.bind Udp.Socket.bind
      rw [hs]
      dsimp only
      rw [hn, hp]
      rfl
    rw [hk] at e; cases e

theorem unchanged_of_unbind_error (ha : h.setup.Agree) (e : h.unbind s = (.error f, h')) : h' = h := by
  rcases unbind_cases ha s with ⟨he, -⟩ | ⟨socket, b, -, -, he⟩
  · rw [he] at e; cases e; rfl
  · rw [he] at e; cases e

theorem unchanged_of_release_error (ha : h.setup.Agree) (e : h.release s = (.error f, h')) : h' = h := by
  rcases release_cases ha s with ⟨-, he⟩ | ⟨_, _, -, -, he⟩
  · rw [he] at e
    obtain ⟨hr, rfl⟩ := Prod.mk.inj e
    cases hs : h.sockets.get? s with
    | none => exact vacated_of_none hs
    | some socket =>
      rw [hs] at hr; cases hr
  · rw [he] at e; cases e

end Failures

/-! ## Ports -/

section Agreement

variable {h : Host δ}

/-- Ports and bindings agree, in terms of what the host answers. -/
theorem layerOf?_iff (ha : h.setup.Agree) (port : UInt16) (layer : Layer) :
    h.ports.layerOf? port = some layer ↔
      ∃ s b, layer = .socket s ∧ h.binding? s = some b ∧ b.port = port := by
  have hb : ∀ s b, h.setup.bindings s = some (some b) ↔ h.binding? s = some b := by
    intro s b
    show (h.sockets.get? s).map (·.binding) = _ ↔ (h.sockets.get? s).bind (·.binding) = _
    cases h.sockets.get? s <;> simp
  simp only [← hb]
  exact ha.agree port layer

/-- Only one socket has a port. -/
theorem eq_of_port_eq (ha : h.setup.Agree) {x y : Handle} {c d : Udp.Binding} (hc : h.binding? x = some c)
    (hd : h.binding? y = some d) (hp : c.port = d.port) : x = y := by
  have hx := (layerOf?_iff ha c.port (.socket x)).2 ⟨x, c, rfl, hc, rfl⟩
  have hy := (layerOf?_iff ha c.port (.socket y)).2 ⟨y, d, rfl, hd, hp.symm⟩
  rw [hx] at hy
  cases hy
  rfl

theorem layers_nodup (ha : h.setup.Agree) : (h.ports.table.toList.map (·.2)).Nodup := by
  have hw : h.ports.table.WF := ha.ports
  refine List.Nodup.map_on ?_ (List.Nodup.of_map _ hw.nodup)
  rintro ⟨p, layer⟩ hp ⟨q, _⟩ hq rfl
  -- both are the port of the binding of one socket
  obtain ⟨s, b, rfl, hb, rfl⟩ := (layerOf?_iff ha p layer).1 (hw.get?_eq_some_iff.2 hp)
  obtain ⟨_, c, hl, hc, rfl⟩ := (layerOf?_iff ha q (.socket s)).1 (hw.get?_eq_some_iff.2 hq)
  cases hl
  rw [hb] at hc; cases hc
  rfl

/-- A datagram is handed only to a socket that is bound to its port. -/
theorem receivePass_bound (ha : h.setup.Agree) {t t' : Transit} {layer : Layer}
    (e : h.ports.receivePass t = some (.ok (.layer layer), t')) :
    ∃ s b, layer = .socket s ∧ h.binding? s = some b ∧ b.port = t'.info.dstPort := by
  cases hu : t.packet.unread? with
  | none => unfold Udp.Ports.receivePass at e; rw [hu] at e; cases e
  | some bytes =>
    rcases Udp.Ports.receivePass_cases (u := h.ports) hu with ⟨upper, p, ht, he, -⟩ | ⟨f, t'', he, -⟩
    · rw [he] at e; cases e
      exact (layerOf?_iff ha _ layer).1 ht.port
    · rw [he] at e; cases e

/-- A socket that is given back is dead, and its port is free. -/
theorem release_frees (ha : h.setup.Agree) {h' : Host δ} {s : Handle} (e : h.release s = (.ok (), h')) :
    h'.sockets.get? s = none ∧ ∀ b, h.binding? s = some b → h'.ports.layerOf? b.port = none := by
  have hdead : ∀ g : Host δ, (g.vacated s).sockets.get? s = none := by
    intro g
    show (g.sockets.release s).2.get? s = none
    rw [Pool.get?_release, if_pos rfl]
  rcases release_cases ha s with ⟨hn, he⟩ | ⟨socket, b, hs, hb, he⟩
  · rw [he] at e
    obtain ⟨-, rfl⟩ := Prod.mk.inj e
    refine ⟨hdead h, ?_⟩
    intro b hb
    obtain ⟨socket, hs, hsb⟩ := Option.bind_eq_some_iff.1 hb
    exact absurd ((bindings_of_get? hs).trans (congrArg some hsb)) (hn b)
  · rw [he] at e
    obtain ⟨-, rfl⟩ := Prod.mk.inj e
    refine ⟨hdead _, ?_⟩
    intro c hc
    have hcb : h.binding? s = some b := by unfold binding?; rw [hs, Option.bind_some, hb]
    obtain rfl : b = c := Option.some.inj (hcb.symm.trans hc)
    show (h.ports.table.remove b.port).2.get? b.port = none
    have hw : h.ports.table.WF := ha.ports
    rw [Map.get?_remove hw, if_pos rfl]

end Agreement

/-! ## Runs -/

section Runs

variable [Nic δ] {h h' : Host δ}

/-- No call gives the port zero to a layer. -/
theorem portZero_perform (ha : h.setup.Agree) (hz : h.ports.table.get? 0 = none) {c : Call δ} {a : Answer}
    (e : h.perform c = some (a, h')) : h'.ports.table.get? 0 = none := by
  have hw : h.ports.table.WF := ha.ports
  have removed : ∀ port, (h.ports.table.remove port).2.get? 0 = none := by
    intro port
    rw [Map.get?_remove hw, hz]
    split <;> rfl
  cases effect_perform ha e with
  | same _ => exact hz
  | acquire _ => exact hz
  | release _ => exact hz
  | releaseBound _ _ => exact removed _
  | bind _ _ hp =>
    obtain ⟨hne, m, hi, rfl⟩ := ports_bind_eq_ok hp
    show m.get? 0 = none
    rw [Map.get?_insert hw hi, if_neg hne.symm]
    exact hz
  | unbind _ _ => exact removed _
  | send hx =>
    have hp : h'.ports.table = h.ports.table := congrArg Setup.ports (setup_send hx)
    rw [hp]; exact hz
  | recv _ _ => exact hz
  | cancel _ => exact hz
  | poll hx =>
    have hp : h'.ports.table = h.ports.table := congrArg Setup.ports (setup_poll hx)
    rw [hp]; exact hz
  | routes _ _ => exact hz
  | join _ => exact hz
  | leave _ => exact hz
  | device _ => exact hz
  | fill _ _ => exact hz
  | resolver _ => exact hz

theorem run_agree {d : δ} {config : Config} (hd : create d config = .ok h) {es : List (Call δ × Answer)}
    (hr : Run (fun _ _ => True) h es h') : h'.setup.Agree ∧ h'.ports.table.get? 0 = none := by
  refine Run.keeps (P := fun g => g.setup.Agree ∧ g.ports.table.get? 0 = none) ?_ ?_ hr
  · rintro g g' c a ⟨ha, hz⟩ - e
    exact ⟨agree_perform ha e, portZero_perform ha hz e⟩
  · refine ⟨agree_create hd, ?_⟩
    obtain ⟨endpoint, router, -, -, rfl⟩ := create_eq_ok hd
    rfl

/-- In every host of a run the ports belong to the current sockets that are bound to them, each port and each
socket once, and the port zero to nobody. A call to bind, to give up a binding or to give a socket back that fails
changes nothing. So a datagram is handed only to a socket that is bound to its port, and a socket that is given
back is dead and leaves its port free. -/
theorem ports_agree {d : δ} {config : Config} {h g : Host δ} (hd : create d config = .ok h)
    {es : List (Call δ × Answer)} (hr : Run (fun _ _ => True) h es g) :
    (∀ port layer, g.ports.layerOf? port = some layer ↔
      ∃ s b, layer = .socket s ∧ g.binding? s = some b ∧ b.port = port) ∧
    g.ports.layerOf? 0 = none ∧
    (g.ports.table.toList.map (·.1)).Nodup ∧ (g.ports.table.toList.map (·.2)).Nodup ∧
    (∀ s f g', ((∃ addr port, g.bind s addr port = (.error f, g')) ∨ g.unbind s = (.error f, g') ∨
      g.release s = (.error f, g')) → g' = g) ∧
    (∀ t t' layer, g.ports.receivePass t = some (.ok (.layer layer), t') →
      ∃ s b, layer = .socket s ∧ g.binding? s = some b ∧ b.port = t'.info.dstPort) ∧
    ∀ s g', g.release s = (.ok (), g') →
      g'.sockets.get? s = none ∧ ∀ b, g.binding? s = some b → g'.ports.layerOf? b.port = none := by
  obtain ⟨ha, hz⟩ := run_agree hd hr
  have hw : g.ports.table.WF := ha.ports
  refine ⟨layerOf?_iff ha, hz, hw.nodup, layers_nodup ha, ?_, fun _ _ _ => receivePass_bound ha,
    fun _ _ => release_frees ha⟩
  rintro s f g' (⟨addr, port, e⟩ | e | e)
  · exact unchanged_of_bind_error e
  · exact unchanged_of_unbind_error ha e
  · exact unchanged_of_release_error ha e

/-- A second socket is refused the port of the first one, which is free once the first one is given back. -/
theorem ports_agree_released : ∃ g g' : Host (Device.Loopback 1),
    g.ports.layerOf? 7 = some (.socket ⟨0, 0⟩) ∧ g.binding? ⟨0, 0⟩ = some ⟨.unspecified, 7⟩ ∧
      (∃ f, g.bind ⟨1, 0⟩ .unspecified 7 = (.error f, g)) ∧ g.release ⟨0, 0⟩ = (.ok (), g') ∧
      g'.sockets.get? ⟨0, 0⟩ = none ∧ g'.ports.layerOf? 7 = none := by
  have hx : (do
      let h ← (create (Device.Loopback.create 1 {}) (.create ⟨10, 0, 0, 1⟩ ⟨255, 255, 255, 0⟩)).toOption
      let (_, g) ← h.performAll [.acquire, .acquire, .bind ⟨0, 0⟩ .unspecified 7]
      if (g.bind ⟨1, 0⟩ .unspecified 7).1.toOption.isSome then none
      else (g.release ⟨0, 0⟩).1.toOption.bind fun _ => g.binding? ⟨0, 0⟩) = some ⟨.unspecified, 7⟩ := by
    decide +kernel
  obtain ⟨h, hd, hx⟩ := Option.bind_eq_some_iff.1 hx
  obtain ⟨⟨es, g⟩, hr, hx⟩ := Option.bind_eq_some_iff.1 hx
  have hrun : Run (fun _ _ => True) h _ g := run_performAll _ .nil (by simp) hr
  obtain ⟨hports, -, -, -, hfail, -, hfree⟩ := ports_agree (eq_ok_of_toOption hd) hrun
  dsimp only at hx
  split at hx
  · cases hx
  · rename_i hrefused
    obtain ⟨⟨⟩, hk, hb⟩ := Option.bind_eq_some_iff.1 hx
    have hreleased : g.release ⟨0, 0⟩ = (.ok (), (g.release ⟨0, 0⟩).2) := Prod.ext (eq_ok_of_toOption hk) rfl
    obtain ⟨hdead, hport⟩ := hfree ⟨0, 0⟩ _ hreleased
    refine ⟨g, _, (hports 7 _).2 ⟨⟨0, 0⟩, _, rfl, hb, rfl⟩, hb, ?_, hreleased, hdead, hport _ hb⟩
    cases hbind : g.bind ⟨1, 0⟩ .unspecified 7 with
    | mk r g' =>
      cases r with
      | ok _ => rw [hbind] at hrefused; exact absurd rfl hrefused
      | error f =>
        obtain rfl := hfail ⟨1, 0⟩ f g' (.inl ⟨_, _, hbind⟩)
        exact ⟨f, rfl⟩

end Runs

end UdpStack.Host
