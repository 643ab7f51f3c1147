/-
New hosts and their own addresses. A host with the address of a single host outside of the loopback can be
created under every mask without a gap: its tables have room, and it takes datagrams to no address twice
(`create_ok`). It reaches itself in two ways. Its own address leads through Ethernet, to a hardware address
that is known without a question and that its filter lets through (`lookup_own`, `resolves_own`); the address
of the loopback leads through the loopback (`lookup_loopback`).
-/
import UdpStack.Proofs.Arp.Fixed
import UdpStack.Proofs.Host.Broadcast

namespace UdpStack.Host

open Bounded Device

/-! ## Creating a host -/

section create

variable {ways : List Ipv4.Route} {addresses : List (Ipv4.Address × Layer)}
  {handled : List (Ipv4.Protocol × Layer)} {r : Ipv4.Router} {config : Config}

theorem Equipped.addRoute_of_room (he : Equipped ways addresses handled r) (route : Ipv4.Route)
    (hmask : route.mask.prefixLen?.isSome = true) (hroom : ways.length < Limits.routes) :
    ∃ r', r.addRoute route = .ok r' ∧ Equipped (route :: ways) addresses handled r' := by
  have hlen : r.routes.toList.length < Limits.routes := by rw [he.perm.length_eq]; exact hroom
  obtain ⟨routes, hr⟩ := Ipv4.Routes.add_of_room he.routes hmask hlen
  have hadd : r.addRoute route = .ok { r with routes := routes } := by
    unfold Ipv4.Router.addRoute
    rw [hr]
    rfl
  exact ⟨_, hadd, (he.addRoute hadd).1⟩

theorem Equipped.addIncoming_of_room (he : Equipped ways addresses handled r) (x : Ipv4.Address) (layer : Layer)
    (hnew : ∀ e ∈ addresses, e.1 ≠ x) (hroom : addresses.length < Limits.incoming) :
    ∃ r', r.addIncoming x layer = .ok r' ∧ Equipped ways (addresses ++ [(x, layer)]) handled r' := by
  rw [← he.addresses] at hnew hroom
  have hlen : r.incoming.toList.length = r.incoming.pairs.size := he.incoming.pairs.length_toList
  obtain ⟨m, hm⟩ := Map.insert_of_room (Map.get?_eq_none_iff.2 hnew) (by omega) layer
  have hadd : r.addIncoming x layer = .ok { r with incoming := m } := by
    unfold Ipv4.Router.addIncoming
    rw [hm]
    rfl
  exact ⟨_, hadd, he.addIncoming hadd⟩

theorem Equipped.register_of_room (he : Equipped ways addresses handled r) (p : Ipv4.Protocol) (layer : Layer)
    (hnew : ∀ e ∈ handled, e.1 ≠ p) (hroom : handled.length < Limits.protocols) :
    ∃ r', r.register p layer = .ok r' := by
  rw [← he.handled] at hnew hroom
  have hlen : r.protocols.toList.length = r.protocols.pairs.size := he.protocols.pairs.length_toList
  obtain ⟨m, hm⟩ := Map.insert_of_room (Map.get?_eq_none_iff.2 hnew) (by omega) layer
  unfold Ipv4.Router.register
  rw [hm]
  exact ⟨_, rfl⟩

theorem route_create_ok {net mask : Ipv4.Address} (layer : Layer) (h : mask.prefixLen?.isSome = true) :
    Ipv4.Route.create net mask layer = .ok ⟨net, mask, layer⟩ := by
  obtain ⟨n, hn⟩ := Option.isSome_iff_exists.1 h
  unfold Ipv4.Route.create
  rw [hn]

theorem bind_ok_of_ok {α β : Type} {x : Except Fault α} {f : α → Except Fault β} {a : α} (hx : x = .ok a)
    (hf : ∃ b, f a = .ok b) : ∃ b, x >>= f = .ok b := by
  rw [hx]
  exact hf

/-- The internet layer of a new host has room for all that it starts with. -/
theorem newRouter_ok (hmask : config.mask.prefixLen?.isSome = true) (hunicast : config.addr.isUnicast = true)
    (hhost : config.addr.isLoopback = false) : ∃ r, newRouter config = .ok r := by
  have hown : config.addr ≠ .loopback := by rintro h; rw [h] at hhost; cases hhost
  have hall : config.addr ≠ .broadcast := by rintro h; rw [h] at hunicast; cases hunicast
  have hlast := Ipv4.Address.subnetBroadcast_ne_loopback (x := config.addr) hmask hhost
  unfold newRouter
  -- the routes
  refine bind_ok_of_ok rfl ?_
  obtain ⟨r₁, h₁, e₁⟩ := empty_equipped.addRoute_of_room ⟨⟨127, 0, 0, 0⟩, .netmask 8, .loopback⟩ (by decide)
    (by decide)
  refine bind_ok_of_ok h₁ (bind_ok_of_ok (route_create_ok _ hmask) ?_)
  obtain ⟨r₂, h₂, e₂⟩ := e₁.addRoute_of_room ⟨config.addr.mask config.mask, config.mask, .ethernet⟩ hmask
    (show 1 < Limits.routes by decide)
  refine bind_ok_of_ok h₂ (bind_ok_of_ok rfl ?_)
  obtain ⟨r₃, h₃, e₃⟩ := e₂.addRoute_of_room ⟨.broadcast, .netmask 32, .ethernet⟩ (by decide)
    (show 2 < Limits.routes by decide)
  refine bind_ok_of_ok h₃ ?_
  -- the addresses, of which no two are the same
  obtain ⟨r₄, h₄, e₄⟩ := e₃.addIncoming_of_room .loopback .loopback nofun (show 0 < Limits.incoming by decide)
  refine bind_ok_of_ok h₄ ?_
  obtain ⟨r₅, h₅, e₅⟩ := e₄.addIncoming_of_room config.addr .ethernet (by simpa using hown.symm)
    (show 1 < Limits.incoming by decide)
  refine bind_ok_of_ok h₅ ?_
  obtain ⟨r₆, h₆, e₆⟩ := e₅.addIncoming_of_room .broadcast .ethernet (by simpa using ⟨by decide, hall⟩)
    (show 2 < Limits.incoming by decide)
  refine bind_ok_of_ok h₆ ?_
  dsimp only
  split
  · rename_i hnew
    simp only [Bool.and_eq_true, bne_iff_ne, ne_eq, Bool.not_eq_true'] at hnew
    obtain ⟨r₇, h₇, e₇⟩ := e₆.addIncoming_of_room (config.addr.subnetBroadcast config.mask) .ethernet
      (by simpa using ⟨hlast.symm, Ne.symm hnew.1, fun h => by rw [← h] at hnew; cases hnew.2⟩)
      (show 3 < Limits.incoming by decide)
    refine bind_ok_of_ok h₇ ?_
    exact e₇.register_of_room .udp .udp nofun (show 0 < Limits.protocols by decide)
  · refine bind_ok_of_ok rfl ?_
    exact e₆.register_of_room .udp .udp nofun (show 0 < Limits.protocols by decide)

theorem newEndpoint_ok (config : Config) (check : CheckMode) : ∃ e, newEndpoint config check = .ok e := by
  unfold newEndpoint
  refine bind_ok_of_ok rfl ?_
  cases config.mode with
  | derived => exact ⟨_, rfl⟩
  | table => exact ⟨_, rfl⟩

/-- A host with the address of a single host, which is none of the loopback, can be created. -/
theorem create_ok {δ : Type} [Nic δ] (d : δ) (hmask : config.mask.prefixLen?.isSome = true)
    (hunicast : config.addr.isUnicast = true) (hhost : config.addr.isLoopback = false) :
    ∃ h, create d config = .ok h := by
  obtain ⟨e, he⟩ := newEndpoint_ok config (Nic.personality d).check
  obtain ⟨r, hr⟩ := newRouter_ok hmask hunicast hhost
  exact bind_ok_of_ok he (bind_ok_of_ok hr ⟨_, rfl⟩)

end create

/-! ## Reaching oneself -/

section own

variable {config : Config}

/-- The own address leads through Ethernet. -/
theorem lookup_own {addresses : List (Ipv4.Address × Layer)} {handled : List (Ipv4.Protocol × Layer)}
    {r : Ipv4.Router} (hr : Equipped (homeRoutes config) addresses handled r)
    (hhost : config.addr.isLoopback = false) :
    ∃ route, r.routes.lookup config.addr = some route ∧ route.layer = .ethernet :=
  lookup_subnet hr rfl hhost

/-- The hardware address that a new host has for itself. A table of neighbors takes the last address of the
subnet for that of all hosts, even if it is the own one. -/
def ownHardware (config : Config) : Ethernet.Address :=
  if config.mode = .table ∧ config.addr.subnetBroadcast config.mask = config.addr then .broadcast
  else config.hardware

theorem resolves_own (hunicast : config.addr.isUnicast = true) (hc : config.hardware = .ofIpv4 config.addr)
    (task : Option Task) (now : Instant) :
    ((newResolver config).lookup config.addr task now).1 = .ok (ownHardware config) := by
  unfold newResolver ownHardware
  cases config.mode with
  | derived =>
    show Except.ok (Arp.Resolver.derive config.addr) = _
    unfold Arp.Resolver.derive
    rw [hunicast, hc]
    rfl
  | table =>
    have hfixed := Arp.Table.fixed?_own config.hardware config.mask hunicast
    show (Arp.Table.lookup _ config.addr task now).1 = _
    rw [Arp.Table.lookup_of_fixed hfixed]
    simp

/-- The resolver of a new host has nothing to ask again. -/
theorem expire_new (config : Config) (now : Instant) (w : Wakeups) :
    (newResolver config).expire now w = (newResolver config, w) := by
  unfold newResolver
  cases config.mode <;> rfl

variable {δ : Type} {manual : Bool} {h : Host δ}

/-- Frames to oneself are let through. -/
theorem accepts_ownHardware (ha : h.setup.Assembled manual) : h.endpoint.accepts (ownHardware h.config) = true := by
  have haddr : h.endpoint.addr = h.config.hardware := ha.addr
  unfold ownHardware Ethernet.Endpoint.accepts
  split
  · simp [Ethernet.Address.isBroadcast]
  · simp [haddr]

/-- Through Ethernet a host takes datagrams to its own address. -/
theorem accepts_own (ha : h.setup.Assembled manual) (hunicast : h.config.addr.isUnicast = true) :
    h.router.accepts h.config.addr .ethernet = true := by
  have hw : h.router.incoming.WF := ha.incoming
  exact beq_iff_eq.2 (hw.get?_eq_some_iff.2 (List.mem_of_find?_eq_some (ha.source hunicast)))

end own

end UdpStack.Host
