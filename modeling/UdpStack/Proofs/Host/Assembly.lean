/-
How a host is put together, in every reachable host. Ethernet hands internet datagrams to the
internet layer, that hands user datagrams to the ports, the ports send through the internet layer,
and check sequences are verified as the device asked for at first (`Assembled`). Groups come and go,
but through Ethernet the address of the host stays the first that datagrams are sent from, and through
the loopback its own address does. Of a new host the routes and the addresses are known as a whole
(`newRouter_eq_ok`).
-/
import UdpStack.Proofs.Host.Effects
import UdpStack.Proofs.Ipv4.Routes

namespace UdpStack.Host

open Bounded Device

variable {δ : Type}

/-! ## The address that datagrams are sent from -/

/-- The first entry of a single host that datagrams through a layer may be sent from. -/
def source? (way : Layer) (m : Map Ipv4.Address Layer Limits.incoming) : Option (Ipv4.Address × Layer) :=
  m.toList.find? fun e => e.2 == way && e.1.isUnicast

theorem source?_insert {m m' : Map Ipv4.Address Layer Limits.incoming} (hw : m.WF) {x : Ipv4.Address}
    {way layer : Layer} {e : Ipv4.Address × Layer} (hi : m.insert x layer = .ok m')
    (he : source? way m = some e) : source? way m' = some e := by
  unfold source? at he ⊢
  rw [(Map.insert_eq_ok hw hi).2, List.find?_append, he]
  rfl

theorem isUnicast_of_isMulticast {x : Ipv4.Address} (h : x.isMulticast = true) : x.isUnicast = false := by
  unfold Ipv4.Address.isUnicast; rw [h]; simp

/-- A group is no address of a single host, so nothing is sent from it. -/
theorem source?_remove {m : Map Ipv4.Address Layer Limits.incoming} (hw : m.WF) {x : Ipv4.Address}
    (hx : x.isMulticast = true) (way : Layer) : source? way (m.remove x).2 = source? way m := by
  unfold source?
  rw [Map.toList_remove hw, List.find?_filter]
  congr 1
  funext e
  by_cases he : e.1 = x
  · rw [he, isUnicast_of_isMulticast hx]; simp
  · simp only [he, ne_eq, not_false_eq_true, decide_true, true_and, Bool.decide_eq_true]

/-! ## Assembled hosts -/

/-- A host as it is put together at first. -/
structure Setup.Assembled (manual : Bool) (u : Setup) : Prop where
  addr : u.addr = u.config.hardware
  checked : u.checked = manual
  etherTypes : u.etherTypes.WF
  contents : u.etherTypes.toList = (.ipv4, .ipv4) :: match u.config.mode with
    | .derived => []
    | .table => [(.arp, .resolver)]
  protocols : u.protocols.WF
  protocol : u.protocols.toList = [(.udp, .udp)]
  lower : u.lower = .ipv4
  incoming : u.incoming.WF
  source : u.config.addr.isUnicast = true → source? .ethernet u.incoming = some (u.config.addr, .ethernet)
  home : source? .loopback u.incoming = some (.loopback, .loopback)

theorem register_eq_ok {r r' : Ipv4.Router} {p : Ipv4.Protocol} {layer : Layer}
    (h : r.register p layer = .ok r') :
    ∃ m, r.protocols.insert p layer = .ok m ∧ r' = { r with protocols := m } :=
  map_eq_ok h

theorem endpoint_register_eq_ok {e e' : Ethernet.Endpoint} {t : Ethernet.EtherType} {layer : Layer}
    (h : e.register t layer = .ok e') :
    ∃ m, e.etherTypes.insert t layer = .ok m ∧ e' = { e with etherTypes := m } :=
  map_eq_ok h

theorem newEndpoint_eq_ok {config : Config} {check : CheckMode} {e : Ethernet.Endpoint}
    (h : newEndpoint config check = .ok e) :
    e.addr = config.hardware ∧ e.checked = decide (check = .manual) ∧ e.etherTypes.WF ∧
      (e.etherTypes.toList = (.ipv4, .ipv4) :: match config.mode with
        | .derived => []
        | .table => [(.arp, .resolver)]) ∧ e.groups = .empty := by
  unfold newEndpoint at h
  obtain ⟨e₁, h₁, h⟩ := bind_eq_ok h
  obtain ⟨m₁, hi₁, rfl⟩ := endpoint_register_eq_ok h₁
  have hw₁ := Map.insert_wf Map.empty_wf hi₁
  have hl₁ := (Map.insert_eq_ok Map.empty_wf hi₁).2
  cases hm : config.mode with
  | derived => rw [hm] at h; cases h; exact ⟨rfl, rfl, hw₁, hl₁, rfl⟩
  | table =>
    rw [hm] at h
    obtain ⟨m₂, hi₂, rfl⟩ := endpoint_register_eq_ok h
    have hl₂ := (Map.insert_eq_ok hw₁ hi₂).2
    rw [hl₁] at hl₂
    exact ⟨rfl, rfl, Map.insert_wf hw₁ hi₂, hl₂, rfl⟩

theorem route_create_eq_ok {net mask : Ipv4.Address} {layer : Layer} {route : Ipv4.Route}
    (h : Ipv4.Route.create net mask layer = .ok route) : route = ⟨net, mask, layer⟩ := by
  unfold Ipv4.Route.create at h
  split at h
  · cases h; rfl
  · cases h

theorem route_ofPrefixLen_eq_ok {net : Ipv4.Address} {n : Nat} {layer : Layer} {route : Ipv4.Route}
    (h : Ipv4.Route.ofPrefixLen net n layer = .ok route) : route = ⟨net, .netmask n, layer⟩ := by
  unfold Ipv4.Route.ofPrefixLen at h
  split at h
  · cases h
  · cases h; rfl

/-- An internet layer with these routes, in some order, and with these addresses and protocols. -/
structure Equipped (ways : List Ipv4.Route) (addresses : List (Ipv4.Address × Layer))
    (handled : List (Ipv4.Protocol × Layer)) (r : Ipv4.Router) : Prop where
  routes : r.routes.WF
  perm : r.routes.toList.Perm ways
  incoming : r.incoming.WF
  addresses : r.incoming.toList = addresses
  protocols : r.protocols.WF
  handled : r.protocols.toList = handled

section equipped

variable {ways : List Ipv4.Route} {addresses : List (Ipv4.Address × Layer)}
  {handled : List (Ipv4.Protocol × Layer)} {r r' : Ipv4.Router}

theorem empty_equipped : Equipped [] [] [] .empty :=
  ⟨Ipv4.Routes.empty_wf, .refl _, Map.empty_wf, rfl, Map.empty_wf, rfl⟩

theorem Equipped.addRoute (he : Equipped ways addresses handled r) {route : Ipv4.Route}
    (h : r.addRoute route = .ok r') :
    Equipped (route :: ways) addresses handled r' ∧ route.mask.prefixLen?.isSome = true := by
  obtain ⟨m, hm, rfl⟩ := addRoute_eq_ok h
  exact ⟨⟨Ipv4.Routes.add_wf he.routes hm, (Ipv4.Routes.perm_add he.routes hm).trans (he.perm.cons _),
    he.incoming, he.addresses, he.protocols, he.handled⟩, (Ipv4.Routes.add_eq_ok he.routes hm).1⟩

theorem Equipped.addIncoming (he : Equipped ways addresses handled r) {x : Ipv4.Address} {layer : Layer}
    (h : r.addIncoming x layer = .ok r') : Equipped ways (addresses ++ [(x, layer)]) handled r' := by
  obtain ⟨m, hm, rfl⟩ := addIncoming_eq_ok h
  have hl := (Map.insert_eq_ok he.incoming hm).2
  rw [he.addresses] at hl
  exact ⟨he.routes, he.perm, Map.insert_wf he.incoming hm, hl, he.protocols, he.handled⟩

theorem Equipped.register (he : Equipped ways addresses handled r) {p : Ipv4.Protocol} {layer : Layer}
    (h : r.register p layer = .ok r') : Equipped ways addresses (handled ++ [(p, layer)]) r' := by
  obtain ⟨m, hm, rfl⟩ := register_eq_ok h
  have hl := (Map.insert_eq_ok he.protocols hm).2
  rw [he.handled] at hl
  exact ⟨he.routes, he.perm, he.incoming, he.addresses, Map.insert_wf he.protocols hm, hl⟩

end equipped

/-- The routes of a new host. -/
def homeRoutes (config : Config) : List Ipv4.Route :=
  [⟨.broadcast, .netmask 32, .ethernet⟩, ⟨config.addr.mask config.mask, config.mask, .ethernet⟩,
    ⟨⟨127, 0, 0, 0⟩, .netmask 8, .loopback⟩]

/-- The addresses of a new host, each with the layer that leads to it. -/
def homeAddresses (config : Config) : List (Ipv4.Address × Layer) :=
  let last := config.addr.subnetBroadcast config.mask
  [(.loopback, .loopback), (config.addr, .ethernet), (.broadcast, .ethernet)] ++
    if last != config.addr && !last.isBroadcast then [(last, .ethernet)] else []

theorem newRouter_eq_ok {config : Config} {r : Ipv4.Router} (h : newRouter config = .ok r) :
    config.mask.prefixLen?.isSome = true ∧
      Equipped (homeRoutes config) (homeAddresses config) [(.udp, .udp)] r := by
  unfold newRouter at h
  obtain ⟨route₁, hroute₁, h⟩ := bind_eq_ok h
  obtain rfl := route_ofPrefixLen_eq_ok hroute₁
  obtain ⟨r₁, hr₁, h⟩ := bind_eq_ok h
  obtain ⟨h₁, -⟩ := empty_equipped.addRoute hr₁
  obtain ⟨route₂, hroute₂, h⟩ := bind_eq_ok h
  obtain rfl := route_create_eq_ok hroute₂
  obtain ⟨r₂, hr₂, h⟩ := bind_eq_ok h
  obtain ⟨h₂, hcontiguous⟩ := h₁.addRoute hr₂
  obtain ⟨route₃, hroute₃, h⟩ := bind_eq_ok h
  obtain rfl := route_ofPrefixLen_eq_ok hroute₃
  obtain ⟨r₃, hr₃, h⟩ := bind_eq_ok h
  obtain ⟨h₃, -⟩ := h₂.addRoute hr₃
  obtain ⟨r₄, hr₄, h⟩ := bind_eq_ok h
  obtain ⟨r₅, hr₅, h⟩ := bind_eq_ok h
  obtain ⟨r₆, hr₆, h⟩ := bind_eq_ok h
  have h₆ := ((h₃.addIncoming hr₄).addIncoming hr₅).addIncoming hr₆
  refine ⟨hcontiguous, ?_⟩
  unfold homeAddresses
  dsimp only at h ⊢
  split at h
  · rename_i hlast
    obtain ⟨r₇, hr₇, h⟩ := bind_eq_ok h
    rw [if_pos hlast]
    exact (h₆.addIncoming hr₇).register h
  · rename_i hlast
    obtain ⟨r₇, hr₇, h⟩ := bind_eq_ok h
    cases hr₇
    rw [if_neg hlast]
    exact h₆.register h

/-- The address of a host stands in front of all others that datagrams through Ethernet may be sent from,
that of the loopback in front of all. -/
theorem source?_home {config : Config} {r : Ipv4.Router} (h : r.incoming.toList = homeAddresses config) :
    (config.addr.isUnicast = true → source? .ethernet r.incoming = some (config.addr, .ethernet)) ∧
      source? .loopback r.incoming = some (.loopback, .loopback) := by
  unfold source?
  rw [h]
  unfold homeAddresses
  exact ⟨fun hu => by simp [hu], rfl⟩

theorem assembled_create [Nic δ] {d : δ} {config : Config} {h : Host δ} (e : create d config = .ok h) :
    h.setup.Assembled (decide ((Nic.personality d).check = .manual)) := by
  obtain ⟨endpoint, router, he, hr, rfl⟩ := create_eq_ok e
  obtain ⟨h1, h2, h3, h4, -⟩ := newEndpoint_eq_ok he
  obtain ⟨-, h⟩ := newRouter_eq_ok hr
  obtain ⟨hsource, hhome⟩ := source?_home h.addresses
  exact ⟨h1, h2, h3, h4, h.protocols, h.handled, rfl, h.incoming, hsource, hhome⟩

/-! ## Calls keep it so -/

/-- Routes, groups, ports and bindings are not part of it. -/
theorem Setup.Assembled.of_eq {manual : Bool} {u v : Setup} (ha : u.Assembled manual)
    (hc : v.config = u.config) (hx : v.addr = u.addr) (hk : v.checked = u.checked)
    (he : v.etherTypes = u.etherTypes) (hp : v.protocols = u.protocols) (hl : v.lower = u.lower)
    (hi : v.incoming.WF) (hs : ∀ way e, source? way u.incoming = some e → source? way v.incoming = some e) :
    v.Assembled manual :=
  ⟨by rw [hx, hc]; exact ha.addr, by rw [hk]; exact ha.checked, by rw [he]; exact ha.etherTypes,
    by rw [he, hc]; exact ha.contents, by rw [hp]; exact ha.protocols, by rw [hp]; exact ha.protocol,
    by rw [hl]; exact ha.lower, hi, by rw [hc]; exact fun hu => hs _ _ (ha.source hu), hs _ _ ha.home⟩

theorem assembled_filtered {manual : Bool} {h : Host δ} (ha : h.setup.Assembled manual)
    {m : Map Ipv4.Address Layer Limits.incoming} (hi : m.WF)
    (hs : ∀ way e, source? way h.router.incoming = some e → source? way m = some e)
    (groups : Map Ethernet.Address UInt8 Limits.groups) : (h.filtered m groups).setup.Assembled manual :=
  ha.of_eq rfl rfl rfl rfl rfl rfl hi hs

theorem assembled_join {manual : Bool} {h : Host δ} (ha : h.setup.Assembled manual) (group : Ipv4.Address) :
    (h.join group).2.setup.Assembled manual := by
  have hw : h.router.incoming.WF := ha.incoming
  unfold join
  split
  · exact ha
  · rename_i hm
    have hm : group.isMulticast = true := by simpa using hm
    split
    · exact ha
    · rename_i r hr
      obtain ⟨m, hi, rfl⟩ := addIncoming_eq_ok hr
      have hw' := Map.insert_wf hw hi
      split
      · rename_i e he
        obtain ⟨groups, rfl⟩ := endpoint_join_eq_ok he
        exact assembled_filtered ha hw' (fun _ _ => source?_insert hw hi) groups
      · split
        · rename_i hr'
          rw [removeIncoming_eq_ok hr']
          refine assembled_filtered ha (Map.remove_wf hw' group) ?_ h.endpoint.groups
          -- the entry that is taken out again is a group
          intro way e hs
          rw [source?_remove hw' hm]
          exact source?_insert hw hi hs
        · exact assembled_filtered ha hw' (fun _ _ => source?_insert hw hi) h.endpoint.groups

theorem assembled_leave {manual : Bool} {h : Host δ} (ha : h.setup.Assembled manual) (group : Ipv4.Address) :
    (h.leave group).2.setup.Assembled manual := by
  have hw : h.router.incoming.WF := ha.incoming
  unfold leave
  split
  · exact ha
  · rename_i hm
    have hm : group.isMulticast = true := by simpa using hm
    have hs : ∀ way e, source? way h.router.incoming = some e →
        source? way (h.router.incoming.remove group).2 = some e :=
      fun way e he => by rw [source?_remove hw hm]; exact he
    split
    · exact ha
    · rename_i hr
      rw [removeIncoming_eq_ok hr]
      split
      · exact assembled_filtered ha (Map.remove_wf hw group) hs h.endpoint.groups
      · rename_i e he
        obtain ⟨groups, rfl⟩ := endpoint_leave_eq_ok he
        exact assembled_filtered ha (Map.remove_wf hw group) hs groups

/-- Only sockets, ports and routes differ. -/
theorem assembled_elsewhere {manual : Bool} {h h' : Host δ} (ha : h.setup.Assembled manual)
    (hc : h'.config = h.config) (he : h'.endpoint = h.endpoint) (hp : h'.router.protocols = h.router.protocols)
    (hi : h'.router.incoming = h.router.incoming) (hl : h'.ports.lower = h.ports.lower) :
    h'.setup.Assembled manual := by
  refine ha.of_eq hc ?_ ?_ ?_ hp hl ?_ ?_
  · show h'.endpoint.addr = _; rw [he]; rfl
  · show h'.endpoint.checked = _; rw [he]; rfl
  · show h'.endpoint.etherTypes = _; rw [he]; rfl
  · show h'.router.incoming.WF; rw [hi]; exact ha.incoming
  · intro way e he
    show source? way h'.router.incoming = _; rw [hi]; exact he

/-- Every call leaves a host assembled as it was. -/
theorem assembled_perform [Nic δ] {manual : Bool} {h h' : Host δ} (hg : h.setup.Agree)
    (ha : h.setup.Assembled manual) {c : Call δ} {a : Answer} (e : h.perform c = some (a, h')) :
    h'.setup.Assembled manual := by
  cases effect_perform hg e with
  | same _ => exact ha
  | acquire _ => exact assembled_elsewhere ha rfl rfl rfl rfl rfl
  | release _ => exact assembled_elsewhere ha rfl rfl rfl rfl rfl
  | releaseBound _ _ => exact assembled_elsewhere ha rfl rfl rfl rfl rfl
  | bind _ _ hp =>
    obtain ⟨-, m, -, rfl⟩ := ports_bind_eq_ok hp
    exact assembled_elsewhere ha rfl rfl rfl rfl rfl
  | unbind _ _ => exact assembled_elsewhere ha rfl rfl rfl rfl rfl
  | send hx => rw [setup_send hx]; exact ha
  | recv _ _ => exact assembled_elsewhere ha rfl rfl rfl rfl rfl
  | cancel _ => exact assembled_elsewhere ha rfl rfl rfl rfl rfl
  | poll hx => rw [setup_poll hx]; exact ha
  | routes _ _ => exact assembled_elsewhere ha rfl rfl rfl rfl rfl
  | @join group _ _ _ he => rw [← he]; exact assembled_join ha group
  | @leave group _ _ _ he => rw [← he]; exact assembled_leave ha group
  | device _ => exact assembled_elsewhere ha rfl rfl rfl rfl rfl
  | fill _ _ => exact assembled_elsewhere ha rfl rfl rfl rfl rfl
  | resolver _ => exact assembled_elsewhere ha rfl rfl rfl rfl rfl

end UdpStack.Host
