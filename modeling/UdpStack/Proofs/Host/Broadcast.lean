/-
Datagrams to all hosts of a subnet. The route of a new host to its own subnet covers the last address
of the subnet, and every host of the subnet takes datagrams to it (`lookup_last`, `accepts_last`). The
table of neighbors maps it to the broadcast address of Ethernet. A derived hardware address does not:
it takes the last address for that of one host, whose frames no other host lets through. So a datagram
to the subnet arrives with one kind of resolver only (`subnet_broadcast_heard`).
-/
import UdpStack.Proofs.Host.Loopback
import UdpStack.Proofs.Host.RoundTrip

namespace UdpStack.Host

open Bounded Device

variable {δ : Type} {m n : Nat}

/-! ## Hosts that have not sent or received anything -/

/-- The calls that set up sockets. -/
def Prepares (_ : Host δ) : Call δ → Prop
  | .acquire => True
  | .release _ => True
  | .bind .. => True
  | .unbind _ => True
  | _ => False

/-- A host apart from its sockets as it is put together on a device. -/
structure Fresh [Nic δ] (d : δ) (config : Config) (h : Host δ) : Prop where
  device : h.device = d
  resolver : h.resolver = newResolver config
  endpoint : newEndpoint config (Nic.personality d).check = .ok h.endpoint
  router : newRouter config = .ok h.router
  now : h.now = ⟨0⟩

section fresh

variable [Nic δ] {d : δ} {config : Config} {h h' : Host δ}

theorem fresh_create (e : create d config = .ok h) : h.Fresh d config := by
  obtain ⟨endpoint, router, he, hr, rfl⟩ := create_eq_ok e
  exact ⟨rfl, rfl, he, hr, rfl⟩

/-- Setting up sockets touches nothing else. -/
theorem fresh_perform (hg : h.setup.Agree) (hf : h.Fresh d config) {c : Call δ} (hc : h.Prepares c) {a : Answer}
    (e : h.perform c = some (a, h')) : h'.Fresh d config := by
  cases c with
  | acquire =>
    cases e
    rcases acquire_cases h with ⟨he, -⟩ | ⟨s, p, -, he⟩
    · rw [he]; exact hf
    · rw [he]; exact ⟨hf.device, hf.resolver, hf.endpoint, hf.router, hf.now⟩
  | release s =>
    cases e
    rcases release_cases hg s with ⟨-, he⟩ | ⟨socket, b, -, -, he⟩
    · rw [he]; exact ⟨hf.device, hf.resolver, hf.endpoint, hf.router, hf.now⟩
    · rw [he]; exact ⟨hf.device, hf.resolver, hf.endpoint, hf.router, hf.now⟩
  | bind s addr port =>
    cases e
    cases hx : h.bind s addr port with
    | mk r g =>
      rcases bind_cases hx with rfl | ⟨socket, ports, -, -, -, rfl⟩
      · exact hf
      · exact ⟨hf.device, hf.resolver, hf.endpoint, hf.router, hf.now⟩
  | unbind s =>
    cases e
    rcases unbind_cases hg s with ⟨he, -⟩ | ⟨socket, b, -, -, he⟩
    · rw [he]; exact hf
    · rw [he]; exact ⟨hf.device, hf.resolver, hf.endpoint, hf.router, hf.now⟩
  | _ => exact absurd hc id

theorem run_fresh (e : create d config = .ok h) {es : List (Call δ × Answer)} (hr : Run Prepares h es h') :
    h'.Fresh d config := by
  have hkeeps : h'.setup.Agree ∧ h'.Fresh d config := by
    refine Run.keeps (P := fun h => h.setup.Agree ∧ h.Fresh d config) ?_ ⟨agree_create e, fresh_create e⟩ hr
    intro g g' c a ⟨hg, hf⟩ hc he
    exact ⟨agree_perform hg he, fresh_perform hg hf hc he⟩
  exact hkeeps.2

end fresh

theorem fillsOnly_of_prepares (h : Host (External n)) (c : Call (External n)) (hc : h.Prepares c) :
    h.FillsOnly c := by
  cases c with
  | acquire => exact ⟨trivial, nofun⟩
  | release => exact ⟨trivial, nofun⟩
  | bind => exact ⟨trivial, nofun⟩
  | unbind => exact ⟨trivial, nofun⟩
  | _ => exact absurd hc id

/-! ## The last address of a subnet -/

section last

variable {config : Config} {r : Ipv4.Router} {last : Ipv4.Address}

/-- The own subnet is reached through Ethernet. -/
theorem lookup_subnet {addresses : List (Ipv4.Address × Layer)} {handled : List (Ipv4.Protocol × Layer)}
    (hr : Equipped (homeRoutes config) addresses handled r) {x : Ipv4.Address}
    (hsubnet : x.mask config.mask = config.addr.mask config.mask) (hloop : x.isLoopback = false) :
    ∃ route, r.routes.lookup x = some route ∧ route.layer = .ethernet := by
  have hcovers : (⟨config.addr.mask config.mask, config.mask, .ethernet⟩ : Ipv4.Route).contains x = true := by
    rw [Ipv4.Route.contains_subnet, hsubnet]
  obtain ⟨found, hfound⟩ := Ipv4.Routes.lookup_isSome (hr.perm.mem_iff.2 (by simp [homeRoutes])) hcovers
  obtain ⟨hmem, hc⟩ := Ipv4.Routes.lookup_mem hfound
  refine ⟨found, hfound, ?_⟩
  rcases hr.perm.mem_iff.1 hmem with _ | ⟨_, _ | ⟨_, _ | ⟨_, hnil⟩⟩⟩
  · rfl
  · rfl
  · rw [Ipv4.Route.contains_loopback, hloop] at hc
    cases hc
  · cases hnil

/-- Addresses of the loopback are reached through it: its route is more specific than one to a subnet of other
addresses that they are in. -/
theorem lookup_loopback {addresses : List (Ipv4.Address × Layer)} {handled : List (Ipv4.Protocol × Layer)}
    (hr : Equipped (homeRoutes config) addresses handled r) (hmask : config.mask.prefixLen?.isSome = true)
    (hhost : config.addr.isLoopback = false) {x : Ipv4.Address} (hx : x.isLoopback = true) :
    ∃ route, r.routes.lookup x = some route ∧ route.layer = .loopback := by
  have hways : ∀ o, o ∈ r.routes.toList ↔ o ∈ homeRoutes config := fun o => hr.perm.mem_iff
  refine ⟨⟨⟨127, 0, 0, 0⟩, .netmask 8, .loopback⟩, ?_, rfl⟩
  apply Ipv4.Routes.lookup_of_longest hr.routes ((hways _).2 (by simp [homeRoutes]))
  · rw [Ipv4.Route.contains_loopback, hx]
  · intro o ho hc
    rcases (hways o).1 ho with _ | ⟨_, _ | ⟨_, _ | ⟨_, hnil⟩⟩⟩
    · rw [Ipv4.Route.contains_broadcast] at hc
      exact absurd (beq_iff_eq.1 hc) (by rintro rfl; cases hx)
    · obtain ⟨k, hk⟩ := Option.isSome_iff_exists.1 hmask
      right
      show config.mask.prefixLen?.getD 0 < 8
      rw [hk, Option.getD_some]
      -- a longer mask would leave the first octet to the subnet
      by_contra hlong
      rw [Ipv4.Route.contains_subnet, Ipv4.Address.mask_eq, Ipv4.Address.mask_eq,
        Ipv4.Address.a_of_prefixLen? hk (by omega)] at hc
      have ha : config.addr.a &&& 255 = x.a &&& 255 := congrArg Ipv4.Address.a hc
      have hand : ∀ o : UInt8, o &&& 255 = o := fun o => UInt8.and_neg_one
      rw [hand, hand] at ha
      unfold Ipv4.Address.isLoopback at hx hhost
      rw [ha, hx] at hhost
      cases hhost
    · exact .inl rfl
    · cases hnil

/-- The last address is reached through Ethernet, unless it belongs to the loopback. -/
theorem lookup_last {addresses : List (Ipv4.Address × Layer)} {handled : List (Ipv4.Protocol × Layer)}
    (hr : Equipped (homeRoutes config) addresses handled r) (hmask : config.mask.prefixLen?.isSome = true)
    (hhost : config.addr.isLoopback = false) (hlast : last = config.addr.subnetBroadcast config.mask) :
    ∃ route, r.routes.lookup last = some route ∧
      route.layer = if last.isLoopback then .loopback else .ethernet := by
  cases hloop : last.isLoopback with
  | false =>
    refine lookup_subnet hr ?_ hloop
    rw [hlast, Ipv4.Address.mask_subnetBroadcast]
  | true => exact lookup_loopback hr hmask hhost hloop

/-- Every host of the subnet takes datagrams to the last address. -/
theorem accepts_last (hw : r.incoming.WF) (hr : r.incoming.toList = homeAddresses config)
    (hlast : last = config.addr.subnetBroadcast config.mask) (hne : config.addr ≠ last) :
    r.accepts last .ethernet = true := by
  unfold Ipv4.Router.accepts
  rw [beq_iff_eq, hw.get?_eq_some_iff, hr]
  unfold homeAddresses
  dsimp only
  rw [← hlast]
  cases hb : last.isBroadcast with
  | true =>
    rw [beq_iff_eq.1 hb]
    simp
  | false => simp [hne.symm]

/-- The hardware address that a new host has for the last address of its subnet. -/
def hardwareOfLast (mode : ResolverMode) (last : Ipv4.Address) : Ethernet.Address :=
  if mode = .table ∨ last.isUnicast = false then .broadcast else .ofIpv4 last

theorem resolves_last (hlast : last = config.addr.subnetBroadcast config.mask) (task : Option Task)
    (now : Instant) :
    ((newResolver config).lookup last task now).1 = .ok (hardwareOfLast config.mode last) := by
  unfold newResolver hardwareOfLast
  cases config.mode with
  | derived =>
    show Except.ok (Arp.Resolver.derive last) = _
    unfold Arp.Resolver.derive
    cases hu : last.isUnicast <;> simp
  | table =>
    have hfixed : (Arp.Table.create config.hardware config.addr config.mask).fixed? last = some .broadcast := by
      simp [Arp.Table.fixed?, Arp.Table.create, hlast]
    simp [Arp.Resolver.lookup, Arp.Table.lookup, hfixed]

end last

section hosts

variable [Nic δ] {d : δ} {config : Config} {h : Host δ} {last : Ipv4.Address} {s : Handle} {c : Udp.Binding}

/-- A bound socket may send to the last address at once. -/
theorem knows_last (hf : h.Fresh d config) (hhost : config.addr.isLoopback = false)
    (hlast : last = config.addr.subnetBroadcast config.mask) (hloop : last.isLoopback = false)
    (hc : h.binding? s = some c) (task : Task) : h.Knows s task last c (hardwareOfLast config.mode last) := by
  obtain ⟨hmask, hrouter⟩ := newRouter_eq_ok hf.router
  obtain ⟨route, hroute, hlayer⟩ := lookup_last hrouter hmask hhost hlast
  constructor
  · exact hc
  · exact ⟨route, hroute, by simpa [hloop] using hlayer⟩
  · rw [hf.resolver]
    exact resolves_last hlast (some task) h.now

/-- A socket that is bound to any address listens to frames for all hosts. -/
theorem listens_last (hf : h.Fresh d config) (hlast : last = config.addr.subnetBroadcast config.mask)
    (hne : config.addr ≠ last) (hc : h.binding? s = some c) (hany : c.addr.isUnspecified = true) :
    h.Listens s .broadcast last c.port := by
  obtain ⟨-, hrouter⟩ := newRouter_eq_ok hf.router
  constructor
  · simp [Ethernet.Endpoint.accepts, Ethernet.Address.isBroadcast]
  · exact accepts_last hrouter.incoming hrouter.addresses hlast hne
  · exact ⟨c, hc, rfl, .inl hany⟩

theorem ofIpv4_injective : Function.Injective Ethernet.Address.ofIpv4 := by
  rintro ⟨a, b, c, d⟩ ⟨a', b', c', d'⟩ h
  simpa [Ethernet.Address.ofIpv4] using h

/-- A new host lets no frame to the derived hardware address of another one through. -/
theorem accepts_derived (hf : h.Fresh d config) (hc : config.hardware = .ofIpv4 config.addr)
    (hne : config.addr ≠ last) : h.endpoint.accepts (.ofIpv4 last) = false := by
  obtain ⟨haddr, -, -, -, hgroups⟩ := newEndpoint_eq_ok hf.endpoint
  have hown : Ethernet.Address.ofIpv4 last ≠ h.endpoint.addr := by
    rw [haddr, hc]
    exact fun hx => hne (ofIpv4_injective hx).symm
  have hall : Ethernet.Address.ofIpv4 last ≠ .broadcast := by
    intro hx
    have h2 : (2 : UInt8) = 255 := congrArg Ethernet.Address.a hx
    exact absurd h2 (by decide)
  have hnone : Map.contains (.empty : Map Ethernet.Address UInt8 Limits.groups) (.ofIpv4 last) = false := rfl
  simp [Ethernet.Endpoint.accepts, Ethernet.Address.isBroadcast, hown, hall, hgroups, hnone]

end hosts

/-- For two new hosts with an address in the same subnet each, the second one not its last: a send to the last
address succeeds. If the address belongs to the loopback nothing leaves. Otherwise one frame does; and
once the second host polls with just that frame waiting, the datagram is added to the queue of the socket
with the port, which is bound to any address, if the hosts keep a table of neighbors or the last address is
not that of a single host; with derived hardware addresses no queue changes. -/
theorem subnet_broadcast_heard {p : Personality} (hmtu : 28 ≤ p.mtu) (hm : 0 < m) (hn : 0 < n)
    {a b mask last : Ipv4.Address} {mode : ResolverMode} {A₀ A : Host (External m)} {B₀ B : Host (External n)}
    (eA : create (External.create m p) { Config.create a mask with mode := mode } = .ok A₀)
    (eB : create (External.create n p) { Config.create b mask with mode := mode } = .ok B₀)
    {esA : List (Call (External m) × Answer)} {esB : List (Call (External n) × Answer)}
    (rA : Run Prepares A₀ esA A) (rB : Run Prepares B₀ esB B) (hunicast : a.isUnicast = true)
    (hhost : a.isLoopback = false) (hsubnet : a.mask mask = b.mask mask) (hlast : last = a.subnetBroadcast mask)
    (hb : b ≠ last) {s x : Handle} {c c' : Udp.Binding} (hs : A.binding? s = some c)
    (hx : B.binding? x = some c') (hany : c'.addr.isUnspecified = true) (task : Task) {payload : Octets}
    (hsize : payload.length ≤ A.mtu) (now : Instant) :
    ∃ A', A.send s task last c'.port payload = some (.ready (.ok payload.length), A') ∧
      if last.isLoopback then A'.device = A.device
      else ∃ frame B', A'.device.outbound.toList = [⟨frame⟩] ∧ (B.device.inject frame).1 = .ok () ∧
        poll { B with device := (B.device.inject frame).2 } now = some (.ok 1, B') ∧
        if mode = .table ∨ last.isUnicast = false then
          Delivered B B' x ⟨if c.addr.isUnspecified then a else c.addr, c.port, payload.length, payload⟩
        else ∀ y, B'.queue? y = B.queue? y := by
  have hA := run_poised (.create p) eA (rA.mono fillsOnly_of_prepares)
  have hB := (run_poised (.create p) eB (rB.mono fillsOnly_of_prepares)).toReady
  have fA := run_fresh eA rA
  have fB := run_fresh eB rB
  have hmtuA : 28 ≤ (Nic.personality A.device).mtu := by rw [fA.device]; exact hmtu
  cases hloop : last.isLoopback with
  | true =>
    obtain ⟨hmask, hrouter⟩ := newRouter_eq_ok fA.router
    obtain ⟨route, hroute, hlayer⟩ := lookup_last hrouter hmask hhost hlast
    rw [hloop, if_pos rfl] at hlayer
    obtain ⟨A', hsend, hdevice⟩ :=
      send_looped hA.assembled hA.agree hA.idle hA.txBuffer hs hroute hlayer task c'.port hsize
    exact ⟨A', hsend, by simpa using hdevice⟩
  | false =>
    have hroom : A.device.outbound.isFull = false := by
      rw [fA.device]
      exact beq_eq_false_iff_ne.2 (Nat.ne_of_lt hm)
    have hempty : B.device.frames = [] := by rw [fB.device]; rfl
    obtain ⟨A', B', hsend, hout, hin, hpoll, harrived⟩ := exchange hA hB hunicast
      (knows_last fA hhost hlast hloop hs task) c'.port hmtuA hsize hroom hempty hn now
    rw [sourceOf, hA.config] at harrived
    refine ⟨A', hsend, ?_⟩
    rw [if_neg Bool.false_ne_true]
    refine ⟨_, B', by rw [hout, fA.device]; rfl, hin, hpoll, ?_⟩
    unfold hardwareOfLast at harrived
    split
    · rename_i hheard
      have hlastB := hlast.trans (Ipv4.Address.subnetBroadcast_congr hsubnet)
      rw [if_pos hheard] at harrived
      exact harrived.delivered hA.assembled.checked hB.assembled hB.agree (listens_last fB hlastB hb hx hany)
        (length_of_mtu hsize hmtuA).2
    · rename_i hmissed
      rw [if_neg hmissed] at harrived
      exact harrived.filtered hB.assembled (accepts_derived fB rfl hb)

theorem subnet_broadcast_heard_table : ∃ (A A' B B' : Host (External 1)) (frame : Octets),
    A.send ⟨0, 0⟩ ⟨3⟩ ⟨10, 0, 0, 255⟩ 7 [1, 2, 3] = some (.ready (.ok 3), A') ∧
    A'.device.outbound.toList = [⟨frame⟩] ∧
    poll { B with device := (B.device.inject frame).2 } ⟨0⟩ = some (.ok 1, B') ∧
    Delivered B B' ⟨0, 0⟩ ⟨⟨10, 0, 0, 1⟩, 5, 3, [1, 2, 3]⟩ := by
  have hA : (do
      let h ← (create (External.create 1 {})
        { Config.create ⟨10, 0, 0, 1⟩ ⟨255, 255, 255, 0⟩ with mode := .table }).toOption
      let (_, g) ← h.performAll [.acquire, .bind ⟨0, 0⟩ .unspecified 5]
      some (g.binding? ⟨0, 0⟩, decide (3 ≤ g.mtu))) = some (some ⟨.unspecified, 5⟩, true) := by decide +kernel
  have hB : (do
      let h ← (create (External.create 1 {})
        { Config.create ⟨10, 0, 0, 2⟩ ⟨255, 255, 255, 0⟩ with mode := .table }).toOption
      let (_, g) ← h.performAll [.acquire, .bind ⟨0, 0⟩ .unspecified 7]
      some (g.binding? ⟨0, 0⟩)) = some (some ⟨.unspecified, 7⟩) := by decide +kernel
  obtain ⟨A₀, eA, hA⟩ := Option.bind_eq_some_iff.1 hA
  obtain ⟨⟨esA, A⟩, rA, hA⟩ := Option.bind_eq_some_iff.1 hA
  obtain ⟨B₀, eB, hB⟩ := Option.bind_eq_some_iff.1 hB
  obtain ⟨⟨esB, B⟩, rB, hB⟩ := Option.bind_eq_some_iff.1 hB
  simp only [Option.some.injEq, Prod.mk.injEq, decide_eq_true_eq] at hA hB
  obtain ⟨hs, hsize⟩ := hA
  have hrunA : Run Prepares A₀ _ A := run_performAll _ .nil (by simp [Prepares]) rA
  have hrunB : Run Prepares B₀ _ B := run_performAll _ .nil (by simp [Prepares]) rB
  have hpayload : List.length [(1 : UInt8), 2, 3] ≤ A.mtu := hsize
  obtain ⟨A', hsend, frame, B', hout, -, hpoll, hdelivered⟩ :=
    subnet_broadcast_heard (by decide) Nat.one_pos Nat.one_pos (eq_ok_of_toOption eA) (eq_ok_of_toOption eB) hrunA
      hrunB (by decide) (by decide) (by decide) (show (⟨10, 0, 0, 255⟩ : Ipv4.Address) = _ by decide) (by decide) hs
      hB rfl ⟨3⟩ hpayload ⟨0⟩
  exact ⟨A, A', B, B', frame, hsend, hout, hpoll, hdelivered⟩

/-- With derived hardware addresses the other host of the subnet drops the frame. -/
theorem subnet_broadcast_missed_derived : (do
    let h ← (create (External.create 1 {}) (.create ⟨10, 0, 0, 1⟩ ⟨255, 255, 255, 0⟩)).toOption
    let (_, A) ← h.performAll [.acquire, .bind ⟨0, 0⟩ .unspecified 5]
    let (.ready (.ok sent), A) ← A.send ⟨0, 0⟩ ⟨3⟩ ⟨10, 0, 0, 255⟩ 7 [1, 2, 3] | none
    let h ← (create (External.create 1 {}) (.create ⟨10, 0, 0, 2⟩ ⟨255, 255, 255, 0⟩)).toOption
    let (_, B) ← h.performAll [.acquire, .bind ⟨0, 0⟩ .unspecified 7]
    let frame ← A.device.outbound.toList.head?
    let (.ok polled, B) ← poll { B with device := (B.device.inject frame.bytes).2 } ⟨0⟩ | none
    let queue ← B.queue? ⟨0, 0⟩
    some (sent, polled, queue.toList)) = some (3, 1, []) := by
  decide +kernel

end UdpStack.Host
