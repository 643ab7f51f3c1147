/-
What of a host decides where packets go: addresses, filters, routes, ports and bindings. Passes and
polls leave all of it alone (`stable_setup`); only the calls that are about it change it. The ports
and the bindings of the sockets agree in every reachable host (`Agree`), although each is kept for
itself, so giving up a bound socket never fails half way (`unbind_cases`).
-/
import UdpStack.Proofs.Bounded.Map
import UdpStack.Proofs.Bounded.Pool
import UdpStack.Proofs.Host.Calls
import UdpStack.Proofs.Host.Poll

namespace UdpStack.Host

open Bounded Device

variable {δ : Type}

/-- What decides where packets of a host go. -/
structure Setup where
  config : Config
  addr : Ethernet.Address
  checked : Bool
  etherTypes : Map Ethernet.EtherType Layer Limits.etherTypes
  groups : Map Ethernet.Address UInt8 Limits.groups
  routes : Ipv4.Routes
  incoming : Map Ipv4.Address Layer Limits.incoming
  protocols : Map Ipv4.Protocol Layer Limits.protocols
  ports : Map UInt16 Layer Limits.sockets
  lower : Layer
  /-- For each handle of a socket its binding, if the socket is bound. -/
  bindings : Handle → Option (Option Udp.Binding)

/-- The bindings of sockets. -/
def bindings (p : Pool Udp.Socket Limits.sockets) (s : Handle) : Option (Option Udp.Binding) :=
  (p.get? s).map (·.binding)

def setup (h : Host δ) : Setup where
  config := h.config
  addr := h.endpoint.addr
  checked := h.endpoint.checked
  etherTypes := h.endpoint.etherTypes
  groups := h.endpoint.groups
  routes := h.router.routes
  incoming := h.router.incoming
  protocols := h.router.protocols
  ports := h.ports.table
  lower := h.ports.lower
  bindings := bindings h.sockets

/-! ## Passes and polls leave it alone -/

theorem bindings_set {p : Pool Udp.Socket Limits.sockets} {s : Handle} {socket socket' : Udp.Socket}
    (hs : p.get? s = some socket) (hb : socket'.binding = socket.binding) :
    bindings (p.set s socket') = bindings p :=
  funext fun x => Pool.map_get?_set_same hs socket' (·.binding) hb x

theorem setup_with_sockets {h : Host δ} {p : Pool Udp.Socket Limits.sockets}
    (hb : bindings p = bindings h.sockets) : setup { h with sockets := p } = h.setup := by
  unfold setup
  dsimp only
  rw [hb]

theorem setup_count (h : Host δ) (layer : Layer) (f : Counters → Counters) :
    (h.count layer f).setup = h.setup := by
  obtain ⟨_, _, _, _, _, _, sockets, he, hs⟩ := count_eq h layer f
  have hb : bindings sockets = bindings h.sockets := by
    rcases hs with rfl | ⟨s, socket, c, hg, rfl⟩
    · rfl
    · exact bindings_set hg rfl
  rw [he]
  exact setup_with_sockets (h := h) hb

/-- A change of one socket that leaves its binding alone does not show. -/
theorem setup_set {h : Host δ} {s : Handle} {socket : Udp.Socket} (hs : h.sockets.get? s = some socket)
    (socket' : Udp.Socket) (hb : socket'.binding = socket.binding) :
    setup { h with sockets := h.sockets.set s socket' } = h.setup :=
  setup_with_sockets (h := h) (bindings_set hs hb)

theorem setup_handed {h : Host δ} {s : Handle} {socket : Udp.Socket} (t : Transit)
    (hs : h.sockets.get? s = some socket) : (h.handed s socket t).setup = h.setup :=
  setup_with_sockets (h := h) (bindings_set hs (Udp.Socket.receivePass_binding ..))

theorem stable_setup [Nic δ] (u : Setup) : StablePoll fun h : Host δ => h.setup = u where
  count layer f hp := (setup_count _ layer f).trans hp
  heard hp _ := hp
  handed t hp hs := (setup_handed t hs).trans hp
  numbered _ hp := hp
  sent _ hp := hp
  outgoing hp := hp
  txBuffer _ hp := hp
  deliver hp := hp
  expire _ hp := hp
  take _ hp := hp
  rxBuffer _ hp := hp

theorem setup_poll [Nic δ] {h h' : Host δ} {now : Instant} {r : Except Fault Nat}
    (e : h.poll now = some (r, h')) : h'.setup = h.setup :=
  (stable_setup h.setup).poll rfl e

theorem setup_send [Nic δ] {h h' : Host δ} {s : Handle} {task : Task} {dst : Ipv4.Address} {port : UInt16}
    {payload : Octets} {r : Poll Nat} (e : h.send s task dst port payload = some (r, h')) :
    h'.setup = h.setup :=
  (stable_setup h.setup).send (fun _ _ h => h) rfl e

/-! ## Ports and bindings -/

/-- The ports are exactly those of the bound sockets. -/
structure Setup.Agree (u : Setup) : Prop where
  ports : u.ports.WF
  agree : ∀ port layer, u.ports.get? port = some layer ↔
    ∃ s b, layer = .socket s ∧ u.bindings s = some (some b) ∧ b.port = port

/-- The host once a socket has a binding, and the ports the socket. -/
def bound (h : Host δ) (s : Handle) (socket : Udp.Socket) (b : Udp.Binding) (ports : Udp.Ports) : Host δ :=
  { h with
    ports := ports
    sockets := h.sockets.set s { socket with binding := some b } }

theorem bind_cases {h h' : Host δ} {s : Handle} {addr : Ipv4.Address} {port : UInt16}
    {r : Except Fault Unit} (e : h.bind s addr port = (r, h')) :
    h' = h ∨ ∃ socket ports, h.sockets.get? s = some socket ∧ socket.binding = none ∧
      h.ports.bind port (.socket s) = .ok ports ∧ h' = h.bound s socket ⟨addr, port⟩ ports := by
  unfold Host.bind at e
  split at e
  · cases e; exact .inl rfl
  · rename_i socket hs
    split at e
    · cases e; exact .inl rfl
    · rename_i hb
      split at e
      · cases e; exact .inl rfl
      · rename_i ports hp
        split at e
        · rename_i f hf
          unfold Udp.Socket.bind at hf
          rw [if_neg hb] at hf; cases hf
        · rename_i socket' hk
          obtain ⟨hn, rfl⟩ := Udp.Socket.bind_eq_ok hk
          cases e
          exact .inr ⟨socket, ports, hs, hn, hp, rfl⟩

theorem ports_bind_eq_ok {u u' : Udp.Ports} {port : UInt16} {layer : Layer}
    (h : u.bind port layer = .ok u') :
    port ≠ 0 ∧ ∃ m, u.table.insert port layer = .ok m ∧ u' = { u with table := m } := by
  unfold Udp.Ports.bind at h
  split at h
  · cases h
  · rename_i hc
    simp only [Bool.or_eq_true, beq_iff_eq, not_or] at hc
    cases hi : u.table.insert port layer with
    | error f => rw [hi] at h; cases h
    | ok m => rw [hi] at h; cases h; exact ⟨hc.1, m, rfl, rfl⟩

theorem bindings_of_get? {p : Pool Udp.Socket Limits.sockets} {s : Handle} {socket : Udp.Socket}
    (hs : p.get? s = some socket) : bindings p s = some socket.binding := by
  unfold bindings; rw [hs]; rfl

theorem bindings_set_eq {p : Pool Udp.Socket Limits.sockets} {s : Handle} {socket : Udp.Socket}
    (hs : p.get? s = some socket) (socket' : Udp.Socket) (x : Handle) :
    bindings (p.set s socket') x = if x = s then some socket'.binding else bindings p x :=
  Pool.map_get?_set hs socket' (·.binding) x

theorem agree_bound {h : Host δ} (ha : h.setup.Agree) {s : Handle} {socket : Udp.Socket} {addr : Ipv4.Address}
    {port : UInt16} {ports : Udp.Ports} (hs : h.sockets.get? s = some socket) (hn : socket.binding = none)
    (hp : h.ports.bind port (.socket s) = .ok ports) : (h.bound s socket ⟨addr, port⟩ ports).setup.Agree := by
  obtain ⟨-, m, hi, rfl⟩ := ports_bind_eq_ok hp
  have hw : h.ports.table.WF := ha.ports
  have hag := ha.agree
  refine ⟨Map.insert_wf hw hi, ?_⟩
  intro q layer
  have hbs : h.setup.bindings s = some none := by rw [← hn]; exact bindings_of_get? hs
  show m.get? q = some layer ↔ ∃ x b, layer = .socket x ∧
    bindings (h.sockets.set s { socket with binding := some ⟨addr, port⟩ }) x = some (some b) ∧ b.port = q
  rw [Map.get?_insert hw hi]
  have hnone := (Map.insert_eq_ok hw hi).1
  simp only [bindings_set_eq hs]
  constructor
  · intro hq
    split at hq
    · rename_i hqp
      cases hq
      exact ⟨s, ⟨addr, port⟩, rfl, if_pos rfl, hqp.symm⟩
    · obtain ⟨x, b, hl, hb, hbp⟩ := (hag q layer).1 hq
      have hx : x ≠ s := by rintro rfl; rw [hbs] at hb; cases hb
      exact ⟨x, b, hl, by rw [if_neg hx]; exact hb, hbp⟩
  · rintro ⟨x, b, rfl, hb, rfl⟩
    split at hb
    · rename_i hx
      cases hb; rw [hx, if_pos rfl]
    · have hq := (hag b.port (.socket x)).2 ⟨x, b, rfl, hb, rfl⟩
      change h.ports.table.get? b.port = _ at hq
      rw [if_neg]
      · exact hq
      · intro he
        rw [he, hnone] at hq; cases hq

/-- A socket can be bound to a port that is free. -/
theorem bind_ok {h : Host δ} (hg : h.setup.Agree) {s : Handle} {socket : Udp.Socket} {port : UInt16}
    (hs : h.sockets.get? s = some socket) (hb : socket.binding = none) (hport : port ≠ 0)
    (hfree : h.ports.table.get? port = none) (hroom : h.ports.table.toList.length < Limits.sockets)
    (addr : Ipv4.Address) :
    ∃ m, h.ports.table.insert port (.socket s) = .ok m ∧
      h.bind s addr port = (.ok (), h.bound s socket ⟨addr, port⟩ { h.ports with table := m }) := by
  have hw : h.ports.table.WF := hg.ports
  have hnone : h.ports.portOf? (.socket s) = none := by
    cases hk : h.ports.portOf? (.socket s) with
    | none => rfl
    | some other =>
      obtain ⟨s', b, hs', hb', -⟩ := (hg.agree other (.socket s)).1 (hw.get?_eq_some_iff.2 (Map.mem_of_keyOf? hk))
      cases hs'
      have hbound := (bindings_of_get? hs).symm.trans hb'
      rw [hb] at hbound
      cases hbound
  have hlen : h.ports.table.toList.length = h.ports.table.pairs.size := hw.pairs.length_toList
  obtain ⟨m, hm⟩ := Map.insert_of_room hfree (by omega) (.socket s)
  have hbind : h.ports.bind port (.socket s) = .ok { h.ports with table := m } := by
    unfold Udp.Ports.bind
    rw [hnone, beq_eq_false_iff_ne.2 hport, hm]
    rfl
  refine ⟨m, hm, ?_⟩
  unfold bind Udp.Socket.bind
  rw [hs]
  dsimp only
  rw [hb, hbind]
  rfl

theorem ports_unbind_of_get? {u : Udp.Ports} (hw : u.table.WF) {port : UInt16} {layer : Layer}
    (h : u.table.get? port = some layer) :
    u.unbind port = .ok (layer, { u with table := (u.table.remove port).2 }) := by
  have hr : u.table.remove port = (some layer, (u.table.remove port).2) := by
    rw [← h, ← Map.fst_remove hw]
  unfold Udp.Ports.unbind
  rw [hr]

/-- The host once a socket gave up its binding and its waiting task was notified. -/
def unbound (h : Host δ) (s : Handle) (socket : Udp.Socket) (b : Udp.Binding) : Host δ :=
  deliver { h with
    sockets := h.sockets.set s { socket with binding := none, reserved := none, waiter := .empty }
    wakeups := h.wakeups.wakeAll socket.waiters
    ports := { h.ports with table := (h.ports.table.remove b.port).2 } }

/-- A bound socket gives up its binding, and of any other nothing changes. -/
theorem unbind_cases {h : Host δ} (ha : h.setup.Agree) (s : Handle) :
    (h.unbind s = (.error .illegal, h) ∧ ∀ b, h.setup.bindings s ≠ some (some b)) ∨
      ∃ socket b, h.sockets.get? s = some socket ∧ socket.binding = some b ∧
        h.unbind s = (.ok (), h.unbound s socket b) := by
  cases hs : h.sockets.get? s with
  | none =>
    refine .inl ⟨?_, ?_⟩
    · unfold unbind; rw [hs]
    · intro b hb
      change bindings h.sockets s = _ at hb
      unfold bindings at hb; rw [hs] at hb; cases hb
  | some socket =>
    have hbs : h.setup.bindings s = some socket.binding := bindings_of_get? hs
    cases hb : socket.binding with
    | none =>
      refine .inl ⟨?_, ?_⟩
      · unfold unbind Udp.Socket.unbind; rw [hs]; dsimp only; rw [hb]
      · intro b hb'
        rw [hbs, hb] at hb'; cases hb'
    | some b =>
      have hp := (ha.agree b.port (.socket s)).2 ⟨s, b, rfl, by rw [hbs, hb], rfl⟩
      refine .inr ⟨socket, b, rfl, hb, ?_⟩
      unfold unbind
      rw [hs]
      dsimp only
      rw [Udp.Socket.unbind_of_bound hb]
      dsimp only
      rw [ports_unbind_of_get? ha.ports hp]
      rfl

theorem agree_unbound {h : Host δ} (ha : h.setup.Agree) {s : Handle} {socket : Udp.Socket} {b : Udp.Binding}
    (hs : h.sockets.get? s = some socket) (hb : socket.binding = some b) :
    (h.unbound s socket b).setup.Agree := by
  have hw : h.ports.table.WF := ha.ports
  have hag := ha.agree
  have hbs : h.setup.bindings s = some (some b) := by rw [← hb]; exact bindings_of_get? hs
  have hps := (hag b.port (.socket s)).2 ⟨s, b, rfl, hbs, rfl⟩
  refine ⟨Map.remove_wf hw b.port, ?_⟩
  intro q layer
  show (h.ports.table.remove b.port).2.get? q = some layer ↔ ∃ x c, layer = .socket x ∧
    bindings (h.sockets.set s { socket with binding := none, reserved := none, waiter := .empty }) x =
      some (some c) ∧ c.port = q
  rw [Map.get?_remove hw]
  simp only [bindings_set_eq hs]
  constructor
  · intro hq
    split at hq
    · cases hq
    · rename_i hne
      obtain ⟨x, c, hl, hc, hcp⟩ := (hag q layer).1 hq
      have hx : x ≠ s := by
        rintro rfl
        rw [hbs] at hc; cases hc; exact hne hcp.symm
      exact ⟨x, c, hl, by rw [if_neg hx]; exact hc, hcp⟩
  · rintro ⟨x, c, rfl, hc, rfl⟩
    split at hc
    · cases hc
    · rename_i hx
      have hq := (hag c.port (.socket x)).2 ⟨x, c, rfl, hc, rfl⟩
      rw [if_neg]
      · exact hq
      · intro he
        rw [he, hps] at hq
        cases hq; exact hx rfl

theorem agree_of_bindings {u v : Setup} (ha : u.Agree) (hp : v.ports = u.ports)
    (hb : ∀ s b, v.bindings s = some (some b) ↔ u.bindings s = some (some b)) : v.Agree := by
  refine ⟨by rw [hp]; exact ha.ports, ?_⟩
  intro port layer
  rw [hp, ha.agree]
  simp only [hb]

/-- The host once the slot of a socket is free. -/
def vacated (h : Host δ) (s : Handle) : Host δ := { h with sockets := (h.sockets.release s).2 }

theorem vacated_of_none {h : Host δ} {s : Handle} (hs : h.sockets.get? s = none) : h.vacated s = h := by
  unfold vacated; rw [Pool.release_of_none hs]

theorem vacate_eq (h : Host δ) (s : Handle) :
    h.vacate s = (if (h.sockets.get? s).isSome then .ok () else .error .illegal, h.vacated s) := by
  cases hg : h.sockets.get? s with
  | none =>
    rw [vacated_of_none hg]
    unfold vacate; rw [Pool.release_of_none hg]; rfl
  | some a =>
    have hr : h.sockets.release s = (some a, (h.sockets.release s).2) := by
      rw [← hg, ← Pool.fst_release]
    unfold vacate vacated
    rw [hr]; rfl

/-- A socket that gives up its binding keeps its slot. -/
theorem get?_unbound {h : Host δ} {s : Handle} {socket : Udp.Socket} (hs : h.sockets.get? s = some socket)
    (b : Udp.Binding) : ((h.unbound s socket b).sockets.get? s).isSome = true := by
  show ((h.sockets.set s _).get? s).isSome = true
  rw [Pool.get?_set, hs, if_pos ⟨rfl, rfl⟩]; rfl

/-- Giving a socket back frees its slot, once its binding is given up. It fails only if there is no socket. -/
theorem release_cases {h : Host δ} (ha : h.setup.Agree) (s : Handle) :
    ((∀ b, h.setup.bindings s ≠ some (some b)) ∧
      h.release s = (if (h.sockets.get? s).isSome then .ok () else .error .illegal, h.vacated s)) ∨
      ∃ socket b, h.sockets.get? s = some socket ∧ socket.binding = some b ∧
        h.release s = (.ok (), (h.unbound s socket b).vacated s) := by
  have hbs : h.setup.bindings s = (h.sockets.get? s).map (·.binding) := rfl
  rcases unbind_cases ha s with ⟨-, hn⟩ | ⟨socket, b, hs, hb, hu⟩
  · refine .inl ⟨hn, ?_⟩
    unfold release
    rw [if_neg, vacate_eq]
    intro hc
    obtain ⟨b, hb⟩ := Option.isSome_iff_exists.1 hc
    obtain ⟨socket, hs, hsb⟩ := Option.bind_eq_some_iff.1 hb
    exact hn b (by rw [hbs, hs, Option.map_some, hsb])
  · refine .inr ⟨socket, b, hs, hb, ?_⟩
    unfold release
    rw [if_pos (by unfold binding?; rw [hs, Option.bind_some, hb]; rfl), hu]
    dsimp only
    rw [vacate_eq, get?_unbound hs, if_pos rfl]

/-- A slot is freed without a port left behind, as long as its socket is not bound. -/
theorem agree_vacated {h : Host δ} (ha : h.setup.Agree) {s : Handle}
    (hn : ∀ b, h.setup.bindings s ≠ some (some b)) : (h.vacated s).setup.Agree := by
  refine agree_of_bindings ha rfl ?_
  intro x b
  show bindings (h.sockets.release s).2 x = _ ↔ bindings h.sockets x = _
  unfold bindings
  rw [Pool.get?_release]
  split
  · rename_i hx
    rw [hx]
    constructor
    · rintro ⟨⟩
    · intro hb
      exact absurd hb (hn b)
  · rfl

theorem not_bound_unbound {h : Host δ} {s : Handle} {socket : Udp.Socket} {b : Udp.Binding}
    (hs : h.sockets.get? s = some socket) (c : Udp.Binding) :
    (h.unbound s socket b).setup.bindings s ≠ some (some c) := by
  intro hc
  change bindings (h.sockets.set s _) s = _ at hc
  rw [bindings_set_eq hs, if_pos rfl] at hc
  cases hc

theorem acquire_cases (h : Host δ) : (h.acquire.2 = h ∧ ∃ f, h.acquire.1 = .error f) ∨
    ∃ s p, h.sockets.acquire .empty = .ok (s, p) ∧ h.acquire = (.ok s, { h with sockets := p }) := by
  unfold acquire
  cases h.sockets.acquire .empty with
  | error f => exact .inl ⟨rfl, f, rfl⟩
  | ok x => exact .inr ⟨x.1, x.2, rfl, rfl⟩

theorem agree_acquired {h : Host δ} (ha : h.setup.Agree) {s : Handle} {p : Pool Udp.Socket Limits.sockets}
    (hp : h.sockets.acquire .empty = .ok (s, p)) : (setup { h with sockets := p }).Agree := by
  obtain ⟨hn, hg⟩ := Pool.get?_acquire hp
  refine agree_of_bindings ha rfl ?_
  intro x b
  show bindings p x = _ ↔ bindings h.sockets x = _
  unfold bindings
  rw [hg]
  split
  · rename_i hx
    rw [hx, hn]
    constructor
    · rintro ⟨⟩
    · rintro ⟨⟩
  · rfl

theorem agree_create [Nic δ] {d : δ} {config : Config} {h : Host δ} (e : create d config = .ok h) :
    h.setup.Agree := by
  obtain ⟨endpoint, router, -, -, rfl⟩ := create_eq_ok e
  refine ⟨Map.empty_wf, fun port layer => ⟨nofun, ?_⟩⟩
  rintro ⟨s, b, -, hb, -⟩
  change bindings Pool.empty s = _ at hb
  unfold bindings at hb
  rw [Pool.get?_empty] at hb
  cases hb

theorem agree_elsewhere {h h' : Host δ} (ha : h.setup.Agree) (hp : h'.ports = h.ports)
    (hs : h'.sockets = h.sockets) : h'.setup.Agree := by
  apply agree_of_bindings ha (by unfold setup; rw [hp])
  intro s b
  unfold setup
  rw [hs]

end UdpStack.Host
