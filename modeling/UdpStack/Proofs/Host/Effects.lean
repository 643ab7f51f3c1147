/-
What a call does, said once for all calls (`effect_perform`). A call is refused and nothing changes,
or it changes just the sockets, ports, routes or filters that it is about, or it sends or polls.
What holds between calls is then shown for each effect, such as that the ports and the bindings
agree (`agree_perform`), and that the table of neighbors has whatever its operations keep
(`resolver_perform`).
-/
import UdpStack.Proofs.Arp.Kept
import UdpStack.Proofs.Host.Setup

namespace UdpStack.Host

open Bounded Device

variable {δ : Type}

/-! ## Routes and filters -/

theorem addIncoming_eq_ok {r r' : Ipv4.Router} {x : Ipv4.Address} {layer : Layer}
    (h : r.addIncoming x layer = .ok r') :
    ∃ m, r.incoming.insert x layer = .ok m ∧ r' = { r with incoming := m } :=
  map_eq_ok h

theorem removeIncoming_eq_ok {r r' : Ipv4.Router} {x : Ipv4.Address} {layer : Layer}
    (h : r.removeIncoming x = .ok (layer, r')) : r' = { r with incoming := (r.incoming.remove x).2 } := by
  unfold Ipv4.Router.removeIncoming at h
  split at h
  · rename_i hr; cases h; rw [hr]
  · cases h

theorem addRoute_eq_ok {r r' : Ipv4.Router} {route : Ipv4.Route} (h : r.addRoute route = .ok r') :
    ∃ routes, r.routes.add route = .ok routes ∧ r' = { r with routes := routes } :=
  map_eq_ok h

theorem endpoint_join_eq_ok {e e' : Ethernet.Endpoint} {group : Ethernet.Address} (h : e.join group = .ok e') :
    ∃ groups, e' = { e with groups := groups } := by
  unfold Ethernet.Endpoint.join at h
  split at h
  · cases h
  · split at h
    · split at h
      · cases h
      · cases h; exact ⟨_, rfl⟩
    · obtain ⟨groups, -, he⟩ := map_eq_ok h
      exact ⟨groups, he⟩

theorem endpoint_leave_eq_ok {e e' : Ethernet.Endpoint} {group : Ethernet.Address} (h : e.leave group = .ok e') :
    ∃ groups, e' = { e with groups := groups } := by
  unfold Ethernet.Endpoint.leave at h
  split at h
  · cases h
  · split at h <;> cases h <;> exact ⟨_, rfl⟩

/-- The host with other filters. -/
def filtered (h : Host δ) (incoming : Map Ipv4.Address Layer Limits.incoming)
    (groups : Map Ethernet.Address UInt8 Limits.groups) : Host δ :=
  { h with
    router := { h.router with incoming := incoming }
    endpoint := { h.endpoint with groups := groups } }

/-- The host with other routes. -/
def routed (h : Host δ) (routes : Ipv4.Routes) : Host δ := { h with router := { h.router with routes := routes } }

theorem join_cases (h : Host δ) (group : Ipv4.Address) : ∃ incoming groups,
    (h.join group).2 = h.filtered incoming groups := by
  unfold join
  split
  · exact ⟨_, _, rfl⟩
  · split
    · exact ⟨_, _, rfl⟩
    · rename_i r hr
      obtain ⟨m, -, rfl⟩ := addIncoming_eq_ok hr
      split
      · rename_i e he
        obtain ⟨groups, rfl⟩ := endpoint_join_eq_ok he
        exact ⟨_, _, rfl⟩
      · split
        · rename_i hr'
          rw [removeIncoming_eq_ok hr']
          exact ⟨_, _, rfl⟩
        · exact ⟨_, _, rfl⟩

theorem leave_cases (h : Host δ) (group : Ipv4.Address) : ∃ incoming groups,
    (h.leave group).2 = h.filtered incoming groups := by
  unfold leave
  split
  · exact ⟨_, _, rfl⟩
  · split
    · exact ⟨_, _, rfl⟩
    · rename_i hr
      rw [removeIncoming_eq_ok hr]
      split
      · exact ⟨_, _, rfl⟩
      · rename_i e he
        obtain ⟨groups, rfl⟩ := endpoint_leave_eq_ok he
        exact ⟨_, _, rfl⟩

/-! ## Calls -/

/-- What a call does and answers. -/
inductive Effect [Nic δ] (h : Host δ) : Call δ → Answer → Host δ → Prop where
  | same {c : Call δ} {a : Answer} : a.isPending = false → Effect h c a h
  | acquire {s : Handle} {p : Pool Udp.Socket Limits.sockets} : h.sockets.acquire .empty = .ok (s, p) →
      Effect h .acquire (.acquired (.ok s)) { h with sockets := p }
  | release {s : Handle} {r : Except Fault Unit} : (∀ b, h.setup.bindings s ≠ some (some b)) →
      Effect h (.release s) (.result r) (h.vacated s)
  | releaseBound {s : Handle} {socket : Udp.Socket} {b : Udp.Binding} {r : Except Fault Unit} :
      h.sockets.get? s = some socket → socket.binding = some b →
      Effect h (.release s) (.result r) ((h.unbound s socket b).vacated s)
  | bind {s : Handle} {addr : Ipv4.Address} {port : UInt16} {socket : Udp.Socket} {ports : Udp.Ports}
      {r : Except Fault Unit} : h.sockets.get? s = some socket → socket.binding = none →
      h.ports.bind port (.socket s) = .ok ports →
      Effect h (.bind s addr port) (.result r) (h.bound s socket ⟨addr, port⟩ ports)
  | unbind {s : Handle} {socket : Udp.Socket} {b : Udp.Binding} : h.sockets.get? s = some socket →
      socket.binding = some b → Effect h (.unbind s) (.result (.ok ())) (h.unbound s socket b)
  | send {s : Handle} {task : Task} {dst : Ipv4.Address} {port : UInt16} {payload : Octets} {r : Poll Nat}
      {h' : Host δ} : h.send s task dst port payload = some (r, h') →
      Effect h (.send s task dst port payload) (.sent r) h'
  | recv {s : Handle} {task : Task} {room : Nat} {socket socket' : Udp.Socket} {r : Poll Udp.Received} :
      h.sockets.get? s = some socket → socket.recv task room = (r, socket') →
      Effect h (.recv s task room) (.received r) { h with sockets := h.sockets.set s socket' }
  | cancel {s : Handle} {task : Task} {socket : Udp.Socket} : h.sockets.get? s = some socket →
      Effect h (.cancel s task) .done { h with sockets := h.sockets.set s (socket.cancel task) }
  | poll {now : Instant} {r : Except Fault Nat} {h' : Host δ} : h.poll now = some (r, h') →
      Effect h (.poll now) (.polled r) h'
  | routes {c : Call δ} {a : Answer} (routes : Ipv4.Routes) : a.isPending = false → Effect h c a (h.routed routes)
  | join {group : Ipv4.Address} {r : Except Fault Unit} {incoming : Map Ipv4.Address Layer Limits.incoming}
      {groups : Map Ethernet.Address UInt8 Limits.groups} : (h.join group).2 = h.filtered incoming groups →
      Effect h (.join group) (.result r) (h.filtered incoming groups)
  | leave {group : Ipv4.Address} {r : Except Fault Unit} {incoming : Map Ipv4.Address Layer Limits.incoming}
      {groups : Map Ethernet.Address UInt8 Limits.groups} : (h.leave group).2 = h.filtered incoming groups →
      Effect h (.leave group) (.result r) (h.filtered incoming groups)
  | device (d : δ) : Effect h (.device d) .done { h with device := d }
  | fill {x : Ipv4.Address} {hardware : Ethernet.Address} {now : Option Instant} {t t' : Arp.Table} :
      h.resolver = .table t → t.enter x hardware now = .ok t' →
      Effect h (.fill x hardware now) (.result (.ok ())) { h with resolver := .table t' }
  | resolver (r : Arp.Resolver) : Effect h (.resolver r) .done { h with resolver := r }

variable [Nic δ]

theorem effect_release {h : Host δ} (ha : h.setup.Agree) (s : Handle) (r : Except Fault Unit) :
    Effect h (.release s) (.result r) (h.release s).2 := by
  rcases release_cases ha s with ⟨hn, he⟩ | ⟨socket, b, hs, hb, he⟩
  · rw [he]; exact .release hn
  · rw [he]; exact .releaseBound hs hb

theorem effect_unbind {h : Host δ} (ha : h.setup.Agree) (s : Handle) :
    Effect h (.unbind s) (.result (h.unbind s).1) (h.unbind s).2 := by
  rcases unbind_cases ha s with ⟨he, -⟩ | ⟨socket, b, hs, hb, he⟩
  · rw [he]; exact .same rfl
  · rw [he]; exact .unbind hs hb

theorem effect_bind (h : Host δ) (s : Handle) (addr : Ipv4.Address) (port : UInt16) :
    Effect h (.bind s addr port) (.result (h.bind s addr port).1) (h.bind s addr port).2 := by
  cases hb : h.bind s addr port with
  | mk r g =>
    rcases bind_cases hb with rfl | ⟨socket, ports, hs, hn, hp, rfl⟩
    · exact .same rfl
    · exact .bind hs hn hp

theorem effect_recv (h : Host δ) (s : Handle) (task : Task) (room : Nat) :
    Effect h (.recv s task room) (.received (h.recv s task room).1) (h.recv s task room).2 := by
  unfold recv
  split
  · exact .same rfl
  · rename_i socket hs
    exact .recv hs rfl

theorem effect_cancel (h : Host δ) (s : Handle) (task : Task) :
    Effect h (.cancel s task) .done (h.cancel s task) := by
  unfold cancel modifySocket
  split
  · exact .same rfl
  · rename_i socket hs
    exact .cancel hs

theorem effect_addRoute (h : Host δ) (route : Ipv4.Route) :
    Effect h (.addRoute route) (.result (h.addRoute route).1) (h.addRoute route).2 := by
  unfold addRoute
  split
  · exact .same rfl
  · rename_i r hr
    obtain ⟨routes, -, rfl⟩ := addRoute_eq_ok hr
    exact .routes routes rfl

theorem effect_removeRoute (h : Host δ) (net mask : Ipv4.Address) :
    Effect h (.removeRoute net mask) (.removed (h.removeRoute net mask).1) (h.removeRoute net mask).2 := by
  unfold removeRoute
  split
  · exact .same rfl
  · rename_i hr
    obtain ⟨⟨route, routes⟩, -, he⟩ := map_eq_ok hr
    cases he
    exact .routes routes rfl

theorem effect_fill (h : Host δ) (x : Ipv4.Address) (hardware : Ethernet.Address) (now : Option Instant) :
    Effect h (.fill x hardware now) (.result (h.fill x hardware now).1) (h.fill x hardware now).2 := by
  unfold fill
  split
  · exact .same rfl
  · rename_i t ht
    split
    · exact .same rfl
    · rename_i t' ht'
      exact .fill ht ht'

/-- Every call has its effect and no other. -/
theorem effect_perform {h h' : Host δ} (ha : h.setup.Agree) {c : Call δ} {a : Answer}
    (e : h.perform c = some (a, h')) : Effect h c a h' := by
  cases c with
  | acquire =>
    cases e
    rcases acquire_cases h with ⟨he, -⟩ | ⟨s, p, hp, he⟩
    · rw [he]; exact .same rfl
    · rw [he]; exact .acquire hp
  | release s => cases e; exact effect_release ha s _
  | bind s addr port => cases e; exact effect_bind h s addr port
  | unbind s => cases e; exact effect_unbind ha s
  | send s task dst port payload =>
    obtain ⟨⟨r, g⟩, hx, he⟩ := Option.map_eq_some_iff.1 e
    cases he
    exact .send hx
  | recv s task room => cases e; exact effect_recv h s task room
  | cancel s task => cases e; exact effect_cancel h s task
  | poll now =>
    obtain ⟨⟨r, g⟩, hx, he⟩ := Option.map_eq_some_iff.1 e
    cases he
    exact .poll hx
  | addRoute route => cases e; exact effect_addRoute h route
  | removeRoute net mask => cases e; exact effect_removeRoute h net mask
  | join group =>
    cases e
    obtain ⟨incoming, groups, he⟩ := join_cases h group
    rw [he]; exact .join he
  | leave group =>
    cases e
    obtain ⟨incoming, groups, he⟩ := leave_cases h group
    rw [he]; exact .leave he
  | device d => cases e; exact .device d
  | fill x hardware now => cases e; exact effect_fill h x hardware now
  | resolver r => cases e; exact .resolver r

/-! ## Ports and bindings -/

/-- Every call keeps ports and bindings in agreement. -/
theorem agree_perform {h h' : Host δ} (ha : h.setup.Agree) {c : Call δ} {a : Answer}
    (e : h.perform c = some (a, h')) : h'.setup.Agree := by
  cases effect_perform ha e with
  | same _ => exact ha
  | acquire hp => exact agree_acquired ha hp
  | release hn => exact agree_vacated ha hn
  | releaseBound hs hb => exact agree_vacated (agree_unbound ha hs hb) (not_bound_unbound hs)
  | bind hs hn hp => exact agree_bound ha hs hn hp
  | unbind hs hb => exact agree_unbound ha hs hb
  | send hx => rw [setup_send hx]; exact ha
  | recv hs hx => rw [setup_set hs _ (Udp.Socket.recv_answered hx).binding]; exact ha
  | @cancel s task socket hs => rw [setup_set hs (socket.cancel task) rfl]; exact ha
  | poll hx => rw [setup_poll hx]; exact ha
  | routes _ _ => exact agree_elsewhere ha rfl rfl
  | join _ => exact agree_elsewhere ha rfl rfl
  | leave _ => exact agree_elsewhere ha rfl rfl
  | device _ => exact agree_elsewhere ha rfl rfl
  | fill _ _ => exact agree_elsewhere ha rfl rfl
  | resolver _ => exact agree_elsewhere ha rfl rfl

/-! ## The table of neighbors -/

section resolver

variable {P : Arp.Table → Prop}

/-- What the operations of a table keep, a host keeps on its own. -/
theorem stable_resolver (hk : Arp.Table.Kept P) : StablePoll fun h : Host δ => h.resolver.All P where
  count layer f hp := by rw [resolver_count]; exact hp
  numbered _ hp := hp
  heard hp hx := hp.receivePass hk hx
  handed _ hp _ := hp
  sent _ hp := hp
  outgoing hp := hp.outgoing hk
  txBuffer _ hp := hp
  deliver hp := hp
  rxBuffer _ hp := hp
  expire now hp := hp.expire hk now _
  take _ hp := hp

theorem resolver_create {d : δ} {config : Config} {h : Host δ} (e : create d config = .ok h)
    (hp : P (.create config.hardware config.addr config.mask)) : h.resolver.All P := by
  obtain ⟨endpoint, router, -, -, rfl⟩ := create_eq_ok e
  show (newResolver config).All P
  unfold newResolver
  cases config.mode with
  | derived => exact Arp.Resolver.all_derived
  | table => exact Arp.Resolver.all_table hp

/-- And so does every call, if a resolver that it replaces is replaced by such a one. -/
theorem resolver_perform (hk : Arp.Table.Kept P) {h h' : Host δ} (ha : h.setup.Agree) (hp : h.resolver.All P)
    {c : Call δ} {a : Answer} (hc : ∀ r, c = .resolver r → r.All P) (e : h.perform c = some (a, h')) :
    h'.resolver.All P := by
  cases effect_perform ha e with
  | send hx => exact (stable_resolver hk).send (fun _ _ hp => hp.lookup hk _ _ _) hp hx
  | poll hx => exact (stable_resolver hk).poll hp hx
  | fill ht ht' => exact Arp.Resolver.all_table (hk.enter (hp _ ht) ht')
  | resolver r => exact hc r rfl
  | _ => exact hp

end resolver

end UdpStack.Host
