/-
No call reaches behind the end of anything. Every call leaves a host whose tables are stored in order
(`orderly_perform`), so whatever a program did before, with any handles, addresses, payloads and routes and with
any bytes on its device, the next call meets all demands that it comes to, and answers (`run_demands_met`).
-/
import UdpStack.Proofs.Host.Demands
import UdpStack.Proofs.Ipv4.History

namespace UdpStack.Host

open Bounded Device

variable {δ : Type}

/-! ## Calls keep everything in order -/

/-- What programs can do: a device or a resolver is left as programs can have it. -/
def Possible [Nic δ] [Queueing δ] (_ : Host δ) : Call δ → Prop
  | .device d => Queueing.Built d
  | .resolver r => r.Built
  | _ => True

theorem Setup.Stored.of_assembled {manual : Bool} {u : Setup} (ha : u.Assembled manual) (hg : u.Agree)
    (hc : Ethernet.Endpoint.Counted u.groups) (hr : u.routes.WF) : u.Stored :=
  ⟨ha.etherTypes, hc, hr, ha.incoming, ha.protocols, hg.ports⟩

theorem counted_join {h : Host δ} (hc : Ethernet.Endpoint.Counted h.endpoint.groups) (group : Ipv4.Address) :
    Ethernet.Endpoint.Counted (h.join group).2.endpoint.groups := by
  unfold join
  split
  · exact hc
  · split
    · exact hc
    · split
      · rename_i e he
        exact Ethernet.Endpoint.counted_join hc he
      · split <;> exact hc

theorem counted_leave {h : Host δ} (hc : Ethernet.Endpoint.Counted h.endpoint.groups) (group : Ipv4.Address) :
    Ethernet.Endpoint.Counted (h.leave group).2.endpoint.groups := by
  unfold leave
  split
  · exact hc
  · split
    · exact hc
    · split
      · exact hc
      · rename_i e he
        exact Ethernet.Endpoint.counted_leave hc he

theorem wf_addRoute {h : Host δ} (hw : h.router.routes.WF) (route : Ipv4.Route) :
    (h.addRoute route).2.router.routes.WF := by
  unfold addRoute
  split
  · exact hw
  · rename_i r hr
    obtain ⟨routes, he, rfl⟩ := addRoute_eq_ok hr
    exact Ipv4.Routes.add_wf hw he

theorem wf_removeRoute {h : Host δ} (hw : h.router.routes.WF) (net mask : Ipv4.Address) :
    (h.removeRoute net mask).2.router.routes.WF := by
  unfold removeRoute
  split
  · exact hw
  · rename_i route r hr
    obtain ⟨⟨route', routes⟩, he, hx⟩ := map_eq_ok hr
    cases hx
    exact Ipv4.Routes.remove_wf hw he

theorem sized_unbound {h : Host δ} (hs : h.sockets.All Udp.Socket.Sized) {s : Handle} {socket : Udp.Socket}
    (hg : h.sockets.get? s = some socket) (b : Udp.Binding) :
    (h.unbound s socket b).sockets.All Udp.Socket.Sized :=
  hs.set s ((hs s socket hg).of_queue (.inl rfl))

section calls

variable [Nic δ]

/-- Routes are kept in order by the two calls that change them. -/
theorem routes_perform {h h' : Host δ} (ha : h.setup.Agree) (hw : h.router.routes.WF) {c : Call δ}
    {a : Answer} (e : h.perform c = some (a, h')) : h'.router.routes.WF := by
  have same : ∀ {g : Host δ}, g.setup = h.setup → g.router.routes.WF := by
    intro g hs
    have hroutes : g.router.routes = h.router.routes := congrArg Setup.routes hs
    rw [hroutes]
    exact hw
  cases c with
  | acquire =>
    cases e
    rcases acquire_cases h with ⟨he, -⟩ | ⟨s, p, -, he⟩ <;> rw [he] <;> exact hw
  | release s =>
    cases e
    rcases release_cases ha s with ⟨-, he⟩ | ⟨socket, b, -, -, he⟩ <;> rw [he] <;> exact hw
  | bind s addr port =>
    cases hb : h.bind s addr port with
    | mk r g =>
      have hg : h' = g := (congrArg Prod.snd (Option.some.inj e)).symm.trans (congrArg Prod.snd hb)
      rw [hg]
      rcases bind_cases hb with rfl | ⟨socket, ports, -, -, -, rfl⟩ <;> exact hw
  | unbind s =>
    cases e
    rcases unbind_cases ha s with ⟨he, -⟩ | ⟨socket, b, -, -, he⟩ <;> rw [he] <;> exact hw
  | send s task dst port payload =>
    obtain ⟨⟨r, g⟩, hx, he⟩ := Option.map_eq_some_iff.1 e
    cases he
    exact same (setup_send hx)
  | recv s task room =>
    cases e
    unfold recv
    split <;> exact hw
  | cancel s task =>
    cases e
    unfold cancel modifySocket
    split <;> exact hw
  | poll now =>
    obtain ⟨⟨r, g⟩, hx, he⟩ := Option.map_eq_some_iff.1 e
    cases he
    exact same (setup_poll hx)
  | addRoute route => cases e; exact wf_addRoute hw route
  | removeRoute net mask => cases e; exact wf_removeRoute hw net mask
  | join group =>
    cases e
    obtain ⟨incoming, groups, he⟩ := join_cases h group
    rw [he]; exact hw
  | leave group =>
    cases e
    obtain ⟨incoming, groups, he⟩ := leave_cases h group
    rw [he]; exact hw
  | device d => cases e; exact hw
  | fill x hardware now =>
    cases e
    unfold fill
    split
    · exact hw
    · split <;> exact hw
  | resolver r => cases e; exact hw

/-- Groups stay counted. -/
theorem counted_perform {h h' : Host δ} (ha : h.setup.Agree) (hc : Ethernet.Endpoint.Counted h.endpoint.groups)
    {c : Call δ} {a : Answer} (e : h.perform c = some (a, h')) : Ethernet.Endpoint.Counted h'.endpoint.groups := by
  have same : ∀ {g : Host δ}, g.setup = h.setup → Ethernet.Endpoint.Counted g.endpoint.groups := by
    intro g hs
    have hgroups : g.endpoint.groups = h.endpoint.groups := congrArg Setup.groups hs
    rw [hgroups]
    exact hc
  cases effect_perform ha e with
  | send hx => exact same (setup_send hx)
  | poll hx => exact same (setup_poll hx)
  | @join group _ _ _ he => rw [← he]; exact counted_join hc group
  | @leave group _ _ _ he => rw [← he]; exact counted_leave hc group
  | _ => exact hc

variable [Queueing δ] {manual : Bool} {h h' : Host δ}

theorem orderly_create {d : δ} {config : Config} (hd : Queueing.Built d) (e : create d config = .ok h) :
    h.Orderly := by
  have ha := assembled_create e
  have hg := agree_create e
  have hresolver : h.resolver.Built := resolver_create e (.create ..)
  obtain ⟨endpoint, router, he, hr, rfl⟩ := create_eq_ok e
  obtain ⟨-, -, -, -, hgroups⟩ := newEndpoint_eq_ok he
  refine ⟨.of_assembled ha hg ?_ (newRouter_eq_ok hr).2.routes, ?_, Pool.all_empty _, Seq.empty_wf, hd⟩
  · show Ethernet.Endpoint.Counted endpoint.groups
    rw [hgroups]
    exact Ethernet.Endpoint.counted_empty
  · exact hresolver

theorem orderly_perform (hs : h.Steady manual) (ho : h.Orderly) {c : Call δ} {a : Answer} (hp : h.Possible c)
    (e : h.perform c = some (a, h')) : h'.Orderly := by
  have hs' := steady_perform hs e
  have hsetup : h'.setup.Stored := .of_assembled hs'.assembled hs'.agree
    (counted_perform hs.agree ho.setup.groups e) (routes_perform hs.agree ho.setup.routes e)
  have ⟨_, hr, hsockets, hw, hd⟩ := ho
  cases effect_perform hs.agree e with
  | same _ => exact ⟨hsetup, hr, hsockets, hw, hd⟩
  | acquire ha => exact ⟨hsetup, hr, hsockets.acquire Udp.Socket.empty_sized ha, hw, hd⟩
  | release _ => exact ⟨hsetup, hr, hsockets.release _, hw, hd⟩
  | releaseBound hg _ => exact ⟨hsetup, hr, (sized_unbound hsockets hg _).release _, Seq.empty_wf, hd⟩
  | bind hg _ _ => exact ⟨hsetup, hr, hsockets.set _ ((hsockets _ _ hg).of_queue (.inl rfl)), hw, hd⟩
  | unbind hg _ => exact ⟨hsetup, hr, sized_unbound hsockets hg _, Seq.empty_wf, hd⟩
  | send hx => exact stable_orderly.send (fun x task ho => ho.asked x task) ho hx
  | recv hg hx => exact ⟨hsetup, hr, hsockets.set _ ((hsockets _ _ hg).recv hx), hw, hd⟩
  | cancel hg => exact ⟨hsetup, hr, hsockets.set _ ((hsockets _ _ hg).of_queue (.inl rfl)), hw, hd⟩
  | poll hx => exact stable_orderly.poll ho hx
  | routes _ _ => exact ⟨hsetup, hr, hsockets, hw, hd⟩
  | join _ => exact ⟨hsetup, hr, hsockets, hw, hd⟩
  | leave _ => exact ⟨hsetup, hr, hsockets, hw, hd⟩
  | device d => exact ⟨hsetup, hr, hsockets, hw, hp⟩
  | fill ht ht' => exact ⟨hsetup, Arp.Resolver.all_table (.enter (hr _ ht) ht'), hsockets, hw, hd⟩
  | resolver r => exact ⟨hsetup, hp, hsockets, hw, hd⟩

end calls

/-! ## Calls meet their demands -/

section demands

variable [Nic δ] [Queueing δ] {h : Host δ}

theorem Orderly.met_unbind (ho : h.Orderly) (s : Handle) : AllMet (h.unbindDemands s) := by
  refine allMet_append.2 ⟨Pool.met_get _ s, ?_⟩
  split
  · exact allMet_nil
  · rename_i socket _
    refine allMet_append.2 ⟨Udp.Socket.met_waiters ho.wakeups socket, ?_⟩
    split
    · exact allMet_nil
    · rename_i hu
      refine allMet_append.2 ⟨ho.setup.ports.met_remove _, Wakeups.met_deliver ?_⟩
      exact Udp.Socket.unbind_pending ho.wakeups hu

theorem Orderly.met_release (ho : h.Orderly) (s : Handle) : AllMet (h.releaseDemands s) := by
  refine allMet_append.2 ⟨allMet_append.2 ⟨Pool.met_get _ s, ?_⟩, Pool.met_release _ s⟩
  exact allMet_ite (fun _ => ho.met_unbind s) fun _ => allMet_nil

theorem Orderly.met_recv (ho : h.Orderly) (s : Handle) (room : Nat) : AllMet (h.recvDemands s room) := by
  refine allMet_append.2 ⟨Pool.met_get _ s, ?_⟩
  split
  · exact allMet_nil
  · rename_i socket hs
    exact Udp.Socket.met_recv (ho.sockets s socket hs) room

theorem Orderly.met_join (ho : h.Orderly) (group : Ipv4.Address) : AllMet (h.joinDemands group) := by
  refine allMet_append.2 ⟨ho.setup.incoming.met_insert group, ?_⟩
  split
  · exact allMet_nil
  · rename_i r hr
    obtain ⟨m, hi, rfl⟩ := addIncoming_eq_ok hr
    refine allMet_append.2 ⟨Ethernet.Endpoint.met_join ho.setup.groups _, ?_⟩
    exact (Map.insert_wf ho.setup.incoming hi).met_remove group

theorem Orderly.met_leave (ho : h.Orderly) (group : Ipv4.Address) : AllMet (h.leaveDemands group) :=
  allMet_append.2 ⟨ho.setup.incoming.met_remove group, Ethernet.Endpoint.met_leave ho.setup.groups _⟩

variable [Demanding δ]

theorem Orderly.met_send (ho : h.Orderly) {s : Handle} {task : Task} {dst : Ipv4.Address} {port : UInt16}
    {payload : Octets} {x : Poll Nat × Host δ} (e : h.send s task dst port payload = some x) :
    AllMet (h.sendDemands s task dst port payload) := by
  unfold sendDemands
  refine allMet_append.2 ⟨allMet_append.2 ⟨met_mtu, Pool.met_get _ s⟩, ?_⟩
  refine allMet_ite (fun _ => allMet_nil) fun hfits => allMet_ite (fun _ => allMet_nil) fun hsocket => ?_
  unfold send at e
  rw [if_neg hfits, if_neg hsocket] at e
  split
  · exact ho.met_flush
  · rename_i p hp
    refine allMet_append.2 ⟨p.met_push payload, ?_⟩
    split
    · exact ho.met_flush
    · rename_i q hq
      have hqo := (Packet.push_inOrder (create_inOrder hp) hq).1
      have hpacket : ((Packet.create h.txBuffer Limits.headerRoom).bind fun p => p.push payload) = .ok q := by
        rw [hp]
        exact hq
      rw [hpacket] at e
      dsimp only at e ⊢
      cases hx : h.transmit ⟨q, { dstAddr := dst, dstPort := port, task := some task }⟩ (.socket s) .user with
      | none =>
        rw [hx] at e
        cases e
      | some y =>
        have hg : y.2.1.Orderly := stable_orderly.transmit (.inr fun x task ho => ho.asked x task) ho hx
        refine allMet_append.2 ⟨ho.met_transmit hqo hx, ?_⟩
        exact Orderly.met_flush ⟨hg.setup, hg.resolver, hg.sockets, hg.wakeups, hg.device⟩

/-- A call that answers meets its demands. -/
theorem Orderly.met_perform (ho : h.Orderly) {c : Call δ} {x : Answer × Host δ} (e : h.perform c = some x) :
    AllMet (h.callDemands c) := by
  cases c with
  | acquire => exact Pool.met_acquire _
  | release s => exact ho.met_release s
  | bind s addr port => exact allMet_append.2 ⟨Pool.met_get _ s, Udp.Ports.met_bind ho.setup.ports port⟩
  | unbind s => exact ho.met_unbind s
  | send s task dst port payload =>
    obtain ⟨y, hy, -⟩ := Option.map_eq_some_iff.1 e
    exact ho.met_send hy
  | recv s task room => exact ho.met_recv s room
  | cancel s task => exact Pool.met_get _ s
  | poll now => exact ho.met_poll now
  | addRoute route => exact Ipv4.Routes.met_add ho.setup.routes.storage route
  | removeRoute net mask => exact ho.setup.routes.storage.met_extract _
  | join group => exact ho.met_join group
  | leave group => exact ho.met_leave group
  | device d => exact allMet_nil
  | fill x hardware now => exact ho.resolver.met_fill x hardware now
  | resolver r => exact allMet_nil

theorem Orderly.met_look (ho : h.Orderly) (s : Handle) : AllMet (h.lookDemands s) := by
  obtain ⟨⟨he, hg, hr, hi, hp, hu⟩, hresolver, -, -, hd⟩ := ho
  simp only [lookDemands, allMet_append]
  refine ⟨⟨⟨⟨⟨⟨⟨⟨⟨Pool.met_get _ s, met_mtu⟩, hg.stored.met_find⟩, he.met_find⟩, hr.storage.met_iter⟩, hi.met_find⟩,
    hp.met_find⟩, hu.met_find⟩, Demanding.met_use hd _⟩, ?_⟩
  split
  · exact allMet_nil
  · rename_i t ht
    exact (hresolver t ht).stored.met_look

/-- Whatever a program did to a host before, the next call meets all demands that it comes to, and answers; so
does everything that the program looks at, or does to the device or to the table of neighbors. -/
theorem run_demands_met {d : δ} {config : Config} {g : Host δ} {es : List (Call δ × Answer)}
    (hd : Queueing.Built d) (e : create d config = .ok h) (hr : Run Possible h es g) :
    (∀ c, AllMet (g.callDemands c) ∧ ∃ a g', g.perform c = some (a, g')) ∧
    (∀ s, AllMet (g.lookDemands s)) ∧
    (∀ u, AllMet (Demanding.useDemands g.device u)) ∧
    ∀ t, g.resolver = .table t → ∀ ts c, AllMet (t.callDemands (Wakeups.empty.wakeAll ts) c) := by
  obtain ⟨hs, ho⟩ : g.Steady (decide ((Nic.personality d).check = .manual)) ∧ g.Orderly := by
    refine Run.keeps (P := fun g => g.Steady _ ∧ g.Orderly) ?_ ⟨steady_create e, orderly_create hd e⟩ hr
    rintro g g' c a ⟨hs, ho⟩ hp hc
    exact ⟨steady_perform hs hc, orderly_perform hs ho hp hc⟩
  refine ⟨fun c => ?_, ho.met_look, Demanding.met_use ho.device, fun t ht ts c => ?_⟩
  · obtain ⟨a, g', hc⟩ := perform_total hs c
    exact ⟨ho.met_perform hc, a, g', hc⟩
  · exact (ho.resolver t ht).stored.met_call (Wakeups.wakeAll_wf ts Seq.empty_wf) c

/-- A frame whose datagram says that it is longer than the packet: the datagram is read as far as its length. -/
theorem run_demands_met_overlong : ∃ g : Host (External 1), ∃ now : Instant,
    .range 34 42 Limits.frameBuffer ∈ g.callDemands (.poll now) ∧ AllMet (g.callDemands (.poll now)) ∧
      ∃ a g', g.perform (.poll now) = some (a, g') := by
  let frame : Octets := [255, 255, 255, 255, 255, 255, 2, 0, 0, 0, 0, 1, 8, 0, 69, 0, 0, 28, 0, 0, 0, 0, 64, 17,
    102, 207, 10, 0, 0, 2, 10, 0, 0, 1, 0, 7, 0, 7, 255, 255, 0, 0]
  let device : External 1 := External.create 1 {}
  have hx : (do
      let h ← (create device (.create ⟨10, 0, 0, 1⟩ ⟨255, 255, 255, 0⟩)).toOption
      let g ← h.performAll [.acquire, .bind ⟨0, 0⟩ .unspecified 7, .device (device.inject frame).2]
      pure (decide (.range 34 42 Limits.frameBuffer ∈ g.2.callDemands (.poll ⟨86400000⟩)))) =
      some true := by decide +kernel
  obtain ⟨h, hc, hx⟩ := Option.bind_eq_some_iff.1 hx
  obtain ⟨⟨es, g⟩, hr, hx⟩ := Option.bind_eq_some_iff.1 hx
  have hmem := of_decide_eq_true (Option.some.inj hx)
  have hd : Queueing.Built device := External.Built.create _
  have hrun : Run Possible h es g := by
    refine run_performAll _ .nil (fun c hc g => ?_) hr
    simp only [List.mem_cons, List.not_mem_nil, or_false] at hc
    rcases hc with rfl | rfl | rfl
    · trivial
    · trivial
    · exact External.Built.inject frame hd
  obtain ⟨hcall, -⟩ := run_demands_met hd (eq_ok_of_toOption hc) hrun
  obtain ⟨hmet, hanswers⟩ := hcall (.poll ⟨86400000⟩)
  exact ⟨g, _, hmem, hmet, hanswers⟩

end demands

end UdpStack.Host
