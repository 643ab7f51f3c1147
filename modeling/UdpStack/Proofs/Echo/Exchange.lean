/-
An exchange runs to its end. The tasks of server and client run only when they are notified, and a datagram that is
on its way to one of them notifies just this one; so they run in turn, the server in the tick after each request
(`ticks_server`) and the client in the tick after each answer (`ticks_next`). By induction on the requests that are
left, all datagrams come back, and after two ticks for each of them the client is done (`exchange_completes`).
-/
import UdpStack.Proofs.Echo.Peers

namespace UdpStack.Echo

open Bounded Device Host

variable {o : Options} {h g : Net}

/-! ## Assembling -/

/-- A new socket that is bound to a free port makes up a peer with a task. -/
theorem Home.enlist (hh : Home o h) {s : Handle} {p : Pool Udp.Socket Limits.sockets}
    (ha : h.sockets.acquire .empty = .ok (s, p)) {port : UInt16} (hport : port ≠ 0)
    (hfree : h.ports.table.get? port = none) (hroom : h.ports.table.toList.length < Limits.sockets) (task : Task) :
    h.acquire = (.ok s, { h with sockets := p }) ∧
      ∃ g, Host.bind { h with sockets := p } s .unspecified port = (.ok (), g) ∧ Home o g ∧
        Peer.Has ⟨s, task, port⟩ [] none g ∧ ∃ m, m.toList = h.ports.table.toList ++ [(port, .socket s)] ∧
          g = { h with
            sockets := p.set s { Udp.Socket.empty with binding := some ⟨.unspecified, port⟩ }
            ports := { h.ports with table := m } } := by
  obtain ⟨hnone, hget⟩ := Pool.get?_acquire ha
  have hs : p.get? s = some .empty := by rw [hget, if_pos rfl]
  have hacquire : h.acquire = (.ok s, { h with sockets := p }) := by
    unfold acquire
    rw [ha]
  have hcall : h.perform .acquire = some (.acquired (.ok s), { h with sockets := p }) := by
    show some (Answer.acquired h.acquire.1, h.acquire.2) = _
    rw [hacquire]
  have hhome : Home o { h with sockets := p } := ⟨mounted_perform hh.toMounted (by simp [SparesDevice]) hcall,
    hh.wakeups, hh.resolver, hh.personality, hh.room, hh.route⟩
  obtain ⟨m, hm, hbind⟩ := bind_ok (h := { h with sockets := p }) hhome.agree hs rfl hport hfree hroom .unspecified
  have hcall : Host.perform { h with sockets := p } (.bind s .unspecified port) =
      some (.result (.ok ()), (Host.bind { h with sockets := p } s .unspecified port).2) := by
    show some (Answer.result (Host.bind { h with sockets := p } s .unspecified port).1, _) = _
    rw [hbind]
  rw [hbind] at hcall
  refine ⟨hacquire, _, hbind, ⟨mounted_perform hhome.toMounted (by simp [SparesDevice]) hcall, hh.wakeups,
    hh.resolver, hh.personality, hh.room, hh.route⟩, ?_, m, (Map.insert_eq_ok hh.agree.ports hm).2, rfl⟩
  refine Peer.has_of_get? (x := ⟨s, task, port⟩) ?_ (Udp.Socket.served_bound ⟨.unspecified, port⟩ task) rfl
  show (p.set s _).get? s = _
  rw [Pool.get?_set, hs, if_pos ⟨rfl, rfl⟩]

/-- A new host reaches itself on the way that the options ask for. -/
theorem home_create (hunicast : o.host.isUnicast = true) (hhost : o.host.isLoopback = false) :
    ∃ h, Host.create (Device.Loopback.create 8 {}) o.config = .ok h ∧ Home o h ∧ h.sockets = .empty ∧
      h.ports = .create .ipv4 ∧ Queueing.queued h.device = [] ∧ h.deviceCounters = o.tally 0 := by
  have hmask : o.config.mask.prefixLen?.isSome = true := by
    show (Ipv4.Address.netmask (min o.prefixLen 32)).prefixLen?.isSome = true
    rw [Ipv4.Address.prefixLen?_netmask (Nat.min_le_right ..)]
    rfl
  obtain ⟨h, hcreate⟩ : ∃ h, Host.create (Device.Loopback.create 8 {}) o.config = .ok h :=
    create_ok _ hmask hunicast hhost
  have hmounted := mounted_create (Device.Loopback.Built.create {} : Queueing.Built _) hcreate
  obtain ⟨endpoint, router, -, hrouter, rfl⟩ := create_eq_ok hcreate
  have hequipped := (newRouter_eq_ok hrouter).2
  refine ⟨_, hcreate, ⟨hmounted, rfl, rfl, rfl, (List.length_replicate ..).ge, ?_⟩, rfl, rfl, ?_, ?_⟩
  · show ∃ route, router.routes.lookup o.server = some route ∧ route.layer = o.way
    unfold Options.server Options.way
    cases o.loopback with
    | false =>
      show ∃ route, router.routes.lookup o.config.addr = some route ∧ route.layer = .ethernet
      exact lookup_own hequipped hhost
    | true => exact lookup_loopback hequipped hmask hhost rfl
  · rfl
  · unfold Options.tally
    cases o.loopback <;> rfl

/-- The server and its socket. -/
def Options.serverPeer (o : Options) : Peer := ⟨⟨0, 0⟩, serverTask, o.port⟩

/-- The client and its socket. -/
def Options.clientPeer (o : Options) : Peer := ⟨⟨1, 0⟩, clientTask, o.clientPort⟩

/-- The server between two requests. -/
def Options.listening (o : Options) : Server := ⟨o.serverPeer.socket, none⟩

/-- The client after a number of answers. -/
def Options.client (o : Options) (echoed : Nat) : Client where
  socket := o.clientPeer.socket
  serverAddr := o.server
  serverPort := o.port
  message := o.message.toUTF8.toList
  sent := echoed
  echoed := echoed
  awaiting := false
  count := o.count

/-- The first two handles of a pool. -/
theorem acquire_twice : ∃ p : Pool Udp.Socket Limits.sockets, Pool.empty.acquire .empty = .ok (⟨0, 0⟩, p) ∧
    ∀ socket, ∃ p', (p.set ⟨0, 0⟩ socket).acquire .empty = .ok (⟨1, 0⟩, p') :=
  ⟨_, rfl, fun _ => ⟨_, rfl⟩⟩

/-- Server and client can be set up. -/
theorem assemble_ok (hunicast : o.host.isUnicast = true) (hhost : o.host.isLoopback = false) (hserver : o.port ≠ 0)
    (hclient : o.clientPort ≠ 0) (hports : o.port ≠ o.clientPort) :
    ∃ h, assemble o = .ok (o.listening, o.client 0, h) ∧ Home o h ∧
      o.serverPeer.Has [] none h ∧ o.clientPeer.Has [] none h ∧ Queueing.queued h.device = [] ∧
      h.deviceCounters = o.tally 0 := by
  obtain ⟨h₀, hcreate, hhome, hsockets, htable, hframes, hcounters⟩ := home_create hunicast hhost
  obtain ⟨p₁, ha₁, hsecond⟩ := acquire_twice
  rw [← hsockets] at ha₁
  have hnil : h₀.ports.table.toList = [] := by rw [htable]; rfl
  have hfree₁ : h₀.ports.table.get? o.port = none := by rw [htable]; rfl
  obtain ⟨hacquire₁, h₁, hbind₁, hhome₁, hhas₁, m₁, hm₁, rfl⟩ :=
    hhome.enlist ha₁ hserver hfree₁ (by rw [hnil]; decide) serverTask
  rw [hnil, List.nil_append] at hm₁
  obtain ⟨p₂, ha₂⟩ := hsecond { Udp.Socket.empty with binding := some ⟨.unspecified, o.port⟩ }
  have hfree₂ : m₁.get? o.clientPort = none := by
    rw [Map.get?_eq_none_iff, hm₁]
    simpa using hports
  have hroom₂ : m₁.toList.length < Limits.sockets := by
    rw [hm₁]
    exact show 1 < 4 by decide
  obtain ⟨hacquire₂, h₂, hbind₂, hhome₂, hhas₂, m₂, -, rfl⟩ :=
    hhome₁.enlist ha₂ hclient hfree₂ hroom₂ clientTask
  refine ⟨_, ?_, hhome₂, hhas₁.of_same ?_, hhas₂, hframes, hcounters⟩
  · unfold assemble
    rw [hcreate]
    dsimp only [Except.mapError, Bind.bind, Except.bind]
    rw [hacquire₁]
    dsimp only [assemble.settle]
    rw [hbind₁]
    dsimp only [assemble.settle]
    rw [hacquire₂]
    dsimp only [assemble.settle]
    rw [hbind₂]
    rfl
  · obtain ⟨hnone, hget⟩ := Pool.get?_acquire ha₂
    show (Pool.set p₂ _ _).get? ⟨0, 0⟩ = _
    rw [Pool.get?_set, if_neg (by simp), hget, if_neg (by simp)]

/-! ## What the tasks do -/

section tasks

variable {s s' : Server} {c c' : Client} {g' : Net} {r : Udp.Received}

/-- A server waits behind its reply. -/
theorem Server.run_of_pending (hreply : s.sendReply h = some (.ok (true, s', g)))
    (hrecv : g.recv s'.socket serverTask g.mtu = (.pending, g')) (k : Nat) :
    s.run h (k + 1) = some (.ok (s', g')) := by
  unfold Server.run
  rw [hreply]
  dsimp only
  rw [hrecv]

/-- A server goes on with the datagram that it receives. -/
theorem Server.run_of_ready (hreply : s.sendReply h = some (.ok (true, s', g)))
    (hrecv : g.recv s'.socket serverTask g.mtu = (.ready (.ok r), g')) (k : Nat) :
    s.run h (k + 1) = Server.run { s' with reply := some (r.srcAddr, r.srcPort, r.data) } g' k := by
  conv_lhs => unfold Server.run
  rw [hreply]
  dsimp only
  rw [hrecv]

/-- A client waits behind its request. -/
theorem Client.run_of_pending (hcount : c.echoed ≠ c.count) (hrequest : c.sendRequest h = some (.ok (true, c', g)))
    (hrecv : g.recv c'.socket clientTask g.mtu = (.pending, g')) (k : Nat) :
    c.run h (k + 1) = some (.ok (false, c', g')) := by
  unfold Client.run
  rw [if_neg hcount, hrequest]
  dsimp only
  rw [hrecv]

/-- A client goes on once it receives what it sent. -/
theorem Client.run_of_ready (hcount : c.echoed ≠ c.count) (hrequest : c.sendRequest h = some (.ok (true, c', g)))
    (hrecv : g.recv c'.socket clientTask g.mtu = (.ready (.ok r), g')) (hdata : r.data = c'.request (c'.sent - 1))
    (k : Nat) : c.run h (k + 1) = Client.run { c' with echoed := c'.echoed + 1, awaiting := false } g' k := by
  conv_lhs => unfold Client.run
  rw [if_neg hcount, hrequest]
  dsimp only
  rw [hrecv]
  exact if_pos hdata

end tasks

/-! ## Turns of the tasks -/

/-- A datagram that one of the peers sends. -/
def Options.datagram (o : Options) (x : Peer) (payload : Octets) : Udp.Datagram :=
  ⟨o.server, x.port, payload.length, payload⟩

theorem Options.read_datagram (o : Options) (x : Peer) {payload : Octets} {room : Nat} (h : payload.length ≤ room) :
    (o.datagram x payload).read room = ⟨payload, payload.length, o.server, x.port⟩ := by
  show (⟨payload.take room, _, _, _⟩ : Udp.Received) = _
  rw [List.take_of_length_le h]
  rfl

theorem Options.sockets_ne (o : Options) : o.clientPeer.socket ≠ o.serverPeer.socket := by
  show (⟨1, 0⟩ : Handle) ≠ ⟨0, 0⟩
  decide

variable {n : Nat} {payload : Octets}

/-- The server sends back the datagram that it was notified of. -/
theorem server_run (ht : Turn o o.clientPeer o.serverPeer [o.datagram o.clientPeer payload] n h)
    (hunicast : o.host.isUnicast = true) (hsize : payload.length ≤ 512) (k : Nat) :
    ∃ g, Server.run o.listening h (k + 2) = some (.ok (o.listening, g)) ∧
      Sent o o.serverPeer o.clientPeer (o.datagram o.serverPeer payload) n g := by
  obtain ⟨g₁, hrecv, ht₁⟩ := ht.recv o.sockets_ne
  rw [o.read_datagram o.clientPeer hsize] at hrecv
  obtain ⟨g₂, g₃, hsend, hpending, hsent⟩ := ht₁.send o.sockets_ne hunicast hsize
  refine ⟨g₃, ?_, hsent⟩
  have hreply : Server.sendReply { o.listening with reply := some (o.server, o.clientPort, payload) } g₁ =
      some (.ok (true, o.listening, g₂)) := by
    unfold Server.sendReply
    dsimp only
    rw [show g₁.send o.listening.socket serverTask o.server o.clientPort payload = _ from hsend]
    rfl
  rw [Server.run_of_ready rfl hrecv]
  exact Server.run_of_pending hreply hpending k

/-- Without a datagram the server waits. -/
theorem server_waits {waiter : Option Task} (hh : Home o h) (hserver : o.serverPeer.Has [] waiter h) (k : Nat) :
    ∃ g, Server.run o.listening h (k + 1) = some (.ok (o.listening, g)) ∧
      Received o o.serverPeer [] (some serverTask) h g := by
  obtain ⟨g, hpending, hreceived⟩ := hh.recv_of_nil hserver h.mtu
  exact ⟨g, Server.run_of_pending rfl hpending k, hreceived⟩

/-- The payload of a request. -/
def Options.request (o : Options) (seq : Nat) : Octets := (o.client seq).request seq

theorem length_toList_loop (b : ByteArray) (i : Nat) (r : List UInt8) :
    (ByteArray.toList.loop b i r).length = r.length + (b.size - i) := by
  induction i, r using ByteArray.toList.loop.induct b with
  | case1 i r hi ih =>
    unfold ByteArray.toList.loop
    rw [if_pos hi, ih, List.length_cons]
    omega
  | case2 i r hi =>
    unfold ByteArray.toList.loop
    rw [if_neg hi, List.length_reverse]
    omega

theorem Options.length_request (o : Options) (seq : Nat) :
    (o.request seq).length = o.message.utf8ByteSize + 1 := by
  have h := length_toList_loop o.message.toUTF8 0 []
  show (o.message.toUTF8.toList ++ [_]).length = _
  rw [List.length_append, List.length_singleton, show o.message.toUTF8.toList.length = _ from h, List.length_nil,
    Nat.zero_add]
  rfl

/-- The client while it waits for the answer to a request. -/
def Options.waiting (o : Options) (seq : Nat) : Client := { o.client seq with sent := seq + 1, awaiting := true }

/-- A client without an answer left to wait for is finished. -/
theorem client_finishes (o : Options) (h : Net) (k : Nat) :
    Client.run (o.client o.count) h (k + 1) = some (.ok (true, o.client o.count, h)) := by
  unfold Client.run
  exact if_pos rfl

/-- A client that has its turn sends the next request. -/
theorem client_asks {seq : Nat} (ht : Turn o o.serverPeer o.clientPeer [] n h) (hunicast : o.host.isUnicast = true)
    (hmessage : o.message.utf8ByteSize ≤ 511) (hseq : seq < o.count) (k : Nat) :
    ∃ g, Client.run (o.client seq) h (k + 1) = some (.ok (false, o.waiting seq, g)) ∧
      Sent o o.clientPeer o.serverPeer (o.datagram o.clientPeer (o.request seq)) n g := by
  have hsize : (o.request seq).length ≤ 512 := by rw [o.length_request]; omega
  obtain ⟨g₁, g₂, hsend, hpending, hsent⟩ := ht.send o.sockets_ne.symm hunicast hsize
  refine ⟨g₂, ?_, hsent⟩
  have hrequest : Client.sendRequest (o.client seq) h = some (.ok (true, o.waiting seq, g₁)) := by
    unfold Client.sendRequest
    rw [if_neg (show ¬ (o.client seq).awaiting = true by nofun)]
    rw [show h.send (o.client seq).socket clientTask (o.client seq).serverAddr (o.client seq).serverPort
      ((o.client seq).request (o.client seq).sent) = _ from hsend]
    rfl
  exact Client.run_of_pending (Nat.ne_of_lt hseq) hrequest hpending k

/-- A client that is notified of the answer to its request goes on with the next one. -/
theorem client_hears {seq : Nat}
    (ht : Turn o o.serverPeer o.clientPeer [o.datagram o.serverPeer (o.request seq)] n h)
    (hmessage : o.message.utf8ByteSize ≤ 511) (hseq : seq < o.count) (k : Nat) :
    ∃ g, Client.run (o.waiting seq) h (k + 1) = Client.run (o.client (seq + 1)) g k ∧
      Turn o o.serverPeer o.clientPeer [] n g := by
  have hsize : (o.request seq).length ≤ 512 := by rw [o.length_request]; omega
  obtain ⟨g, hrecv, ht'⟩ := ht.recv o.sockets_ne.symm
  rw [o.read_datagram o.serverPeer hsize] at hrecv
  exact ⟨g, Client.run_of_ready (c := o.waiting seq) (Nat.ne_of_lt hseq) (if_pos rfl) hrecv rfl k, ht'⟩

/-! ## Ticks -/

section ticks

variable {s s' : Server} {c c' : Client} {g' g'' : Net} {done : Bool} {tick r : Nat}

/-- A tick polls the host and runs the tasks that are notified. -/
theorem ticks_step {runServer runClient : Bool} (hpoll : h.poll ⟨tick⟩ = some (.ok r, g))
    (hserved : (if runServer || g.notified.contains serverTask then s.run { g with notified := [] } rounds
      else some (.ok (s, { g with notified := [] }))) = some (.ok (s', g')))
    (hasked : (if runClient || g.notified.contains clientTask then c.run g' rounds
      else some (.ok (false, c, g'))) = some (.ok (done, c', g''))) (k : Nat) :
    ticks s c h runServer runClient tick (k + 1) =
      if done then some (.ok ⟨c'.sent, c'.echoed, tick, layerCounters g'' [s'.socket, c'.socket]⟩)
      else ticks s' c' g'' false false (tick + 1) k := by
  conv_lhs => unfold ticks
  rw [hpoll]
  dsimp only [takeNotified]
  rw [hserved]
  dsimp only
  rw [hasked]
  cases done <;> rfl

/-- Without a notification a task runs in the first tick only. -/
theorem ticks_of_both (hpoll : h.poll ⟨tick⟩ = some (.ok r, g))
    (hserved : s.run { g with notified := [] } rounds = some (.ok (s', g')))
    (hasked : c.run g' rounds = some (.ok (done, c', g''))) (k : Nat) :
    ticks s c h true true tick (k + 1) =
      if done then some (.ok ⟨c'.sent, c'.echoed, tick, layerCounters g'' [s'.socket, c'.socket]⟩)
      else ticks s' c' g'' false false (tick + 1) k :=
  ticks_step hpoll ((if_pos rfl).trans hserved) ((if_pos rfl).trans hasked) k

theorem ticks_of_server (hpoll : h.poll ⟨tick⟩ = some (.ok r, g)) (hn : g.notified = [serverTask])
    (hserved : s.run { g with notified := [] } rounds = some (.ok (s', g'))) (c : Client) (k : Nat) :
    ticks s c h false false tick (k + 1) = ticks s' c g' false false (tick + 1) k := by
  have hruns : (false || g.notified.contains serverTask) = true := by rw [hn]; rfl
  have hwaits : ¬ (false || g.notified.contains clientTask) = true := by rw [hn]; decide
  exact ticks_step hpoll ((if_pos hruns).trans hserved) (if_neg hwaits) k

theorem ticks_of_client (hpoll : h.poll ⟨tick⟩ = some (.ok r, g)) (hn : g.notified = [clientTask])
    (hasked : c.run { g with notified := [] } rounds = some (.ok (done, c', g'))) (s : Server) (k : Nat) :
    ticks s c h false false tick (k + 1) =
      if done then some (.ok ⟨c'.sent, c'.echoed, tick, layerCounters g' [s.socket, c'.socket]⟩)
      else ticks s c' g' false false (tick + 1) k := by
  have hwaits : ¬ (false || g.notified.contains serverTask) = true := by rw [hn]; decide
  have hruns : (false || g.notified.contains clientTask) = true := by rw [hn]; rfl
  exact ticks_step hpoll (if_neg hwaits) ((if_pos hruns).trans hasked) k

/-- The server answers in the tick after a request. -/
theorem ticks_server (hs : Sent o o.clientPeer o.serverPeer (o.datagram o.clientPeer payload) n h)
    (hunicast : o.host.isUnicast = true) (hsize : payload.length ≤ 512) (c : Client) (tick k : Nat) :
    ∃ g, ticks o.listening c h false false tick (k + 1) = ticks o.listening c g false false (tick + 1) k ∧
      Sent o o.serverPeer o.clientPeer (o.datagram o.serverPeer payload) (n + 1) g := by
  obtain ⟨r, g, hpoll, hnotified, ht⟩ := hs.poll o.sockets_ne.symm ⟨tick⟩
  obtain ⟨g', hserved, hsent⟩ := server_run ht hunicast hsize 3
  exact ⟨g', ticks_of_server hpoll hnotified hserved c k, hsent⟩

variable {seq : Nat}

/-- The client is done in the tick after the last answer. -/
theorem ticks_last (hs : Sent o o.serverPeer o.clientPeer (o.datagram o.serverPeer (o.request seq)) n h)
    (hmessage : o.message.utf8ByteSize ≤ 511) (hseq : seq + 1 = o.count) (s : Server) (tick k : Nat) :
    ∃ g, ticks s (o.waiting seq) h false false tick (k + 1) =
        some (.ok ⟨o.count, o.count, tick, layerCounters g [s.socket, o.clientPeer.socket]⟩) ∧
      g.deviceCounters = o.tally (n + 1) := by
  obtain ⟨r, g, hpoll, hnotified, ht⟩ := hs.poll o.sockets_ne ⟨tick⟩
  obtain ⟨g', hheard, ht'⟩ := client_hears ht hmessage (by omega) 4
  rw [hseq, client_finishes] at hheard
  exact ⟨g', ticks_of_client hpoll hnotified hheard s k, ht'.tally⟩

/-- The client sends the next request in the tick after any other answer. -/
theorem ticks_next (hs : Sent o o.serverPeer o.clientPeer (o.datagram o.serverPeer (o.request seq)) n h)
    (hunicast : o.host.isUnicast = true) (hmessage : o.message.utf8ByteSize ≤ 511) (hseq : seq + 1 < o.count)
    (s : Server) (tick k : Nat) :
    ∃ g, ticks s (o.waiting seq) h false false tick (k + 1) =
        ticks s (o.waiting (seq + 1)) g false false (tick + 1) k ∧
      Sent o o.clientPeer o.serverPeer (o.datagram o.clientPeer (o.request (seq + 1))) (n + 1) g := by
  obtain ⟨r, g, hpoll, hnotified, ht⟩ := hs.poll o.sockets_ne ⟨tick⟩
  obtain ⟨g', hheard, ht'⟩ := client_hears ht hmessage (by omega) 4
  obtain ⟨g'', hasks, hsent⟩ := client_asks ht' hunicast hmessage hseq 3
  exact ⟨g'', ticks_of_client hpoll hnotified (hheard.trans hasks) s k, hsent⟩

end ticks

/-! ## Exchanges -/

/-- How an exchange ends in which all datagrams came back. -/
structure Options.Completed (o : Options) (score : Score) : Prop where
  sent : score.sent = o.count
  echoed : score.echoed = o.count
  elapsed : score.elapsed = 2 * o.count
  device : score.counters.lookup .device = some (o.tally (2 * o.count))

/-- The counters of the device are the first of the report. -/
theorem lookup_layerCounters (h : Net) (sockets : List Handle) :
    (layerCounters h sockets).lookup .device = some h.deviceCounters := rfl

/-- A request that was sent in tick `2 * seq` leads to the end of the exchange, two ticks for each request that is
left. -/
theorem ticks_complete (hunicast : o.host.isUnicast = true) (hmessage : o.message.utf8ByteSize ≤ 511) (m : Nat) :
    ∀ {seq : Nat} {h : Net}, seq + m + 1 = o.count →
      Sent o o.clientPeer o.serverPeer (o.datagram o.clientPeer (o.request seq)) (2 * seq) h → ∀ k,
      ∃ score, ticks o.listening (o.waiting seq) h false false (2 * seq + 1) (2 * m + 2 + k) = some (.ok score) ∧
        o.Completed score := by
  induction m with
  | zero =>
    intro seq h hseq hs k
    have hsize : (o.request seq).length ≤ 512 := by rw [o.length_request]; omega
    obtain ⟨g, hserved, hs'⟩ := ticks_server hs hunicast hsize (o.waiting seq) (2 * seq + 1) (k + 1)
    obtain ⟨g', hlast, htally⟩ := ticks_last hs' hmessage hseq o.listening (2 * seq + 2) k
    have htick : 2 * seq + 2 = 2 * o.count := by omega
    refine ⟨⟨o.count, o.count, 2 * seq + 2, layerCounters g' [⟨0, 0⟩, ⟨1, 0⟩]⟩, ?_, rfl, rfl, htick, ?_⟩
    · rw [show 2 * 0 + 2 + k = k + 1 + 1 by omega, hserved, hlast]
      rfl
    · rw [lookup_layerCounters, htally, ← htick]
  | succ m ih =>
    intro seq h hseq hs k
    have hsize : (o.request seq).length ≤ 512 := by rw [o.length_request]; omega
    obtain ⟨g, hserved, hs'⟩ :=
      ticks_server hs hunicast hsize (o.waiting seq) (2 * seq + 1) (2 * m + 2 + k + 1)
    obtain ⟨g', hnext, hs''⟩ :=
      ticks_next hs' hunicast hmessage (by omega) o.listening (2 * seq + 2) (2 * m + 2 + k)
    obtain ⟨score, hscore, hcompleted⟩ := ih (by omega) hs'' k
    refine ⟨score, ?_, hcompleted⟩
    rw [show 2 * (m + 1) + 2 + k = 2 * m + 2 + k + 1 + 1 by omega, hserved, hnext]
    exact hscore

/-- An exchange has two ticks for each datagram. -/
theorem tickLimit_eq {count : Nat} (h : 100 * (count + 1) < 2 ^ 63) : tickLimit count = 100 * (count + 1) + 1 := by
  have hbmod : Int.bmod count UInt64.size = count := by
    apply Int.bmod_eq_of_le <;> norm_num [UInt64.size]
    omega
  unfold tickLimit
  rw [hbmod]
  omega

/-- The first tick, in which the server begins to wait and the client has its turn. -/
theorem turn_first (hh : Home o h) (hserver : o.serverPeer.Has [] none h) (hclient : o.clientPeer.Has [] none h)
    (hframes : Queueing.queued h.device = []) (htally : h.deviceCounters = o.tally 0)
    (k : Nat) :
    ∃ g, h.poll ⟨0⟩ = some (.ok 0, { h with now := ⟨0⟩ }) ∧
      Server.run o.listening { h with now := ⟨0⟩, notified := [] } (k + 1) = some (.ok (o.listening, g)) ∧
      Turn o o.serverPeer o.clientPeer [] 0 g := by
  have hpoll := hh.poll_of_nil hframes ⟨0⟩
  have hpolled : Home o { h with now := ⟨0⟩, notified := [] } := (hh.of_poll hpoll rfl).taken
  obtain ⟨g, hwaits, hreceived⟩ := server_waits hpolled (hserver.of_same rfl) k
  refine ⟨g, hpoll, hwaits, hreceived.toHome, ?_, hreceived.has, ?_, ?_, ?_⟩
  all_goals obtain ⟨sockets, rfl, honly⟩ := hreceived.only
  · exact hclient.of_same (honly _ o.sockets_ne)
  · exact hframes
  · rfl
  · exact htally

/-- Every exchange of a host with the address of a single host outside of the loopback comes to its end: all
datagrams come back, each in two ticks, and unless they go over the loopback, the device sees each of them on both
of its ways. -/
theorem exchange_completes (o : Options) (hunicast : o.host.isUnicast = true) (hhost : o.host.isLoopback = false)
    (hserver : o.port ≠ 0) (hclient : o.clientPort ≠ 0) (hports : o.port ≠ o.clientPort)
    (hmessage : o.message.utf8ByteSize ≤ 511) (hcount : 100 * (o.count + 1) < 2 ^ 63) :
    ∃ score, run o = some (.ok score) ∧ score.sent = o.count ∧ score.echoed = o.count ∧
      score.elapsed = 2 * o.count ∧ score.counters.lookup .device = some (if o.loopback then {} else
        { rx := .ofNat (2 * o.count), tx := .ofNat (2 * o.count) }) := by
  obtain ⟨h, hassemble, hh, hs, hc, hframes, htally⟩ := assemble_ok hunicast hhost hserver hclient hports
  obtain ⟨g, hpoll, hserved, ht⟩ := turn_first hh hs hc hframes htally 4
  have hrun : run o = ticks o.listening (o.client 0) h true true 0 (100 * (o.count + 1) + 1) := by
    unfold run
    rw [hassemble]
    dsimp only
    rw [tickLimit_eq hcount]
  obtain ⟨score, hscore, hdone⟩ : ∃ score, run o = some (.ok score) ∧ o.Completed score := by
    rw [hrun]
    by_cases hzero : o.count = 0
    · have hasked := client_finishes o g 4
      rw [hzero] at hasked
      refine ⟨⟨0, 0, 0, layerCounters g [⟨0, 0⟩, ⟨1, 0⟩]⟩, ?_, hzero.symm, hzero.symm, ?_, ?_⟩
      · exact ticks_of_both hpoll hserved hasked _
      · rw [hzero]
      · rw [lookup_layerCounters, ht.tally, hzero]
    · obtain ⟨g', hasked, hsent⟩ := client_asks ht hunicast hmessage (show 0 < o.count by omega) 4
      obtain ⟨score, hscore, hdone⟩ := ticks_complete hunicast hmessage (o.count - 1)
        (show 0 + (o.count - 1) + 1 = o.count by omega) hsent (100 * (o.count + 1) - 2 * o.count)
      refine ⟨score, ?_, hdone⟩
      rw [show 2 * (o.count - 1) + 2 + (100 * (o.count + 1) - 2 * o.count) = 100 * (o.count + 1) by omega] at hscore
      exact (ticks_of_both hpoll hserved hasked _).trans hscore
  exact ⟨score, hscore, hdone.sent, hdone.echoed, hdone.elapsed, hdone.device⟩

theorem exchange_completes_narrow :
    let o : Options := { host := ⟨10, 0, 0, 255⟩, prefixLen := 24, count := 3, message := "hello", arp := true }
    (o.host.isUnicast = true ∧ o.host.isLoopback = false ∧ o.port ≠ 0 ∧ o.clientPort ≠ 0 ∧
      o.port ≠ o.clientPort ∧ o.message.utf8ByteSize ≤ 511 ∧ 100 * (o.count + 1) < 2 ^ 63) ∧
    ∃ score, run o = some (.ok score) ∧ score.sent = 3 ∧ score.echoed = 3 ∧ score.elapsed = 6 ∧
      score.counters.lookup .device = some { rx := 6, tx := 6 } := by
  intro o
  refine ⟨by decide, ?_⟩
  exact exchange_completes o (by decide) (by decide) (by decide) (by decide) (by decide) (by decide) (by decide)

end UdpStack.Echo
