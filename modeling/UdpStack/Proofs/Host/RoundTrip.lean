/-
Datagrams from one host to another. A host between calls has nothing of its own to send, so a send
hands over just its frame (`run_poised`); the frame meets all conditions of a host that listens
(`accepts_wire`), in one socket only; and a poll of that host appends what was sent to its queue
(`round_trip`).
-/
import UdpStack.Proofs.Host.Deliveries
import UdpStack.Proofs.Host.Transmission

namespace UdpStack.Host

open Bounded Device Octets

variable {δ ε : Type} {m n : Nat}

/-! ## Hosts with nothing to send -/

section idle

variable [Nic δ]

theorem stableFlush_backlog (k : Nat) : StableFlush fun h : Host δ => h.resolver.backlog ≤ k where
  count layer f hk := by simpa using hk
  sent _ hk := hk
  outgoing {h} hk := by
    show h.resolver.outgoing.2.backlog ≤ k
    rw [Arp.Resolver.backlog_outgoing]
    omega
  txBuffer _ hk := hk
  deliver hk := hk

theorem idle_sendMessages : ∀ (k : Nat) {h h' : Host δ}, h.resolver.backlog ≤ k →
    h.sendMessages k = some h' → h'.Idle
  | 0, h, h', hk, e => by
    cases e
    exact Arp.Resolver.outgoing_of_backlog (by omega)
  | k + 1, h, h', hk, e => by
    have hle := Arp.Resolver.backlog_outgoing h.resolver
    unfold sendMessages at e
    cases hx : h.resolver.outgoing with
    | mk next resolver =>
      rw [hx] at e hle
      cases next with
      | none =>
        cases e
        exact congrArg Prod.fst hx
      | some message =>
        obtain ⟨g, hg, hflushed⟩ := sendMessage_total { h with resolver := resolver } message.1 message.2
        dsimp only at e
        rw [hg] at e
        have hgk : g.resolver.backlog ≤ k := hflushed _ (stableFlush_backlog k) (by dsimp only at hle ⊢; omega)
        exact idle_sendMessages k hgk e

theorem idle_flush {h h' : Host δ} (e : h.flush = some h') : h'.Idle := by
  obtain ⟨g, hg, rfl⟩ := Option.map_eq_some_iff.1
    (show (h.sendMessages h.resolver.backlog).map deliver = some h' from e)
  have hi : g.Idle := idle_sendMessages _ le_rfl hg
  exact hi

theorem idle_receiveFrames : ∀ (k : Nat) {h h' : Host δ} {i : Nat} {r : Except Fault Nat}, h.Idle →
    h.receiveFrames i k = some (r, h') → h'.Idle
  | 0, h, h', i, r, hi, e => by cases e; exact hi
  | k + 1, h, h', i, r, hi, e => by
    unfold Host.receiveFrames at e
    split at e
    · cases e; exact hi
    · obtain ⟨g, hg, he⟩ := Option.map_eq_some_iff.1 e
      cases he
      exact idle_flush hg
    · split at e
      · cases e
      · rename_i hy
        obtain ⟨u, -, hf⟩ := Option.bind_eq_some_iff.1 hy
        exact idle_receiveFrames k (idle_flush hf) e

theorem idle_poll {h h' : Host δ} {now : Instant} {r : Except Fault Nat} (e : h.poll now = some (r, h')) :
    h'.Idle := by
  obtain ⟨g, hg, hr, -⟩ := poll_cases e
  exact idle_receiveFrames _ (idle_flush hg) hr

theorem idle_send {h h' : Host δ} {s : Handle} {task : Task} {dst : Ipv4.Address} {port : UInt16}
    {payload : Octets} {r : Poll Nat} (hi : h.Idle) (e : h.send s task dst port payload = some (r, h')) :
    h'.Idle := by
  rcases send_cases e with ⟨-, rfl | hf⟩ | ⟨_, _, _, _, -, -, -, hf, -⟩
  · exact hi
  · exact idle_flush hf
  · exact idle_flush hf

theorem stable_txBuffer_length (k : Nat) : StablePoll fun h : Host δ => h.txBuffer.length = k where
  count layer f hk := by simpa using hk
  numbered _ hk := hk
  heard hk _ := hk
  handed _ hk _ := hk
  sent _ hk := hk
  outgoing hk := hk
  txBuffer hb hk := hb.trans hk
  deliver hk := hk
  rxBuffer _ hk := hk
  expire _ hk := hk
  take _ hk := hk

end idle

/-- Every call, as long as the resolver is at most filled. -/
def FillsOnly (h : Host (External n)) (c : Call (External n)) : Prop :=
  h.KeepsDevice c ∧ ∀ r, c ≠ .resolver r

/-- What holds between calls of a host that may send at once. -/
structure Poised (manual : Bool) (config : Config) (h : Host (External n)) : Prop extends Ready manual h where
  config : h.config = config
  txBuffer : h.txBuffer.length = Limits.frameBuffer
  idle : h.Idle

theorem poised_create {d : External n} (hd : d.Built) {config : Config} {h : Host (External n)}
    (e : create d config = .ok h) : h.Poised (decide (d.personality.check = .manual)) config := by
  have hr := ready_create hd e
  obtain ⟨endpoint, router, -, -, rfl⟩ := create_eq_ok e
  refine ⟨hr, rfl, List.length_replicate .., Arp.Resolver.outgoing_of_backlog ?_⟩
  show (newResolver config).backlog = 0
  unfold newResolver
  cases config.mode <;> rfl

theorem poised_perform {manual : Bool} {config : Config} {h h' : Host (External n)} {c : Call (External n)}
    {a : Answer} (hp : h.Poised manual config) (hc : h.FillsOnly c) (e : h.perform c = some (a, h')) :
    h'.Poised manual config := by
  have hr := ready_perform hp.toReady hc.1 e
  cases effect_perform hp.agree e with
  | fill ht ht' =>
    have hi := hp.idle
    unfold Idle at hi
    rw [ht, ← Arp.Resolver.outgoing_enter ht'] at hi
    exact ⟨hr, hp.config, hp.txBuffer, hi⟩
  | resolver r => exact absurd rfl (hc.2 r)
  | send hx =>
    exact ⟨hr, (congrArg Setup.config (setup_send hx)).trans hp.config,
      (stable_txBuffer_length _).send (fun _ _ hk => hk) hp.txBuffer hx, idle_send hp.idle hx⟩
  | poll hx =>
    exact ⟨hr, (congrArg Setup.config (setup_poll hx)).trans hp.config,
      (stable_txBuffer_length _).poll hp.txBuffer hx, idle_poll hx⟩
  | _ => exact ⟨hr, hp.config, hp.txBuffer, hp.idle⟩

theorem run_poised {d : External n} (hd : d.Built) {config : Config} {h₀ h : Host (External n)}
    (e : create d config = .ok h₀) {es : List (Call (External n) × Answer)} (hr : Run FillsOnly h₀ es h) :
    h.Poised (decide (d.personality.check = .manual)) config :=
  hr.keeps poised_perform (poised_create hd e)

/-! ## Frames that are accepted -/

/-- A socket listens to a destination that frames to a hardware address lead to. -/
structure Listens (h : Host δ) (x : Handle) (hardware : Ethernet.Address) (dst : Ipv4.Address)
    (port : UInt16) : Prop where
  filter : h.endpoint.accepts hardware = true
  incoming : h.router.accepts dst .ethernet = true
  socket : ∃ c, h.binding? x = some c ∧ c.port = port ∧ (c.addr.isUnspecified = true ∨ c.addr = dst)

theorem bindings_of_binding? {h : Host δ} {x : Handle} {c : Udp.Binding} (hc : h.binding? x = some c) :
    h.setup.bindings x = some (some c) := by
  obtain ⟨socket, hs, hsb⟩ := Option.bind_eq_some_iff.1 hc
  rw [← hsb]
  exact bindings_of_get? hs

/-- Only one socket has the port of a datagram. -/
theorem Setup.Accepts.unique {u : Setup} (hg : u.Agree) {manual : Bool} {frame : Octets} {x y : Handle}
    (hx : u.Accepts manual frame x) (hy : u.Accepts manual frame y) : x = y := by
  obtain ⟨c, hc, hcp, -⟩ := hx.routes.takes.bound
  obtain ⟨d, hd, hdp, -⟩ := hy.routes.takes.bound
  have hp : d.port = c.port := UInt16.toNat_inj.1 (hdp.trans hcp.symm)
  have h1 := (hg.agree c.port (.socket x)).2 ⟨x, c, rfl, hc, rfl⟩
  have h2 := (hg.agree c.port (.socket y)).2 ⟨y, d, rfl, hd, hp⟩
  rw [h1] at h2
  cases h2
  rfl

variable {A : Host δ} {B : Host ε} {manual : Bool} {x : Handle} {hardware : Ethernet.Address} {b : Udp.Binding}
  {src dst : Ipv4.Address} {port : UInt16} {payload : Octets}

/-- A receiver finds the datagram, with the padding behind it, in the frame. -/
theorem content_wire (hA : A.endpoint.checked = manual) (hB : B.setup.Assembled manual) :
    content manual (A.wire hardware src b dst port payload) = A.datagram src b dst port payload ++
      Ethernet.Endpoint.padding (A.framed hardware src b dst port payload) := by
  have hc : B.endpoint.checked = manual := hB.checked
  have hbody := Ethernet.Endpoint.body_trailer B.endpoint (A.framed hardware src b dst port payload)
  rw [hc, ← hA] at hbody
  unfold content
  rw [← stripped_eq hB, wire, hbody, framed, List.append_assoc]
  rfl

theorem length_segment (srcPort : UInt16) (src : Ipv4.Address) :
    (Udp.Header.segment srcPort port src dst payload).length = payload.length + 8 := by
  unfold Udp.Header.segment
  rw [List.length_append, Udp.Header.length_octets, Nat.add_comm]

theorem toNat_totalLen (hsize : payload.length ≤ 512) (srcPort : UInt16) (src : Ipv4.Address) :
    (UInt16.ofNat (8 + payload.length + 20)).toNat =
      20 + (Udp.Header.segment srcPort port src dst payload).length := by
  rw [length_segment, UInt16.toNat_ofNat', Nat.mod_eq_of_lt (by omega)]
  omega

/-- The segment is found again behind the header, without the padding. -/
theorem segment_datagram (hsize : payload.length ≤ 512) (trailing : Octets) :
    segment (A.datagram src b dst port payload ++ trailing) =
      Udp.Header.segment b.port port src dst payload := by
  unfold segment datagram
  rw [List.append_assoc]
  exact Ipv4.Router.content_sealedHeader _ _ _ _ _ (toNat_totalLen hsize _ _) _

theorem sound_datagram (hsize : payload.length ≤ 512) (trailing : Octets) :
    Ipv4.Header.Sound (A.datagram src b dst port payload ++ trailing) false := by
  unfold datagram
  rw [List.append_assoc]
  exact Ipv4.Router.sound_sealedHeader _ _ _ _ _ (toNat_totalLen hsize _ _) _

theorem src_datagram (trailing : Octets) :
    Ipv4.Address.stored (A.datagram src b dst port payload ++ trailing) 12 = src := by
  unfold datagram
  rw [List.append_assoc]
  exact Ipv4.Router.src_sealedHeader ..

theorem dst_datagram (trailing : Octets) :
    Ipv4.Address.stored (A.datagram src b dst port payload ++ trailing) 16 = dst := by
  unfold datagram
  rw [List.append_assoc]
  exact Ipv4.Router.dst_sealedHeader ..

theorem protocol_datagram (trailing : Octets) :
    byte (A.datagram src b dst port payload ++ trailing) 9 = 17 := by
  unfold datagram
  rw [List.append_assoc]
  exact Ipv4.Router.protocol_sealedHeader _ _ .udp _ _ _

theorem srcPort_segment (srcPort : UInt16) :
    UInt16.ofNat (word (Udp.Header.segment srcPort port src dst payload) 0) = srcPort := by
  unfold Udp.Header.segment
  rw [Udp.Header.word_src_octets, UInt16.ofNat_toNat]

theorem routes_datagram (hl : B.Listens x hardware dst port) (hsize : payload.length ≤ 512)
    (trailing : Octets) : B.setup.Routes (A.datagram src b dst port payload ++ trailing) x := by
  obtain ⟨c, hc, hport, haddr⟩ := hl.socket
  have hsound := Udp.Header.sound_segment (show payload.length + 8 ≤ 65535 by omega) b.port port src dst
  refine ⟨sound_datagram hsize trailing, ?_, protocol_datagram trailing, ?_⟩
  · rw [dst_datagram]
    exact beq_iff_eq.1 hl.incoming
  · rw [segment_datagram hsize, src_datagram, dst_datagram]
    refine ⟨hsound.1, c, bindings_of_binding? hc, ?_, haddr⟩
    rw [hport]
    exact (Udp.Header.word_dst_octets ..).symm

/-- Ethernet hands a frame of one host on to the internet layer of a host that lets it through, with the same
check sequences. -/
theorem takes_wire (hA : A.endpoint.checked = manual) (hB : B.setup.Assembled manual)
    (hfilter : B.endpoint.accepts hardware = true) :
    B.endpoint.Takes (A.wire hardware src b dst port payload) .ipv4 := by
  have hc : B.endpoint.checked = manual := hB.checked
  have htype : B.endpoint.etherTypes.get? (.ofWord Ethernet.EtherType.ipv4.toWord) = some .ipv4 :=
    (etherTypes_get?_iff hB _ _).2 (.inl ⟨rfl, rfl⟩)
  have hf : A.framed hardware src b dst port payload =
      Ethernet.Header.octets ⟨hardware, A.endpoint.addr, .ipv4⟩ ++ A.datagram src b dst port payload := rfl
  have htakes := Ethernet.Endpoint.takes_trailer (e := B.endpoint) hf hfilter htype
  rw [hc, ← hA] at htakes
  exact htakes

/-- A frame of one host meets all conditions of a host that listens, with the same check sequences. -/
theorem accepts_wire (hA : A.endpoint.checked = manual) (hB : B.setup.Assembled manual)
    (hl : B.Listens x hardware dst port) (hsize : payload.length ≤ 512) :
    B.setup.Accepts manual (A.wire hardware src b dst port payload) x := by
  rw [setup_accepts_iff hB, content_wire hA hB]
  exact ⟨takes_wire hA hB hl.filter, routes_datagram hl hsize _⟩

/-- What a socket keeps of it is what was sent. -/
theorem received_wire (hA : A.endpoint.checked = manual) (hB : B.setup.Assembled manual)
    (hsize : payload.length ≤ 512) :
    received (.stored (content manual (A.wire hardware src b dst port payload)) 12)
        (segment (content manual (A.wire hardware src b dst port payload))) =
      ⟨src, b.port, payload.length, payload⟩ := by
  have hsound := Udp.Header.sound_segment (show payload.length + 8 ≤ 65535 by omega) b.port port src dst
  rw [content_wire hA hB, segment_datagram hsize, src_datagram]
  unfold received
  rw [hsound.2, List.take_of_length_le (show payload.length ≤ Limits.datagramBytes from hsize), srcPort_segment]

/-! ## From socket to socket -/

/-- Polling for a single frame ends after its round. -/
theorem poll_single {h : Host (External n)} (hr : h.Ready manual) {frame : Octets}
    (hf : h.device.frames = [frame]) (now : Instant) :
    ∃ r : Round (External n), h.poll now = some (.ok 1, r.after) ∧ r.frame = frame ∧ r.Runs ∧
      r.before.Ready manual ∧ r.before.setup = h.setup ∧ ∀ y, r.before.queue? y = h.queue? y := by
  obtain ⟨g, hg, hgr, hframes, hq⟩ := refreshed_ready hr now
  have hset : g.setup = h.setup := (stable_setup h.setup).refreshed rfl hg
  obtain ⟨k, hk⟩ : ∃ k, g.frameBound = k + 2 := ⟨g.frameBound - 2, by unfold frameBound Limits.outbox; omega⟩
  obtain ⟨r, hframe, hruns, hd, hbefore, hafter, hrest, hgo, -⟩ :=
    receiveFrames_cons hgr (hframes.trans hf) (k + 1) 0
  refine ⟨r, ?_, hframe, hruns, hbefore, ?_, ?_⟩
  · rw [poll_eq, hg, Option.bind_some, hk, hgo]
    exact (receiveFrames_nil hafter hrest k 1).1
  · rw [hd, ← hset]
    rfl
  · intro y
    rw [hd, ← hq]
    rfl

/-- A datagram that is added to a queue stands behind the others; a full queue gives up its first. -/
theorem Appended.queue {h h' : Host δ} (hw : h.sockets.All Udp.Socket.WF) {d : Udp.Datagram}
    (ha : Appended h h' x d) : ∃ old new, h.queue? x = some old ∧ h'.queue? x = some new ∧
      new.toList = old.toList.drop (if old.isFull then 1 else 0) ++ [d] := by
  obtain ⟨socket, q, hs, hq, hx⟩ := ha
  have hwf := (hw x socket hs).queue
  refine ⟨socket.queue, q, by unfold queue?; rw [hs]; rfl, by rw [hx, if_pos rfl], ?_⟩
  rw [Queue.toList_push (Udp.Socket.makeRoom_wf hwf) hq, Udp.Socket.toList_makeRoom hwf]

/-- A datagram stands behind those that wait in a socket, of which a full queue gave up the first, and no
other queue changed. -/
def Delivered (B B' : Host ε) (x : Handle) (d : Udp.Datagram) : Prop :=
  (∃ old new, B.queue? x = some old ∧ B'.queue? x = some new ∧
    new.toList = old.toList.drop (if old.isFull then 1 else 0) ++ [d]) ∧ ∀ y, y ≠ x → B'.queue? y = B.queue? y

theorem Appended.delivered {B h h' : Host ε} (hw : h.sockets.All Udp.Socket.WF) {d : Udp.Datagram}
    (hq : ∀ y, h.queue? y = B.queue? y) (ha : Appended h h' x d) : Delivered B h' x d := by
  constructor
  · obtain ⟨old, new, hold, hnew, hlist⟩ := ha.queue hw
    exact ⟨old, new, (hq x).symm.trans hold, hnew, hlist⟩
  · intro y hne
    obtain ⟨socket, q, -, -, hx⟩ := ha
    rw [hx, if_neg hne, hq]

/-- What becomes of the datagram in a frame: it is added to the queue of the socket that the frame
reaches, if there is one. -/
def Arrived (manual : Bool) (frame : Octets) (d : Udp.Datagram) (B B' : Host ε) : Prop :=
  (∃ x, B.setup.Accepts manual frame x ∧ Delivered B B' x d) ∨
    (∀ x, ¬ B.setup.Accepts manual frame x) ∧ ∀ x, B'.queue? x = B.queue? x

/-- The datagram in a frame of another host reaches the socket that listens to its destination. -/
theorem Arrived.delivered {B' : Host ε} {d : Udp.Datagram}
    (h : Arrived manual (A.wire hardware src b dst port payload) d B B') (hA : A.endpoint.checked = manual)
    (hB : B.setup.Assembled manual) (hg : B.setup.Agree) (hl : B.Listens x hardware dst port)
    (hsize : payload.length ≤ 512) : Delivered B B' x d := by
  have haccepts : B.setup.Accepts manual (A.wire hardware src b dst port payload) x := accepts_wire hA hB hl hsize
  rcases h with ⟨y, hy, hdelivered⟩ | ⟨hnone, -⟩
  · obtain rfl := hy.unique hg haccepts
    exact hdelivered
  · exact absurd haccepts (hnone x)

/-- A frame to a hardware address that is filtered out reaches no socket. -/
theorem Arrived.filtered {B' : Host ε} {d : Udp.Datagram}
    (h : Arrived manual (A.wire hardware src b dst port payload) d B B') (hB : B.setup.Assembled manual)
    (hf : B.endpoint.accepts hardware = false) (y : Handle) : B'.queue? y = B.queue? y := by
  rcases h with ⟨x, hx, -⟩ | ⟨-, hsame⟩
  · have hdst : B.endpoint.accepts hardware = true := ((setup_accepts_iff hB _ x).1 hx).1.dst
    rw [hf] at hdst
    cases hdst
  · exact hsame y

/-- A host that may send hands one frame to its device. A host that polls with just that frame waiting
adds the datagram to the queue of the socket that the frame reaches, if there is one. -/
theorem exchange {A : Host (External m)} {B : Host (External n)} {configA : Config} (hA : A.Poised manual configA)
    (hB : B.Ready manual) (hunicast : configA.addr.isUnicast = true) {s : Handle} {task : Task}
    (hknows : A.Knows s task dst b hardware) (port : UInt16) (hmtu : 28 ≤ (Nic.personality A.device).mtu)
    (hsize : payload.length ≤ A.mtu) (hroom : A.device.outbound.isFull = false) (hempty : B.device.frames = [])
    (hn : 0 < n) (now : Instant) :
    ∃ A' B', A.send s task dst port payload = some (.ready (.ok payload.length), A') ∧
      A'.device.outbound.toList =
        A.device.outbound.toList ++ [⟨A.wire hardware (A.sourceOf b) b dst port payload⟩] ∧
      (B.device.inject (A.wire hardware (A.sourceOf b) b dst port payload)).1 = .ok () ∧
      poll { B with device := (B.device.inject (A.wire hardware (A.sourceOf b) b dst port payload)).2 } now =
        some (.ok 1, B') ∧
      Arrived manual (A.wire hardware (A.sourceOf b) b dst port payload)
        ⟨A.sourceOf b, b.port, payload.length, payload⟩ B B' := by
  have hsmall := (length_of_mtu hsize hmtu).2
  have hfits := A.length_wire_fits hardware (A.sourceOf b) b dst port hsmall
  -- the frame leaves the first host
  obtain ⟨hok, hout⟩ := enqueue_of_room hA.device.outbound hfits hroom
  obtain ⟨A', hsend, hdevice⟩ := send_datagram hA.assembled hA.agree (by rw [hA.config]; exact hunicast) hA.idle
    hA.txBuffer hknows port hsize hmtu hok
  -- and waits in front of the second
  obtain ⟨hin, hframes, hsound⟩ := External.inject_of_nil hB.device hempty hn hfits
  have hB' : Ready manual { B with
      device := (B.device.inject (A.wire hardware (A.sourceOf b) b dst port payload)).2 } :=
    ⟨hB.assembled, hB.agree, hB.sockets, hB.room, hsound⟩
  obtain ⟨r, hpoll, hframe, hruns, hbefore, hset, hqueue⟩ := poll_single hB' hframes now
  -- where its round ends as the bytes of the frame say
  have hset : r.before.setup = B.setup := hset
  have hqueue : ∀ y, r.before.queue? y = B.queue? y := hqueue
  have houtcome := round_outcome hbefore hruns
  rw [hframe, hset, received_wire hA.assembled.checked hB.assembled hsmall] at houtcome
  refine ⟨A', r.after, hsend, by rw [hdevice]; exact hout, hin, hpoll, ?_⟩
  rcases houtcome with ⟨x, hx, happend⟩ | ⟨hnone, hsame⟩
  · exact .inl ⟨x, hx, happend.delivered hbefore.sockets hqueue⟩
  · exact .inr ⟨hnone, fun x => (hsame x).trans (hqueue x)⟩

/-- For any two reachable hosts on external devices with the same kind of check sequences: if a bound
socket of the first may send to a destination at once and a socket of the second listens to it, then
sending any payload that fits succeeds and hands exactly one frame to the device; and once the second
host polls with just that frame waiting, exactly that datagram, from the port of the sender and from
its address, is added to the queue of the listening socket and to no other. -/
theorem round_trip {dA : External m} {dB : External n} (hdA : dA.Built) (hdB : dB.Built)
    (hcheck : dA.personality.check = dB.personality.check) {configA configB : Config}
    {A₀ A : Host (External m)} {B₀ B : Host (External n)} (eA : create dA configA = .ok A₀)
    (eB : create dB configB = .ok B₀) {esA : List (Call (External m) × Answer)}
    {esB : List (Call (External n) × Answer)} (rA : Run FillsOnly A₀ esA A) (rB : Run KeepsDevice B₀ esB B)
    (hunicast : configA.addr.isUnicast = true) {s : Handle} {task : Task} (hknows : A.Knows s task dst b hardware)
    (hmtu : 28 ≤ (Nic.personality A.device).mtu) (hsize : payload.length ≤ A.mtu)
    (hroom : A.device.outbound.isFull = false) (hlistens : B.Listens x hardware dst port)
    (hempty : B.device.frames = []) (hn : 0 < n) (now : Instant) :
    ∃ A' frame B', A.send s task dst port payload = some (.ready (.ok payload.length), A') ∧
      A'.device.outbound.toList = A.device.outbound.toList ++ [⟨frame⟩] ∧
      (B.device.inject frame).1 = .ok () ∧
      poll { B with device := (B.device.inject frame).2 } now = some (.ok 1, B') ∧
      (∃ old new, B.queue? x = some old ∧ B'.queue? x = some new ∧
        new.toList = old.toList.drop (if old.isFull then 1 else 0) ++
          [⟨if b.addr.isUnspecified then configA.addr else b.addr, b.port, payload.length, payload⟩]) ∧
      ∀ y, y ≠ x → B'.queue? y = B.queue? y := by
  have hA := run_poised hdA eA rA
  have hB := run_ready hdB eB rB
  rw [hcheck] at hA
  have hsource : A.sourceOf b = if b.addr.isUnspecified then configA.addr else b.addr := by
    unfold sourceOf; rw [hA.config]
  obtain ⟨A', B', hsend, hout, hin, hpoll, harrived⟩ :=
    exchange hA hB hunicast hknows port hmtu hsize hroom hempty hn now
  have hdelivered := harrived.delivered hA.assembled.checked hB.assembled hB.agree hlistens
    (length_of_mtu hsize hmtu).2
  rw [hsource] at hdelivered
  exact ⟨A', _, B', hsend, hout, hin, hpoll, hdelivered⟩

theorem round_trip_neighbors : ∃ (A A' B B' : Host (External 1)) (frame : Octets),
    A.send ⟨0, 0⟩ ⟨3⟩ ⟨10, 0, 0, 2⟩ 7 [1, 2, 3] = some (.ready (.ok 3), A') ∧
    A'.device.outbound.toList = A.device.outbound.toList ++ [⟨frame⟩] ∧
    poll { B with device := (B.device.inject frame).2 } ⟨0⟩ = some (.ok 1, B') ∧
    ∃ new, B'.queue? ⟨0, 0⟩ = some new ∧ new.toList = [⟨⟨10, 0, 0, 1⟩, 5, 3, [1, 2, 3]⟩] := by
  have hA : (do
      let h ← (create (External.create 1 {}) (.create ⟨10, 0, 0, 1⟩ ⟨255, 255, 255, 0⟩)).toOption
      let (_, g) ← h.performAll [.acquire, .bind ⟨0, 0⟩ .unspecified 5]
      some (g.binding? ⟨0, 0⟩, (g.router.routes.lookup ⟨10, 0, 0, 2⟩).map (·.layer),
        (g.resolver.lookup ⟨10, 0, 0, 2⟩ (some ⟨3⟩) g.now).1.toOption,
        decide (28 ≤ (Nic.personality g.device).mtu), decide (3 ≤ g.mtu), g.device.outbound.isFull)) =
      some (some ⟨.unspecified, 5⟩, some .ethernet, some ⟨2, 0, 10, 0, 0, 2⟩, true, true, false) := by
    decide +kernel
  have hB : (do
      let h ← (create (External.create 1 {}) (.create ⟨10, 0, 0, 2⟩ ⟨255, 255, 255, 0⟩)).toOption
      let (_, g) ← h.performAll [.acquire, .bind ⟨0, 0⟩ .unspecified 7]
      some (g.endpoint.accepts ⟨2, 0, 10, 0, 0, 2⟩, g.router.accepts ⟨10, 0, 0, 2⟩ .ethernet, g.binding? ⟨0, 0⟩,
        g.device.frames.length, (g.queue? ⟨0, 0⟩).map (·.toList.length))) =
      some (true, true, some ⟨.unspecified, 7⟩, 0, some 0) := by decide +kernel
  obtain ⟨A₀, eA, hA⟩ := Option.bind_eq_some_iff.1 hA
  obtain ⟨⟨esA, A⟩, rA, hA⟩ := Option.bind_eq_some_iff.1 hA
  obtain ⟨B₀, eB, hB⟩ := Option.bind_eq_some_iff.1 hB
  obtain ⟨⟨esB, B⟩, rB, hB⟩ := Option.bind_eq_some_iff.1 hB
  simp only [Option.some.injEq, Prod.mk.injEq, decide_eq_true_eq] at hA hB
  obtain ⟨hbinding, hroute, hhardware, hmtu, hsize, hroom⟩ := hA
  obtain ⟨hfilter, hincoming, hbound, hempty, hqueue⟩ := hB
  obtain ⟨route, hlookup, hlayer⟩ := Option.map_eq_some_iff.1 hroute
  have hknows : A.Knows ⟨0, 0⟩ ⟨3⟩ ⟨10, 0, 0, 2⟩ ⟨.unspecified, 5⟩ ⟨2, 0, 10, 0, 0, 2⟩ :=
    ⟨hbinding, ⟨route, hlookup, hlayer⟩, eq_ok_of_toOption hhardware⟩
  have hlistens : B.Listens ⟨0, 0⟩ ⟨2, 0, 10, 0, 0, 2⟩ ⟨10, 0, 0, 2⟩ 7 :=
    ⟨hfilter, hincoming, _, hbound, rfl, .inl rfl⟩
  have hrunA : Run FillsOnly A₀ _ A := run_performAll _ .nil (by simp [FillsOnly, KeepsDevice]) rA
  have hrunB : Run KeepsDevice B₀ _ B := run_performAll _ .nil (by simp [KeepsDevice]) rB
  have hpayload : List.length [(1 : UInt8), 2, 3] ≤ A.mtu := hsize
  obtain ⟨A', frame, B', hsend, hout, -, hpoll, ⟨old, new, hold, hnew, hlist⟩, -⟩ :=
    round_trip (.create _) (.create _) rfl (eq_ok_of_toOption eA) (eq_ok_of_toOption eB) hrunA hrunB
      (by decide) hknows hmtu hpayload hroom hlistens
      (List.eq_nil_of_length_eq_zero hempty) Nat.one_pos ⟨0⟩
  refine ⟨A, A', B, B', frame, hsend, hout, hpoll, new, hnew, ?_⟩
  rw [hold] at hqueue
  rw [hlist, List.eq_nil_of_length_eq_zero (Option.some.inj hqueue), List.drop_nil]
  rfl

end UdpStack.Host
