/-
Which frames reach a socket. The conditions are stated on the bytes of the frame and on what is set
up in the host (`Setup.Accepts`), one structure for each header. A frame that meets them is appended
to the queue of one socket, from which a full queue gave up its oldest datagram; any other frame
leaves every queue alone (`receiveFrame_outcome`).
-/
import UdpStack.Proofs.Host.Assembly
import UdpStack.Proofs.Host.Queues
import UdpStack.Proofs.Host.Reception

namespace UdpStack.Host

open Bounded Device Octets

variable {δ : Type}

/-! ## The conditions -/

/-- A user datagram from one address to another that a socket takes. -/
structure Setup.Takes (u : Setup) (seg : Octets) (src dst : Ipv4.Address) (s : Handle) : Prop where
  sound : Udp.Header.Sound seg src dst false
  bound : ∃ b, u.bindings s = some (some b) ∧ b.port.toNat = word seg 2 ∧
    (b.addr.isUnspecified = true ∨ b.addr = dst)

/-- The content of an internet datagram, without its header and what follows it. -/
def segment (b : Octets) : Octets := (b.take (word b 2)).drop (Ipv4.Header.lengthOf b)

/-- An internet datagram through Ethernet whose content a socket takes. -/
structure Setup.Routes (u : Setup) (b : Octets) (s : Handle) : Prop where
  sound : Ipv4.Header.Sound b false
  incoming : u.incoming.get? (.stored b 16) = some .ethernet
  protocol : byte b 9 = 17
  takes : u.Takes (segment b) (.stored b 12) (.stored b 16) s

/-- A frame without its check sequence, if the host verifies it. -/
def stripped (manual : Bool) (frame : Octets) : Octets :=
  if manual then frame.take (frame.length - 4) else frame

/-- The internet datagram in a frame. -/
def content (manual : Bool) (frame : Octets) : Octets := (stripped manual frame).drop 14

/-- A frame that reaches a socket. -/
structure Setup.Accepts (u : Setup) (manual : Bool) (frame : Octets) (s : Handle) : Prop where
  complete : if manual then 18 ≤ frame.length ∧ frame.drop (frame.length - 4) =
      Ethernet.CheckSequence.octets (Ethernet.CheckSequence.compute (stripped manual frame))
    else 14 ≤ frame.length
  hardware : Ethernet.Address.stored frame 0 = u.config.hardware ∨
    (Ethernet.Address.stored frame 0).isBroadcast = true ∨
    u.groups.contains (Ethernet.Address.stored frame 0) = true
  etherType : word frame 12 = 0x0800
  routes : u.Routes (content manual frame) s

/-! ## What happens to the queues -/

/-- A datagram was added to the queue of one socket. -/
def Appended (h h' : Host δ) (s : Handle) (d : Udp.Datagram) : Prop :=
  ∃ socket q, h.sockets.get? s = some socket ∧ (Udp.Socket.makeRoom socket.queue).push d = .ok q ∧
    ∀ x, h'.queue? x = if x = s then some q else h.queue? x

/-- A datagram was added to the queue of the socket that meets a condition, or no queue changed and
no socket meets it. -/
def Outcome (A : Handle → Prop) (d : Udp.Datagram) (h h' : Host δ) : Prop :=
  (∃ s, A s ∧ Appended h h' s d) ∨ ((∀ s, ¬ A s) ∧ ∀ x, h'.queue? x = h.queue? x)

/-- What happens before without touching a queue does not matter. -/
theorem Appended.of_queues {h g h' : Host δ} {s : Handle} {d : Udp.Datagram} (hg : ∀ x, g.queue? x = h.queue? x)
    (ha : Appended g h' s d) : Appended h h' s d := by
  obtain ⟨socket, q, hs, hq, hx⟩ := ha
  have hq' := hg s
  unfold queue? at hq'
  rw [hs] at hq'
  obtain ⟨socket', hs', he⟩ := Option.map_eq_some_iff.1 hq'.symm
  exact ⟨socket', q, hs', by rw [he]; exact hq, fun x => by rw [hx, hg]⟩

theorem Outcome.of_queues {A : Handle → Prop} {d : Udp.Datagram} {h g h' : Host δ}
    (hg : ∀ x, g.queue? x = h.queue? x) (ho : Outcome A d g h') : Outcome A d h h' := by
  rcases ho with ⟨s, ha, happend⟩ | ⟨hn, hx⟩
  · exact .inl ⟨s, ha, happend.of_queues hg⟩
  · exact .inr ⟨hn, fun x => by rw [hx, hg]⟩

/-- Nor does what happens after it without touching a queue. -/
theorem Outcome.of_same {A : Handle → Prop} {d : Udp.Datagram} {h g h' : Host δ}
    (hg : ∀ x, h'.queue? x = g.queue? x) (ho : Outcome A d h g) : Outcome A d h h' := by
  rcases ho with ⟨s, ha, socket, q, hs, hq, hx⟩ | ⟨hn, hx⟩
  · exact .inl ⟨s, ha, socket, q, hs, hq, fun x => (hg x).trans (hx x)⟩
  · exact .inr ⟨hn, fun x => (hg x).trans (hx x)⟩

theorem Outcome.congr {A B : Handle → Prop} {d : Udp.Datagram} {h h' : Host δ} (hab : ∀ s, A s ↔ B s)
    (ho : Outcome A d h h') : Outcome B d h h' := by
  rcases ho with ⟨s, ha, hs⟩ | ⟨hn, hx⟩
  · exact .inl ⟨s, (hab s).1 ha, hs⟩
  · exact .inr ⟨fun s hb => hn s ((hab s).2 hb), hx⟩

/-- What becomes of a datagram: it is added to the queue of the socket that meets a condition, whose
task is woken, or there is no such socket and no queue changes. At all other sockets tasks wait on. -/
structure Turned (A : Handle → Prop) (d : Udp.Datagram) (h h' : Host δ) : Prop where
  outcome : Outcome A d h h'
  woken : ∀ x, A x → h'.wakeups = h.wakeups.wakeAll (h.waiter? x).toList
  others : ∀ x, ¬ A x → h'.waiter? x = h.waiter? x

theorem Turned.of_same {A : Handle → Prop} {d : Udp.Datagram} {h g h' : Host δ}
    (hq : ∀ x, g.queue? x = h.queue? x) (hw : g.wakeups = h.wakeups) (hx : ∀ x, g.waiter? x = h.waiter? x)
    (ht : Turned A d g h') : Turned A d h h' :=
  ⟨ht.outcome.of_queues hq, fun x ha => by rw [ht.woken x ha, hw, hx], fun x hn => (ht.others x hn).trans (hx x)⟩

theorem Turned.of_count {A : Handle → Prop} {d : Udp.Datagram} {h h' : Host δ} {layer : Layer}
    {f : Counters → Counters} (ht : Turned A d (h.count layer f) h') : Turned A d h h' :=
  ht.of_same (queue?_count h layer f) (wakeups_count h layer f) (waiter?_count h layer f)

theorem Turned.congr {A B : Handle → Prop} {d : Udp.Datagram} {h h' : Host δ} (hab : ∀ x, A x ↔ B x)
    (ht : Turned A d h h') : Turned B d h h' :=
  ⟨ht.outcome.congr hab, fun x hx => ht.woken x ((hab x).2 hx), fun x hn => ht.others x fun hx => hn ((hab x).1 hx)⟩

/-- A datagram for no socket leaves queues and waiting tasks alone. -/
theorem turned_nowhere {A : Handle → Prop} (d : Udp.Datagram) {h h' : Host δ} (hn : ∀ x, ¬ A x)
    (hq : ∀ x, h'.queue? x = h.queue? x) (hw : ∀ x, h'.waiter? x = h.waiter? x) : Turned A d h h' :=
  ⟨.inr ⟨hn, hq⟩, fun x hx => absurd hx (hn x), fun x _ => hw x⟩

/-! ## Sockets -/

/-- The datagram that a socket keeps of a segment from an address. -/
def received (src : Ipv4.Address) (seg : Octets) : Udp.Datagram where
  srcAddr := src
  srcPort := UInt16.ofNat (word seg 0)
  origLen := ((seg.take (word seg 4)).drop 8).length
  payload := ((seg.take (word seg 4)).drop 8).take Limits.datagramBytes

theorem arriving_eq {t : Transit} {payload : Octets} (hu : t.packet.unread? = some payload) :
    Udp.Socket.arriving t =
      ⟨t.info.srcAddr, t.info.srcPort, payload.length, payload.take Limits.datagramBytes⟩ := by
  obtain ⟨-, -, he, hl⟩ := Packet.unread?_eq_some hu
  unfold Udp.Socket.arriving
  rw [hl, he, List.take_take]
  have hm : min Limits.datagramBytes (t.packet.write - t.packet.read) =
      min t.packet.available Limits.datagramBytes := Nat.min_comm ..
  rw [hm]

/-- A socket that accepts a datagram queues it, and its task is woken. -/
theorem socket_outcome {h : Host δ} (hw : h.sockets.All Udp.Socket.WF) {s : Handle} {socket : Udp.Socket}
    (hs : h.sockets.get? s = some socket) {t : Transit} {payload : Octets}
    (hu : t.packet.unread? = some payload) (depth : Nat) (caller : Layer) :
    ∃ res h' t', h.receive t (depth + 1) (.socket s) caller = some (res, h', t') ∧
      Turned (fun x => x = s ∧ socket.accepts t.info.dstAddr = true)
        ⟨t.info.srcAddr, t.info.srcPort, payload.length, payload.take Limits.datagramBytes⟩ h h' := by
  have hwaiter : h.waiter? s = socket.waiter.waiter := by
    unfold waiter?
    rw [hs]
    rfl
  obtain ⟨res, f, t', hr⟩ := receive_socket hs t depth caller
  refine ⟨res, _, t', hr, ?_⟩
  cases ha : socket.accepts t.info.dstAddr with
  | false =>
    refine turned_nowhere _ (fun x hx => (by cases hx.2)) (fun x => ?_) fun x => ?_
    · rw [queue?_count]
      unfold handed
      rw [Udp.Socket.receivePass_of_rejects ha]
      exact Pool.map_get?_set_same hs socket (·.queue) rfl x
    · rw [waiter?_count]
      unfold handed
      rw [Udp.Socket.receivePass_of_rejects ha]
      exact Pool.bind_get?_set_same hs socket (·.waiter.waiter) rfl x
  | true =>
    obtain ⟨q, p, he, -, hq⟩ := Udp.Socket.receivePass_of_accepts ha h.wakeups
    refine ⟨.inl ⟨s, ⟨rfl, rfl⟩, socket, q, hs, ?_, ?_⟩, ?_, ?_⟩
    · rw [← arriving_eq hu]
      exact hq (hw s socket hs).queue
    · intro x
      rw [queue?_count]
      unfold handed
      rw [he]
      exact Pool.map_get?_set hs _ (·.queue) x
    · rintro _ ⟨rfl, -⟩
      rw [wakeups_count, hwaiter]
      unfold handed
      rw [he]
      rfl
    · intro x hn
      rw [waiter?_count]
      unfold handed
      rw [he]
      exact (Pool.bind_get?_set hs _ (·.waiter.waiter) x).trans (if_neg fun hx => hn ⟨hx, rfl⟩)

/-! ## Ports -/

theorem accepts_iff {socket : Udp.Socket} {b : Udp.Binding} (hb : socket.binding = some b) (dst : Ipv4.Address) :
    socket.accepts dst = true ↔ b.addr.isUnspecified = true ∨ b.addr = dst := by
  unfold Udp.Socket.accepts
  rw [hb]
  simp

/-- Among agreeing ports a datagram has one socket, if any. -/
theorem takes_iff {h : Host δ} (hg : h.setup.Agree) {s : Handle} {socket : Udp.Socket} {b : Udp.Binding}
    (hs : h.sockets.get? s = some socket) (hb : socket.binding = some b) {seg : Octets}
    {src dst : Ipv4.Address} (hport : b.port = UInt16.ofNat (word seg 2))
    (hsound : Udp.Header.Sound seg src dst false) (x : Handle) :
    (x = s ∧ socket.accepts dst = true) ↔ h.setup.Takes seg src dst x := by
  have hbs : h.setup.bindings s = some (some b) := by rw [← hb]; exact bindings_of_get? hs
  rw [accepts_iff hb]
  constructor
  · rintro ⟨rfl, ha⟩
    exact ⟨hsound, b, hbs, by rw [hport, toNat_ofNat_word], ha⟩
  · rintro ⟨-, b', hb', hp', ha⟩
    have hpp : b'.port = b.port := by
      rw [hport, ← UInt16.toNat_inj, toNat_ofNat_word]; exact hp'
    have hx := (hg.agree b'.port (.socket x)).2 ⟨x, b', rfl, hb', rfl⟩
    have hsx := (hg.agree b.port (.socket s)).2 ⟨s, b, rfl, hbs, rfl⟩
    rw [hpp, hsx] at hx
    cases hx
    rw [hbs] at hb'
    cases hb'
    exact ⟨rfl, ha⟩

theorem udp_outcome {h : Host δ} (hg : h.setup.Agree) (hw : h.sockets.All Udp.Socket.WF) {t : Transit} {seg : Octets}
    (hu : t.packet.unread? = some seg) (hk : t.info.skipChecksum = false) (depth : Nat) (caller : Layer) :
    ∃ res h' t', h.receive t (depth + 2) .udp caller = some (res, h', t') ∧
      Turned (h.setup.Takes seg t.info.srcAddr t.info.dstAddr) (received t.info.srcAddr seg) h h' := by
  rcases receive_udp hu (depth + 1) caller (h := h) with ⟨upper, p, ht, hpu, -, hr⟩ | ⟨hn, res, f, t', hr⟩
  · rw [hk] at ht
    obtain ⟨s, b, rfl, hb, hport⟩ := (hg.agree _ upper).1 ht.port
    obtain ⟨socket, hs, hsb⟩ := Option.map_eq_some_iff.1 hb
    obtain ⟨res, h', t', hr', ho⟩ := socket_outcome (h := h.count .udp .countRx) (sockets_count hw _ _)
      (s := s) hs (t := ⟨p, { t.info with
        srcPort := UInt16.ofNat (word seg 0), dstPort := UInt16.ofNat (word seg 2) }⟩) hpu depth .udp
    rw [hr]
    exact ⟨res, h', t', hr', (ho.of_count).congr (takes_iff hg hs hsb hport ht.sound)⟩
  · refine ⟨res, _, t', hr, turned_nowhere _ ?_ (queue?_count h .udp f) (waiter?_count h .udp f)⟩
    intro s hs
    rw [hk] at hn
    obtain ⟨b, hb, hport, -⟩ := hs.bound
    refine hn (.socket s) ⟨hs.sound, ?_⟩
    have hp : b.port = UInt16.ofNat (word seg 2) := by
      rw [← UInt16.toNat_inj, toNat_ofNat_word]; exact hport
    exact (hg.agree _ _).2 ⟨s, b, rfl, hb, hp⟩

/-! ## Internet datagrams -/

theorem protocols_get?_iff {manual : Bool} {u : Setup} (ha : u.Assembled manual) (n : UInt8) (upper : Layer) :
    u.protocols.get? (.ofByte n) = some upper ↔ n.toNat = 17 ∧ upper = .udp := by
  rw [ha.protocols.get?_eq_some_iff, ha.protocol, List.mem_singleton, Prod.mk.injEq]
  have hn : Ipv4.Protocol.ofByte n = .udp ↔ n.toNat = 17 :=
    (Ipv4.Protocol.ofByte_inj n 17).trans UInt8.toNat_inj.symm
  rw [hn]

theorem ipv4_outcome {manual : Bool} {h : Host δ} (ha : h.setup.Assembled manual) (hg : h.setup.Agree)
    (hw : h.sockets.All Udp.Socket.WF) {t : Transit} {b : Octets} (hu : t.packet.unread? = some b)
    (hk : t.info.skipChecksum = false) (depth : Nat) :
    ∃ res h' t', h.receive t (depth + 3) .ipv4 .ethernet = some (res, h', t') ∧
      Turned (h.setup.Routes b) (received (.stored b 12) (segment b)) h h' := by
  have hdst : h.router.accepts (.stored b 16) .ethernet = true ↔
      h.setup.incoming.get? (.stored b 16) = some .ethernet := beq_iff_eq
  rcases receive_ipv4 hu (depth + 2) .ethernet (h := h) with
    ⟨upper, p, ht, hpu, -, hr⟩ | ⟨hn, res, f, t', hr⟩
  · rw [hk] at ht
    obtain ⟨hp, rfl⟩ := (protocols_get?_iff ha _ upper).1 ht.content
    obtain ⟨res, h', t', hr', ho⟩ := udp_outcome (h := h.count .ipv4 .countRx) hg
      (sockets_count hw _ _) (t := ⟨p, { t.info with
        srcAddr := .stored b 12, dstAddr := .stored b 16 }⟩) hpu hk depth .ipv4
    rw [hr]
    refine ⟨res, h', t', hr', (ho.of_count).congr ?_⟩
    intro s
    constructor
    · intro hs
      exact ⟨ht.sound, hdst.1 ht.dst, hp, hs⟩
    · intro hs
      exact hs.takes
  · refine ⟨res, _, t', hr, turned_nowhere _ ?_ (queue?_count h .ipv4 f) (waiter?_count h .ipv4 f)⟩
    intro s hs
    rw [hk] at hn
    exact hn .udp ⟨hs.sound, hdst.2 hs.incoming, (protocols_get?_iff ha _ _).2 ⟨hs.protocol, rfl⟩⟩

/-! ## Frames -/

theorem etherTypes_get?_iff {manual : Bool} {u : Setup} (ha : u.Assembled manual) (w : UInt16) (upper : Layer) :
    u.etherTypes.get? (.ofWord w) = some upper ↔
      w.toNat = 0x0800 ∧ upper = .ipv4 ∨ u.config.mode = .table ∧ w.toNat = 0x0806 ∧ upper = .resolver := by
  have hi : Ethernet.EtherType.ofWord w = .ipv4 ↔ w.toNat = 0x0800 :=
    (Ethernet.EtherType.ofWord_inj w 0x0800).trans UInt16.toNat_inj.symm
  have hr : Ethernet.EtherType.ofWord w = .arp ↔ w.toNat = 0x0806 :=
    (Ethernet.EtherType.ofWord_inj w 0x0806).trans UInt16.toNat_inj.symm
  rw [ha.etherTypes.get?_eq_some_iff, ha.contents, List.mem_cons, Prod.mk.injEq, hi]
  cases u.config.mode with
  | derived => simp
  | table => rw [List.mem_singleton, Prod.mk.injEq, hr]; simp

theorem stripped_eq {manual : Bool} {h : Host δ} (ha : h.setup.Assembled manual) (frame : Octets) :
    h.endpoint.body frame = stripped manual frame := by
  have hc : h.endpoint.checked = manual := ha.checked
  unfold Ethernet.Endpoint.body stripped
  rw [hc]
  rfl

/-- The conditions on the bytes of a frame are those of the layers that it passes. -/
theorem setup_accepts_iff {manual : Bool} {h : Host δ} (ha : h.setup.Assembled manual) (frame : Octets)
    (s : Handle) : h.setup.Accepts manual frame s ↔
      h.endpoint.Takes frame .ipv4 ∧ h.setup.Routes (content manual frame) s := by
  have hc : h.endpoint.checked = manual := ha.checked
  have hx : h.endpoint.addr = h.config.hardware := ha.addr
  have hi : h.endpoint.Intact frame ↔ if manual then 18 ≤ frame.length ∧ frame.drop (frame.length - 4) =
      Ethernet.CheckSequence.octets (Ethernet.CheckSequence.compute (stripped manual frame))
      else 14 ≤ frame.length := by
    unfold Ethernet.Endpoint.Intact
    rw [hc, stripped_eq ha]
  have hd : h.endpoint.accepts (.stored frame 0) = true ↔ Ethernet.Address.stored frame 0 = h.config.hardware ∨
      (Ethernet.Address.stored frame 0).isBroadcast = true ∨
      h.setup.groups.contains (Ethernet.Address.stored frame 0) = true := by
    unfold Ethernet.Endpoint.accepts
    rw [hx, Bool.or_eq_true, Bool.or_eq_true, beq_iff_eq, or_assoc]
    rfl
  have he : h.setup.etherTypes.get? (.ofWord (UInt16.ofNat (word frame 12))) = some .ipv4 ↔
      word frame 12 = 0x0800 := by
    have := etherTypes_get?_iff ha (UInt16.ofNat (word frame 12)) .ipv4
    rw [toNat_ofNat_word] at this
    simpa using this
  constructor
  · intro hs
    exact ⟨⟨hi.2 hs.complete, hd.2 hs.hardware, he.2 hs.etherType⟩, hs.routes⟩
  · rintro ⟨ht, hroutes⟩
    exact ⟨hi.1 ht.intact, hd.1 ht.dst, he.1 ht.content, hroutes⟩

theorem resolver_receivePass_ends {r r' : Arp.Resolver} {p : Packet} {now : Instant} {w w' : Wakeups}
    {next : Except Fault Next} (h : r.receivePass p now w = some (next, r', w')) (upper : Layer) :
    next ≠ .ok (.layer upper) := by
  cases r with
  | derived => cases h; nofun
  | table t =>
    obtain ⟨bytes, -, h⟩ := Option.map_eq_some_iff.1 h
    dsimp only at h
    split at h
    · cases h; nofun
    · rename_i m _
      cases h
      cases (t.receive m now w).1 <;> nofun

/-- A packet ends at the resolver. -/
theorem receive_resolver {h : Host δ} {t : Transit} {bytes : Octets} (hu : t.packet.unread? = some bytes)
    (depth : Nat) (caller : Layer) :
    ∃ next r w res f, h.resolver.receivePass t.packet h.now h.wakeups = some (next, r, w) ∧
      h.receive t (depth + 1) .resolver caller = some (res, (h.heard r w).count .resolver f, t) := by
  obtain ⟨_, _, _, he, -⟩ := receiveAt_total h .resolver caller hu
  obtain ⟨⟨next, r, w⟩, hx, hr⟩ := Option.map_eq_some_iff.1
    (show (h.resolver.receivePass t.packet h.now h.wakeups).map _ = _ from he)
  cases hr
  obtain ⟨res, f, hends⟩ := receive_of_ends he (resolver_receivePass_ends hx) depth
  exact ⟨_, r, w, res, f, hx, hends⟩

/-- A received frame is appended to the queue of the socket that it is for, or no queue changes. -/
theorem ethernet_outcome {manual : Bool} {h : Host δ} (ha : h.setup.Assembled manual) (hg : h.setup.Agree)
    (hw : h.sockets.All Udp.Socket.WF) {t : Transit} {frame : Octets} (hu : t.packet.unread? = some frame)
    (hk : t.info.skipChecksum = false) (depth : Nat) (caller : Layer) :
    ∃ res h' t', h.receive t (depth + 4) .ethernet caller = some (res, h', t') ∧
      Turned (h.setup.Accepts manual frame)
        (received (.stored (content manual frame) 12) (segment (content manual frame))) h h' := by
  rcases receive_ethernet hu (depth + 3) caller (h := h) with
    ⟨upper, p, ht, hpu, -, hr⟩ | ⟨hn, res, f, t', hr⟩
  · rw [stripped_eq ha] at hpu
    rw [hr]
    rcases (etherTypes_get?_iff ha _ upper).1 ht.content with ⟨-, rfl⟩ | ⟨-, htype, rfl⟩
    · obtain ⟨res, h', t', hr', ho⟩ := ipv4_outcome (h := h.count .ethernet .countRx) ha hg
        (sockets_count hw _ _) (t := ⟨p, { t.info with
          srcLink := some (.stored frame 6), dstLink := some (.stored frame 0) }⟩) hpu hk depth
      refine ⟨res, h', t', hr', (ho.of_count).congr ?_⟩
      intro s
      rw [setup_accepts_iff ha]
      exact (and_iff_right ht).symm
    · -- a message of the resolver
      obtain ⟨_, _, _, res, f, -, hr'⟩ := receive_resolver (h := h.count .ethernet .countRx)
        (t := ⟨p, { t.info with
          srcLink := some (.stored frame 6), dstLink := some (.stored frame 0) }⟩) hpu (depth + 2) .ethernet
      refine ⟨res, _, _, hr', turned_nowhere _ ?_
        (fun x => (queue?_count _ .resolver f x).trans (queue?_count h ..))
        fun x => (waiter?_count _ .resolver f x).trans (waiter?_count h ..)⟩
      intro s hs
      have := hs.etherType
      rw [toNat_ofNat_word] at htype
      omega
  · refine ⟨res, _, t', hr, turned_nowhere _ ?_ (queue?_count h .ethernet f) (waiter?_count h .ethernet f)⟩
    intro s hs
    exact hn .ipv4 ((setup_accepts_iff ha frame s).1 hs).1

theorem receiveFrame_outcome {manual : Bool} {h : Host δ} (ha : h.setup.Assembled manual)
    (hg : h.setup.Agree) (hw : h.sockets.All Udp.Socket.WF) (frame : Octets) :
    ∃ g, h.receiveFrame frame = some g ∧ Turned (h.setup.Accepts manual frame)
      (received (.stored (content manual frame) 12) (segment (content manual frame))) h g := by
  obtain ⟨res, h', t', hr, ho⟩ := ethernet_outcome (h := h.count .device .countRx) ha hg
    (sockets_count hw _ _) (entering_unread? h frame) rfl 4 .device
  rw [receiveFrame_eq, show Limits.depth = 4 + 4 from rfl, hr]
  have ho := ho.of_count
  exact ⟨_, rfl, ho.outcome, ho.woken, ho.others⟩

end UdpStack.Host
