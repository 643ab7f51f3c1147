/-
The form of the frames that a host sends, read with the functions that a receiver uses. Each frame has the
least length and the own hardware address as source, and ends in a check sequence if the host writes them.
It holds a message that names the own addresses, or a whole datagram both of whose checksums verify, and only
zeros behind it (`WellFormed`). Headers, checksums, padding and check sequence are written by different layers
at different times; what they make up in the end is well formed in either case (`wellFormed_messageFrame`,
`wellFormed_wire`), and nothing else is ever handed to an external device as long as all routes lead through
Ethernet or the loopback (`frames_wellFormed`).
-/
import UdpStack.Proofs.Arp.Messages
import UdpStack.Proofs.Host.Sending
import UdpStack.Proofs.Ipv4.Routes

namespace UdpStack.Host

open Bounded Device Octets

variable {δ : Type}

/-! ## The form of a frame -/

/-- Bytes that start with a message from the device with these addresses, and are zero behind it. -/
structure HoldsMessage (config : Config) (b : Octets) : Prop where
  message : ∃ m, Arp.Message.parse b = .ok m ∧ m.From config.hardware config.addr
  rest : b.drop Arp.Message.size = List.replicate 18 0

/-- Bytes that start with the header of a whole datagram for `len` bytes of payload, and its header verifies. -/
structure HasIpv4Header (b : Octets) (ip : Ipv4.Header) (len : Nat) : Prop where
  read : Ipv4.Header.read? b = some ip
  version : ip.version = 4
  headerLen : ip.headerLen = 20
  whole : ip.moreFrags = false ∧ ip.fragOffset = 0
  totalLen : ip.totalLen.toNat = 28 + len
  protocol : ip.protocol = .udp
  checksum : Ipv4.Header.verifyChecksum? b = some true

/-- Bytes that start with a user datagram with `len` bytes of payload, its checksum present and verifying. -/
structure HasUdpHeader (b : Octets) (src dst : Ipv4.Address) (len : Nat) : Prop where
  read : ∃ udp, Udp.Header.read? b = some udp ∧ udp.len.toNat = 8 + len ∧ udp.checksum ≠ 0
  checksum : Udp.Header.verifyChecksum? b src dst = some true

/-- Bytes that start with a datagram that carries a payload, and are zero behind it, up to the least length of a
frame. The checksum of the user datagram is over the addresses of the header in front of it. -/
structure HoldsDatagram (payload : Octets) (b : Octets) : Prop where
  headers : ∃ ip, HasIpv4Header b ip payload.length ∧ HasUdpHeader (b.drop 20) ip.src ip.dst payload.length
  rest : b.drop 28 = payload ++ List.replicate (18 - payload.length) 0

/-- A frame that a host may send when it is given a payload or none. -/
structure WellFormed (manual : Bool) (config : Config) (payload? : Option Octets) (frame : Octets) : Prop where
  least : Ethernet.Header.minFrame ≤ (stripped manual frame).length
  verifies : manual = true → Ethernet.CheckSequence.verify frame = .ok ()
  content : ∃ header, Ethernet.Header.read? (stripped manual frame) = some header ∧
    header.src = config.hardware ∧
    ((header.etherType = .arp ∧ HoldsMessage config (content manual frame)) ∨
      (header.etherType = .ipv4 ∧ ∃ payload, payload? = some payload ∧ HoldsDatagram payload (content manual frame)))

/-- The payload that a call sends. -/
def Call.payload? : Call δ → Option Octets
  | .send _ _ _ _ payload => some payload
  | _ => none

/-! ## What is put around a content -/

section trailer

variable {manual : Bool} {config : Config} {hardware : Ethernet.Address} {etherType : Ethernet.EtherType}
  {payload? : Option Octets} {inner front : Octets}

theorem stripped_trailer (manual : Bool) (frame : Octets) :
    stripped manual (frame ++ Ethernet.Endpoint.trailer manual frame) = frame ++ Ethernet.Endpoint.padding frame :=
  Ethernet.Endpoint.body_trailer { Ethernet.Endpoint.create .zero with checked := manual } frame

/-- Behind a content that is put into a frame there are zeros up to the least length. -/
theorem content_trailer {src : Ethernet.Address}
    (hf : front = Ethernet.Header.octets ⟨hardware, src, etherType⟩ ++ inner) :
    content manual (front ++ Ethernet.Endpoint.trailer manual front) =
      inner ++ List.replicate (46 - inner.length) 0 := by
  have hlen : front.length = 14 + inner.length := by
    rw [hf, List.length_append, Ethernet.Header.length_octets]
    rfl
  have hpad : Ethernet.Endpoint.padding front = List.replicate (46 - inner.length) 0 := by
    unfold Ethernet.Endpoint.padding
    rw [hlen, show Ethernet.Header.minFrame = 60 from rfl]
    congr 1
    omega
  unfold content
  rw [stripped_trailer, hpad, hf, List.append_assoc,
    show 14 = (Ethernet.Header.octets ⟨hardware, src, etherType⟩).length from rfl, List.drop_left]

/-- What is put around a content leaves the header in front of it. -/
theorem header_trailer (manual : Bool) {src : Ethernet.Address}
    (hf : front = Ethernet.Header.octets ⟨hardware, src, etherType⟩ ++ inner) :
    Ethernet.Header.read? (stripped manual (front ++ Ethernet.Endpoint.trailer manual front)) =
      some ⟨hardware, src, .ofWord etherType.toWord⟩ := by
  have hlen : 14 ≤ front.length := by
    rw [hf, List.length_append, Ethernet.Header.length_octets]
    exact Nat.le_add_right ..
  have hword : word (front ++ Ethernet.Endpoint.padding front) 12 = etherType.toWord.toNat := by
    subst hf
    exact toNat_ofWord16 _
  rw [stripped_trailer, Ethernet.Header.read?_of_le (by rw [List.length_append]; omega), hword, UInt16.ofNat_toNat]
  subst hf
  rfl

/-- Around a proper content, header, padding and check sequence make a proper frame. -/
theorem wellFormed_trailer (hf : front = Ethernet.Header.octets ⟨hardware, config.hardware, etherType⟩ ++ inner)
    (hc : (Ethernet.EtherType.ofWord etherType.toWord = .arp ∧
        HoldsMessage config (inner ++ List.replicate (46 - inner.length) 0)) ∨
      (Ethernet.EtherType.ofWord etherType.toWord = .ipv4 ∧ ∃ payload, payload? = some payload ∧
        HoldsDatagram payload (inner ++ List.replicate (46 - inner.length) 0))) :
    WellFormed manual config payload? (front ++ Ethernet.Endpoint.trailer manual front) := by
  have hleast : Ethernet.Header.minFrame ≤ (front ++ Ethernet.Endpoint.padding front).length := by
    unfold Ethernet.Endpoint.padding
    rw [List.length_append, List.length_replicate]
    omega
  refine ⟨by rw [stripped_trailer]; exact hleast, ?_, _, header_trailer manual hf, rfl, ?_⟩
  · rintro rfl
    exact Ethernet.Endpoint.verify_trailer front
  · rw [content_trailer hf]
    exact hc

end trailer

/-! ## Messages and datagrams -/

theorem holdsMessage_octets {config : Config} {m : Arp.Message} (hm : m.From config.hardware config.addr) :
    HoldsMessage config (m.octets ++ List.replicate (46 - m.octets.length) 0) := by
  refine ⟨⟨m, Arp.Message.parse_octets hm.operation _, hm⟩, ?_⟩
  rw [← Arp.Message.length_octets m, List.drop_left, Arp.Message.length_octets]
  rfl

/-- A message of the resolver leaves in a proper frame. -/
theorem wellFormed_messageFrame (manual : Bool) {config : Config} {m : Arp.Message}
    (hm : m.From config.hardware config.addr) (hardware : Ethernet.Address) (payload? : Option Octets) :
    WellFormed manual config payload? (messageFrame manual config m hardware) :=
  wellFormed_trailer rfl (.inl ⟨rfl, holdsMessage_octets hm⟩)

section datagrams

variable (h : Host δ) (hardware : Ethernet.Address) (src : Ipv4.Address) (b : Udp.Binding) (dst : Ipv4.Address)
  (port : UInt16) {payload : Octets}

theorem holdsDatagram_datagram (hsize : payload.length ≤ 512) : HoldsDatagram payload
    (h.datagram src b dst port payload ++
      List.replicate (46 - (h.datagram src b dst port payload).length) 0) := by
  rw [length_datagram, show 46 - (payload.length + 28) = 18 - payload.length by omega]
  generalize hzeros : List.replicate (18 - payload.length) (0 : UInt8) = zeros
  have hlen : (UInt16.ofNat (8 + payload.length + 20)).toNat = 28 + payload.length := by
    rw [UInt16.toNat_ofNat', Nat.mod_eq_of_lt (by omega)]
    omega
  have hlen' : (UInt16.ofNat (payload.length + 8)).toNat = 8 + payload.length := by
    rw [UInt16.toNat_ofNat', Nat.mod_eq_of_lt (by omega), Nat.add_comm]
  unfold datagram
  rw [List.append_assoc]
  generalize UInt16.ofNat (8 + payload.length + 20) = total at hlen
  obtain ⟨checksum, hread⟩ := Ipv4.Router.read?_sealedHeader total h.router.ident .udp src dst
    (Udp.Header.segment b.port port src dst payload ++ zeros)
  obtain ⟨sum, hsum, hudp, hverify⟩ := Udp.Header.read?_segment (show payload.length + 8 ≤ 65535 by omega) b.port port
    src dst zeros
  have hdrop : (Ipv4.Router.sealedHeader total h.router.ident .udp src dst ++
      (Udp.Header.segment b.port port src dst payload ++ zeros)).drop 20 =
      Udp.Header.segment b.port port src dst payload ++ zeros := by
    rw [← Ipv4.Router.length_sealedHeader total h.router.ident .udp src dst, List.drop_left]
  refine ⟨⟨_, ⟨hread, rfl, rfl, ⟨rfl, rfl⟩, hlen, rfl, Ipv4.Router.verifyChecksum?_sealedHeader ..⟩, ?_⟩, ?_⟩
  · rw [hdrop]
    exact ⟨⟨_, hudp, hlen', hsum⟩, hverify⟩
  · rw [show 28 = 20 + 8 from rfl, ← List.drop_drop, hdrop, hzeros]
    unfold Udp.Header.segment
    rw [List.append_assoc]
    rfl

/-- A datagram to a neighbor leaves in a proper frame. -/
theorem wellFormed_wire {config : Config} (haddr : h.endpoint.addr = config.hardware) (hsize : payload.length ≤ 512) :
    WellFormed h.endpoint.checked config (some payload) (h.wire hardware src b dst port payload) := by
  have hfront : Ethernet.Header.octets ⟨hardware, h.endpoint.addr, .ipv4⟩ ++ h.datagram src b dst port payload =
      Ethernet.Header.octets ⟨hardware, config.hardware, .ipv4⟩ ++ h.datagram src b dst port payload := by
    rw [haddr]
  exact wellFormed_trailer hfront (.inr ⟨rfl, payload, rfl, holdsDatagram_datagram h src b dst port hsize⟩)

end datagrams

/-! ## Hosts that speak for themselves -/

section genuine

variable [Nic δ] [Queueing δ] {manual : Bool} {config : Config} {h h' : Host δ}

/-- A mounted host whose resolver sends messages of its own device only. -/
structure Genuine (manual : Bool) (own : Config) (h : Host δ) : Prop extends Mounted manual own h where
  speaks : h.resolver.All (·.Speaks own.hardware own.addr)

theorem genuine_create {d : δ} (hd : Queueing.Built d) (e : create d config = .ok h) :
    h.Genuine (decide ((Nic.personality d).check = .manual)) config :=
  ⟨mounted_create hd e, resolver_create e (Arp.Table.speaks_create ..)⟩

/-- Programs let the device and the resolver be, but for entering hardware addresses and for what a program may
do to its end of the device. -/
def Tame (h : Host δ) (c : Call δ) : Prop := h.SparesDevice c ∧ h.SparesResolver c

theorem genuine_perform {c : Call δ} {a : Answer} (hg : h.Genuine manual config) (hk : h.Tame c)
    (e : h.perform c = some (a, h')) : h'.Genuine manual config :=
  ⟨mounted_perform hg.toMounted hk.1 e,
    resolver_perform (Arp.Table.speaks_kept _ _) hg.agree hg.speaks (fun r hc => absurd hc (hk.2 r)) e⟩

theorem Genuine.of_stable (hg : h.Genuine manual config)
    (hs : ∀ P : Host δ → Prop, StablePoll P → P h → P h') : h'.Genuine manual config :=
  ⟨hg.toMounted.of_stable hs, hs _ (stable_resolver (Arp.Table.speaks_kept _ _)) hg.speaks⟩

/-! ## Flushes -/

/-- A flush queues proper frames, whatever else the call is about. -/
theorem flush_wellFormed (hg : h.Genuine manual config) (payload? : Option Octets) (e : h.flush = some h') :
    Queues (WellFormed manual config payload?) h h' := by
  obtain ⟨frames, hq, -, hframes⟩ := flush_queued (Arp.Table.speaks_kept _ _) Arp.Resolver.outgoing_from
    hg.toMounted hg.speaks e
  refine ⟨frames, hq, fun f hf => ?_⟩
  obtain ⟨m, dst, rfl, hm⟩ := hframes f hf
  exact wellFormed_messageFrame manual hm dst payload?

/-! ## Sending -/

/-- A host stays genuine while a packet goes through its layers. -/
theorem Genuine.transmitted (hg : h.Genuine manual config) {t u : Transit} {layer caller : Layer}
    {result : Except Fault Unit} {g : Host δ} (hp : t.packet.InOrder)
    (hbytes : t.packet.bytes.length = Limits.frameBuffer)
    (hx : h.transmit t layer caller = some (result, g, u)) :
    Genuine manual config { g with txBuffer := u.packet.bytes } := by
  have hkept := Arp.Table.speaks_kept config.hardware config.addr
  have hsetup : g.setup = h.setup := (stable_setup h.setup).transmit (.inr fun _ _ hp => hp) rfl hx
  have hsockets : g.sockets.All Udp.Socket.WF := stable_sockets.transmit (.inr fun _ _ hw => hw) hg.sockets hx
  have hdevice : Queueing.Built g.device := stable_built.transmit (.inr fun _ _ hd => hd) hg.device hx
  have hspeaks : g.resolver.All (·.Speaks config.hardware config.addr) :=
    (stable_resolver hkept).transmit (.inr fun _ _ hs => hs.lookup hkept _ _ _) hg.speaks hx
  exact ⟨hg.of_setup hsetup hsockets ((transmit_length hp hx).trans hbytes) hdevice, hspeaks⟩

/-- All routes lead through Ethernet or the loopback. -/
def Routed (h : Host δ) : Prop :=
  ∀ route ∈ h.router.routes.toList, route.layer = .ethernet ∨ route.layer = .loopback

/-- Where a route leads through Ethernet or the loopback, the frame of a datagram is proper. -/
theorem wellFormed_carried (hg : h.Genuine manual config) {b : Udp.Binding} {task : Task} {dst : Ipv4.Address}
    {port : UInt16} {payload frame : Octets} {layer : Layer} (hc : h.Carries b task dst port payload layer frame)
    (hl : layer = .ethernet ∨ layer = .loopback) (hsize : payload.length ≤ 512) :
    WellFormed manual config (some payload) frame := by
  have haddr : h.endpoint.addr = config.hardware := by rw [← hg.config]; exact hg.assembled.addr
  have hchecked : h.endpoint.checked = manual := hg.assembled.checked
  cases hc with
  | bare => rcases hl with hl | hl <;> cases hl
  | framed _ =>
    rw [← hchecked]
    exact wellFormed_wire h _ _ b dst port haddr hsize

theorem send_wellFormed (hg : h.Genuine manual config) (hr : h.Routed) {s : Handle} {task : Task}
    {dst : Ipv4.Address} {port : UInt16} {payload : Octets} {r : Poll Nat}
    (e : h.send s task dst port payload = some (r, h')) : Queues (WellFormed manual config (some payload)) h h' := by
  by_cases hle : h.mtu < payload.length
  · unfold send at e
    rw [if_pos hle] at e
    cases e
    exact .of_device rfl
  cases hs : h.sockets.get? s with
  | none =>
    unfold send at e
    rw [if_neg hle, if_pos (by rw [hs]; rfl)] at e
    cases e
    exact .of_device rfl
  | some socket =>
    have hle := Nat.le_of_not_lt hle
    have hsize := length_of_le_mtu hle
    obtain ⟨p, front, back, hl, hfront, hback, hbytes, hsend⟩ := send_eq hg.txBuffer hs hle task dst port
    -- what the flush queues stands behind what the packet itself became
    have hflushed : ∀ {result g t}, h.transmit ⟨p, { dstAddr := dst, dstPort := port, task := some task }⟩ (.socket s)
        .user = some (result, g, t) → Queues (WellFormed manual config (some payload)) h g →
        Queues (WellFormed manual config (some payload)) h h' := by
      intro result g t hx hq
      rw [hsend hx] at e
      obtain ⟨u, hu, he⟩ := Option.map_eq_some_iff.1 e
      cases he
      have hd : Queues (WellFormed manual config (some payload)) h { g with txBuffer := t.packet.bytes } := hq
      exact hd.trans (flush_wellFormed (hg.transmitted hl.inOrder hbytes hx) _ hu)
    cases passage hg.toSteady hl hfront hback hsize s task dst port with
    | fails hf =>
      obtain ⟨f, g, t, hx, hd, -⟩ := transmit_of_fails hf
      exact hflushed hx (.of_device hd)
    | away _ hroute hc hx hd _ =>
      have hproper := wellFormed_carried hg hc (hr _ (Ipv4.Routes.lookup_mem hroute).1) hsize
      refine hflushed hx ?_
      rcases queued_cases hg.device hd with ⟨-, hq⟩ | ⟨-, hq⟩
      · exact ⟨_, hq, List.forall_mem_singleton.2 hproper⟩
      · exact .of_queued hq
    | home _ _ _ hx hd _ => exact hflushed hx (.of_device hd)

end genuine

/-! ## Hosts on an external device -/

section external

variable {n : Nat} {manual : Bool} {config : Config} {h h' : Host (External n)}

/-- Taking a frame from the device leaves the sent ones there. -/
theorem queued_receive (d : External n) (room : Nat) :
    Queueing.queued (Nic.receive d room).2 = Queueing.queued d := by
  obtain ⟨inbound, he⟩ := External.receive_eq d room
  rw [he]
  rfl

theorem Genuine.taken (hg : h.Genuine manual config) (room : Nat) :
    Genuine manual config { h with device := (Nic.receive h.device room).2 } :=
  hg.of_stable fun _ hs hp => hs.take room hp

/-- Taking frames queues proper frames in reply. -/
theorem receiveFrames_wellFormed (payload? : Option Octets) : ∀ (k : Nat) {h h' : Host (External n)} {m : Nat}
    {r : Except Fault Nat}, h.Genuine manual config → h.receiveFrames m k = some (r, h') →
    Queues (WellFormed manual config payload?) h h'
  | 0, h, h', m, r, _, e => by cases e; exact .of_device rfl
  | k + 1, h, h', m, r, hg, e => by
    have ht := hg.taken h.rxBuffer.length
    have hq := queued_receive h.device h.rxBuffer.length
    unfold Host.receiveFrames at e
    cases hx : Nic.receive h.device h.rxBuffer.length with
    | mk taken device =>
      rw [hx] at ht hq e
      -- nothing is queued by taking a frame
      have hfirst : Queues (WellFormed manual config payload?) h { h with device := device } := .of_queued hq
      rcases taken with f | _ | frame
      · obtain ⟨g, hf, he⟩ := Option.map_eq_some_iff.1 e
        cases he
        have hd : Genuine manual config { h with
            device := device, deviceCounters := h.deviceCounters.countDropped } :=
          ht.of_stable fun _ hs hp => hs.toStableFlush.count .device .countDropped hp
        exact hfirst.trans (flush_wellFormed hd payload? hf)
      · cases e
        exact hfirst
      · dsimp only at e
        split at e
        · cases e
        · rename_i u hu
          obtain ⟨g, hg', hf⟩ := Option.bind_eq_some_iff.1 hu
          have hgg : g.Genuine manual config := ht.of_stable fun _ hs hp => hs.toStableRound.receiveFrame hp hg'
          have huu : u.Genuine manual config := hgg.of_stable fun _ hs hp => hs.toStableFlush.flush hp hf
          exact ((hfirst.trans (.of_device (receiveFrame_device hg'))).trans (flush_wellFormed hgg payload? hf)).trans
            (receiveFrames_wellFormed payload? k huu e)

theorem poll_wellFormed (hg : h.Genuine manual config) (payload? : Option Octets) {now : Instant}
    {r : Except Fault Nat} (e : h.poll now = some (r, h')) : Queues (WellFormed manual config payload?) h h' := by
  obtain ⟨g, hf, he, -⟩ := poll_cases e
  have hx : Genuine manual config { h with
      now := now
      resolver := (h.resolver.expire now h.wakeups).1
      wakeups := (h.resolver.expire now h.wakeups).2 } :=
    hg.of_stable fun _ hs hp => hs.expire now hp
  have hfirst : Queues (WellFormed manual config payload?) h g := flush_wellFormed hx payload? hf
  exact hfirst.trans (receiveFrames_wellFormed payload? _ (hg.of_stable fun _ hs hp => hs.refreshed hp hf) he)

/-- Every call queues proper frames and no others. -/
theorem perform_wellFormed (hg : h.Genuine manual config) (hr : h.Routed) {c : Call (External n)} {a : Answer}
    (hc : ∀ d, c ≠ .device d) (e : h.perform c = some (a, h')) :
    Queues (WellFormed manual config c.payload?) h h' := by
  cases effect_perform hg.agree e with
  | send hx => exact send_wellFormed hg hr hx
  | poll hx => exact poll_wellFormed hg _ hx
  | device d => exact absurd rfl (hc d)
  | _ => exact .of_device rfl

/-- All frames on the wire are well formed. Whatever a program does, and whatever frames arrive, each call
answers, and the frames that it adds to those on their way out are proper ones: messages that speak for the host
itself, and, if the call sends a payload, datagrams with that payload. The program may enter hardware addresses
into the resolver, but not replace it, and where the call is made all routes lead through Ethernet or the loopback. -/
theorem frames_wellFormed {d : External n} (hd : d.Built) {config : Config} {h₀ h : Host (External n)}
    (e : create d config = .ok h₀) {es : List (Call (External n) × Answer)} (hrun : Run Tame h₀ es h)
    (hr : h.Routed) {c : Call (External n)} (hc : ∀ d, c ≠ .device d) :
    ∃ a h' frames, h.perform c = some (a, h') ∧
      Queueing.queued h'.device = Queueing.queued h.device ++ frames ∧
      ∀ frame ∈ frames, WellFormed (decide (d.personality.check = .manual)) config c.payload? frame := by
  have hg := hrun.keeps genuine_perform (genuine_create hd e)
  obtain ⟨a, h', hx⟩ := perform_total hg.toSteady c
  obtain ⟨frames, hq, hframes⟩ := perform_wellFormed hg hr hc hx
  exact ⟨a, h', frames, hx, hq, hframes⟩

end external

theorem frames_wellFormed_datagram :
    let config : Config := ⟨⟨2, 0, 0, 0, 0, 1⟩, ⟨10, 0, 0, 1⟩, ⟨255, 255, 255, 0⟩, .table⟩
    ∃ (h h' : Host (External 4)) (a : Answer) (asked sent : Octets),
      Queueing.queued h.device = [asked] ∧ h.Routed ∧
      h.perform (.send ⟨0, 0⟩ ⟨3⟩ ⟨10, 0, 0, 2⟩ 7 [1, 2, 3]) = some (a, h') ∧
      Queueing.queued h'.device = [asked, sent] ∧ WellFormed true config (some [1, 2, 3]) sent := by
  intro config
  have hx : (do
      let h ← (create (External.create 4 ⟨1500, .manual⟩) config).toOption
      let h ← h.performAll [.acquire, .bind ⟨0, 0⟩ .unspecified 5, .send ⟨0, 0⟩ ⟨3⟩ ⟨10, 0, 0, 2⟩ 7 [1, 2, 3],
        .fill ⟨10, 0, 0, 2⟩ ⟨2, 0, 0, 0, 0, 2⟩ none]
      let g ← h.2.perform (.send ⟨0, 0⟩ ⟨3⟩ ⟨10, 0, 0, 2⟩ 7 [1, 2, 3])
      some (decide ((Queueing.queued h.2.device).length = 1 ∧ (Queueing.queued g.2.device).length = 2 ∧
        ∀ route ∈ h.2.router.routes.toList, route.layer = .ethernet ∨ route.layer = .loopback))) = some true := by
    decide +kernel
  obtain ⟨h₀, e, hx⟩ := Option.bind_eq_some_iff.1 hx
  obtain ⟨⟨es, h⟩, hr, hx⟩ := Option.bind_eq_some_iff.1 hx
  obtain ⟨⟨a, g⟩, hsend, hx⟩ := Option.bind_eq_some_iff.1 hx
  simp only [Option.some.injEq, decide_eq_true_eq] at hx
  obtain ⟨hone, htwo, hroutes⟩ := hx
  have hrun : Run Tame h₀ es h :=
    run_performAll _ .nil (by simp [Tame, SparesDevice, SparesResolver]) hr
  obtain ⟨a', h', frames, hp, hq, hframes⟩ := frames_wellFormed (External.Built.create ⟨1500, .manual⟩)
    (eq_ok_of_toOption e) hrun hroutes (c := .send ⟨0, 0⟩ ⟨3⟩ ⟨10, 0, 0, 2⟩ 7 [1, 2, 3]) (by intro d h; cases h)
  cases hsend.symm.trans hp
  obtain ⟨asked, hasked⟩ := List.length_eq_one_iff.1 hone
  rw [hasked] at hq
  obtain ⟨sent, rfl⟩ : ∃ sent, frames = [sent] := List.length_eq_one_iff.1 (by
    rw [hq] at htwo
    exact Nat.succ.inj htwo)
  exact ⟨h, g, a, asked, sent, hasked, hroutes, hsend, hq, hframes sent (List.mem_singleton.2 rfl)⟩

end UdpStack.Host
