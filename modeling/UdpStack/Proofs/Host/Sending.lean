/-
What a send leaves behind on a device that queues its frames, be it the external one or one that loops
them back. A datagram leaves last of all: either every layer lets it through and the device takes one
frame of it, or it is turned around, or the send fails, and then no more than messages of the resolver
were queued and no socket noticed (`send_all_or_nothing`). Hence a program that repeats a send until it
succeeds, whatever it does in between, sends the datagram once.
-/
import UdpStack.Proofs.Device.Queueing
import UdpStack.Proofs.Host.Passage

namespace UdpStack.Host

open Bounded Device Octets

variable {δ : Type} [Nic δ]

/-! ## What is sent -/

/-- The frame of a message of the resolver. -/
def messageFrame (manual : Bool) (config : Config) (m : Arp.Message) (hardware : Ethernet.Address) : Octets :=
  Ethernet.Header.octets ⟨hardware, config.hardware, .arp⟩ ++ m.octets ++
    Ethernet.Endpoint.trailer manual (Ethernet.Header.octets ⟨hardware, config.hardware, .arp⟩ ++ m.octets)

/-- A frame that a host sends for its resolver. -/
def IsMessage (manual : Bool) (config : Config) (frame : Octets) : Prop :=
  ∃ m hardware, frame = messageFrame manual config m hardware

/-- What a host does that sends a datagram: it hands one frame of it to the device and touches no queue,
or the datagram comes back to its own sockets. All other frames are messages of the resolver. -/
inductive Sends (h : Host δ) (manual : Bool) (config : Config) (s : Handle) (task : Task) (dst : Ipv4.Address)
    (port : UInt16) (payload : Octets) : List Octets → Host δ → Prop where
  | away {b : Udp.Binding} {route : Ipv4.Route} {frame : Octets} {messages : List Octets} {h' : Host δ} :
      h.binding? s = some b → h.router.routes.lookup dst = some route →
      h.Carries b task dst port payload route.layer frame → (∀ x, h'.queue? x = h.queue? x) →
      (∀ m ∈ messages, IsMessage manual config m) →
      Sends h manual config s task dst port payload (frame :: messages) h'
  | home {b : Udp.Binding} {route : Ipv4.Route} {messages : List Octets} {h' : Host δ} :
      h.binding? s = some b → h.router.routes.lookup dst = some route → route.layer = .loopback →
      Outcome (h.LoopsTo dst port) ⟨h.sourceFrom b .loopback, b.port, payload.length, payload⟩ h h' →
      (∀ m ∈ messages, IsMessage manual config m) →
      Sends h manual config s task dst port payload messages h'

/-- Nothing is in the way of a datagram: it fits, and its socket is bound. A route leads to the loopback, or
to a way on which a frame of it can be made and the device takes it. -/
structure Clear (h : Host δ) (s : Handle) (task : Task) (dst : Ipv4.Address) (port : UInt16) (payload : Octets) :
    Prop where
  fits : payload.length ≤ h.mtu
  bound : ∃ b, h.binding? s = some b ∧ ∃ route, h.router.routes.lookup dst = some route ∧
    (route.layer = .loopback ∨ 28 ≤ (Nic.personality h.device).mtu ∧
      ∃ frame, h.Carries b task dst port payload route.layer frame ∧ (Nic.transmit h.device frame).1 = .ok ())

/-! ## Hosts that queue what they send -/

section mounted

variable [Queueing δ]

/-- Every call, as long as the device is left as programs can have it. -/
def SparesDevice (_ : Host δ) (c : Call δ) : Prop := ∀ d, c = .device d → Queueing.Built d

/-- A steady host on a device that queues its frames. -/
structure Mounted (manual : Bool) (config : Config) (h : Host δ) : Prop extends Steady manual h where
  config : h.config = config
  device : Queueing.Built h.device

theorem stable_built : StablePoll fun h : Host δ => Queueing.Built h.device where
  count layer f hd := by rw [device_count]; exact hd
  numbered _ hd := hd
  heard hd _ := hd
  handed _ hd _ := hd
  sent frame hd := Queueing.built_transmit frame hd
  outgoing hd := hd
  txBuffer _ hd := hd
  deliver hd := hd
  rxBuffer _ hd := hd
  expire _ hd := hd
  take room hd := Queueing.built_receive room hd

variable {manual : Bool} {config : Config} {h h' g : Host δ}

theorem mounted_create {d : δ} (hd : Queueing.Built d) (e : create d config = .ok h) :
    h.Mounted (decide ((Nic.personality d).check = .manual)) config := by
  have hs := steady_create e
  obtain ⟨endpoint, router, -, -, rfl⟩ := create_eq_ok e
  exact ⟨hs, rfl, hd⟩

theorem mounted_perform {c : Call δ} {a : Answer} (hm : h.Mounted manual config) (hk : h.SparesDevice c)
    (e : h.perform c = some (a, h')) : h'.Mounted manual config := by
  have hs := steady_perform hm.toSteady e
  cases effect_perform hm.agree e with
  | send hx =>
    exact ⟨hs, (congrArg Setup.config (setup_send hx)).trans hm.config,
      stable_built.send (fun _ _ hd => hd) hm.device hx⟩
  | poll hx =>
    exact ⟨hs, (congrArg Setup.config (setup_poll hx)).trans hm.config, stable_built.poll hm.device hx⟩
  | device d => exact ⟨hs, hm.config, hk d rfl⟩
  | _ => exact ⟨hs, hm.config, hm.device⟩

/-- What a host is set up for is kept by whatever keeps the setup. -/
theorem Mounted.of_setup (hm : h.Mounted manual config) (hs : g.setup = h.setup)
    (hw : g.sockets.All Udp.Socket.WF) (htx : g.txBuffer.length = Limits.frameBuffer)
    (hd : Queueing.Built g.device) : g.Mounted manual config :=
  ⟨⟨by rw [hs]; exact hm.assembled, by rw [hs]; exact hm.agree, hw, htx⟩,
    (congrArg Setup.config hs).trans hm.config, hd⟩

theorem Mounted.of_stable (hm : h.Mounted manual config)
    (hs : ∀ P : Host δ → Prop, StablePoll P → P h → P g) : g.Mounted manual config :=
  hm.of_setup (hs _ (stable_setup h.setup) rfl) (hs _ stable_sockets hm.sockets)
    (hs _ (stable_txBuffer_length _) hm.txBuffer) (hs _ stable_built hm.device)

theorem Mounted.flushed (hm : h.Mounted manual config) (hf : Flushed h g) : g.Mounted manual config :=
  hm.of_stable fun P hs hp => hf P hs.toStableFlush hp

/-! ## Messages of the resolver -/

/-- All frames that were queued meanwhile have a property. -/
def Queues (P : Octets → Prop) (h h' : Host δ) : Prop :=
  ∃ frames, Queueing.queued h'.device = Queueing.queued h.device ++ frames ∧ ∀ f ∈ frames, P f

section queues

variable {P : Octets → Prop}

theorem Queues.of_queued (e : Queueing.queued h'.device = Queueing.queued h.device) : Queues P h h' :=
  ⟨[], by rw [e, List.append_nil], nofun⟩

theorem Queues.of_device (e : h'.device = h.device) : Queues P h h' := .of_queued (congrArg Queueing.queued e)

theorem Queues.trans (hg : Queues P h g) (hh : Queues P g h') : Queues P h h' := by
  obtain ⟨l, hl, hlp⟩ := hg
  obtain ⟨l', hl', hlp'⟩ := hh
  exact ⟨l ++ l', by rw [hl', hl, List.append_assoc], fun f hf => (List.mem_append.1 hf).elim (hlp f) (hlp' f)⟩

end queues

/-- The resolver's messages have an EtherType of their own. -/
theorem keyOf?_resolver {u : Setup} (ha : u.Assembled manual) {t : Ethernet.EtherType}
    (ht : u.etherTypes.keyOf? .resolver = some t) : t = .arp := by
  have hk := Map.mem_of_keyOf? ht
  rw [ha.contents, List.mem_cons] at hk
  rcases hk with hk | hk
  · cases (Prod.mk.inj hk).2
  · split at hk
    · cases hk
    · exact (Prod.mk.inj (List.mem_singleton.1 hk)).1

/-- Nothing is in the way of a message: the resolver has an EtherType, and the device carries its content. -/
def Voiced (h : Host δ) (config : Config) : Prop := config.mode = .table ∧ 28 ≤ (Nic.personality h.device).mtu

/-- A message is framed and handed to the device, or it fails before that. -/
theorem transmit_message (hm : h.Mounted manual config) {m : Arp.Message} {hardware : Ethernet.Address} {p : Packet}
    {front back frame : Octets} (hl : p.Layout front [] m.octets back) (hfront : 14 ≤ front.length)
    (hback : 64 ≤ back.length) (hframe : frame = messageFrame manual config m hardware) :
    (¬ h.Voiced config ∧ h.Fails ⟨p, { dstLink := some hardware }⟩ Limits.depth .ethernet .resolver) ∨
    ∃ f t, h.transmit ⟨p, { dstLink := some hardware }⟩ .ethernet .resolver = some
      ((Nic.transmit h.device frame).1, ((h.count .ethernet .countTx).sent frame).count .device f, t) := by
  cases ht : h.endpoint.etherTypes.keyOf? .resolver with
  | none =>
    refine .inl ⟨?_, fails_of_error (f := .unreachable) (g := h) (u := ⟨p, { dstLink := some hardware }⟩) ?_ 7⟩
    · intro hv
      have hcontents : h.endpoint.etherTypes.toList = _ := hm.assembled.contents
      rw [show h.setup.config = config from hm.config, hv.1] at hcontents
      have hk := Map.keyOf?_isSome_of_mem (hcontents ▸ List.mem_cons_of_mem _ (List.mem_singleton.2 rfl) :
        (Ethernet.EtherType.arp, Layer.resolver) ∈ h.endpoint.etherTypes.toList)
      rw [ht] at hk
      cases hk
    · rw [transmitAt_ethernet]
      unfold Ethernet.Endpoint.transmitPass
      rw [ht]
  | some etherType =>
    obtain rfl := keyOf?_resolver hm.assembled ht
    obtain ⟨q, front', hql, hd⟩ := descend_framed (t := ⟨p, { dstLink := some hardware }⟩) hl ht rfl hfront 6
    dsimp only at hd
    split at hd
    · rename_i hlarge
      refine .inl ⟨fun hv => ?_, _, _, _, hd⟩
      rw [List.length_nil, Nat.zero_add, Arp.Message.length_octets] at hlarge
      exact absurd hv.2 (Nat.not_le.2 hlarge)
    · right
      have haddr : h.endpoint.addr = config.hardware := by rw [← hm.config]; exact hm.assembled.addr
      have hchecked : h.endpoint.checked = manual := hm.assembled.checked
      obtain ⟨f, u, hf, -⟩ := finish_framed h (t := ⟨q, _⟩) hql hback (show frame = _ by
        rw [hframe, haddr, hchecked, List.append_nil]
        rfl) .resolver
      refine ⟨f, u, ?_⟩
      unfold transmit
      rw [show Limits.depth = 6 + 2 from rfl, hd]
      exact hf

/-- What is handed to the device last of all is queued, or no frame is. -/
theorem queued_cases (hd : Queueing.Built h.device) {frame : Octets} (e : g.device = (Nic.transmit h.device frame).2) :
    ((Nic.transmit h.device frame).1 = .ok () ∧
      Queueing.queued g.device = Queueing.queued h.device ++ [frame]) ∨
    (∃ f, (Nic.transmit h.device frame).1 = .error f) ∧ Queueing.queued g.device = Queueing.queued h.device := by
  rw [e]
  exact Queueing.transmit_cases frame hd

/-- Only counters and the buffer change after the packet of a message is sent. -/
theorem sendMessage_packet (hm : h.Mounted manual config) (m : Arp.Message) (hardware : Ethernet.Address) :
    ∃ p front back, p.Layout front [] m.octets back ∧ 42 ≤ front.length ∧ 64 ≤ back.length ∧
      ∀ {result : Except Fault Unit} {g : Host δ} {t : Transit},
        h.transmit ⟨p, { dstLink := some hardware }⟩ .ethernet .resolver = some (result, g, t) →
        ∃ f, h.sendMessage m hardware = some (count { g with txBuffer := t.packet.bytes } .resolver f) := by
  obtain ⟨p, front, back, hp, hl, hfront, hback, -⟩ :=
    packet_layout hm.txBuffer (show m.octets.length ≤ 512 by rw [Arp.Message.length_octets]; decide)
  refine ⟨p, front, back, hl, hfront, hback, fun {result g t} hx => ?_⟩
  unfold sendMessage
  rw [hp]
  dsimp only
  rw [hx]
  cases result <;> exact ⟨_, rfl⟩

/-- A message leaves in a frame of its own or not at all. -/
theorem sendMessage_queued (hm : h.Mounted manual config) {m : Arp.Message} {hardware : Ethernet.Address}
    (e : h.sendMessage m hardware = some h') :
    Queueing.queued h'.device = Queueing.queued h.device ∨
      Queueing.queued h'.device = Queueing.queued h.device ++ [messageFrame manual config m hardware] := by
  obtain ⟨p, front, back, hl, hfront, hback, hsend⟩ := sendMessage_packet hm m hardware
  rcases transmit_message hm hl (by omega) hback rfl with ⟨-, hf⟩ | ⟨f, t, hx⟩
  · obtain ⟨f, g, t, hx, hd, -⟩ := transmit_of_fails hf
    obtain ⟨f', he⟩ := hsend hx
    cases e.symm.trans he
    exact .inl (congrArg Queueing.queued hd)
  · obtain ⟨f', he⟩ := hsend hx
    have hd : h'.device = (Nic.transmit h.device (messageFrame manual config m hardware)).2 := by
      cases e.symm.trans he
      rfl
    rcases queued_cases hm.device hd with ⟨-, hq⟩ | ⟨-, hq⟩
    · exact .inr hq
    · exact .inl hq

/-- A message with nothing in its way is handed to the device. -/
theorem sendMessage_voiced (hm : h.Mounted manual config) (hv : h.Voiced config) (m : Arp.Message)
    (hardware : Ethernet.Address) : ∃ h', h.sendMessage m hardware = some h' ∧ h'.resolver = h.resolver ∧
      h'.device = (Nic.transmit h.device (messageFrame manual config m hardware)).2 := by
  obtain ⟨p, front, back, hl, hfront, hback, hsend⟩ := sendMessage_packet hm m hardware
  rcases transmit_message hm hl (by omega) hback rfl with ⟨hn, -⟩ | ⟨f, t, hx⟩
  · exact absurd hv hn
  · obtain ⟨f', he⟩ := hsend hx
    exact ⟨_, he, rfl, rfl⟩

/-- What a flush queues are frames of messages, no more than it asks the resolver for; and they have what the next
message of such a resolver has. -/
theorem sendMessages_queued {P : Arp.Table → Prop} (hk : Arp.Table.Kept P) {M : Arp.Message → Prop}
    (hnext : ∀ {r : Arp.Resolver}, r.All P → ∀ {m : Arp.Message} {dst : Ethernet.Address},
      r.outgoing.1 = some (m, dst) → M m) : ∀ (k : Nat) {h h' : Host δ}, h.Mounted manual config →
    h.resolver.All P → h.sendMessages k = some h' →
    ∃ frames, Queueing.queued h'.device = Queueing.queued h.device ++ frames ∧ frames.length ≤ k ∧
      ∀ f ∈ frames, ∃ m dst, f = messageFrame manual config m dst ∧ M m
  | 0, h, h', _, _, e => by
    cases e
    exact ⟨[], (List.append_nil _).symm, le_rfl, nofun⟩
  | k + 1, h, h', hm, hp, e => by
    have ho : Mounted manual config { h with resolver := h.resolver.outgoing.2 } :=
      hm.flushed fun _ hs hp => hs.outgoing hp
    have hpo : h.resolver.outgoing.2.All P := hp.outgoing hk
    have hfirst : ∀ m dst, h.resolver.outgoing.1 = some (m, dst) → M m := fun _ _ => hnext hp
    unfold Host.sendMessages at e
    cases hx : h.resolver.outgoing with
    | mk next resolver =>
      rw [hx] at ho hpo hfirst e
      cases next with
      | none =>
        cases e
        exact ⟨[], (List.append_nil _).symm, Nat.zero_le _, nofun⟩
      | some message =>
        obtain ⟨m, dst⟩ := message
        obtain ⟨g, hg, hf⟩ := sendMessage_total { h with resolver := resolver } m dst
        dsimp only at e
        rw [hg] at e
        obtain ⟨frames, hq, hlen, hframes⟩ := sendMessages_queued hk hnext k (ho.flushed hf)
          (hf _ (stable_resolver hk).toStableFlush hpo) e
        rcases sendMessage_queued ho hg with hsent | hsent
        · exact ⟨frames, by rw [hq, hsent], by omega, hframes⟩
        · refine ⟨messageFrame manual config m dst :: frames, ?_, Nat.succ_le_succ hlen, ?_⟩
          · rw [hq, hsent, List.append_assoc, List.singleton_append]
          · exact List.forall_mem_cons.2 ⟨⟨m, dst, rfl, hfirst m dst rfl⟩, hframes⟩

theorem flush_queued {P : Arp.Table → Prop} (hk : Arp.Table.Kept P) {M : Arp.Message → Prop}
    (hnext : ∀ {r : Arp.Resolver}, r.All P → ∀ {m : Arp.Message} {dst : Ethernet.Address},
      r.outgoing.1 = some (m, dst) → M m) (hm : h.Mounted manual config) (hp : h.resolver.All P)
    (e : h.flush = some h') :
    ∃ frames, Queueing.queued h'.device = Queueing.queued h.device ++ frames ∧
      frames.length ≤ h.resolver.backlog ∧ ∀ f ∈ frames, ∃ m dst, f = messageFrame manual config m dst ∧ M m := by
  obtain ⟨g, hg, rfl⟩ := Option.map_eq_some_iff.1
    (show (h.sendMessages h.resolver.backlog).map deliver = some h' from e)
  obtain ⟨frames, hq, hframes⟩ := sendMessages_queued hk hnext _ hm hp hg
  exact ⟨frames, hq, hframes⟩

/-- A flush queues messages of the resolver and nothing else. -/
theorem flush_emits (hm : h.Mounted manual config) (e : h.flush = some h') :
    Queues (IsMessage manual config) h h' := by
  obtain ⟨frames, hq, -, hframes⟩ := flush_queued Arp.Table.kept_true (fun _ _ _ _ => trivial) hm
    (fun _ _ => trivial) e
  refine ⟨frames, hq, fun f hf => ?_⟩
  obtain ⟨m, dst, he, -⟩ := hframes f hf
  exact ⟨m, dst, he⟩

end mounted

/-! ## Sending -/

section sending

variable [Queueing δ] {manual : Bool} {config : Config} {h : Host δ}

/-- Once its packet is sent, a host only queues messages of the resolver behind it. -/
theorem send_flushed (hm : h.Mounted manual config) {s : Handle} {socket : Udp.Socket}
    (hs : h.sockets.get? s = some socket) {payload : Octets} (hle : payload.length ≤ h.mtu) (task : Task)
    (dst : Ipv4.Address) (port : UInt16) :
    ∃ p front back, p.Layout front [] payload back ∧ 42 ≤ front.length ∧ 64 ≤ back.length ∧
      ∀ {result : Except Fault Unit} {g : Host δ} {t : Transit},
        h.transmit ⟨p, { dstAddr := dst, dstPort := port, task := some task }⟩ (.socket s) .user =
          some (result, g, t) →
        ∃ h' messages, h.send s task dst port payload = some (answer payload.length result, h') ∧
          Queueing.queued h'.device = Queueing.queued g.device ++ messages ∧
          (∀ m ∈ messages, IsMessage manual config m) ∧ ∀ x, h'.queue? x = g.queue? x := by
  obtain ⟨p, front, back, hl, hfront, hback, hbytes, hsend⟩ := send_eq hm.txBuffer hs hle task dst port
  refine ⟨p, front, back, hl, hfront, hback, fun {result g t} hx => ?_⟩
  have hsetup : g.setup = h.setup := (stable_setup h.setup).transmit (.inr fun _ _ hp => hp) rfl hx
  have hsockets : g.sockets.All Udp.Socket.WF := stable_sockets.transmit (.inr fun _ _ hw => hw) hm.sockets hx
  have hdevice : Queueing.Built g.device := stable_built.transmit (.inr fun _ _ hd => hd) hm.device hx
  have hg : Mounted manual config { g with txBuffer := t.packet.bytes } :=
    hm.of_setup hsetup hsockets ((transmit_length hl.inOrder hx).trans hbytes) hdevice
  obtain ⟨h', hf, hflushed⟩ := flush_total { g with txBuffer := t.packet.bytes }
  obtain ⟨messages, hq, hmessages⟩ := flush_emits hg hf
  refine ⟨h', messages, ?_, hq, hmessages, hflushed _ (stableFlush_queue? g.queue?) fun _ => rfl⟩
  rw [hsend hx, hf]
  rfl

/-- A send hands the datagram over whole, or it fails and no socket notices. -/
theorem send_settles (hm : h.Mounted manual config) (s : Handle) (task : Task) (dst : Ipv4.Address) (port : UInt16)
    (payload : Octets) :
    ∃ r h' frames, h.send s task dst port payload = some (r, h') ∧
      Queueing.queued h'.device = Queueing.queued h.device ++ frames ∧
      ((r = .ready (.ok payload.length) ∧ h.Sends manual config s task dst port payload frames h') ∨
        ((∀ n, r ≠ .ready (.ok n)) ∧ (∀ m ∈ frames, IsMessage manual config m) ∧
          ∀ x, h'.queue? x = h.queue? x)) := by
  by_cases hle : h.mtu < payload.length
  · refine ⟨.ready (.error .badSize), h, [], ?_, (List.append_nil _).symm, .inr ⟨nofun, nofun, fun _ => rfl⟩⟩
    unfold send
    rw [if_pos hle]
  have hfits := Nat.le_of_not_lt hle
  cases hs : h.sockets.get? s with
  | none =>
    refine ⟨.ready (.error .illegal), h, [], ?_, (List.append_nil _).symm, .inr ⟨nofun, nofun, fun _ => rfl⟩⟩
    unfold send
    rw [if_neg hle, if_pos (by rw [hs]; rfl)]
  | some socket =>
    obtain ⟨p, front, back, hl, hfront, hback, hsend⟩ := send_flushed hm hs hfits task dst port
    cases passage hm.toSteady hl hfront hback (length_of_le_mtu hfits) s task dst port with
    | fails hf =>
      obtain ⟨f, g, t, hx, hd, hqueue⟩ := transmit_of_fails hf
      obtain ⟨h', messages, he, hq, hmessages, hsame⟩ := hsend hx
      refine ⟨_, h', messages, he, by rw [hq, hd], .inr ⟨answer_error _ f, hmessages, fun x => ?_⟩⟩
      exact (hsame x).trans (hqueue x)
    | away hb hroute hframe hx hd hqueue =>
      obtain ⟨h', messages, he, hq, hmessages, hsame⟩ := hsend hx
      have hsame := fun x => (hsame x).trans (hqueue x)
      rcases queued_cases hm.device hd with ⟨hok, hqueued⟩ | ⟨⟨f, hf⟩, hqueued⟩
      · rw [hok] at he
        refine ⟨_, h', _ :: messages, he, ?_, .inl ⟨rfl, .away hb hroute hframe hsame hmessages⟩⟩
        rw [hq, hqueued, List.append_assoc, List.singleton_append]
      · rw [hf] at he
        exact ⟨_, h', messages, he, by rw [hq, hqueued], .inr ⟨answer_error _ f, hmessages, hsame⟩⟩
    | home hb hroute hlayer hx hd houtcome =>
      obtain ⟨h', messages, he, hq, hmessages, hsame⟩ := hsend hx
      exact ⟨_, h', messages, he, by rw [hq, hd],
        .inl ⟨rfl, .home hb hroute hlayer (houtcome.of_same hsame) hmessages⟩⟩

/-- A send with nothing in its way succeeds. -/
theorem send_clear (hm : h.Mounted manual config) {s : Handle} {task : Task} {dst : Ipv4.Address} {port : UInt16}
    {payload : Octets} (hc : h.Clear s task dst port payload) :
    ∃ h', h.send s task dst port payload = some (.ready (.ok payload.length), h') := by
  obtain ⟨hfits, b, hb, route, hroute, hway⟩ := hc
  obtain ⟨socket, hs, -⟩ := Option.bind_eq_some_iff.1 hb
  have hsmall := length_of_le_mtu hfits
  obtain ⟨p, front, back, hl, hfront, hback, hsend⟩ := send_flushed hm hs hfits task dst port
  rcases hway with hlayer | ⟨hmtu, frame, hcarries, hok⟩
  · obtain ⟨g, t, hx, -⟩ := transmit_turned hm.toSteady hb hroute hlayer task port hl (by omega) hsmall
    obtain ⟨h', -, he, -⟩ := hsend hx
    exact ⟨h', he⟩
  · have hlarge := (length_of_mtu hfits hmtu).1
    rcases transmit_carried hm.toSteady hb hroute hcarries hl hfront hback hsmall with ⟨-, hlt⟩ | ⟨g, t, hx, -⟩
    · omega
    · rw [hok] at hx
      obtain ⟨h', -, he, -⟩ := hsend hx
      exact ⟨h', he⟩

/-- A program repeats a send until it succeeds, and does anything in between. The hosts are the first one,
the one that sends at last and the one after that; the frames are those that the sends queued. -/
inductive Repeats (s : Handle) (task : Task) (dst : Ipv4.Address) (port : UInt16) (payload : Octets) :
    Host δ → List Octets → Host δ → Host δ → Prop where
  | success {h h' : Host δ} {frames : List Octets} {n : Nat} :
      h.send s task dst port payload = some (.ready (.ok n), h') →
      Queueing.queued h'.device = Queueing.queued h.device ++ frames →
      Repeats s task dst port payload h frames h h'
  | again {h g k u h' : Host δ} {r : Poll Nat} {frames frames' : List Octets} {es : List (Call δ × Answer)} :
      h.send s task dst port payload = some (r, g) → (∀ n, r ≠ .ready (.ok n)) →
      Queueing.queued g.device = Queueing.queued h.device ++ frames → Run SparesDevice g es k →
      Repeats s task dst port payload k frames' u h' →
      Repeats s task dst port payload h (frames ++ frames') u h'

variable {s : Handle} {task : Task} {dst : Ipv4.Address} {port : UInt16} {payload : Octets}

/-- Only the last one of repeated sends sends the datagram. -/
theorem Repeats.sends {h u h' : Host δ} {frames : List Octets} (hr : Repeats s task dst port payload h frames u h')
    (hm : h.Mounted manual config) :
    ∃ before rest, frames = before ++ rest ∧ (∀ m ∈ before, IsMessage manual config m) ∧
      u.Sends manual config s task dst port payload rest h' := by
  induction hr with
  | success e hq =>
    obtain ⟨r, h'', frames, e', hq', hcases⟩ := send_settles hm s task dst port payload
    cases e.symm.trans e'
    obtain rfl := List.append_cancel_left (hq.symm.trans hq')
    rcases hcases with ⟨-, hs⟩ | ⟨hn, -⟩
    · exact ⟨[], _, rfl, nofun, hs⟩
    · exact absurd rfl (hn _)
  | again e hn hq hrun _ ih =>
    obtain ⟨r, g, frames, e', hq', hcases⟩ := send_settles hm s task dst port payload
    cases e.symm.trans e'
    obtain rfl := List.append_cancel_left (hq.symm.trans hq')
    rcases hcases with ⟨rfl, -⟩ | ⟨-, hmessages, -⟩
    · exact absurd rfl (hn _)
    · have hg := mounted_perform (c := .send s task dst port payload) hm nofun (congrArg (Option.map _) e)
      obtain ⟨before, rest, rfl, hbefore, hs⟩ := ih (hrun.keeps mounted_perform hg)
      exact ⟨_ ++ before, rest, (List.append_assoc ..).symm,
        fun m h => (List.mem_append.1 h).elim (hmessages m) (hbefore m), hs⟩

/-- A send is all or nothing. It succeeds only as a whole: one frame of the datagram was queued in the
device, or the datagram came back through the loopback; and it does where nothing is in the way. Otherwise
no queue of a socket changed. In either case what is set up stays as it was, and all that was queued besides
are messages of the resolver; so a send that is repeated until it succeeds sends the datagram once. -/
theorem send_all_or_nothing {d : δ} (hd : Queueing.Built d) {config : Config} {h₀ h : Host δ}
    (e : create d config = .ok h₀) {es : List (Call δ × Answer)} (hrun : Run SparesDevice h₀ es h) (s : Handle)
    (task : Task) (dst : Ipv4.Address) (port : UInt16) (payload : Octets) :
    let manual := decide ((Nic.personality d).check = .manual)
    (∃ r h' frames, h.send s task dst port payload = some (r, h') ∧ h'.setup = h.setup ∧
      Queueing.queued h'.device = Queueing.queued h.device ++ frames ∧
      ((r = .ready (.ok payload.length) ∧ h.Sends manual config s task dst port payload frames h') ∨
        ((∀ n, r ≠ .ready (.ok n)) ∧ (∀ m ∈ frames, IsMessage manual config m) ∧
          ∀ x, h'.queue? x = h.queue? x)) ∧
      (h.Clear s task dst port payload → r = .ready (.ok payload.length))) ∧
    ∀ frames u h', Repeats s task dst port payload h frames u h' →
      ∃ before rest, frames = before ++ rest ∧ (∀ m ∈ before, IsMessage manual config m) ∧
        u.Sends manual config s task dst port payload rest h' := by
  have hm := hrun.keeps mounted_perform (mounted_create hd e)
  obtain ⟨r, h', frames, hsend, hq, hcases⟩ := send_settles hm s task dst port payload
  refine ⟨⟨r, h', frames, hsend, setup_send hsend, hq, hcases, fun hc => ?_⟩, fun _ _ _ hr => hr.sends hm⟩
  obtain ⟨g, he⟩ := send_clear hm hc
  cases hsend.symm.trans he
  rfl

end sending

theorem send_all_or_nothing_asked :
    let config : Config := ⟨⟨2, 0, 0, 0, 0, 1⟩, ⟨10, 0, 0, 1⟩, ⟨255, 255, 255, 0⟩, .table⟩
    (∃ (h u h' : Host (External 4)) (frames before rest : List Octets),
      Repeats ⟨0, 0⟩ ⟨3⟩ ⟨10, 0, 0, 2⟩ 7 [1, 2, 3] h frames u h' ∧ frames.length = 2 ∧ frames = before ++ rest ∧
      (∀ m ∈ before, IsMessage false config m) ∧
      u.Sends false config ⟨0, 0⟩ ⟨3⟩ ⟨10, 0, 0, 2⟩ 7 [1, 2, 3] rest h') ∧
    ∃ (h h' : Host (Device.Loopback 4)) (frames : List Octets),
      h.send ⟨0, 0⟩ ⟨3⟩ ⟨10, 0, 0, 255⟩ 7 [1, 2, 3] = some (.ready (.ok 3), h') ∧
      Queueing.queued h'.device = Queueing.queued h.device ++ frames ∧
      h.Sends false config ⟨0, 0⟩ ⟨3⟩ ⟨10, 0, 0, 255⟩ 7 [1, 2, 3] frames h' := by
  intro config
  constructor
  · have hx : (do
        let h ← (create (External.create 4 {}) config).toOption
        let h ← h.performAll [.acquire, .bind ⟨0, 0⟩ .unspecified 5]
        let g ← h.2.send ⟨0, 0⟩ ⟨3⟩ ⟨10, 0, 0, 2⟩ 7 [1, 2, 3]
        let u ← g.2.performAll [.fill ⟨10, 0, 0, 2⟩ ⟨2, 0, 0, 0, 0, 2⟩ none]
        let h' ← u.2.send ⟨0, 0⟩ ⟨3⟩ ⟨10, 0, 0, 2⟩ 7 [1, 2, 3]
        some (decide (g.1 = .pending ∧ h'.1 = .ready (.ok 3) ∧ Queueing.queued h.2.device = [] ∧
          (Queueing.queued h'.2.device).length = 2 ∧
          Queueing.queued g.2.device = (Queueing.queued h'.2.device).take 1 ∧
          Queueing.queued u.2.device = (Queueing.queued h'.2.device).take 1))) = some true := by
      decide +kernel
    obtain ⟨h₀, e, hx⟩ := Option.bind_eq_some_iff.1 hx
    obtain ⟨⟨es, h⟩, hr, hx⟩ := Option.bind_eq_some_iff.1 hx
    obtain ⟨⟨r, g⟩, hfirst, hx⟩ := Option.bind_eq_some_iff.1 hx
    obtain ⟨⟨es', u⟩, hfill, hx⟩ := Option.bind_eq_some_iff.1 hx
    obtain ⟨⟨r', h'⟩, hlast, hx⟩ := Option.bind_eq_some_iff.1 hx
    simp only [Option.some.injEq, decide_eq_true_eq] at hx
    obtain ⟨rfl, rfl, hempty, htwo, hasked, hfilled⟩ := hx
    have hrun : Run SparesDevice h₀ es h := run_performAll _ .nil (by simp [SparesDevice]) hr
    have hwait : Run SparesDevice g es' u := run_performAll _ .nil (by simp [SparesDevice]) hfill
    have hrepeats : Repeats ⟨0, 0⟩ ⟨3⟩ ⟨10, 0, 0, 2⟩ 7 [1, 2, 3] h
        (Queueing.queued g.device ++ (Queueing.queued h'.device).drop 1) u h' :=
      .again hfirst nofun (by rw [hempty]; rfl) hwait (.success hlast (by rw [hfilled, List.take_append_drop]))
    obtain ⟨before, rest, hframes, hbefore, hsends⟩ :=
      (send_all_or_nothing (External.Built.create {}) (eq_ok_of_toOption e) hrun _ _ _ _ _).2 _ _ _ hrepeats
    refine ⟨h, u, h', _, before, rest, hrepeats, ?_, hframes, hbefore, hsends⟩
    rw [hasked, List.take_append_drop, htwo]
  · have hx : (do
        let h ← (create (Device.Loopback.create 4 {}) config).toOption
        let h ← h.performAll [.acquire, .bind ⟨0, 0⟩ .unspecified 5]
        let g ← h.2.send ⟨0, 0⟩ ⟨3⟩ ⟨10, 0, 0, 255⟩ 7 [1, 2, 3]
        some (decide (g.1 = .ready (.ok 3)))) = some true := by
      decide +kernel
    obtain ⟨h₀, e, hx⟩ := Option.bind_eq_some_iff.1 hx
    obtain ⟨⟨es, h⟩, hr, hx⟩ := Option.bind_eq_some_iff.1 hx
    obtain ⟨⟨r, g⟩, hsend, hx⟩ := Option.bind_eq_some_iff.1 hx
    simp only [Option.some.injEq, decide_eq_true_eq] at hx
    subst hx
    have hrun : Run SparesDevice h₀ es h := run_performAll _ .nil (by simp [SparesDevice]) hr
    obtain ⟨r, h', frames, he, -, hq, ⟨-, hs⟩ | ⟨hn, -⟩, -⟩ := (send_all_or_nothing
      (Device.Loopback.Built.create {}) (eq_ok_of_toOption e) hrun ⟨0, 0⟩ ⟨3⟩ ⟨10, 0, 0, 255⟩ 7 [1, 2, 3]).1
    · cases hsend.symm.trans he
      exact ⟨h, g, frames, hsend, hq, hs⟩
    · cases hsend.symm.trans he
      exact absurd rfl (hn 3)

end UdpStack.Host
