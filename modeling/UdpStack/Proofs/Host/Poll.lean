/-
What a host does on its own, as far as it concerns properties. A flush sends the messages of the
resolver, which go nowhere but to the device (`transmit_ethernet`), and never fails (`flush_total`);
what it does step by step any property may survive (`StableFlush`). What also survives passes, the
passing of time and the taking of frames, every poll keeps, and every send (`StablePoll`).
-/
import UdpStack.Proofs.Host.Reception
import UdpStack.Proofs.Host.Stable

namespace UdpStack.Host

open Device

variable {δ : Type} [Nic δ]

/-! ## Flushes -/

/-- A property that survives what a flush does: the messages of the resolver are sent, and wake-ups
are delivered. -/
structure StableFlush (P : Host δ → Prop) : Prop where
  count : ∀ {h : Host δ} (layer : Layer) (f : Counters → Counters), P h → P (h.count layer f)
  sent : ∀ {h : Host δ} (frame : Octets), P h → P (h.sent frame)
  outgoing : ∀ {h : Host δ}, P h → P { h with resolver := h.resolver.outgoing.2 }
  txBuffer : ∀ {h : Host δ} {b : Octets}, b.length = h.txBuffer.length → P h → P { h with txBuffer := b }
  deliver : ∀ {h : Host δ}, P h → P h.deliver

/-- A host that some flush leads to. -/
def Flushed (h h' : Host δ) : Prop := ∀ P : Host δ → Prop, StableFlush P → P h → P h'

theorem stableFlush_txBuffer (k : Nat) : StableFlush fun h : Host δ => h.txBuffer.length = k where
  count layer f hp := by simpa using hp
  sent _ hp := hp
  outgoing hp := hp
  txBuffer hb hp := hb.trans hp
  deliver hp := hp

theorem endpoint_finishPass_total {e : Ethernet.Endpoint} {p : Packet} (hp : p.InOrder) :
    ∃ r q, e.finishPass p = some (r, q) ∧ (∀ target, r ≠ .ok (.bounce target)) ∧ q.InOrder ∧
      q.bytes.length = p.bytes.length := by
  have hr : ∀ {r q}, e.finishPass p = some (r, q) → q.InOrder ∧ q.bytes.length = p.bytes.length :=
    fun h => endpoint_finishPass_inOrder hp h
  obtain ⟨frame, hf⟩ := hp.frame?
  unfold Ethernet.Endpoint.finishPass at hr ⊢
  rw [hf] at hr ⊢
  simp only [Bind.bind, Option.bind] at hr ⊢
  cases hpad : Ethernet.Endpoint.pad p frame.length with
  | error f => exact ⟨_, _, rfl, nofun, hp, rfl⟩
  | ok padded =>
    rw [hpad] at hr
    dsimp only at hr ⊢
    split
    · exact ⟨_, _, rfl, nofun, pad_inOrder hp hpad⟩
    · rename_i hc
      obtain ⟨frame', hf'⟩ := (pad_inOrder hp hpad).1.frame?
      rw [if_neg hc, hf'] at hr
      rw [hf']
      dsimp only at hr ⊢
      split
      · exact ⟨_, _, rfl, nofun, pad_inOrder hp hpad⟩
      · rename_i hq
        rw [hq] at hr
        exact ⟨_, _, rfl, nofun, hr rfl⟩

theorem Flushed.refl (h : Host δ) : Flushed h h := fun _ _ hp => hp

theorem Flushed.trans {h g g' : Host δ} (hf : Flushed h g) (hf' : Flushed g g') : Flushed h g' :=
  fun P hs hp => hf' P hs (hf P hs hp)

theorem flushed_count (h : Host δ) (layer : Layer) (f : Counters → Counters) : Flushed h (h.count layer f) :=
  fun _ hs hp => hs.count layer f hp

omit [Nic δ] in
theorem ethernet_transmitPass_next {e : Ethernet.Endpoint} {r : Arp.Resolver} {now : Instant} {t : Transit}
    {caller : Layer} {next : Next} (h : (e.transmitPass r now t caller).1 = .ok next) : next = .layer .device := by
  unfold Ethernet.Endpoint.transmitPass at h
  split at h
  · cases h
  · split at h
    · cases h
    · split at h
      · cases h
      · cases h; rfl

/-- A packet with a hardware address goes from its frame to the device, or is refused there. -/
theorem descend_ethernet (h : Host δ) {t : Transit} (hp : t.packet.InOrder)
    (hl : t.info.dstLink.isSome = true) (caller : Layer) (depth : Nat) :
    ∃ r h' t', h.descend t (depth + 2) .ethernet caller = some (r, h', t') ∧ Flushed h h' ∧
      ∀ path, r = .ok path → path = [(.ethernet, caller), (.device, .ethernet)] := by
  -- the hardware address is given, so nothing is looked up
  have hr : (h.endpoint.transmitPass h.resolver h.now t caller).2.1 = h.resolver := by
    rcases ethernet_transmitPass_resolver h.endpoint h.resolver h.now t caller with hr | ⟨hn, -⟩
    · exact hr
    · rw [hn] at hl; cases hl
  have hst := ethernet_transmitPass_stacked h.endpoint h.resolver h.now t caller
  have hnext := @ethernet_transmitPass_next h.endpoint h.resolver h.now t caller
  have he := transmitAt_ethernet h caller t
  rw [hr] at he
  generalize (h.endpoint.transmitPass h.resolver h.now t caller).1 = answer at he hnext
  generalize (h.endpoint.transmitPass h.resolver h.now t caller).2.2 = framed at he hst
  unfold Host.descend
  rw [he]
  cases answer with
  | error f =>
    by_cases hf : f = .wouldBlock
    · subst hf
      exact ⟨_, _, _, rfl, Flushed.refl h, by simp⟩
    · refine ⟨.error f, h.count .ethernet .countDropped, framed, ?_, flushed_count _ _ _, by simp⟩
      cases f <;> first | rfl | exact absurd rfl hf
  | ok next =>
    obtain rfl := hnext rfl
    obtain ⟨frame, hframe⟩ := (hst.inOrder hp).1.frame?
    have hd : h.transmitAt .device .ethernet framed = some
        (if (Nic.personality h.device).mtu < frame.length - Ethernet.Header.size then .error .badSize
          else .ok .done, h, framed) := by
      show (Device.transmitPass h.device framed.packet).map _ = _
      unfold Device.transmitPass
      rw [hframe]
      rfl
    dsimp only
    unfold Host.descend
    rw [hd]
    by_cases hm : (Nic.personality h.device).mtu < frame.length - Ethernet.Header.size
    · rw [if_pos hm]
      exact ⟨_, _, _, rfl, flushed_count _ _ _, by simp⟩
    · rw [if_neg hm]
      refine ⟨_, _, _, rfl, Flushed.refl h, ?_⟩
      rintro path ⟨⟩
      rfl

theorem finish_device (h : Host δ) {t : Transit} (hp : t.packet.InOrder) (caller : Layer) :
    ∃ r h', h.finish t [(.device, caller)] = some (r, h', t) ∧ Flushed h h' := by
  obtain ⟨frame, hframe⟩ := hp.frame?
  have hd : h.finishAt .device caller t =
      some ((Nic.transmit h.device frame).1.map fun _ => .pass, h.sent frame, t) := by
    show (Device.finishPass h.device t.packet).map _ = _
    unfold Device.finishPass
    rw [hframe]
    rfl
  have hs : Flushed h (h.sent frame) := fun _ hs hp => hs.sent frame hp
  unfold Host.finish
  rw [hd]
  cases (Nic.transmit h.device frame).1 with
  | error f => exact ⟨_, _, rfl, hs.trans (flushed_count _ _ _)⟩
  | ok _ => exact ⟨_, _, rfl, hs.trans (flushed_count _ _ _)⟩

theorem finish_ethernet (h : Host δ) {t : Transit} (hp : t.packet.InOrder) (caller : Layer) :
    ∃ r h' t', h.finish t [(.ethernet, caller), (.device, .ethernet)] = some (r, h', t') ∧ Flushed h h' := by
  obtain ⟨r, q, hx, hn, hq, -⟩ := endpoint_finishPass_total (e := h.endpoint) hp
  have he : h.finishAt .ethernet caller t = some (r, h, { t with packet := q }) := by
    show (h.endpoint.finishPass t.packet).map _ = _
    rw [hx]; rfl
  unfold Host.finish
  rw [he]
  rcases r with f | _ | target
  · exact ⟨_, _, _, rfl, flushed_count _ _ _⟩
  · obtain ⟨r, h', hd, hf⟩ := finish_device (h.count .ethernet .countTx) (t := { t with packet := q }) hq .ethernet
    exact ⟨r, h', _, hd, (flushed_count _ _ _).trans hf⟩
  · exact absurd rfl (hn target)

/-- A packet that is framed and sent to a given address only leaves through the device. -/
theorem transmit_ethernet (h : Host δ) {t : Transit} (hp : t.packet.InOrder)
    (hl : t.info.dstLink.isSome = true) (caller : Layer) :
    ∃ r h' t', h.transmit t .ethernet caller = some (r, h', t') ∧ Flushed h h' := by
  obtain ⟨r, g, u, hd, hg, hpath⟩ := descend_ethernet h hp hl caller 6
  have hu := ((descend_stacked _ hd).inOrder hp).1
  unfold Host.transmit
  rw [show Limits.depth = 6 + 2 from rfl, hd]
  cases r with
  | error f => exact ⟨_, _, _, rfl, hg⟩
  | ok path =>
    rw [hpath path rfl]
    obtain ⟨r, h', t', hf, hg'⟩ := finish_ethernet g hu caller
    exact ⟨r, h', t', hf, hg.trans hg'⟩

/-- A message is stacked in the buffer for packets to send, which keeps its size. -/
theorem sendMessage_total (h : Host δ) (m : Arp.Message) (dst : Ethernet.Address) :
    ∃ h', h.sendMessage m dst = some h' ∧ Flushed h h' := by
  unfold Host.sendMessage
  cases hp : (Packet.create h.txBuffer Limits.headerRoom).bind fun p => p.push m.octets with
  | error f => exact ⟨_, rfl, flushed_count _ _ _⟩
  | ok p =>
    obtain ⟨hpo, hpl⟩ : p.InOrder ∧ p.bytes.length = h.txBuffer.length := by
      unfold Packet.create at hp
      split at hp
      · cases hp
      · exact Packet.push_inOrder ⟨le_rfl, le_rfl, by dsimp only; omega⟩ hp
    obtain ⟨r, g, t, hx, hg⟩ := transmit_ethernet h
      (t := ⟨p, { dstLink := some dst }⟩) hpo rfl .resolver
    have hb : Flushed g { g with txBuffer := t.packet.bytes } := fun P hs hpg => by
      refine hs.txBuffer ?_ hpg
      rw [transmit_length hpo hx, hpl]
      exact (hg _ (stableFlush_txBuffer h.txBuffer.length) rfl).symm
    dsimp only
    rw [hx]
    cases r with
    | error f => exact ⟨_, rfl, (hg.trans hb).trans (flushed_count _ _ _)⟩
    | ok _ => exact ⟨_, rfl, (hg.trans hb).trans (flushed_count _ _ _)⟩

theorem sendMessages_total : ∀ (k : Nat) (h : Host δ), ∃ h', h.sendMessages k = some h' ∧ Flushed h h'
  | 0, h => ⟨h, rfl, Flushed.refl h⟩
  | k + 1, h => by
    have ho : Flushed h { h with resolver := h.resolver.outgoing.2 } := fun _ hs hp => hs.outgoing hp
    unfold Host.sendMessages
    cases hx : h.resolver.outgoing with
    | mk next resolver =>
      rw [hx] at ho
      cases next with
      | none => exact ⟨h, rfl, Flushed.refl h⟩
      | some message =>
        obtain ⟨m, dst⟩ := message
        obtain ⟨g, hg, hf⟩ := sendMessage_total { h with resolver := resolver } m dst
        obtain ⟨h', hh', hf'⟩ := sendMessages_total k g
        dsimp only
        rw [hg]
        exact ⟨h', hh', (ho.trans hf).trans hf'⟩

/-- A flush never fails, and keeps what each of its steps keeps. -/
theorem flush_total (h : Host δ) : ∃ h', h.flush = some h' ∧ Flushed h h' := by
  have all : ∀ k, ∃ h', (h.sendMessages k).map deliver = some h' ∧ Flushed h h' := by
    intro k
    obtain ⟨g, hg, hf⟩ := sendMessages_total k h
    rw [hg]
    exact ⟨g.deliver, rfl, hf.trans fun _ hs hp => hs.deliver hp⟩
  exact all _

variable {P : Host δ → Prop}

theorem StableFlush.sendMessages (hs : StableFlush P) {k : Nat} {h h' : Host δ} (hp : P h)
    (e : h.sendMessages k = some h') : P h' := by
  obtain ⟨g, hg, hf⟩ := sendMessages_total k h
  cases hg.symm.trans e
  exact hf P hs hp

theorem StableFlush.flush (hs : StableFlush P) {h h' : Host δ} (hp : P h) (e : h.flush = some h') :
    P h' := by
  obtain ⟨g, hg, hf⟩ := flush_total h
  cases hg.symm.trans e
  exact hf P hs hp

/-! ## Frames -/

/-- A property that survives what one received frame does. -/
structure StableRound (P : Host δ → Prop) : Prop extends Stable P, StableFlush P where
  rxBuffer : ∀ {h : Host δ} {b : Octets}, h.rxBuffer.length ≤ b.length → P h → P { h with rxBuffer := b }

theorem stable_rxBuffer (b : Octets) : Stable fun h : Host δ => h.rxBuffer = b where
  count layer f hb := by simpa using hb
  numbered _ hb := hb
  heard hb _ := hb
  handed _ hb _ := hb
  sent _ hb := hb

theorem StableRound.receiveFrame (hs : StableRound P) {h h' : Host δ} {frame : Octets} (hp : P h)
    (e : h.receiveFrame frame = some h') : P h' := by
  rw [receiveFrame_eq] at e
  obtain ⟨⟨r, g, t⟩, hx, he⟩ := Option.map_eq_some_iff.1 e
  subst he
  have hg : g.rxBuffer = h.rxBuffer :=
    (stable_rxBuffer h.rxBuffer).receive _ (h := h.count .device .countRx) rfl hx
  refine hs.rxBuffer ?_ (hs.receive _ (hs.count .device .countRx hp) hx)
  rw [hg, receive_bytes _ hx]
  show _ ≤ (frame ++ h.rxBuffer.drop frame.length).length
  rw [List.length_append, List.length_drop]
  omega

omit [Nic δ] in
/-- The device is not touched while a frame goes through the layers. -/
theorem receiveFrame_device {h h' : Host δ} {frame : Octets} (e : h.receiveFrame frame = some h') :
    h'.device = h.device := by
  rw [receiveFrame_eq] at e
  obtain ⟨⟨r, g, t⟩, hx, he⟩ := Option.map_eq_some_iff.1 e
  subst he
  exact (receive_device _ hx).trans (device_count ..)

/-! ## Polls -/

/-- A property that also survives the passing of time and the taking of frames. -/
structure StablePoll (P : Host δ → Prop) : Prop extends StableRound P where
  expire : ∀ {h : Host δ} (now : Instant), P h → P { h with
    now := now
    resolver := (h.resolver.expire now h.wakeups).1
    wakeups := (h.resolver.expire now h.wakeups).2 }
  take : ∀ {h : Host δ} (room : Nat), P h → P { h with device := (Nic.receive h.device room).2 }

theorem StablePoll.receiveFrames (hs : StablePoll P) : ∀ (k : Nat) {h h' : Host δ} {n : Nat}
    {r : Except Fault Nat}, P h → h.receiveFrames n k = some (r, h') → P h'
  | 0, h, h', n, r, hp, e => by cases e; exact hp
  | k + 1, h, h', n, r, hp, e => by
    have ht := hs.take h.rxBuffer.length hp
    unfold Host.receiveFrames at e
    split at e
    · rename_i hx; rw [hx] at ht; cases e; exact ht
    · rename_i hx
      rw [hx] at ht
      obtain ⟨g, hg, he⟩ := Option.map_eq_some_iff.1 e
      cases he
      exact hs.flush (hs.count .device .countDropped ht) hg
    · rename_i hx
      rw [hx] at ht
      split at e
      · cases e
      · rename_i hy
        obtain ⟨g, hg, hf⟩ := Option.bind_eq_some_iff.1 hy
        exact StablePoll.receiveFrames hs k (hs.flush (hs.receiveFrame ht hg) hf) e

theorem StablePoll.poll (hs : StablePoll P) {h h' : Host δ} {now : Instant} {r : Except Fault Nat}
    (hp : P h) (e : h.poll now = some (r, h')) : P h' := by
  unfold Host.poll at e
  dsimp only at e
  split at e
  · cases e
  · rename_i hx; exact hs.receiveFrames _ (hs.flush (hs.expire now hp) hx) e

/-! ## Sending -/

theorem stable_txBuffer (b : Octets) : Stable fun h : Host δ => h.txBuffer = b where
  count layer f hb := by simpa using hb
  numbered _ hb := hb
  heard hb _ := hb
  handed _ hb _ := hb
  sent _ hb := hb

/-- What a send does: it fails at once, or one packet is sent and everything is flushed. -/
theorem send_cases {h h' : Host δ} {s : Bounded.Handle} {task : Task} {dst : Ipv4.Address} {port : UInt16}
    {payload : Octets} {r : Poll Nat} (e : h.send s task dst port payload = some (r, h')) :
    (r ≠ .pending ∧ (h' = h ∨ h.flush = some h')) ∨
      ∃ p result g t, p.InOrder ∧ p.bytes.length = h.txBuffer.length ∧
        h.transmit ⟨p, { dstAddr := dst, dstPort := port, task := some task }⟩ (.socket s) .user =
          some (result, g, t) ∧
        ({ g with txBuffer := t.packet.bytes } : Host δ).flush = some h' ∧
        (r = .pending ↔ result = .error .wouldBlock) := by
  unfold Host.send at e
  split at e
  · cases e; exact .inl ⟨nofun, .inl rfl⟩
  · split at e
    · cases e; exact .inl ⟨nofun, .inl rfl⟩
    · split at e
      · obtain ⟨g, hg, he⟩ := Option.map_eq_some_iff.1 e
        cases he; exact .inl ⟨nofun, .inr hg⟩
      · rename_i p hp
        unfold Packet.create at hp
        split at hp
        · cases hp
        · obtain ⟨hpo, hpl⟩ := Packet.push_inOrder ⟨le_rfl, le_rfl, by dsimp only; omega⟩ hp
          dsimp only at e
          split at e
          · cases e
          · rename_i result g t hx
            obtain ⟨g', hg, he⟩ := Option.map_eq_some_iff.1 e
            refine .inr ⟨p, result, g, t, hpo, hpl, hx, ?_⟩
            split at he
            · cases he; exact ⟨hg, nofun, nofun⟩
            · cases he; exact ⟨hg, fun _ => rfl, fun _ => rfl⟩
            · rename_i f hf
              cases he
              refine ⟨hg, nofun, ?_⟩
              rintro ⟨⟩
              exact absurd rfl (hf ·)

theorem StablePoll.send (hs : StablePoll P)
    (ha : ∀ {h : Host δ} (x : Ipv4.Address) (task : Option Task), P h → P (h.asked x task)) {h h' : Host δ}
    {s : Bounded.Handle} {task : Task} {dst : Ipv4.Address} {port : UInt16} {payload : Octets}
    {r : Poll Nat} (hp : P h) (e : h.send s task dst port payload = some (r, h')) : P h' := by
  rcases send_cases e with ⟨-, rfl | hf⟩ | ⟨p, result, g, t, hpo, hpl, hx, hf, -⟩
  · exact hp
  · exact hs.flush hp hf
  · have hg : g.txBuffer = h.txBuffer :=
      (stable_txBuffer h.txBuffer).transmit (.inr fun _ _ h => h) rfl hx
    refine hs.flush (hs.txBuffer ?_ (hs.transmit (.inr ha) hp hx)) hf
    rw [hg, transmit_length hpo hx, hpl]

end UdpStack.Host
