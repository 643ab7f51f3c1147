/-
The passes of a call. Whatever a call sends or receives goes through the layers in passes that each end by
themselves: the way down of a packet, its way back up behind a loopback, the messages of the resolver, and every
frame that a poll takes. What goes up begins with a frame at Ethernet or behind the loopback at the internet layer
(`Pass.Begins`). All of them, in any host that calls can lead to and with routes to any layer, come to their end well
within the guard (`passes_end`).
-/
import UdpStack.Proofs.Host.Visits

namespace UdpStack.Host

open Bounded Device

variable {δ : Type}

/-- A pass of a packet through the layers of a host, from a layer on. -/
inductive Pass (δ : Type) where
  | up (h : Host δ) (t : Transit) (layer caller : Layer)
  | down (h : Host δ) (t : Transit) (layer caller : Layer)

variable [Nic δ]

/-- A pass ends by itself, on its way up after at most four layers and on its way down after at most five, and
with the guard it ends the same way. Going down it visits no layer twice, unless it is refused. -/
def Pass.Ends : Pass δ → Prop
  | .up h t layer caller => ∃ layers x, Climbs h t layer caller layers x ∧ layers.length ≤ 4 ∧
      h.receive t Limits.depth layer caller = some x
  | .down h t layer caller => ∃ layers x, Descends h t layer caller layers x ∧ layers.length ≤ 5 ∧
      h.descend t Limits.depth layer caller = some x ∧
      ∀ path, x.1 = .ok path → path.map Prod.fst = layers ∧ layers.Nodup

/-! ## The passes of a call -/

/-- Behind a loopback a packet is received again. -/
def finishPasses (h : Host δ) (t : Transit) : List (Layer × Layer) → List (Pass δ)
  | [] => []
  | (layer, caller) :: rest =>
    match h.finishAt layer caller t with
    | some (.ok .pass, h, t) => finishPasses (h.count layer .countTx) t rest
    | some (.ok (.bounce target), h, t) => [.up (h.count layer .countTx) t target layer]
    | _ => []

def transmitPasses (h : Host δ) (t : Transit) (layer caller : Layer) : List (Pass δ) :=
  .down h t layer caller :: match h.descend t Limits.depth layer caller with
    | some (.ok path, h, t) => h.finishPasses t path
    | _ => []

def sendMessagePasses (h : Host δ) (m : Arp.Message) (dst : Ethernet.Address) : List (Pass δ) :=
  match (Packet.create h.txBuffer Limits.headerRoom).bind fun p => p.push m.octets with
  | .error _ => []
  | .ok p => h.transmitPasses ⟨p, { dstLink := some dst }⟩ .ethernet .resolver

def sendMessagesPasses (h : Host δ) : Nat → List (Pass δ)
  | 0 => []
  | k + 1 =>
    match h.resolver.outgoing with
    | (none, _) => []
    | (some (m, dst), resolver) =>
      sendMessagePasses { h with resolver := resolver } m dst ++
        match sendMessage { h with resolver := resolver } m dst with
        | none => []
        | some h => sendMessagesPasses h k

def flushPasses (h : Host δ) : List (Pass δ) := h.sendMessagesPasses h.resolver.backlog

omit [Nic δ] in
def receiveFramePasses (h : Host δ) (frame : Octets) : List (Pass δ) :=
  [.up (h.count .device .countRx) (h.entering frame) .ethernet .device]

def receiveFramesPasses (h : Host δ) : Nat → List (Pass δ)
  | 0 => []
  | k + 1 =>
    match Nic.receive h.device h.rxBuffer.length with
    | (.ok none, _) => []
    | (.error _, device) => flushPasses { h with device := device, deviceCounters := h.deviceCounters.countDropped }
    | (.ok (some frame), device) =>
      receiveFramePasses { h with device := device } frame ++
        match receiveFrame { h with device := device } frame with
        | none => []
        | some g => g.flushPasses ++ match g.flush with
          | none => []
          | some g => receiveFramesPasses g k

def pollPasses (h : Host δ) (now : Instant) : List (Pass δ) :=
  flushPasses { h with
    now := now
    resolver := (h.resolver.expire now h.wakeups).1
    wakeups := (h.resolver.expire now h.wakeups).2 } ++
    match h.refreshed now with
    | none => []
    | some g => g.receiveFramesPasses g.frameBound

def sendPasses (h : Host δ) (s : Handle) (task : Task) (dst : Ipv4.Address) (port : UInt16) (payload : Octets) :
    List (Pass δ) :=
  if h.mtu < payload.length then [] else if (h.sockets.get? s).isNone then [] else
    match (Packet.create h.txBuffer Limits.headerRoom).bind fun p => p.push payload with
    | .error _ => h.flushPasses
    | .ok p =>
      let t : Transit := ⟨p, { dstAddr := dst, dstPort := port, task := some task }⟩
      h.transmitPasses t (.socket s) .user ++ match h.transmit t (.socket s) .user with
        | none => []
        | some (_, h, t) => flushPasses { h with txBuffer := t.packet.bytes }

/-- The passes that a call makes, each with the host at that time. Only sending and polling make any. -/
def callPasses (h : Host δ) : Call δ → List (Pass δ)
  | .send s task dst port payload => h.sendPasses s task dst port payload
  | .poll now => h.pollPasses now
  | _ => []

/-! ## How they begin -/

/-- What holds of a host before every pass of a call. -/
structure Placed (s : Setup) (h : Host δ) : Prop where
  setup : h.setup = s
  sockets : h.sockets.All Udp.Socket.WF

theorem stable_placed (s : Setup) : StablePoll (Placed (δ := δ) s) where
  count layer f hp := ⟨(setup_count ..).trans hp.setup, sockets_count hp.sockets layer f⟩
  numbered _ hp := ⟨hp.setup, hp.sockets⟩
  heard hp _ := ⟨hp.setup, hp.sockets⟩
  handed t hp hs := ⟨(setup_handed t hs).trans hp.setup, stable_sockets.handed t hp.sockets hs⟩
  sent _ hp := ⟨hp.setup, hp.sockets⟩
  outgoing hp := ⟨hp.setup, hp.sockets⟩
  txBuffer _ hp := ⟨hp.setup, hp.sockets⟩
  deliver hp := ⟨hp.setup, hp.sockets⟩
  rxBuffer _ hp := ⟨hp.setup, hp.sockets⟩
  expire _ hp := ⟨hp.setup, hp.sockets⟩
  take _ hp := ⟨hp.setup, hp.sockets⟩

/-- A pass goes up with a frame of the device or with a packet that the loopback turned around, or it goes down. -/
inductive Pass.Begins (s : Setup) : Pass δ → Prop where
  | framed {h : Host δ} {t : Transit} {frame : Octets} : h.Placed s → t.packet.unread? = some frame →
      t.info.skipChecksum = false → Begins s (.up h t .ethernet .device)
  | turned {h : Host δ} {t : Transit} {packet : Octets} : h.Placed s → t.packet.unread? = some packet →
      Begins s (.up h t .ipv4 .loopback)
  | sent {h : Host δ} {t : Transit} {layer caller : Layer} : h.Placed s → t.packet.InOrder →
      Begins s (.down h t layer caller)

section begins

variable {manual : Bool} {s : Setup}

/-- A packet that is turned around on a path goes up again from the internet layer. -/
theorem begins_finish : ∀ (path : List (Layer × Layer)) {h : Host δ} {t : Transit}, h.Placed s → t.packet.InOrder →
    (∀ x ∈ path, x.1 = .loopback → x.2 = .ipv4) → ∀ p ∈ h.finishPasses t path, p.Begins s
  | [], _, _, _, _, _, _, hmem => nomatch hmem
  | (layer, caller) :: rest, h, t, hs, hp, hpath, p, hmem => by
    have hcount : ∀ {g : Host δ} {u : Transit} {r : Except Fault Finish},
        h.finishAt layer caller t = some (r, g, u) → (g.count layer .countTx).Placed s := fun e =>
      (stable_placed s).count _ _ ((stable_placed s).toStable.finishAt hs e)
    unfold finishPasses at hmem
    split at hmem
    · rename_i e
      exact begins_finish rest (hcount e) (finishAt_inOrder e hp).1
        (fun x hx => hpath x (List.mem_cons_of_mem _ hx)) p hmem
    · rename_i e
      cases List.mem_singleton.1 hmem
      obtain ⟨rfl, rfl, w, hu⟩ := finishAt_bounce hp e
      obtain rfl := hpath _ (List.mem_cons_self ..) rfl
      exact .turned (hcount e) hu
    · cases hmem

theorem begins_transmit (ha : s.Assembled manual) {h : Host δ} {t : Transit} (hs : h.Placed s)
    (hp : t.packet.InOrder) {layer : Layer} (hlayer : layer ≠ .loopback) (caller : Layer) :
    ∀ p ∈ h.transmitPasses t layer caller, p.Begins s := by
  intro p hmem
  rcases List.mem_cons.1 hmem with rfl | hmem
  · exact .sent hs hp
  · split at hmem
    · rename_i path g u e
      exact begins_finish path ((stable_placed s).descend _ (.inr fun _ _ hs => ⟨hs.setup, hs.sockets⟩) hs e)
        ((descend_stacked _ e).inOrder hp).1 (path_loopback (by rw [hs.setup]; exact ha) hp hlayer e) p hmem
    · cases hmem

theorem bind_push_inOrder {b data : Octets} {room : Nat} {p : Packet}
    (h : ((Packet.create b room).bind fun p => p.push data) = .ok p) : p.InOrder := by
  obtain ⟨q, hq, hpush⟩ := bind_eq_ok h
  exact (Packet.push_inOrder (create_inOrder hq) hpush).1

theorem begins_sendMessage (ha : s.Assembled manual) {h : Host δ} (hs : h.Placed s) (m : Arp.Message)
    (dst : Ethernet.Address) : ∀ p ∈ h.sendMessagePasses m dst, p.Begins s := by
  intro p hmem
  unfold sendMessagePasses at hmem
  split at hmem
  · cases hmem
  · rename_i q hq
    exact begins_transmit ha hs (bind_push_inOrder hq) (by nofun) _ p hmem

theorem begins_sendMessages (ha : s.Assembled manual) : ∀ (k : Nat) {h : Host δ}, h.Placed s →
    ∀ p ∈ h.sendMessagesPasses k, p.Begins s
  | 0, _, _, _, hmem => nomatch hmem
  | k + 1, h, hs, p, hmem => by
    unfold sendMessagesPasses at hmem
    split at hmem
    · cases hmem
    · rename_i m dst resolver _
      have hs' : Placed s { h with resolver := resolver } := ⟨hs.setup, hs.sockets⟩
      rcases List.mem_append.1 hmem with hmem | hmem
      · exact begins_sendMessage ha hs' m dst p hmem
      · obtain ⟨g, he, hf⟩ := sendMessage_total { h with resolver := resolver } m dst
        rw [he] at hmem
        exact begins_sendMessages ha k (hf _ (stable_placed s).toStableFlush hs') p hmem

theorem begins_flush (ha : s.Assembled manual) {h : Host δ} (hs : h.Placed s) : ∀ p ∈ h.flushPasses, p.Begins s :=
  begins_sendMessages ha _ hs

theorem begins_receiveFrame {h : Host δ} (hs : h.Placed s) (frame : Octets) :
    ∀ p ∈ h.receiveFramePasses frame, p.Begins s := by
  intro p hmem
  cases List.mem_singleton.1 hmem
  exact .framed ((stable_placed s).count _ _ hs) (entering_unread? h frame) rfl

theorem begins_receiveFrames (ha : s.Assembled manual) : ∀ (k : Nat) {h : Host δ}, h.Placed s →
    ∀ p ∈ h.receiveFramesPasses k, p.Begins s
  | 0, _, _, _, hmem => nomatch hmem
  | k + 1, h, hs, p, hmem => by
    unfold receiveFramesPasses at hmem
    split at hmem
    · cases hmem
    · refine begins_flush ha ?_ p hmem
      exact ⟨hs.setup, hs.sockets⟩
    · rename_i frame device _
      have hs' : Placed s { h with device := device } := ⟨hs.setup, hs.sockets⟩
      rcases List.mem_append.1 hmem with hmem | hmem
      · exact begins_receiveFrame hs' frame p hmem
      · split at hmem
        · cases hmem
        · rename_i g he
          have hg' : g.Placed s := (stable_placed s).toStableRound.receiveFrame hs' he
          rcases List.mem_append.1 hmem with hmem | hmem
          · exact begins_flush ha hg' p hmem
          · split at hmem
            · cases hmem
            · rename_i g' hf
              exact begins_receiveFrames ha k ((stable_placed s).toStableFlush.flush hg' hf) p hmem

theorem begins_poll (ha : s.Assembled manual) {h : Host δ} (hs : h.Placed s) (now : Instant) :
    ∀ p ∈ h.pollPasses now, p.Begins s := by
  intro p hmem
  rcases List.mem_append.1 hmem with hmem | hmem
  · refine begins_flush ha ?_ p hmem
    exact ⟨hs.setup, hs.sockets⟩
  · split at hmem
    · cases hmem
    · rename_i g he
      exact begins_receiveFrames ha _ ((stable_placed s).refreshed hs he) p hmem

theorem begins_send (ha : s.Assembled manual) {h : Host δ} (hs : h.Placed s) (x : Handle) (task : Task)
    (dst : Ipv4.Address) (port : UInt16) (payload : Octets) :
    ∀ p ∈ h.sendPasses x task dst port payload, p.Begins s := by
  intro p hmem
  unfold sendPasses at hmem
  split at hmem
  · cases hmem
  · split at hmem
    · cases hmem
    · split at hmem
      · exact begins_flush ha hs p hmem
      · rename_i q hq
        have hp := bind_push_inOrder hq
        rcases List.mem_append.1 hmem with hmem | hmem
        · exact begins_transmit ha hs hp (by nofun) _ p hmem
        · split at hmem
          · cases hmem
          · rename_i g u e
            have hg' : g.Placed s :=
              (stable_placed s).transmit (.inr fun _ _ hs => ⟨hs.setup, hs.sockets⟩) hs e
            exact begins_flush ha (h := { g with txBuffer := u.packet.bytes }) ⟨hg'.setup, hg'.sockets⟩ p hmem

theorem begins_call {h : Host δ} (hs : h.Steady manual) (c : Call δ) : ∀ p ∈ h.callPasses c, p.Begins h.setup := by
  intro p hmem
  have hp : h.Placed h.setup := ⟨rfl, hs.sockets⟩
  cases c with
  | send s task dst port payload => exact begins_send hs.assembled hp s task dst port payload p hmem
  | poll now => exact begins_poll hs.assembled hp now p hmem
  | _ => exact absurd hmem List.not_mem_nil

end begins

/-! ## All of them end -/

theorem ends_up {manual : Bool} {s : Setup} (ha : s.Assembled manual) (hg : s.Agree) {h : Host δ} {t : Transit}
    {w : Octets} (hs : h.setup = s) (hu : t.packet.unread? = some w) (layer caller : Layer) :
    (Pass.up h t layer caller).Ends := by
  obtain ⟨layers, x, hc, hl⟩ := climbs_total ha hg _ caller hs hu (le_refl (ascent layer))
  have hfour : layers.length ≤ 4 := hl.trans (ascent_le layer)
  exact ⟨layers, x, hc, hfour, hc.receive (hfour.trans (by decide))⟩

theorem ends_down {manual : Bool} {s : Setup} (ha : s.Assembled manual) {h : Host δ} {t : Transit}
    (hs : h.setup = s) (hp : t.packet.InOrder) (layer caller : Layer) : (Pass.down h t layer caller).Ends := by
  obtain ⟨layers, x, hd, hl⟩ := descends_total ha _ layer caller hs hp (le_refl (descent t layer caller))
  have hfive : layers.length ≤ 5 := hl.trans (descent_le t layer caller)
  refine ⟨layers, x, hd, hfive, hd.descend (hfive.trans (by decide)), fun path hx => ?_⟩
  obtain ⟨hpath, -, hfall⟩ := hd.falls ha hs hp hx
  exact ⟨hpath, hfall.imp fun hlt he => absurd (congrArg height he) hlt.ne'⟩

/-- However a pass begins, it ends. -/
theorem Pass.Begins.ends {manual : Bool} {s : Setup} (ha : s.Assembled manual) (hg : s.Agree) {p : Pass δ}
    (hp : p.Begins s) : p.Ends := by
  cases hp with
  | framed hs hu _ => exact ends_up ha hg hs.setup hu _ _
  | turned hs hu => exact ends_up ha hg hs.setup hu _ _
  | sent hs hp => exact ends_down ha hs.setup hp _ _

/-- Whatever calls a program made before, with routes to any layers, every pass of the next one ends by itself: no
packet is refused by the guard of the passes, and none that is sent visits a layer twice. -/
theorem passes_end {d : δ} {config : Config} {allowed : Host δ → Call δ → Prop} {h₀ h : Host δ}
    {es : List (Call δ × Answer)} (e : create d config = .ok h₀) (hr : Run allowed h₀ es h) (c : Call δ) :
    ∀ p ∈ h.callPasses c, p.Ends := by
  have hs : h.Steady (decide ((Nic.personality d).check = .manual)) :=
    Run.keeps (fun hs _ hc => steady_perform hs hc) (steady_create e) hr
  exact fun p hp => (begins_call hs c p hp).ends hs.assembled hs.agree

/-- A route back to the sending socket: what is sent there visits five layers, and is refused by the ports. -/
theorem passes_end_misrouted : ∃ g : Host (Device.Loopback 1), ∃ task : Task,
    (g.router.routes.lookup ⟨10, 9, 0, 1⟩).map (·.layer) = some (.socket ⟨0, 0⟩) ∧
      (g.callPasses (.send ⟨0, 0⟩ task ⟨10, 9, 0, 1⟩ 9 [1])).length = 1 ∧
      ∀ p ∈ g.callPasses (.send ⟨0, 0⟩ task ⟨10, 9, 0, 1⟩ 9 [1]), p.Ends := by
  have hx : (do
      let h ← (create (Device.Loopback.create 1 {}) (.create ⟨10, 0, 0, 1⟩ ⟨255, 255, 255, 0⟩)).toOption
      let g ← h.performAll [.acquire, .bind ⟨0, 0⟩ .unspecified 7,
        .addRoute ⟨⟨10, 9, 0, 0⟩, ⟨255, 255, 0, 0⟩, .socket ⟨0, 0⟩⟩]
      pure (decide ((g.2.router.routes.lookup ⟨10, 9, 0, 1⟩).map (·.layer) = some (.socket ⟨0, 0⟩) ∧
        (g.2.callPasses (.send ⟨0, 0⟩ ⟨1⟩ ⟨10, 9, 0, 1⟩ 9 [1])).length = 1))) = some true := by
    decide +kernel
  obtain ⟨h, hd, hx⟩ := Option.bind_eq_some_iff.1 hx
  obtain ⟨⟨es, g⟩, hr, hx⟩ := Option.bind_eq_some_iff.1 hx
  obtain ⟨hroute, hone⟩ := of_decide_eq_true (Option.some.inj hx)
  have hrun : Run (fun _ _ => True) h _ g := run_performAll _ .nil (by simp) hr
  exact ⟨g, _, hroute, hone, passes_end (eq_ok_of_toOption hd) hrun _⟩

end UdpStack.Host
