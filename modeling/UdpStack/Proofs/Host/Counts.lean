/-
What a host counts. Beside each pass and each call stands the list of what it counts, layer by layer and in order
(`receiveCounts` up to `runCounts`), and the counters of a host grow by just that (`Tallied`). They are numbers of
32 bits and start again at zero, while the lists forget nothing.
-/
import UdpStack.Proofs.Host.Passes

namespace UdpStack.Host

open Bounded Device

variable {δ : Type}

/-- What becomes of a packet at a layer. -/
inductive Kind where
  | rx
  | tx
  | dropped
  deriving DecidableEq

/-- A packet that a layer counts. -/
abbrev Count : Type := Layer × Kind

/-- Count a packet. -/
def Kind.step : Kind → Counters → Counters
  | rx => .countRx
  | tx => .countTx
  | dropped => .countDropped

/-! ## The counts of a call -/

def receiveCounts (h : Host δ) (t : Transit) : (depth : Nat) → (layer caller : Layer) → List Count
  | 0, _, _ => []
  | depth + 1, layer, caller =>
    match h.receiveAt layer caller t with
    | none => []
    | some (.error _, _, _) => [(layer, .dropped)]
    | some (.ok .done, _, _) => [(layer, .rx)]
    | some (.ok (.layer upper), h, t) => (layer, .rx) :: receiveCounts (h.count layer .countRx) t depth upper layer

section counts

variable [Nic δ]

/-- On the way down only a layer that refuses the packet counts it. -/
def descendCounts (h : Host δ) (t : Transit) : (depth : Nat) → (layer caller : Layer) → List Count
  | 0, _, _ => []
  | depth + 1, layer, caller =>
    match h.transmitAt layer caller t with
    | some (.error .wouldBlock, _, _) => []
    | some (.error _, _, _) => [(layer, .dropped)]
    | some (.ok (.layer lower), h, t) => descendCounts h t depth lower layer
    | _ => []

def finishCounts (h : Host δ) (t : Transit) : List (Layer × Layer) → List Count
  | [] => []
  | (layer, caller) :: rest =>
    match h.finishAt layer caller t with
    | none => []
    | some (.error _, _, _) => [(layer, .dropped)]
    | some (.ok .pass, h, t) => (layer, .tx) :: finishCounts (h.count layer .countTx) t rest
    | some (.ok (.bounce target), h, t) =>
      (layer, .tx) :: receiveCounts (h.count layer .countTx) t Limits.depth target layer

def transmitCounts (h : Host δ) (t : Transit) (layer caller : Layer) : List Count :=
  h.descendCounts t Limits.depth layer caller ++ match h.descend t Limits.depth layer caller with
    | some (.ok path, h, t) => h.finishCounts t path
    | _ => []

def sendMessageCounts (h : Host δ) (m : Arp.Message) (dst : Ethernet.Address) : List Count :=
  match (Packet.create h.txBuffer Limits.headerRoom).bind fun p => p.push m.octets with
  | .error _ => [(.resolver, .dropped)]
  | .ok p =>
    h.transmitCounts ⟨p, { dstLink := some dst }⟩ .ethernet .resolver ++
      match h.transmit ⟨p, { dstLink := some dst }⟩ .ethernet .resolver with
      | none => []
      | some (.ok _, _, _) => [(.resolver, .tx)]
      | some (.error _, _, _) => [(.resolver, .dropped)]

def sendMessagesCounts (h : Host δ) : Nat → List Count
  | 0 => []
  | k + 1 =>
    match h.resolver.outgoing with
    | (none, _) => []
    | (some (m, dst), resolver) =>
      sendMessageCounts { h with resolver := resolver } m dst ++
        match sendMessage { h with resolver := resolver } m dst with
        | none => []
        | some h => sendMessagesCounts h k

def flushCounts (h : Host δ) : List Count := h.sendMessagesCounts h.resolver.backlog

omit [Nic δ] in
def receiveFrameCounts (h : Host δ) (frame : Octets) : List Count :=
  (.device, .rx) :: (h.count .device .countRx).receiveCounts (h.entering frame) Limits.depth .ethernet .device

def receiveFramesCounts (h : Host δ) : Nat → List Count
  | 0 => []
  | k + 1 =>
    match Nic.receive h.device h.rxBuffer.length with
    | (.ok none, _) => []
    | (.error _, device) =>
      (.device, .dropped) ::
        flushCounts { h with device := device, deviceCounters := h.deviceCounters.countDropped }
    | (.ok (some frame), device) =>
      receiveFrameCounts { h with device := device } frame ++
        match receiveFrame { h with device := device } frame with
        | none => []
        | some g => g.flushCounts ++ match g.flush with
          | none => []
          | some g => receiveFramesCounts g k

def pollCounts (h : Host δ) (now : Instant) : List Count :=
  flushCounts { h with
    now := now
    resolver := (h.resolver.expire now h.wakeups).1
    wakeups := (h.resolver.expire now h.wakeups).2 } ++
    match h.refreshed now with
    | none => []
    | some g => g.receiveFramesCounts g.frameBound

def sendCounts (h : Host δ) (s : Handle) (task : Task) (dst : Ipv4.Address) (port : UInt16) (payload : Octets) :
    List Count :=
  if h.mtu < payload.length then [] else if (h.sockets.get? s).isNone then [] else
    match (Packet.create h.txBuffer Limits.headerRoom).bind fun p => p.push payload with
    | .error _ => h.flushCounts
    | .ok p =>
      let t : Transit := ⟨p, { dstAddr := dst, dstPort := port, task := some task }⟩
      h.transmitCounts t (.socket s) .user ++ match h.transmit t (.socket s) .user with
        | none => []
        | some (_, h, t) => flushCounts { h with txBuffer := t.packet.bytes }

/-- What a call counts. Only sending and polling count anything. -/
def callCounts (h : Host δ) : Call δ → List Count
  | .send s task dst port payload => h.sendCounts s task dst port payload
  | .poll now => h.pollCounts now
  | _ => []

/-- What is counted in a run of calls, the first one first. -/
def runCounts (h : Host δ) : List (Call δ × Answer) → List Count
  | [] => []
  | (c, _) :: es => h.callCounts c ++ match h.perform c with
    | none => []
    | some (_, g) => runCounts g es

theorem runCounts_append {allowed : Host δ → Call δ → Prop} {h g : Host δ} {es : List (Call δ × Answer)}
    (hr : Run allowed h es g) : ∀ fs, h.runCounts (es ++ fs) = h.runCounts es ++ g.runCounts fs := by
  induction hr with
  | nil => exact fun _ => rfl
  | @snoc es g g' c a _ _ hc ih =>
    intro fs
    have hcall : ∀ fs, g.runCounts ((c, a) :: fs) = g.callCounts c ++ g'.runCounts fs := by
      intro fs
      conv_lhs => unfold runCounts
      rw [hc]
    rw [List.append_assoc, ih, ih, List.singleton_append, hcall, hcall, List.append_assoc, List.append_assoc]
    rfl

theorem runCounts_snoc {allowed : Host δ → Call δ → Prop} {h g g' : Host δ} {es : List (Call δ × Answer)}
    (hr : Run allowed h es g) {c : Call δ} {a : Answer} (hc : g.perform c = some (a, g')) :
    h.runCounts (es ++ [(c, a)]) = h.runCounts es ++ g.callCounts c := by
  rw [runCounts_append hr]
  congr 1
  unfold runCounts
  rw [hc]
  exact List.append_nil _

end counts

/-! ## Counters -/

/-- Counters with what was counted at a layer. -/
def grown (c : Counters) (l : List Count) (layer : Layer) : Counters where
  rx := c.rx + .ofNat (l.count (layer, .rx))
  tx := c.tx + .ofNat (l.count (layer, .tx))
  dropped := c.dropped + .ofNat (l.count (layer, .dropped))

theorem grown_nil (c : Counters) (layer : Layer) : grown c [] layer = c := by
  simp [grown]

theorem grown_append (c : Counters) (l m : List Count) (layer : Layer) :
    grown (grown c l layer) m layer = grown c (l ++ m) layer := by
  simp [grown, List.count_append, UInt32.ofNat_add, UInt32.add_assoc]

theorem grown_singleton (c : Counters) (layer x : Layer) (kind : Kind) :
    grown c [(layer, kind)] x = if x = layer then kind.step c else c := by
  by_cases hx : x = layer
  · subst hx
    cases kind <;> simp [grown, Kind.step, Counters.countRx, Counters.countTx, Counters.countDropped]
  · have hne : layer ≠ x := fun h => hx h.symm
    simp [grown, hx, hne]

/-- The packets that the socket itself counted. -/
def socketRx (socket : Udp.Socket) : Nat := socket.counters.rx.toNat

/-- Whether a packet is counted by a socket that takes it. -/
def isSocketRx : Count → Bool
  | (.socket _, .rx) => true
  | _ => false

/-- The counters of all layers but the sockets. -/
def ledger (h : Host δ) : List Counters :=
  [h.deviceCounters, h.endpoint.counters, h.resolverCounters, h.router.counters, h.ports.counters, h.loopback.counters]

/-- From one host to another the counters of all layers grow by what was counted, and those of sockets by no more. -/
structure Tallied (h : Host δ) (l : List Count) (h' : Host δ) : Prop where
  counters : ∀ layer, (∀ s, layer ≠ .socket s) → h'.counters? layer = (h.counters? layer).map (grown · l layer)
  sockets : h'.sockets.total socketRx ≤ h.sockets.total socketRx + l.countP isSocketRx

theorem Tallied.of_same {h h' : Host δ} (hl : h'.ledger = h.ledger)
    (hs : h'.sockets.total socketRx ≤ h.sockets.total socketRx) : Tallied h [] h' := by
  have hsame : ∀ layer, (∀ s, layer ≠ .socket s) → h'.counters? layer = h.counters? layer := by
    intro layer hx
    simp only [ledger, List.cons.injEq, and_true] at hl
    obtain ⟨hdevice, hethernet, hresolver, hipv4, hudp, hloopback⟩ := hl
    cases layer with
    | device => exact congrArg some hdevice
    | ethernet => exact congrArg some hethernet
    | resolver => exact congrArg some hresolver
    | ipv4 => exact congrArg some hipv4
    | udp => exact congrArg some hudp
    | loopback => exact congrArg some hloopback
    | socket s => exact absurd rfl (hx s)
    | user => rfl
  refine ⟨fun layer hx => ?_, hs⟩
  rw [hsame layer hx]
  simp [grown_nil]

theorem Tallied.refl (h : Host δ) : Tallied h [] h := .of_same rfl le_rfl

theorem Tallied.trans {h g h' : Host δ} {l m : List Count} (hl : Tallied h l g) (hm : Tallied g m h') :
    Tallied h (l ++ m) h' := by
  refine ⟨fun layer hx => ?_, ?_⟩
  · rw [hm.counters layer hx, hl.counters layer hx, Option.map_map]
    congr 1
    funext c
    exact grown_append c l m layer
  · have := hl.sockets
    have := hm.sockets
    rw [List.countP_append]
    omega

theorem counters?_count (h : Host δ) (layer : Layer) (f : Counters → Counters) {x : Layer}
    (hx : ∀ s, x ≠ .socket s) : (h.count layer f).counters? x = (h.counters? x).map (if x = layer then f else id) := by
  cases layer with
  | socket s =>
    rw [if_neg (hx s), Option.map_id_fun, id]
    unfold count modifySocket
    dsimp only
    split
    · rfl
    · cases x with
      | socket x => exact absurd rfl (hx x)
      | _ => rfl
  | _ =>
    cases x with
    | socket x => exact absurd rfl (hx x)
    | _ => rfl

/-- A socket that counts a packet as taken has counted one more at most: its number may start again at zero. -/
theorem socketRx_step_le (socket : Udp.Socket) (kind : Kind) :
    socketRx { socket with counters := kind.step socket.counters } ≤
      socketRx socket + if kind = .rx then 1 else 0 := by
  cases kind with
  | rx =>
    show (socket.counters.rx + 1).toNat ≤ socket.counters.rx.toNat + 1
    rw [UInt32.toNat_add]
    exact Nat.mod_le ..
  | _ => exact le_rfl

theorem tallied_count (h : Host δ) (layer : Layer) (kind : Kind) :
    Tallied h [(layer, kind)] (h.count layer kind.step) := by
  refine ⟨fun x hx => ?_, ?_⟩
  · rw [counters?_count h layer _ hx]
    congr 1
    funext c
    rw [grown_singleton]
    split <;> rfl
  · cases layer with
    | socket s =>
      unfold count modifySocket
      dsimp only
      cases hs : h.sockets.get? s with
      | none => exact Nat.le_add_right ..
      | some socket =>
        have hset := Pool.total_set socketRx hs { socket with counters := kind.step socket.counters }
        have hstep := socketRx_step_le socket kind
        have hkind : List.countP isSocketRx [(Layer.socket s, kind)] = if kind = .rx then 1 else 0 := by
          cases kind <;> rfl
        dsimp only
        omega
    | _ => exact Nat.le_add_right ..

/-! ## Steps that count nothing -/

theorem socketRx_receivePass (socket : Udp.Socket) (t : Transit) (w : Wakeups) :
    socketRx (socket.receivePass t w).2.1 = socketRx socket := by
  cases ha : socket.accepts t.info.dstAddr with
  | false => rw [Udp.Socket.receivePass_of_rejects ha]
  | true =>
    obtain ⟨q, p, he, -, -⟩ := Udp.Socket.receivePass_of_accepts ha w
    rw [he]
    rfl

theorem socketRx_recv {socket socket' : Udp.Socket} {task : Task} {room : Nat} {r : Poll Udp.Received}
    (e : socket.recv task room = (r, socket')) : socketRx socket' = socketRx socket := by
  have hnext : ∀ {s : Udp.Socket}, Udp.Socket.recv.next task room s = (r, socket') → socketRx socket' = socketRx s := by
    intro s e
    unfold Udp.Socket.recv.next at e
    split at e
    · cases e; rfl
    · split at e
      · cases e; rfl
      · split at e <;> cases e <;> rfl
  unfold Udp.Socket.recv at e
  split at e
  · split at e
    · have := hnext e
      exact this
    · cases e; rfl
  · exact hnext e

/-- A socket that counted as many takes the place of another. -/
theorem total_set_socketRx {p : Pool Udp.Socket Limits.sockets} {s : Handle} {socket socket' : Udp.Socket}
    (hs : p.get? s = some socket) (hc : socketRx socket' = socketRx socket) :
    (p.set s socket').total socketRx ≤ p.total socketRx := by
  have := Pool.total_set socketRx hs socket'
  omega

/-- A layer itself counts nothing; the host does it for the layer. -/
theorem tallied_receiveAt {h g : Host δ} {layer caller : Layer} {t u : Transit} {r : Except Fault Next}
    (e : h.receiveAt layer caller t = some (r, g, u)) : Tallied h [] g := by
  rcases receiveAt_cases e with rfl | ⟨_, _, _, -, -, rfl⟩ | ⟨s, socket, -, hs, rfl⟩
  · exact .refl _
  · exact .of_same rfl le_rfl
  · exact .of_same rfl (total_set_socketRx hs (socketRx_receivePass ..))

section steps

variable [Nic δ]

theorem tallied_transmitAt {h g : Host δ} {layer caller : Layer} {t u : Transit} {r : Except Fault Next}
    (e : h.transmitAt layer caller t = some (r, g, u)) : Tallied h [] g := by
  rcases transmitAt_cases e with rfl | ⟨_, rfl⟩ | ⟨-, rfl, -⟩
  · exact .refl _
  · exact .of_same rfl le_rfl
  · exact .of_same rfl le_rfl

theorem tallied_finishAt {h g : Host δ} {layer caller : Layer} {t u : Transit} {r : Except Fault Finish}
    (e : h.finishAt layer caller t = some (r, g, u)) : Tallied h [] g := by
  rcases finishAt_cases e with rfl | ⟨_, rfl⟩
  · exact .refl _
  · exact .of_same rfl le_rfl

end steps

/-! ## Passes -/

/-- A layer that counts a packet once it is done with it. -/
theorem Tallied.count {h g : Host δ} (ht : Tallied h [] g) (layer : Layer) (kind : Kind) :
    Tallied h [(layer, kind)] (g.count layer kind.step) :=
  ht.trans (tallied_count g layer kind)

theorem tallied_receive : ∀ (depth : Nat) {h g : Host δ} {layer caller : Layer} {t u : Transit}
    {r : Except Fault Unit}, h.receive t depth layer caller = some (r, g, u) →
    Tallied h (h.receiveCounts t depth layer caller) g
  | 0, _, _, _, _, _, _, _, e => by
    cases e
    exact .refl _
  | depth + 1, h, g, layer, caller, t, u, r, e => by
    unfold Host.receive at e
    split at e
    · cases e
    · rename_i hat
      cases e
      unfold receiveCounts
      rw [hat]
      exact (tallied_receiveAt hat).count layer .dropped
    · rename_i hat
      cases e
      unfold receiveCounts
      rw [hat]
      exact (tallied_receiveAt hat).count layer .rx
    · rename_i upper v w hat
      unfold receiveCounts
      rw [hat]
      exact ((tallied_receiveAt hat).count layer .rx).trans (tallied_receive depth e)

variable [Nic δ]

theorem tallied_descend : ∀ (depth : Nat) {h g : Host δ} {layer caller : Layer} {t u : Transit}
    {r : Except Fault (List (Layer × Layer))}, h.descend t depth layer caller = some (r, g, u) →
    Tallied h (h.descendCounts t depth layer caller) g
  | 0, _, _, _, _, _, _, _, e => by
    cases e
    exact .refl _
  | depth + 1, h, g, layer, caller, t, u, r, e => by
    unfold Host.descend at e
    split at e
    · cases e
    · rename_i hat
      cases e
      unfold descendCounts
      rw [hat]
      exact tallied_transmitAt hat
    · rename_i f v w hf hat
      cases e
      unfold descendCounts
      rw [hat]
      cases f <;> first | exact (tallied_transmitAt hat).count layer .dropped | exact absurd rfl hf
    · rename_i hat
      cases e
      unfold descendCounts
      rw [hat]
      exact tallied_transmitAt hat
    · rename_i lower v w hat
      have hrest : ∀ {x : Except Fault (List (Layer × Layer)) × Host δ × Transit},
          v.descend w depth lower layer = some x → Tallied h (h.descendCounts t (depth + 1) layer caller) x.2.1 := by
        intro x e
        unfold descendCounts
        rw [hat]
        exact (tallied_transmitAt hat).trans (tallied_descend depth e)
      split at e
      · cases e
      · rename_i hd
        cases e
        exact hrest hd
      · rename_i hd
        cases e
        exact hrest hd

end UdpStack.Host
