/-
No packet is lost between two layers. On its way up a packet is counted by every layer that it reaches, as taken or
as dropped, and by no other (`balanced_receive`). So what a layer took and what it handed on agree in everything that
a call counts (`booked_perform`), and in the counters of every host that calls lead to, as long as none of them has
started again at zero (`flow_conserved`).
-/
import UdpStack.Proofs.Host.Counts

namespace UdpStack.Host

open Bounded Device

variable {δ : Type}

/-! ## Lists of counts -/

/-- One for the layer that a packet was handed to and that has not counted it yet. -/
def due (owing : Option Layer) (layer : Layer) : Nat := if owing = some layer then 1 else 0

/-- One if this layer is a socket. -/
def dueSocket : Option Layer → Nat
  | some (.socket _) => 1
  | _ => 0

/-- What the layers took and what they handed on agree, but for a packet that one layer still has to count. -/
structure Balanced (owing : Option Layer) (l : List Count) : Prop where
  frames_le : l.count (.ethernet, .rx) ≤ l.count (.device, .rx) + due owing .ethernet
  frames : l.count (.device, .rx) + due owing .ethernet ≤ l.count (.ethernet, .rx) + l.count (.ethernet, .dropped)
  contents_le : l.count (.ipv4, .rx) + l.count (.resolver, .rx) ≤
    l.count (.ethernet, .rx) + l.count (.loopback, .tx) + due owing .ipv4 + due owing .resolver
  segments_le : l.count (.udp, .rx) ≤ l.count (.ipv4, .rx) + due owing .udp
  segments : l.count (.ipv4, .rx) + due owing .udp ≤ l.count (.udp, .rx) + l.count (.udp, .dropped)
  datagrams_le : l.countP isSocketRx ≤ l.count (.udp, .rx) + dueSocket owing

theorem balanced_nil : Balanced none [] := ⟨by decide, by decide, by decide, by decide, by decide, by decide⟩

theorem Balanced.append {owing : Option Layer} {l m : List Count} (hl : Balanced owing l) (hm : Balanced none m) :
    Balanced owing (l ++ m) := by
  obtain ⟨h1, h2, h3, h4, h5, h6⟩ := hl
  obtain ⟨k1, k2, k3, k4, k5, k6⟩ := hm
  simp only [due, dueSocket, reduceCtorEq, if_false] at k1 k2 k3 k4 k5 k6
  constructor <;> simp only [List.count_append, List.countP_append] <;> omega

/-- A packet that is dropped owes nothing more. -/
theorem balanced_dropped (layer : Layer) : Balanced (some layer) [(layer, .dropped)] := by
  constructor <;> cases layer <;> simp [due, dueSocket, isSocketRx]

theorem balanced_refused (layer : Layer) : Balanced none [(layer, .dropped)] := by
  constructor <;> simp [due, dueSocket, isSocketRx]

theorem balanced_sent (layer : Layer) : Balanced none [(layer, .tx)] := by
  constructor <;> simp [due, dueSocket, isSocketRx]

/-- Nor does one that ends where it is taken, unless that is a layer that has to hand it on. -/
theorem balanced_ended {layer : Layer} (hd : layer ≠ .device) (hi : layer ≠ .ipv4) :
    Balanced (some layer) [(layer, .rx)] := by
  constructor <;> cases layer <;> simp_all [due, dueSocket, isSocketRx]

/-- What is counted as a packet is handed to a layer: by the device, by the loopback or by the layer below, which had
to count it itself. -/
inductive Hands : (owing : Option Layer) → Count → Layer → Prop where
  | frame : Hands none (.device, .rx) .ethernet
  | turn : Hands none (.loopback, .tx) .ipv4
  | above {layer upper : Layer} : Above layer upper → Hands (some layer) (layer, .rx) upper

/-- What is handed to a layer, that layer owes. -/
theorem Hands.balanced {owing : Option Layer} {c : Count} {layer : Layer} {l : List Count} (hc : Hands owing c layer)
    (hl : Balanced (some layer) l) : Balanced owing (c :: l) := by
  obtain ⟨h1, h2, h3, h4, h5, h6⟩ := hl
  rcases hc with _ | _ | (_ | _ | _ | _) <;>
    simp only [due, dueSocket, Option.some.injEq, reduceCtorEq, if_false, if_true, Nat.add_zero]
      at h1 h2 h3 h4 h5 h6 <;>
    constructor <;> simp [due, dueSocket, isSocketRx] <;> omega

/-! ## Passes -/

section passes

variable {manual : Bool} {u : Setup} (ha : u.Assembled manual) (hg : u.Agree)

/-- Neither the device nor the internet layer is the end of a packet that it takes. -/
theorem ended_receiveAt {h g : Host δ} {t v : Transit} {w : Octets} (hu : t.packet.unread? = some w)
    {layer caller : Layer} (e : h.receiveAt layer caller t = some (.ok .done, g, v)) :
    layer ≠ .device ∧ layer ≠ .ipv4 := by
  constructor
  · rintro rfl
    cases e
  · rintro rfl
    rw [receiveAt_ipv4] at e
    rcases Ipv4.Router.receivePass_cases (r := h.router) hu caller with ⟨_, _, -, hr, -, -⟩ | ⟨f, _, hr, -⟩
    · rw [hr] at e
      cases e
    · rw [hr] at e
      cases e

include ha hg in
theorem balanced_receive : ∀ (depth : Nat) {h : Host δ} {t : Transit} {w : Octets} {layer : Layer} (caller : Layer),
    h.setup = u → t.packet.unread? = some w → ascent layer ≤ depth →
    Balanced (some layer) (h.receiveCounts t depth layer caller)
  | 0, _, _, _, layer, _, _, _, hn => absurd hn (Nat.not_le.2 (ascent_pos layer))
  | depth + 1, h, t, w, layer, caller, hs, hu, hn => by
    obtain ⟨r, g, v, he, hnext⟩ := receiveAt_total h layer caller hu
    unfold receiveCounts
    rw [he]
    rcases r with f | upper | _
    · exact balanced_dropped layer
    · obtain ⟨w', hu'⟩ := hnext upper rfl
      have habove := above_receiveAt (by rw [hs]; exact ha) (by rw [hs]; exact hg) hu he
      have hlt := habove.ascent_lt
      have hs' : (g.count layer .countRx).setup = u :=
        (setup_count ..).trans ((setup_receiveAt he).trans hs)
      exact (Hands.above habove).balanced (balanced_receive depth layer hs' hu' (by omega))
    · obtain ⟨hd, hi⟩ := ended_receiveAt hu he
      exact balanced_ended hd hi

end passes

/-- From one host to another the counters grow by what was counted, and that is balanced. -/
structure Booked (h : Host δ) (l : List Count) (h' : Host δ) : Prop where
  tallied : Tallied h l h'
  balanced : Balanced none l

theorem Booked.refl (h : Host δ) : Booked h [] h := ⟨.refl h, balanced_nil⟩

theorem Booked.trans {h g h' : Host δ} {l m : List Count} (hl : Booked h l g) (hm : Booked g m h') :
    Booked h (l ++ m) h' :=
  ⟨hl.tallied.trans hm.tallied, hl.balanced.append hm.balanced⟩

/-- A step that counts nothing. -/
theorem Booked.of_same {h h' : Host δ} (hl : h'.ledger = h.ledger)
    (hs : h'.sockets.total socketRx ≤ h.sockets.total socketRx) : Booked h [] h' :=
  ⟨.of_same hl hs, balanced_nil⟩

section calls

variable [Nic δ] {manual : Bool} {u : Setup}

theorem balanced_descend : ∀ (depth : Nat) (h : Host δ) (t : Transit) (layer caller : Layer),
    Balanced none (h.descendCounts t depth layer caller)
  | 0, _, _, _, _ => balanced_nil
  | depth + 1, h, t, layer, caller => by
    unfold descendCounts
    split
    · exact balanced_nil
    · exact balanced_refused layer
    · exact balanced_descend depth _ _ _ layer
    · exact balanced_nil

theorem booked_finishAt {h g : Host δ} {layer caller : Layer} {t v : Transit} {r : Except Fault Finish}
    {kind : Kind} (hk : kind ≠ .rx) (e : h.finishAt layer caller t = some (r, g, v)) :
    Booked h [(layer, kind)] (g.count layer kind.step) := by
  refine ⟨(tallied_finishAt e).count layer kind, ?_⟩
  cases kind with
  | rx => exact absurd rfl hk
  | tx => exact balanced_sent layer
  | dropped => exact balanced_refused layer

omit [Nic δ] in
theorem booked_sockets {h : Host δ} {p : Pool Udp.Socket Limits.sockets}
    (hp : p.total socketRx ≤ h.sockets.total socketRx) : Booked h [] { h with sockets := p } :=
  .of_same rfl hp

omit [Nic δ] in
theorem booked_set {h : Host δ} {s : Handle} {socket socket' : Udp.Socket} (hs : h.sockets.get? s = some socket)
    (hc : socketRx socket' = socketRx socket) : Booked h [] { h with sockets := h.sockets.set s socket' } :=
  booked_sockets (total_set_socketRx hs hc)

omit [Nic δ] in
theorem booked_unbound {h : Host δ} {s : Handle} {socket : Udp.Socket} (hs : h.sockets.get? s = some socket)
    (b : Udp.Binding) : Booked h [] (h.unbound s socket b) := by
  have hset : Booked h [] { h with
      sockets := h.sockets.set s { socket with binding := none, reserved := none, waiter := .empty } } :=
    booked_set hs rfl
  exact hset.trans (.of_same rfl le_rfl)

omit [Nic δ] in
theorem booked_bound {h : Host δ} {s : Handle} {socket : Udp.Socket} {ports : Udp.Ports} {port : UInt16}
    (hs : h.sockets.get? s = some socket) (b : Udp.Binding) (hp : h.ports.bind port (.socket s) = .ok ports) :
    Booked h [] (h.bound s socket b ports) := by
  obtain ⟨-, m, -, rfl⟩ := ports_bind_eq_ok hp
  have hset : Booked h [] { h with sockets := h.sockets.set s { socket with binding := some b } } := booked_set hs rfl
  exact hset.trans (.of_same rfl le_rfl)

omit [Nic δ] in
/-- What a socket counted is gone with it. -/
theorem booked_vacated (h : Host δ) (s : Handle) : Booked h [] (h.vacated s) := by
  refine booked_sockets ?_
  cases hs : h.sockets.get? s with
  | none => rw [Pool.release_of_none hs]
  | some socket =>
    have := Pool.total_release socketRx hs
    omega

section packets

variable (ha : u.Assembled manual) (hg : u.Agree)

include ha hg

theorem booked_finish : ∀ (path : List (Layer × Layer)) {h h' : Host δ} {t t' : Transit} {r : Except Fault Unit},
    h.Placed u → t.packet.InOrder → (∀ x ∈ path, x.1 = .loopback → x.2 = .ipv4) →
    h.finish t path = some (r, h', t') → Booked h (h.finishCounts t path) h'
  | [], _, _, _, _, _, _, _, _, e => by
    cases e
    exact .refl _
  | (layer, caller) :: rest, h, h', t, t', r, hs, hp, hpath, e => by
    have hcount : ∀ {g : Host δ} {v : Transit} {r : Except Fault Finish},
        h.finishAt layer caller t = some (r, g, v) → (g.count layer .countTx).Placed u := fun e =>
      (stable_placed u).count _ _ ((stable_placed u).toStable.finishAt hs e)
    unfold Host.finish at e
    split at e
    · cases e
    · rename_i hat
      cases e
      unfold finishCounts
      rw [hat]
      exact booked_finishAt (show Kind.dropped ≠ .rx by nofun) hat
    · rename_i g v hat
      unfold finishCounts
      rw [hat]
      exact (booked_finishAt (show Kind.tx ≠ .rx by nofun) hat).trans (booked_finish rest (hcount hat)
        (finishAt_inOrder hat hp).1 (fun x hx => hpath x (List.mem_cons_of_mem _ hx)) e)
    · rename_i target g v hat
      obtain ⟨⟨res, g', v'⟩, hr, he⟩ := Option.map_eq_some_iff.1 e
      cases he
      unfold finishCounts
      rw [hat]
      obtain ⟨rfl, rfl, w, hw⟩ := finishAt_bounce hp hat
      obtain rfl := hpath _ (List.mem_cons_self ..) rfl
      -- the packet comes back to the internet layer, which counts it again
      exact ⟨((tallied_finishAt hat).count .loopback .tx).trans (tallied_receive _ hr),
        Hands.turn.balanced (balanced_receive ha hg _ .loopback (hcount hat).setup hw (by decide))⟩

theorem booked_transmit {h h' : Host δ} {t t' : Transit} {r : Except Fault Unit} (hs : h.Placed u)
    (hp : t.packet.InOrder) {layer : Layer} (hlayer : layer ≠ .loopback) (caller : Layer)
    (e : h.transmit t layer caller = some (r, h', t')) : Booked h (h.transmitCounts t layer caller) h' := by
  have hdown : ∀ {x : Except Fault (List (Layer × Layer)) × Host δ × Transit},
      h.descend t Limits.depth layer caller = some x →
      Booked h (h.descendCounts t Limits.depth layer caller) x.2.1 := fun e =>
    ⟨tallied_descend _ e, balanced_descend _ h t layer caller⟩
  unfold transmitCounts
  rcases transmit_cases e with ⟨f, -, hd⟩ | ⟨path, g, v, hd, hf⟩
  · rw [hd]
    exact (hdown hd).trans (.refl _)
  · rw [hd]
    exact (hdown hd).trans (booked_finish ha hg path
      ((stable_placed u).descend _ (.inr fun _ _ hs => ⟨hs.setup, hs.sockets⟩) hs hd)
      ((descend_stacked _ hd).inOrder hp).1 (path_loopback (by rw [hs.setup]; exact ha) hp hlayer hd) hf)

theorem booked_sendMessage {h h' : Host δ} (hs : h.Placed u) {m : Arp.Message} {dst : Ethernet.Address}
    (e : h.sendMessage m dst = some h') : Booked h (h.sendMessageCounts m dst) h' := by
  unfold Host.sendMessage at e
  split at e
  · rename_i hpush
    cases e
    unfold sendMessageCounts
    rw [hpush]
    exact ⟨tallied_count h .resolver .dropped, balanced_refused _⟩
  · rename_i p hpush
    split at e
    · cases e
    · rename_i result g v hx
      unfold sendMessageCounts
      rw [hpush]
      dsimp only at e ⊢
      rw [hx]
      have hsent := booked_transmit ha hg hs (bind_push_inOrder hpush) (by nofun) .resolver hx
      have hbuffer : Booked h _ { g with txBuffer := v.packet.bytes } :=
        hsent.trans (.of_same rfl le_rfl)
      rw [List.append_nil] at hbuffer
      cases result with
      | ok _ =>
        cases e
        exact hbuffer.trans ⟨tallied_count _ .resolver .tx, balanced_sent _⟩
      | error f =>
        cases e
        exact hbuffer.trans ⟨tallied_count _ .resolver .dropped, balanced_refused _⟩

theorem booked_sendMessages : ∀ (k : Nat) {h h' : Host δ}, h.Placed u → h.sendMessages k = some h' →
    Booked h (h.sendMessagesCounts k) h'
  | 0, _, _, _, e => by
    cases e
    exact .refl _
  | k + 1, h, h', hs, e => by
    unfold Host.sendMessages at e
    split at e
    · rename_i hx
      cases e
      unfold sendMessagesCounts
      rw [hx]
      exact .refl _
    · rename_i m dst resolver hx
      have hs' : Placed u { h with resolver := resolver } := ⟨hs.setup, hs.sockets⟩
      have htaken : Booked h [] { h with resolver := resolver } :=
        .of_same rfl le_rfl
      split at e
      · cases e
      · rename_i g hsend
        unfold sendMessagesCounts
        rw [hx]
        dsimp only
        rw [hsend]
        obtain ⟨g', he, hf⟩ := sendMessage_total { h with resolver := resolver } m dst
        cases hsend.symm.trans he
        exact (htaken.trans (booked_sendMessage ha hg hs' hsend)).trans
          (booked_sendMessages k (hf _ (stable_placed u).toStableFlush hs') e)

theorem booked_flush {h h' : Host δ} (hs : h.Placed u) (e : h.flush = some h') : Booked h h.flushCounts h' := by
  obtain ⟨g, hsend, rfl⟩ := Option.map_eq_some_iff.1
    (show (h.sendMessages h.resolver.backlog).map deliver = some h' from e)
  have hdelivered : Booked g [] g.deliver := .of_same rfl le_rfl
  have hall := (booked_sendMessages ha hg _ hs hsend).trans hdelivered
  rwa [List.append_nil] at hall

omit [Nic δ] in
theorem booked_receiveFrame {h h' : Host δ} (hs : h.Placed u) {frame : Octets} (e : h.receiveFrame frame = some h') :
    Booked h (h.receiveFrameCounts frame) h' := by
  rw [receiveFrame_eq] at e
  obtain ⟨⟨res, g, v⟩, hr, rfl⟩ := Option.map_eq_some_iff.1 e
  have hs' : (h.count .device .countRx).setup = u := (setup_count ..).trans hs.setup
  have hbuffer : Tallied g [] { g with rxBuffer := v.packet.bytes } :=
    .of_same rfl le_rfl
  have hall := ((tallied_count h .device .rx).trans (tallied_receive _ hr)).trans hbuffer
  rw [List.append_nil] at hall
  exact ⟨hall, Hands.frame.balanced
    (balanced_receive ha hg _ .device hs' (entering_unread? h frame) (by decide))⟩

theorem booked_receiveFrames : ∀ (k : Nat) {h h' : Host δ} {n : Nat} {r : Except Fault Nat}, h.Placed u →
    h.receiveFrames n k = some (r, h') → Booked h (h.receiveFramesCounts k) h'
  | 0, _, _, _, _, _, e => by
    cases e
    exact .refl _
  | k + 1, h, h', n, r, hs, e => by
    have htaken : ∀ device, Booked h [] { h with device := device } := fun device =>
      .of_same rfl le_rfl
    unfold Host.receiveFrames at e
    split at e
    · rename_i hx
      cases e
      unfold receiveFramesCounts
      rw [hx]
      exact htaken _
    · rename_i f device hx
      unfold receiveFramesCounts
      rw [hx]
      obtain ⟨g, hflush, he⟩ := Option.map_eq_some_iff.1 e
      cases he
      have hdropped : Booked { h with device := device } [(.device, .dropped)]
          { h with device := device, deviceCounters := h.deviceCounters.countDropped } :=
        ⟨tallied_count { h with device := device } .device .dropped, balanced_refused _⟩
      exact (htaken device).trans (hdropped.trans (booked_flush ha hg ⟨hs.setup, hs.sockets⟩ hflush))
    · rename_i frame device hx
      have hs' : Placed u { h with device := device } := ⟨hs.setup, hs.sockets⟩
      split at e
      · cases e
      · rename_i g' hy
        obtain ⟨g, hframe, hflush⟩ := Option.bind_eq_some_iff.1 hy
        have hgs : g.Placed u := (stable_placed u).toStableRound.receiveFrame hs' hframe
        unfold receiveFramesCounts
        rw [hx]
        dsimp only
        rw [hframe]
        dsimp only
        rw [hflush]
        exact ((htaken device).trans (booked_receiveFrame ha hg hs' hframe)).trans
          ((booked_flush ha hg hgs hflush).trans
            (booked_receiveFrames k ((stable_placed u).toStableFlush.flush hgs hflush) e))

theorem booked_poll {h h' : Host δ} (hs : h.Placed u) {now : Instant} {r : Except Fault Nat}
    (e : h.poll now = some (r, h')) : Booked h (h.pollCounts now) h' := by
  obtain ⟨g, hrefreshed, hframes, -⟩ := poll_cases e
  have hexpired : Booked h [] { h with
      now := now
      resolver := (h.resolver.expire now h.wakeups).1
      wakeups := (h.resolver.expire now h.wakeups).2 } := .of_same rfl le_rfl
  unfold pollCounts
  rw [hrefreshed]
  exact (hexpired.trans (booked_flush ha hg ⟨hs.setup, hs.sockets⟩ hrefreshed)).trans
    (booked_receiveFrames ha hg _ ((stable_placed u).refreshed hs hrefreshed) hframes)

theorem booked_send {h h' : Host δ} (hs : h.Placed u) {s : Handle} {task : Task} {dst : Ipv4.Address}
    {port : UInt16} {payload : Octets} {r : Poll Nat} (e : h.send s task dst port payload = some (r, h')) :
    Booked h (h.sendCounts s task dst port payload) h' := by
  unfold Host.send at e
  unfold sendCounts
  by_cases hlarge : h.mtu < payload.length
  · rw [if_pos hlarge] at e ⊢
    cases e
    exact .refl _
  rw [if_neg hlarge] at e ⊢
  by_cases hdead : (h.sockets.get? s).isNone = true
  · rw [if_pos hdead] at e ⊢
    cases e
    exact .refl _
  rw [if_neg hdead] at e ⊢
  cases hpush : (Packet.create h.txBuffer Limits.headerRoom).bind fun p => p.push payload with
  | error f =>
    rw [hpush] at e
    obtain ⟨g, hflush, he⟩ := Option.map_eq_some_iff.1 e
    cases he
    exact booked_flush ha hg hs hflush
  | ok p =>
    rw [hpush] at e
    dsimp only at e ⊢
    cases hx : h.transmit ⟨p, { dstAddr := dst, dstPort := port, task := some task }⟩ (.socket s) .user with
    | none =>
      rw [hx] at e
      cases e
    | some x =>
      obtain ⟨result, g, v⟩ := x
      rw [hx] at e
      obtain ⟨g', hflush, he⟩ := Option.map_eq_some_iff.1 e
      obtain rfl : g' = h' := by split at he <;> cases he <;> rfl
      have hgs : g.Placed u := (stable_placed u).transmit (.inr fun _ _ hs => ⟨hs.setup, hs.sockets⟩) hs hx
      have hbuffer : Booked g [] { g with txBuffer := v.packet.bytes } := .of_same rfl le_rfl
      exact (booked_transmit ha hg hs (bind_push_inOrder hpush) (by nofun) .user hx).trans
        (hbuffer.trans (booked_flush ha hg ⟨hgs.setup, hgs.sockets⟩ hflush))

end packets

/-- Only sends and polls count anything. -/
theorem booked_aside {h h' : Host δ} (hg : h.setup.Agree) {c : Call δ} {a : Answer}
    (hsend : ∀ s task dst port payload, c ≠ .send s task dst port payload) (hpoll : ∀ now, c ≠ .poll now)
    (e : h.perform c = some (a, h')) : Booked h [] h' := by
  cases effect_perform hg e with
  | same _ => exact .refl h
  | acquire hp => exact booked_sockets (Pool.total_acquire socketRx hp).le
  | release _ => exact booked_vacated h _
  | releaseBound hx _ => exact (booked_unbound hx _).trans (booked_vacated _ _)
  | bind hx _ hp => exact booked_bound hx _ hp
  | unbind hx _ => exact booked_unbound hx _
  | send _ => exact (hsend _ _ _ _ _ rfl).elim
  | recv hx hr => exact booked_set hx (socketRx_recv hr)
  | cancel hx => exact booked_set hx rfl
  | poll _ => exact (hpoll _ rfl).elim
  | _ => exact .of_same rfl le_rfl

theorem booked_perform {h h' : Host δ} (hs : h.Steady manual) {c : Call δ} {a : Answer}
    (e : h.perform c = some (a, h')) : Booked h (h.callCounts c) h' := by
  have hplaced : h.Placed h.setup := ⟨rfl, hs.sockets⟩
  cases c with
  | send s task dst port payload =>
    obtain ⟨_, hx, he⟩ := Option.map_eq_some_iff.1 e
    cases he
    exact booked_send hs.assembled hs.agree hplaced hx
  | poll now =>
    obtain ⟨_, hx, he⟩ := Option.map_eq_some_iff.1 e
    cases he
    exact booked_poll hs.assembled hs.agree hplaced hx
  | _ => exact booked_aside hs.agree (by simp) (by simp) e

/-! ## Runs -/

theorem booked_run {allowed : Host δ → Call δ → Prop} {h h' : Host δ} {es : List (Call δ × Answer)}
    (hs : h.Steady manual) (hr : Run allowed h es h') : Booked h (h.runCounts es) h' ∧ h'.Steady manual := by
  induction hr with
  | nil => exact ⟨.refl h, hs⟩
  | snoc hr _ hc ih =>
    rw [runCounts_snoc hr hc]
    exact ⟨ih.1.trans (booked_perform ih.2 hc), steady_perform ih.2 hc⟩

end calls

/-! ## New hosts have counted nothing -/

theorem newEndpoint_counters {config : Config} {check : CheckMode} {e : Ethernet.Endpoint}
    (h : newEndpoint config check = .ok e) : e.counters = {} := by
  unfold newEndpoint at h
  obtain ⟨e₁, h₁, h⟩ := bind_eq_ok h
  obtain ⟨_, -, rfl⟩ := endpoint_register_eq_ok h₁
  split at h
  · cases h; rfl
  · obtain ⟨_, -, rfl⟩ := endpoint_register_eq_ok h
    rfl

theorem newRouter_counters {config : Config} {r : Ipv4.Router} (h : newRouter config = .ok r) : r.counters = {} := by
  unfold newRouter at h
  -- three routes
  obtain ⟨_, -, h⟩ := bind_eq_ok h
  obtain ⟨r₁, hr₁, h⟩ := bind_eq_ok h
  obtain ⟨_, -, rfl⟩ := addRoute_eq_ok hr₁
  obtain ⟨_, -, h⟩ := bind_eq_ok h
  obtain ⟨r₂, hr₂, h⟩ := bind_eq_ok h
  obtain ⟨_, -, rfl⟩ := addRoute_eq_ok hr₂
  obtain ⟨_, -, h⟩ := bind_eq_ok h
  obtain ⟨r₃, hr₃, h⟩ := bind_eq_ok h
  obtain ⟨_, -, rfl⟩ := addRoute_eq_ok hr₃
  -- the addresses, the last of the subnet if it is another one
  obtain ⟨r₄, hr₄, h⟩ := bind_eq_ok h
  obtain ⟨_, -, rfl⟩ := addIncoming_eq_ok hr₄
  obtain ⟨r₅, hr₅, h⟩ := bind_eq_ok h
  obtain ⟨_, -, rfl⟩ := addIncoming_eq_ok hr₅
  obtain ⟨r₆, hr₆, h⟩ := bind_eq_ok h
  obtain ⟨_, -, rfl⟩ := addIncoming_eq_ok hr₆
  dsimp only at h
  split at h
  · obtain ⟨r₇, hr₇, h⟩ := bind_eq_ok h
    obtain ⟨_, -, rfl⟩ := addIncoming_eq_ok hr₇
    obtain ⟨_, -, rfl⟩ := register_eq_ok h
    rfl
  · obtain ⟨r₇, hr₇, h⟩ := bind_eq_ok h
    cases hr₇
    obtain ⟨_, -, rfl⟩ := register_eq_ok h
    rfl

theorem counters_create [Nic δ] {d : δ} {config : Config} {h : Host δ} (e : create d config = .ok h) :
    (∀ layer c, h.counters? layer = some c → c = {}) ∧ h.sockets.total socketRx = 0 := by
  obtain ⟨endpoint, router, he, hr, rfl⟩ := create_eq_ok e
  have he := newEndpoint_counters he
  have hr := newRouter_counters hr
  refine ⟨fun layer c hc => ?_, Pool.total_empty _⟩
  cases layer with
  | ethernet => cases hc; exact he
  | ipv4 => cases hc; exact hr
  | socket s =>
    have hnone : (fresh d config endpoint router).sockets.get? s = none := Pool.get?_empty s
    unfold counters? at hc
    dsimp only at hc
    rw [hnone] at hc
    cases hc
  | user => cases hc
  | _ => cases hc; rfl

/-! ## The counters of a host -/

/-- No counter has started again at zero. -/
def Unwrapped (l : List Count) : Prop := ∀ x, l.count x < 2 ^ 32

/-- What the layers of a host took agrees with what the layers below handed on. -/
structure Conserved (h : Host δ) : Prop where
  frames_le : h.endpoint.counters.rx.toNat ≤ h.deviceCounters.rx.toNat
  frames : h.deviceCounters.rx.toNat ≤ h.endpoint.counters.rx.toNat + h.endpoint.counters.dropped.toNat
  contents_le : h.router.counters.rx.toNat + h.resolverCounters.rx.toNat ≤
    h.endpoint.counters.rx.toNat + h.loopback.counters.tx.toNat
  segments_le : h.ports.counters.rx.toNat ≤ h.router.counters.rx.toNat
  segments : h.router.counters.rx.toNat ≤ h.ports.counters.rx.toNat + h.ports.counters.dropped.toNat
  datagrams_le : h.sockets.total socketRx ≤ h.ports.counters.rx.toNat

theorem grown_zero {l : List Count} (hl : Unwrapped l) (layer : Layer) :
    (grown {} l layer).rx.toNat = l.count (layer, .rx) ∧ (grown {} l layer).tx.toNat = l.count (layer, .tx) ∧
      (grown {} l layer).dropped.toNat = l.count (layer, .dropped) := by
  have hzero : ∀ {n : Nat}, n < 2 ^ 32 → ((0 : UInt32) + .ofNat n).toNat = n := fun hn => by
    rw [UInt32.zero_add, UInt32.toNat_ofNat', Nat.mod_eq_of_lt hn]
  exact ⟨hzero (hl _), hzero (hl _), hzero (hl _)⟩

theorem Booked.conserved {h₀ h : Host δ} {l : List Count} (hb : Booked h₀ l h) (hl : Unwrapped l)
    (hzero : ∀ layer c, h₀.counters? layer = some c → c = {}) (hsockets : h₀.sockets.total socketRx = 0) :
    h.Conserved := by
  have hat : ∀ (layer : Layer) (c : Counters), (∀ s, layer ≠ .socket s) → h.counters? layer = some c →
      c = grown {} l layer := by
    intro layer c hx hc
    rw [hb.tallied.counters layer hx] at hc
    obtain ⟨c₀, hc₀, rfl⟩ := Option.map_eq_some_iff.1 hc
    rw [hzero layer c₀ hc₀]
  have hdevice := hat .device _ nofun rfl
  have hethernet := hat .ethernet _ nofun rfl
  have hresolver := hat .resolver _ nofun rfl
  have hipv4 := hat .ipv4 _ nofun rfl
  have hudp := hat .udp _ nofun rfl
  have hloopback := hat .loopback _ nofun rfl
  have hs := hb.tallied.sockets
  obtain ⟨h1, h2, h3, h4, h5, h6⟩ := hb.balanced
  simp only [due, dueSocket, reduceCtorEq, if_false, Nat.add_zero] at h1 h2 h3 h4 h5 h6
  constructor <;>
    simp only [hdevice, hethernet, hresolver, hipv4, hudp, hloopback, grown_zero hl] <;> omega

/-- Whatever calls a program made, every frame taken from the device and every packet that the loopback turned around
is counted at each layer that it reached, and at no other. -/
theorem flow_conserved [Nic δ] {d : δ} {config : Config} {allowed : Host δ → Call δ → Prop} {h₀ h : Host δ}
    {es : List (Call δ × Answer)} (e : create d config = .ok h₀) (hr : Run allowed h₀ es h)
    (hl : Unwrapped (h₀.runCounts es)) : Tallied h₀ (h₀.runCounts es) h ∧ h.Conserved := by
  obtain ⟨hzero, hsockets⟩ := counters_create e
  obtain ⟨hbooked, -⟩ := booked_run (steady_create e) hr
  exact ⟨hbooked.tallied, hbooked.conserved hl hzero hsockets⟩

/-- One datagram through the device and one through the loopback. -/
theorem flow_conserved_both : ∃ (h₀ h : Host (Device.Loopback 1)) (es : List (Call (Device.Loopback 1) × Answer)),
    Unwrapped (h₀.runCounts es) ∧ Tallied h₀ (h₀.runCounts es) h ∧ h.Conserved ∧
      h.deviceCounters.rx = 1 ∧ h.endpoint.counters.rx = 1 ∧ h.loopback.counters.tx = 1 ∧
      h.router.counters.rx = 2 ∧ h.ports.counters.rx = 2 ∧ h.sockets.total socketRx = 2 := by
  obtain ⟨h₀, es, h, e, hrun, hlength, hnumbers⟩ := exists_run (Device.Loopback.create 1 {})
    (.create ⟨10, 0, 0, 1⟩ ⟨255, 255, 255, 0⟩)
    [.acquire, .acquire, .bind ⟨0, 0⟩ .unspecified 1000, .bind ⟨1, 0⟩ .unspecified 2000,
      .send ⟨0, 0⟩ ⟨1⟩ ⟨10, 0, 0, 1⟩ 2000 [1], .send ⟨0, 0⟩ ⟨1⟩ .loopback 2000 [2], .poll ⟨1⟩]
    (fun h₀ es h => (h₀.runCounts es).length < 2 ^ 32 ∧ h.deviceCounters.rx = 1 ∧ h.endpoint.counters.rx = 1 ∧
      h.loopback.counters.tx = 1 ∧ h.router.counters.rx = 2 ∧ h.ports.counters.rx = 2 ∧
      h.sockets.total socketRx = 2) (by decide +kernel)
  have hl : Unwrapped (h₀.runCounts es) := fun _ => List.count_le_length.trans_lt hlength
  obtain ⟨htallied, hconserved⟩ := flow_conserved e hrun hl
  exact ⟨h₀, h, es, hl, htallied, hconserved, hnumbers⟩

end UdpStack.Host
