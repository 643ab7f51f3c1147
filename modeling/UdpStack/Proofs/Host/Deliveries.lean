/-
Polls of a host on an external device. The device hands over every frame that waits in it, whole
and in order, and each of them goes through the layers in a round of its own; a round changes the
queue of some socket if and only if its frame meets the conditions on frames (`poll_deliveries`).
-/
import UdpStack.Proofs.Device.External
import UdpStack.Proofs.Host.Acceptance
import UdpStack.Proofs.Host.Rounds

namespace UdpStack.Host

open Bounded Device

variable {δ : Type} {n : Nat}

/-! ## Hosts on external devices -/

/-- Every call, as long as the device is left in a state that programs can bring it to. -/
def KeepsDevice (_ : Host (External n)) : Call (External n) → Prop
  | .device d => d.Built
  | _ => True

/-- What holds of a host on an external device between and during calls. -/
structure Ready (manual : Bool) (h : Host (External n)) : Prop where
  assembled : h.setup.Assembled manual
  agree : h.setup.Agree
  sockets : h.sockets.All Udp.Socket.WF
  room : Limits.frameBuffer ≤ h.rxBuffer.length
  device : h.device.Sound

theorem stable_room [Nic δ] (k : Nat) : StablePoll fun h : Host δ => k ≤ h.rxBuffer.length where
  count layer f hk := by simpa using hk
  numbered _ hk := hk
  heard hk _ := hk
  handed _ hk _ := hk
  sent _ hk := hk
  outgoing hk := hk
  txBuffer _ hk := hk
  deliver hk := hk
  rxBuffer hb hk := hk.trans hb
  expire _ hk := hk
  take _ hk := hk

theorem stable_device : StablePoll fun h : Host (External n) => h.device.Sound where
  count layer f hd := by simpa using hd
  numbered _ hd := hd
  heard hd _ := hd
  handed _ hd _ := hd
  sent frame hd := External.sound_transmit hd frame
  outgoing hd := hd
  txBuffer _ hd := hd
  deliver hd := hd
  rxBuffer _ hd := hd
  expire _ hd := hd
  take room hd := External.sound_receive hd room

/-- The frames that wait in the device are only touched by taking one. -/
theorem stable_frames (l : List Octets) : StableRound fun h : Host (External n) => h.device.frames = l where
  count layer f hl := by simpa using hl
  numbered _ hl := hl
  heard hl _ := hl
  handed _ hl _ := hl
  sent _ hl := hl
  outgoing hl := hl
  txBuffer _ hl := hl
  deliver hl := hl
  rxBuffer _ hl := hl

/-- What every stable property survives, a host stays ready over. -/
theorem Ready.of_stable {manual : Bool} {h h' : Host (External n)} (hr : h.Ready manual)
    (hs : ∀ P : Host (External n) → Prop, StablePoll P → P h → P h') : h'.Ready manual := by
  have hset : h'.setup = h.setup := hs _ (stable_setup h.setup) rfl
  exact ⟨by rw [hset]; exact hr.assembled, by rw [hset]; exact hr.agree, hs _ stable_sockets hr.sockets,
    hs _ (stable_room _) hr.room, hs _ stable_device hr.device⟩

theorem ready_create {d : External n} (hd : d.Built) {config : Config} {h : Host (External n)}
    (e : create d config = .ok h) : h.Ready (decide (d.personality.check = .manual)) := by
  refine ⟨assembled_create e, agree_create e, sockets_create e, ?_, ?_⟩
  · obtain ⟨endpoint, router, -, -, rfl⟩ := create_eq_ok e
    exact (List.length_replicate ..).ge
  · obtain ⟨endpoint, router, -, -, rfl⟩ := create_eq_ok e
    exact hd.sound

theorem ready_perform {manual : Bool} {h h' : Host (External n)} {c : Call (External n)} {a : Answer}
    (hr : h.Ready manual) (hk : h.KeepsDevice c) (e : h.perform c = some (a, h')) : h'.Ready manual := by
  have hroom := hr.room
  have hdev := hr.device
  have hd : Limits.frameBuffer ≤ h'.rxBuffer.length ∧ h'.device.Sound := by
    cases effect_perform hr.agree e with
    | device d => exact ⟨hroom, External.Built.sound hk⟩
    | send hx =>
      exact ⟨(stable_room _).send (fun _ _ hp => hp) hroom hx, stable_device.send (fun _ _ hp => hp) hdev hx⟩
    | poll hx => exact ⟨(stable_room _).poll hroom hx, stable_device.poll hdev hx⟩
    | _ => exact ⟨hroom, hdev⟩
  exact ⟨assembled_perform hr.agree hr.assembled e, agree_perform hr.agree e,
    sockets_perform hr.agree hr.sockets e, hd.1, hd.2⟩

theorem run_ready {d : External n} (hd : d.Built) {config : Config} {h₀ h : Host (External n)}
    (e : create d config = .ok h₀) {es : List (Call (External n) × Answer)} (hr : Run KeepsDevice h₀ es h) :
    h.Ready (decide (d.personality.check = .manual)) :=
  hr.keeps ready_perform (ready_create hd e)

/-! ## Rounds -/

/-- A round ends in the outcome of its frame. -/
theorem round_outcome {manual : Bool} {r : Round (External n)} (hr : r.before.Ready manual) (hruns : r.Runs) :
    Outcome (r.before.setup.Accepts manual r.frame)
      (received (.stored (content manual r.frame) 12) (segment (content manual r.frame))) r.before r.after := by
  obtain ⟨g, hg, hf⟩ := Option.bind_eq_some_iff.1 hruns
  obtain ⟨g', hg', ho⟩ := receiveFrame_outcome hr.assembled hr.agree hr.sockets r.frame
  cases hg.symm.trans hg'
  have hq : ∀ x, r.after.queue? x = g.queue? x := (stableFlush_queue? g.queue?).flush (fun _ => rfl) hf
  exact ho.outcome.of_same hq

/-- Some queue changes exactly if the condition is met by some socket. -/
theorem Outcome.changes_iff {A : Handle → Prop} {d : Udp.Datagram} {h h' : Host δ}
    (hw : h.sockets.All Udp.Socket.WF) (ho : Outcome A d h h') :
    (∃ s, h'.queue? s ≠ h.queue? s) ↔ ∃ s, A s := by
  rcases ho with ⟨s, ha, socket, q, hs, hq, hx⟩ | ⟨hn, hx⟩
  · have hne : q ≠ socket.queue := Queue.push_ne (by decide) (hw s socket hs).queue hq
    constructor
    · intro _
      exact ⟨s, ha⟩
    · intro _
      refine ⟨s, ?_⟩
      rw [hx, if_pos rfl]
      unfold queue?
      rw [hs]
      intro he
      exact hne (Option.some.inj he)
  · constructor
    · rintro ⟨s, hs⟩
      exact absurd (hx s) hs
    · rintro ⟨s, hs⟩
      exact absurd hs (hn s)

/-! ## Polls -/

/-- Taking a frame leads to a round of it. -/
theorem receiveFrames_cons {manual : Bool} {h : Host (External n)} (hr : h.Ready manual) {frame : Octets}
    {rest : List Octets} (hf : h.device.frames = frame :: rest) (k m : Nat) :
    ∃ r : Round (External n), r.frame = frame ∧ r.Runs ∧
      r.before = { h with device := (Nic.receive h.device h.rxBuffer.length).2 } ∧
      r.before.Ready manual ∧ r.after.Ready manual ∧ r.after.device.frames = rest ∧
      h.receiveFrames m (k + 1) = r.after.receiveFrames (m + 1) k ∧
      h.frameRounds (k + 1) = r :: r.after.frameRounds k := by
  obtain ⟨d, hd, hrest, hsound⟩ := External.receive_of_cons hr.device hf hr.room
  have hb : Ready manual { h with device := d } := ⟨hr.assembled, hr.agree, hr.sockets, hr.room, hsound⟩
  obtain ⟨u, hu⟩ := receiveFrame_total { h with device := d } frame
  obtain ⟨g, hg, -⟩ := flush_total u
  have hx : (receiveFrame { h with device := d } frame).bind flush = some g := by
    rw [hu]; exact hg
  have hruns : Round.Runs ⟨{ h with device := d }, frame, g⟩ := hx
  refine ⟨⟨{ h with device := d }, frame, g⟩, rfl, hruns, by rw [hd], hb, ?_, ?_, ?_, ?_⟩
  · exact hb.of_stable fun P hs hp => hs.toStableRound.round hruns hp
  · exact (stable_frames rest).round hruns hrest
  · conv_lhs => unfold receiveFrames
    rw [hd]
    dsimp only
    rw [hx]
  · conv_lhs => unfold frameRounds
    rw [hd]
    dsimp only
    rw [hx]

theorem receiveFrames_nil {manual : Bool} {h : Host (External n)} (hr : h.Ready manual)
    (hf : h.device.frames = []) (k m : Nat) :
    h.receiveFrames m (k + 1) = some (.ok m, h) ∧ h.frameRounds (k + 1) = [] := by
  have hd := External.receive_of_nil hr.device hf h.rxBuffer.length
  constructor
  · unfold receiveFrames; rw [hd]
  · unfold frameRounds; rw [hd]

theorem receiveFrames_all {manual : Bool} : ∀ (l : List Octets) {h : Host (External n)} (k m : Nat),
    h.Ready manual → h.device.frames = l → l.length < k →
    (∃ h', h.receiveFrames m k = some (.ok (m + l.length), h') ∧ h'.device.frames = [] ∧ h'.Ready manual) ∧
      (h.frameRounds k).map (·.frame) = l
  | _, h, 0, m, _, _, hk => absurd hk (Nat.not_lt_zero _)
  | [], h, k + 1, m, hr, hf, _ => by
    obtain ⟨h1, h2⟩ := receiveFrames_nil hr hf k m
    rw [h1, h2]
    exact ⟨⟨h, rfl, hf, hr⟩, rfl⟩
  | frame :: rest, h, k + 1, m, hr, hf, hk => by
    obtain ⟨r, hframe, -, -, -, hr', hf', h1, h2⟩ := receiveFrames_cons hr hf k m
    obtain ⟨⟨h', hx, hends⟩, hl⟩ := receiveFrames_all rest k (m + 1) hr' hf'
      (by rw [List.length_cons] at hk; omega)
    rw [h1, h2, hx, List.map_cons, hl, hframe, List.length_cons, Nat.add_assoc, Nat.add_comm 1]
    exact ⟨⟨h', rfl, hends⟩, rfl⟩

/-- The resolver acts without touching frames or queues. -/
theorem refreshed_ready {manual : Bool} {h : Host (External n)} (hr : h.Ready manual) (now : Instant) :
    ∃ g, h.refreshed now = some g ∧ g.Ready manual ∧ g.device.frames = h.device.frames ∧
      ∀ x, g.queue? x = h.queue? x := by
  obtain ⟨g, hg, hflush⟩ := flush_total { h with
    now := now
    resolver := (h.resolver.expire now h.wakeups).1
    wakeups := (h.resolver.expire now h.wakeups).2 }
  exact ⟨g, hg, hr.of_stable fun P hs hp => hs.refreshed hp hg,
    hflush _ (stable_frames h.device.frames).toStableFlush rfl, hflush _ (stableFlush_queue? h.queue?) fun _ => rfl⟩

theorem Ready.lt_frameBound {manual : Bool} {h : Host (External n)} (hr : h.Ready manual) :
    h.device.frames.length < h.frameBound := by
  unfold frameBound
  rw [External.pending_eq hr.device]
  omega

/-- In every reachable host on an external device a poll takes exactly the frames that wait in the
device, in their order, each in a round of its own; and the queue of some socket changes in a round
if and only if the frame meets, with some socket, all conditions on frames. -/
theorem poll_deliveries {d : External n} (hd : d.Built) {config : Config} {h₀ h : Host (External n)}
    (e : create d config = .ok h₀) {es : List (Call (External n) × Answer)} (hr : Run KeepsDevice h₀ es h)
    (now : Instant) :
    (∃ h', h.poll now = some (.ok h.device.frames.length, h')) ∧
    (h.rounds now).map (·.frame) = h.device.frames ∧
    ∀ r ∈ h.rounds now, (∃ s, r.after.queue? s ≠ r.before.queue? s) ↔
      ∃ s, h.setup.Accepts (decide (d.personality.check = .manual)) r.frame s := by
  have hready := run_ready hd e hr
  obtain ⟨g, hg, hgr, hframes, -⟩ := refreshed_ready hready now
  have hlt := hgr.lt_frameBound
  rw [hframes] at hlt
  obtain ⟨⟨h', hx, -⟩, hl⟩ := receiveFrames_all h.device.frames g.frameBound 0 hgr hframes hlt
  have hpoll : h.poll now = some (.ok h.device.frames.length, h') := by
    rw [poll_eq, hg, Option.bind_some, hx, Nat.zero_add]
  have hrounds : h.rounds now = g.frameRounds g.frameBound := by
    unfold rounds; rw [hg]
  refine ⟨⟨h', hpoll⟩, by rw [hrounds]; exact hl, ?_⟩
  intro r hmem
  -- before each round the host is ready and set up as it was
  obtain ⟨hruns, hb, -⟩ := mem_rounds hpoll hmem
  have hbefore : r.before.Ready (decide (d.personality.check = .manual)) := hready.of_stable hb
  have hset : r.before.setup = h.setup := hb _ (stable_setup h.setup) rfl
  have hiff := (round_outcome hbefore hruns).changes_iff hbefore.sockets
  rw [hset] at hiff
  exact hiff

/-- An empty datagram from port 1 of 10.0.0.2 to port 7 of 10.0.0.1, in a frame to everyone. -/
def greeting : Octets :=
  [0xff, 0xff, 0xff, 0xff, 0xff, 0xff, 0, 0, 10, 0, 0, 2, 0x08, 0x00,
    0x45, 0, 0, 28, 0, 0, 0, 0, 64, 17, 0x66, 0xcf, 10, 0, 0, 2, 10, 0, 0, 1,
    0, 1, 0, 7, 0, 8, 0, 0]

theorem poll_deliveries_greeting : ∃ h : Host (External 1), h.device.frames = [greeting] ∧
    ∃ r ∈ h.rounds ⟨0⟩, (∃ s, r.after.queue? s ≠ r.before.queue? s) ∧ ∃ s, h.setup.Accepts false r.frame s := by
  have hx : (do
      let h ← (create ((External.create 1 {}).inject greeting).2
        (.create ⟨10, 0, 0, 1⟩ ⟨255, 255, 255, 0⟩)).toOption
      let (_, g) ← h.performAll [.acquire, .bind ⟨0, 0⟩ .unspecified 7]
      some (g.device.frames, (g.rounds ⟨0⟩).map fun r =>
        ((r.before.queue? ⟨0, 0⟩).map (·.size), (r.after.queue? ⟨0, 0⟩).map (·.size)))) =
      some ([greeting], [(some 0, some 1)]) := by decide +kernel
  obtain ⟨h, hd, hx⟩ := Option.bind_eq_some_iff.1 hx
  obtain ⟨⟨es, g⟩, hr, hx⟩ := Option.bind_eq_some_iff.1 hx
  obtain ⟨hframes, hrounds⟩ := Prod.mk.inj (Option.some.inj hx)
  obtain ⟨r, rest, he, hq, -⟩ := List.map_eq_cons_iff.1 hrounds
  obtain ⟨hbefore, hafter⟩ := Prod.mk.inj hq
  have hmem : r ∈ g.rounds ⟨0⟩ := by rw [he]; exact List.mem_cons_self ..
  have hrun : Run KeepsDevice h _ g := run_performAll _ .nil (by simp [KeepsDevice]) hr
  have hbuilt : External.Built ((External.create 1 {}).inject greeting).2 := .inject _ (.create _)
  have hiff := (poll_deliveries hbuilt (eq_ok_of_toOption hd) hrun ⟨0⟩).2.2 r hmem
  have hne : ∃ s, r.after.queue? s ≠ r.before.queue? s := ⟨⟨0, 0⟩, fun hc => by
    rw [hc, hbefore] at hafter
    cases hafter⟩
  exact ⟨g, hframes, r, hmem, hne, hiff.1 hne⟩

end UdpStack.Host
