/-
Polls until nothing is left. A poll without a bound goes on until its device has no frame (`Drains`); with the bound
that it is run with it ends the same way. On an external device it takes exactly the frames that wait there. A
loopback receives again what the host sends meanwhile: but of all that a host sends on its own there is nothing that
it replies to, and a frame of someone else makes it send one message at most (`Modest.round`). So the frames that
wait, counted twice, and as many more as the resolver can have to send, are not exceeded (`polls_drain`).
-/
import UdpStack.Proofs.Arp.Modest
import UdpStack.Proofs.Host.Frames

namespace UdpStack.Host

open Bounded Device

variable {δ : Type}

/-! ## Polls without a bound -/

/-- Frames are taken until the device has none or fails. -/
inductive Drains [Nic δ] : Host δ → (received : Nat) → Except Fault Nat × Host δ → Prop where
  | drained {h : Host δ} {m : Nat} {d : δ} : Nic.receive h.device h.rxBuffer.length = (.ok none, d) →
      Drains h m (.ok m, { h with device := d })
  | failed {h g : Host δ} {m : Nat} {f : Fault} {d : δ} : Nic.receive h.device h.rxBuffer.length = (.error f, d) →
      flush { h with device := d, deviceCounters := h.deviceCounters.countDropped } = some g →
      Drains h m (.error f, g)
  | round {h g : Host δ} {m : Nat} {frame : Octets} {d : δ} {x : Except Fault Nat × Host δ} :
      Nic.receive h.device h.rxBuffer.length = (.ok (some frame), d) →
      (receiveFrame { h with device := d } frame).bind flush = some g → Drains g (m + 1) x → Drains h m x

section drains

variable [Nic δ]

/-- A poll that does not reach its bound ends as it would without one. -/
theorem drains_of_receiveFrames : ∀ (k : Nat) {h h' : Host δ} {m n : Nat},
    h.receiveFrames m k = some (.ok n, h') → n < m + k → Drains h m (.ok n, h')
  | 0, h, h', m, n, e, hn => by
    cases e
    exact absurd hn (Nat.lt_irrefl _)
  | k + 1, h, h', m, n, e, hn => by
    unfold receiveFrames at e
    split at e
    · rename_i hx
      cases e
      exact .drained hx
    · obtain ⟨g, -, he⟩ := Option.map_eq_some_iff.1 e
      cases he
    · rename_i hx
      split at e
      · cases e
      · rename_i hy
        exact .round hx hy (drains_of_receiveFrames k e (by omega))

end drains

/-! ## Hosts that send nothing that they reply to -/

/-- The frame of a message that a host with these settings does not reply to. -/
def IsMute (manual : Bool) (config : Config) (frame : Octets) : Prop :=
  ∃ m hardware, frame = messageFrame manual config m hardware ∧ m.Unanswered config.addr

/-- A mounted host with room for every frame, whose resolver sends only such messages. -/
structure Modest [Nic δ] [Queueing δ] (manual : Bool) (own : Config) (h : Host δ) : Prop
    extends Mounted manual own h where
  modest : h.resolver.All (·.Modest own.addr)
  room : Limits.frameBuffer ≤ h.rxBuffer.length

section modest

variable [Nic δ] [Queueing δ] {manual : Bool} {config : Config} {h h' g : Host δ}

theorem modest_create {d : δ} (hd : Queueing.Built d) (e : create d config = .ok h) :
    h.Modest (decide ((Nic.personality d).check = .manual)) config := by
  have hm := mounted_create hd e
  have hresolver : h.resolver.All (·.Modest config.addr) := resolver_create e (Arp.Table.modest_create ..)
  obtain ⟨endpoint, router, -, -, rfl⟩ := create_eq_ok e
  exact ⟨hm, hresolver, (List.length_replicate ..).ge⟩

theorem modest_perform {c : Call δ} {a : Answer} (hm : h.Modest manual config) (hk : h.Tame c)
    (e : h.perform c = some (a, h')) : h'.Modest manual config := by
  refine ⟨mounted_perform hm.toMounted hk.1 e,
    resolver_perform (Arp.Table.modest_kept _) hm.agree hm.modest (fun r hc => absurd hc (hk.2 r)) e, ?_⟩
  cases effect_perform hm.agree e with
  | send hx => exact (stable_room _).send (fun _ _ hp => hp) hm.room hx
  | poll hx => exact (stable_room _).poll hm.room hx
  | _ => exact hm.room

theorem Modest.of_stable (hm : h.Modest manual config)
    (hs : ∀ P : Host δ → Prop, StablePoll P → P h → P g) : g.Modest manual config :=
  ⟨hm.toMounted.of_stable hs, hs _ (stable_resolver (Arp.Table.modest_kept _)) hm.modest,
    hs _ (stable_room _) hm.room⟩

theorem Modest.stored (hm : h.Modest manual config) : h.resolver.All (·.Stored) :=
  hm.modest.mono fun _ ht => ht.toStored

/-! ## What a flush sends -/

/-- A flush queues at most as many frames as the resolver has messages, and none that the host replies to. -/
theorem flush_mute (hm : h.Modest manual config) (e : h.flush = some h') :
    ∃ frames, Queueing.queued h'.device = Queueing.queued h.device ++ frames ∧
      frames.length ≤ h.resolver.backlog ∧ ∀ f ∈ frames, IsMute manual config f :=
  flush_queued (Arp.Table.modest_kept _) Arp.Resolver.outgoing_unanswered hm.toMounted hm.modest e

end modest

/-! ## What a frame makes a host send -/

/-- A frame leaves the resolver alone, or the resolver hears the message in it. -/
theorem receiveFrame_heard {manual : Bool} {h : Host δ} (ha : h.setup.Assembled manual) (hg : h.setup.Agree)
    (frame : Octets) : ∃ g, h.receiveFrame frame = some g ∧ (g.resolver = h.resolver ∨ ∃ t m,
      h.resolver = .table t ∧ Arp.Message.parse (content manual frame) = .ok m ∧
      g.resolver = .table (t.receive m h.now h.wakeups).2.1) := by
  by_cases hinternet : h.endpoint.Takes frame .ipv4
  · obtain ⟨g, hx⟩ := receiveFrame_total h frame
    exact ⟨g, hx, .inl (receiveFrame_internet ha hg hinternet hx).1⟩
  rw [receiveFrame_eq, show Limits.depth = 7 + 1 from rfl]
  rcases receive_ethernet (h := h.count .device .countRx) (entering_unread? h frame) 7 .device with
    ⟨upper, p, ht, hpu, -, hr⟩ | ⟨-, res, f, t, hr⟩
  · rw [stripped_eq (h := h.count .device .countRx) ha] at hpu
    rcases (etherTypes_get?_iff ha _ upper).1 ht.content with ⟨-, rfl⟩ | ⟨-, -, rfl⟩
    · exact absurd ht hinternet
    · obtain ⟨_, r, w, res, f, hx, hends⟩ := receive_resolver
        (h := (h.count .device .countRx).count .ethernet .countRx) (t := ⟨p, { (h.entering frame).info with
          srcLink := some (.stored frame 6), dstLink := some (.stored frame 0) }⟩) hpu 6 .ethernet
      rw [hr, hends]
      refine ⟨_, rfl, ?_⟩
      rcases Arp.Resolver.receivePass_heard hx with ⟨hsame, -⟩ | ⟨t, bytes, m, hresolver, hbytes, hm, hr, -⟩
      · exact .inl hsame
      · cases hpu.symm.trans hbytes
        exact .inr ⟨t, m, hresolver, hm, hr⟩
  · rw [hr]
    exact ⟨_, rfl, .inl rfl⟩

section frames

variable [Nic δ] [Queueing δ] {manual : Bool} {config : Config} {h g : Host δ}

/-- A frame makes a host send one message at most, and none if it is a message that gets no reply. -/
theorem Modest.backlog_receiveFrame (hm : h.Modest manual config) (hi : h.Idle) {frame : Octets}
    (e : h.receiveFrame frame = some g) :
    g.resolver.backlog ≤ 1 ∧ (IsMute manual config frame → g.resolver.backlog = 0) := by
  have hzero := Arp.Resolver.backlog_eq_zero hm.stored hi
  obtain ⟨_, he, hcases⟩ := receiveFrame_heard hm.assembled hm.agree frame
  cases e.symm.trans he
  rcases hcases with hsame | ⟨t, m, ht, hparse, hr⟩
  · rw [hsame, hzero]
    exact ⟨Nat.zero_le 1, fun _ => rfl⟩
  · have hs := hm.modest t ht
    have hsize : t.outbox.size = 0 := by rwa [ht] at hzero
    rw [hr]
    constructor
    · have hle := (Arp.Table.receive_received t m h.now h.wakeups).size_le hs.toStored
      rwa [hsize] at hle
    · rintro ⟨m', hardware, rfl, hmute⟩
      -- the message that is heard is the one that was sent
      rw [show content manual (messageFrame manual config m' hardware) = _ from content_trailer rfl,
        Arp.Message.parse_octets hmute.operation] at hparse
      cases hparse
      show (t.receive m h.now h.wakeups).2.1.outbox.size = 0
      rw [Arp.Table.receive_unanswered (by rw [hs.ownAddr]; exact hmute), hsize]

/-- A round queues one frame at most, and none for a message that gets no reply. What it queues gets none. -/
theorem Modest.round (hm : h.Modest manual config) (hi : h.Idle) (frame : Octets) :
    ∃ g frames, (h.receiveFrame frame).bind flush = some g ∧ g.Modest manual config ∧ g.Idle ∧
      Queueing.queued g.device = Queueing.queued h.device ++ frames ∧ frames.length ≤ 1 ∧
      (IsMute manual config frame → frames = []) ∧ ∀ f ∈ frames, IsMute manual config f := by
  obtain ⟨u, hu⟩ := receiveFrame_total h frame
  obtain ⟨g, hg, -⟩ := flush_total u
  have hum : u.Modest manual config := hm.of_stable fun _ hs hp => hs.toStableRound.receiveFrame hp hu
  obtain ⟨hone, hnone⟩ := hm.backlog_receiveFrame hi hu
  obtain ⟨frames, hq, hlen, hframes⟩ := flush_mute hum hg
  refine ⟨g, frames, by rw [hu]; exact hg, ?_, idle_flush hg, ?_, hlen.trans hone, fun hmute => ?_, hframes⟩
  · exact hum.of_stable fun _ hs hp => hs.flush hp hg
  · rw [hq, receiveFrame_device hu]
  · exact List.length_eq_zero_iff.1 (Nat.le_zero.1 (hlen.trans (hnone hmute).le))

/-- What the resolver sends at first gets no reply either. -/
theorem Modest.refreshed (hm : h.Modest manual config) (now : Instant) :
    ∃ g frames, h.refreshed now = some g ∧ g.Modest manual config ∧ g.Idle ∧
      Queueing.queued g.device = Queueing.queued h.device ++ frames ∧ frames.length ≤ Limits.outbox ∧
      ∀ f ∈ frames, IsMute manual config f := by
  have hexpired : Modest manual config { h with
      now := now
      resolver := (h.resolver.expire now h.wakeups).1
      wakeups := (h.resolver.expire now h.wakeups).2 } :=
    hm.of_stable fun _ hs hp => hs.expire now hp
  obtain ⟨g, hg, -⟩ := flush_total { h with
    now := now
    resolver := (h.resolver.expire now h.wakeups).1
    wakeups := (h.resolver.expire now h.wakeups).2 }
  obtain ⟨frames, hq, hlen, hframes⟩ := flush_mute hexpired hg
  exact ⟨g, frames, hg, hm.of_stable fun _ hs hp => hs.refreshed hp hg, idle_flush hg, hq,
    hlen.trans (Arp.Resolver.backlog_le hexpired.stored), hframes⟩

end frames

/-! ## Loopbacks -/

section loopback

variable {n : Nat} {manual : Bool} {config : Config}

/-- A loopback hands over its first frame, and a round of it follows. -/
theorem receiveFrames_first {h : Host (Device.Loopback n)} (hm : h.Modest manual config) (hi : h.Idle)
    {frame : Octets} {rest : List Octets} (hq : Queueing.queued h.device = frame :: rest) (k m : Nat) :
    ∃ (g : Host (Device.Loopback n)) (frames : List Octets),
      h.receiveFrames m (k + 1) = g.receiveFrames (m + 1) k ∧ g.Modest manual config ∧ g.Idle ∧
      Queueing.queued g.device = rest ++ frames ∧ frames.length ≤ 1 ∧
      (IsMute manual config frame → frames = []) ∧ ∀ f ∈ frames, IsMute manual config f := by
  obtain ⟨d, hx, hrest, hbuilt⟩ := Device.Loopback.receive_of_cons hm.device hq hm.room
  have hb : Modest manual config { h with device := d } :=
    ⟨hm.of_setup rfl hm.sockets hm.txBuffer hbuilt, hm.modest, hm.room⟩
  obtain ⟨g, frames, hg, hgm, hgi, hgq, hframes⟩ := hb.round hi frame
  refine ⟨g, frames, ?_, hgm, hgi, ?_, hframes⟩
  · conv_lhs => unfold receiveFrames
    rw [hx]
    dsimp only
    rw [hg]
  · rw [hgq]
    exact congrArg (· ++ frames) hrest

/-- Of the frames that wait, those behind the first ones get no reply. Each of the first ones is followed by one
frame at most, and the others by none. -/
theorem receiveFrames_drain : ∀ (k : Nat) {h : Host (Device.Loopback n)} {fs ms : List Octets} (m : Nat),
    h.Modest manual config → h.Idle → Queueing.queued h.device = fs ++ ms → (∀ f ∈ ms, IsMute manual config f) →
    2 * fs.length + ms.length < k →
    ∃ j h', h.receiveFrames m k = some (.ok (m + j), h') ∧ j ≤ 2 * fs.length + ms.length ∧
      Nic.pending h'.device = 0
  | 0, _, _, _, _, _, _, _, _, hk => absurd hk (Nat.not_lt_zero _)
  | k + 1, h, [], [], m, hm, _, hq, _, _ => by
    have hx := Device.Loopback.receive_of_nil hm.device hq h.rxBuffer.length
    refine ⟨0, h, ?_, Nat.zero_le _, by rw [Device.Loopback.pending_eq hm.device, hq]; rfl⟩
    unfold receiveFrames
    rw [hx]
    rfl
  | k + 1, h, frame :: fs, ms, m, hm, hi, hq, hms, hk => by
    -- the reply to it stands behind all others
    obtain ⟨g, frames, hgo, hgm, hgi, hgq, hone, -, hframes⟩ := receiveFrames_first hm hi hq k m
    have hgq : Queueing.queued g.device = fs ++ (ms ++ frames) := hgq.trans (List.append_assoc fs ms frames)
    rw [List.length_cons] at hk
    obtain ⟨j, h', he, hj, hend⟩ := receiveFrames_drain k (m + 1) hgm hgi hgq
      (fun f hf => (List.mem_append.1 hf).elim (hms f) (hframes f)) (by rw [List.length_append]; omega)
    rw [List.length_append] at hj
    refine ⟨j + 1, h', ?_, by rw [List.length_cons]; omega, hend⟩
    rw [hgo, he, Nat.add_assoc, Nat.add_comm 1]
  | k + 1, h, [], frame :: ms, m, hm, hi, hq, hms, hk => by
    obtain ⟨g, frames, hgo, hgm, hgi, hgq, -, hnone, -⟩ := receiveFrames_first hm hi hq k m
    rw [hnone (hms frame (List.mem_cons_self ..)), List.append_nil] at hgq
    rw [List.length_cons] at hk
    obtain ⟨j, h', he, hj, hend⟩ := receiveFrames_drain k (m + 1) hgm hgi
      (show Queueing.queued g.device = [] ++ ms from hgq)
      (fun f hf => hms f (List.mem_cons_of_mem _ hf)) (by omega)
    refine ⟨j + 1, h', ?_, by rw [List.length_cons]; omega, hend⟩
    rw [hgo, he, Nat.add_assoc, Nat.add_comm 1]

end loopback

/-! ## Polls -/

/-- A poll takes some number of frames, as it would without a bound, and leaves none. -/
def Exhausts [Nic δ] (h : Host δ) (now : Instant) (k : Nat) : Prop :=
  ∃ g h', h.refreshed now = some g ∧ Drains g 0 (.ok k, h') ∧ h.poll now = some (.ok k, h') ∧
    Nic.pending h'.device = 0

theorem exhausts_of_receiveFrames [Nic δ] {h g h' : Host δ} {now : Instant} {k : Nat} (hg : h.refreshed now = some g)
    (hx : g.receiveFrames 0 g.frameBound = some (.ok k, h')) (hk : k < g.frameBound)
    (hend : Nic.pending h'.device = 0) : h.Exhausts now k := by
  refine ⟨g, h', hg, drains_of_receiveFrames _ hx (by omega), ?_, hend⟩
  rw [poll_eq, hg]
  exact hx

section exhausts

variable {n : Nat} {manual : Bool} {config : Config}

theorem Ready.exhausts {h : Host (External n)} (hr : h.Ready manual) (now : Instant) :
    h.Exhausts now (Nic.pending h.device) := by
  obtain ⟨g, hg, hgr, hframes, -⟩ := refreshed_ready hr now
  have hlt := hgr.lt_frameBound
  rw [hframes] at hlt
  obtain ⟨⟨h', hx, hnone, hr'⟩, -⟩ := receiveFrames_all h.device.frames g.frameBound 0 hgr hframes hlt
  rw [Nat.zero_add] at hx
  rw [External.pending_eq hr.device]
  exact exhausts_of_receiveFrames hg hx hlt (by rw [External.pending_eq hr'.device, hnone]; rfl)

theorem Modest.exhausts {h : Host (Device.Loopback n)} (hm : h.Modest manual config) (now : Instant) :
    ∃ k ≤ 2 * Nic.pending h.device + Limits.outbox, h.Exhausts now k := by
  obtain ⟨g, frames, hg, hgm, hgi, hq, hlen, hframes⟩ := hm.refreshed now
  have hbound : 2 * (Queueing.queued h.device).length + frames.length < g.frameBound := by
    unfold frameBound
    rw [Device.Loopback.pending_eq hgm.device, hq, List.length_append]
    omega
  obtain ⟨j, h', hx, hj, hend⟩ := receiveFrames_drain g.frameBound 0 hgm hgi hq hframes hbound
  rw [Nat.zero_add] at hx
  refine ⟨j, ?_, exhausts_of_receiveFrames hg hx (hj.trans_lt hbound) hend⟩
  rw [Device.Loopback.pending_eq hm.device]
  omega

end exhausts

/-- Every poll comes to an end, and no frame is left then. On an external device it takes the frames that wait
there; on a loopback at most twice as many, and as many more as the resolver can have to send. The program may
leave its device in any state that it can have, but may do no more to the resolver than enter addresses. -/
theorem polls_drain {n : Nat} (config : Config) (now : Instant) :
    (∀ {d : External n}, d.Built → ∀ {h₀ h : Host (External n)}, create d config = .ok h₀ →
      ∀ {es : List (Call (External n) × Answer)}, Run Tame h₀ es h → h.Exhausts now (Nic.pending h.device)) ∧
    ∀ {d : Device.Loopback n}, d.Built → ∀ {h₀ h : Host (Device.Loopback n)}, create d config = .ok h₀ →
      ∀ {es : List (Call (Device.Loopback n) × Answer)}, Run Tame h₀ es h →
      ∃ k ≤ 2 * Nic.pending h.device + Limits.outbox, h.Exhausts now k := by
  constructor
  · intro d hd h₀ h e es hrun
    have hkeeps : ∀ (g : Host (External n)) (c : Call (External n)), g.Tame c → g.KeepsDevice c := by
      rintro g (_ | _ | _ | _ | _ | _ | _ | _ | _ | _ | _ | _ | d | _ | _) hc
      case device => exact hc.1 d rfl
      all_goals trivial
    exact (run_ready hd e (hrun.mono hkeeps)).exhausts now
  · intro d hd h₀ h e es hrun
    exact (hrun.keeps modest_perform (modest_create hd e)).exhausts now

/-- A question of 10.0.0.2 for 10.0.0.1. -/
def inquiry : Octets :=
  messageFrame false ⟨⟨2, 0, 0, 0, 0, 2⟩, ⟨10, 0, 0, 2⟩, ⟨255, 255, 255, 0⟩, .table⟩
    ⟨.request, ⟨2, 0, 0, 0, 0, 2⟩, ⟨10, 0, 0, 2⟩, .zero, ⟨10, 0, 0, 1⟩⟩ .broadcast

theorem polls_drain_inquiry :
    (∃ h : Host (External 4), h.device.frames = [inquiry] ∧ h.Exhausts ⟨0⟩ 1) ∧
    ∃ h : Host (Device.Loopback 4), Queueing.queued h.device = [inquiry] ∧ h.Exhausts ⟨0⟩ 2 := by
  have hpolls {n : Nat} := polls_drain (n := n) ⟨⟨2, 0, 0, 0, 0, 1⟩, ⟨10, 0, 0, 1⟩, ⟨255, 255, 255, 0⟩, .table⟩ ⟨0⟩
  constructor
  · have hx : (do
        let h ← (create (External.create 4 {})
          ⟨⟨2, 0, 0, 0, 0, 1⟩, ⟨10, 0, 0, 1⟩, ⟨255, 255, 255, 0⟩, .table⟩).toOption
        let h ← h.performAll [.device ((External.create 4 {}).inject inquiry).2]
        some (decide (h.2.device.frames = [inquiry] ∧ Nic.pending h.2.device = 1))) = some true := by
      decide +kernel
    obtain ⟨h₀, e, hx⟩ := Option.bind_eq_some_iff.1 hx
    obtain ⟨⟨es, h⟩, hr, hx⟩ := Option.bind_eq_some_iff.1 hx
    simp only [Option.some.injEq, decide_eq_true_eq] at hx
    have hbuilt : Queueing.Built ((External.create 4 {}).inject inquiry).2 := External.Built.inject _ (.create _)
    have hrun : Run Tame h₀ es h :=
      run_performAll _ .nil (by simpa [Tame, SparesDevice, SparesResolver] using fun _ => hbuilt) hr
    have hends := hpolls.1 (.create {}) (eq_ok_of_toOption e) hrun
    rw [hx.2] at hends
    exact ⟨h, hx.1, hends⟩
  · have hx : (do
        let h ← (create (Device.Loopback.create 4 {})
          ⟨⟨2, 0, 0, 0, 0, 1⟩, ⟨10, 0, 0, 1⟩, ⟨255, 255, 255, 0⟩, .table⟩).toOption
        let h ← h.performAll [.device (Nic.transmit (Device.Loopback.create 4 {}) inquiry).2]
        let g ← h.2.poll ⟨0⟩
        some (decide (Queueing.queued h.2.device = [inquiry] ∧ g.1.toOption = some 2))) = some true := by
      decide +kernel
    obtain ⟨h₀, e, hx⟩ := Option.bind_eq_some_iff.1 hx
    obtain ⟨⟨es, h⟩, hr, hx⟩ := Option.bind_eq_some_iff.1 hx
    obtain ⟨⟨polled, g⟩, hpoll, hx⟩ := Option.bind_eq_some_iff.1 hx
    simp only [Option.some.injEq, decide_eq_true_eq] at hx
    have hbuilt : Queueing.Built (Nic.transmit (Device.Loopback.create 4 {}) inquiry).2 :=
      Device.Loopback.Built.transmit _ (.create _)
    have hrun : Run Tame h₀ es h :=
      run_performAll _ .nil (by simpa [Tame, SparesDevice, SparesResolver] using fun _ => hbuilt) hr
    obtain ⟨k, -, hends⟩ := hpolls.2 (.create {}) (eq_ok_of_toOption e) hrun
    obtain ⟨_, _, -, -, hk, -⟩ := id hends
    cases hpoll.symm.trans hk
    obtain rfl : k = 2 := Option.some.inj hx.2
    exact ⟨h, hx.1, hends⟩

end UdpStack.Host
