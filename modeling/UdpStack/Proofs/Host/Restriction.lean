/-
What a binding keeps out of a socket. Every pass that goes up brings one internet datagram, from a frame or from
behind the loopback, and adds what it holds to the queue of at most one socket, whose binding it fits
(`Pass.Begins.admits`). Nothing else adds to a queue (`gains_perform`). So while a socket is bound it takes only
what was sent to its port and to its address (`bound_socket_restricts`), unless that address starts with zero: not
only the address that stands for any address makes a socket take everything (`bound_socket_open_zero`).
-/
import UdpStack.Proofs.Host.Passes

namespace UdpStack.Host

open Bounded Device Octets

variable {δ : Type}

/-! ## Internet datagrams -/

/-- The internet datagram that a pass brings up: the content of a frame, or a packet behind the loopback. -/
def Pass.packet? (manual : Bool) : Pass δ → Option Octets
  | .up _ t .ethernet _ => t.packet.unread?.bind fun frame =>
      if word frame 12 = 0x0800 then some (content manual frame) else none
  | .up _ t .ipv4 _ => t.packet.unread?
  | _ => none

/-- An internet datagram with a user datagram for a bound socket. -/
structure Fits (b : Udp.Binding) (packet : Octets) : Prop where
  internet : Ipv4.Header.Sound packet true
  protocol : byte packet 9 = 17
  user : Udp.Header.Sound (segment packet) (.stored packet 12) (.stored packet 16) true
  port : word (segment packet) 2 = b.port.toNat
  addr : b.addr.isUnspecified = false → Ipv4.Address.stored packet 16 = b.addr

/-- The datagram that a socket keeps of a packet. -/
def kept (packet : Octets) : Udp.Datagram := received (.stored packet 12) (segment packet)

/-- A packet was added to the queue of a socket that it fits, or no queue changed. -/
def Admits (u : Setup) (packet : Octets) (h h' : Host δ) : Prop :=
  (∃ s b, u.bindings s = some (some b) ∧ Fits b packet ∧ Appended h h' s (kept packet)) ∨
    ∀ x, h'.queue? x = h.queue? x

theorem Admits.of_queues {u : Setup} {packet : Octets} {h g h' : Host δ} (hg : ∀ x, g.queue? x = h.queue? x)
    (hd : Admits u packet g h') : Admits u packet h h' := by
  rcases hd with ⟨s, b, hb, hfits, happend⟩ | hx
  · exact .inl ⟨s, b, hb, hfits, happend.of_queues hg⟩
  · exact .inr fun x => (hx x).trans (hg x)

/-! ## One pass -/

theorem fits_addr {b : Udp.Binding} {dst : Ipv4.Address} (h : b.addr.isUnspecified = true ∨ b.addr = dst) :
    b.addr.isUnspecified = false → dst = b.addr := by
  intro hb
  rcases h with h | h
  · rw [hb] at h; cases h
  · exact h.symm

/-- A frame that reaches a socket holds a packet that fits it. -/
theorem Setup.Accepts.fits {u : Setup} {manual : Bool} {frame : Octets} {s : Handle} (ha : u.Accepts manual frame s) :
    ∃ b, u.bindings s = some (some b) ∧ Fits b (content manual frame) := by
  obtain ⟨b, hb, hport, haddr⟩ := ha.routes.takes.bound
  exact ⟨b, hb, { ha.routes.sound with checksum := .inl rfl }, ha.routes.protocol,
    { ha.routes.takes.sound with checksum := .inl rfl }, hport.symm, fits_addr haddr⟩

/-- Whoever hands a packet to the internet layer, it reaches only a socket that it fits. -/
theorem ipv4_admits {manual : Bool} {h : Host δ} (ha : h.setup.Assembled manual) (hg : h.setup.Agree)
    (hw : h.sockets.All Udp.Socket.WF) {t : Transit} {packet : Octets} (hu : t.packet.unread? = some packet)
    (depth : Nat) (caller : Layer) : ∃ res g u, h.receive t (depth + 3) .ipv4 caller = some (res, g, u) ∧
      Admits h.setup packet h g := by
  rcases receive_ipv4 hu (depth + 2) caller (h := h) with ⟨upper, p, ht, hpu, -, hr⟩ | ⟨-, res, f, u, hr⟩
  · obtain ⟨hp, rfl⟩ := (protocols_get?_iff ha _ upper).1 ht.content
    rw [hr]
    rcases receive_udp (h := h.count .ipv4 .countRx) (t := ⟨p, { t.info with
        srcAddr := .stored packet 12, dstAddr := .stored packet 16 }⟩) hpu (depth + 1) .ipv4 with
      ⟨upper, q, hq, hqu, -, hr'⟩ | ⟨-, res, f, u, hr'⟩
    · obtain ⟨s, b, rfl, hb, hport⟩ := (hg.agree _ upper).1 hq.port
      obtain ⟨socket, hs, hsb⟩ := Option.map_eq_some_iff.1 hb
      obtain ⟨res, g, u, hr'', hturned⟩ := socket_outcome (h := (h.count .ipv4 .countRx).count .udp .countRx)
        (sockets_count (sockets_count hw _ _) _ _) (s := s) hs
        (t := ⟨q, { t.info with
          srcAddr := .stored packet 12, dstAddr := .stored packet 16
          srcPort := UInt16.ofNat (word (segment packet) 0)
          dstPort := UInt16.ofNat (word (segment packet) 2) }⟩) hqu depth .udp
      rw [hr']
      refine ⟨res, g, u, hr'', Admits.of_queues (g := (h.count .ipv4 .countRx).count .udp .countRx)
        (fun x => (queue?_count _ .udp .countRx x).trans (queue?_count h ..)) ?_⟩
      rcases hturned.outcome with ⟨x, ⟨rfl, haccepts⟩, happend⟩ | ⟨-, hx⟩
      · refine .inl ⟨x, b, hb, ⟨{ ht.sound with checksum := .inl rfl }, hp,
          { hq.sound with checksum := .inl rfl }, ?_, fits_addr ((accepts_iff hsb _).1 haccepts)⟩, happend⟩
        rw [hport]
        exact (toNat_ofNat_word _ _).symm
      · exact .inr hx
    · rw [hr']
      exact ⟨res, _, u, rfl, .inr fun x => (queue?_count _ .udp f x).trans (queue?_count h ..)⟩
  · rw [hr]
    exact ⟨res, _, u, rfl, .inr (queue?_count h .ipv4 f)⟩

/-! ## What was added -/

/-- Adding a datagram shows in the queue. -/
theorem Appended.changes {h h' : Host δ} (hw : h.sockets.All Udp.Socket.WF) {s : Handle} {d : Udp.Datagram}
    (ha : Appended h h' s d) : h'.queue? s ≠ h.queue? s := by
  obtain ⟨socket, q, hs, hq, hx⟩ := ha
  have hne : q ≠ socket.queue := Queue.push_ne (by decide) (hw s socket hs).queue hq
  rw [hx, if_pos rfl]
  unfold queue?
  rw [hs]
  exact fun he => hne (Option.some.inj he)

/-- The hosts before and after tell which datagram was added, and where. -/
theorem Appended.unique {h h' : Host δ} (hw : h.sockets.All Udp.Socket.WF) {s x : Handle} {d e : Udp.Datagram}
    (hs : Appended h h' s d) (hx : Appended h h' x e) : x = s ∧ e = d := by
  obtain rfl : x = s := by
    obtain ⟨_, _, -, -, hothers⟩ := hs
    by_contra hne
    exact hx.changes hw ((hothers x).trans (if_neg hne))
  obtain ⟨old, new, hold, hnew, hlist⟩ := hs.queue hw
  obtain ⟨old', new', hold', hnew', hlist'⟩ := hx.queue hw
  cases hold.symm.trans hold'
  cases hnew.symm.trans hnew'
  rw [hlist] at hlist'
  exact ⟨rfl, (List.cons.inj (List.append_cancel_left hlist')).1.symm⟩

/-- Stacking headers leaves the queues alone. -/
theorem stableDown_queue? [Nic δ] (q : Handle → Option (Queue Udp.Datagram Limits.socketQueue)) :
    StableDown fun h : Host δ => ∀ x, h.queue? x = q x where
  count layer f hp x := (queue?_count _ layer f x).trans (hp x)
  numbered _ hp := hp

variable [Nic δ]

/-- The host before a pass. -/
def Pass.before : Pass δ → Host δ
  | .up h _ _ _ => h
  | .down h _ _ _ => h

/-- The host after a pass. -/
def Pass.after? : Pass δ → Option (Host δ)
  | .up h t layer caller => (h.receive t Limits.depth layer caller).map (·.2.1)
  | .down h t layer caller => (h.descend t Limits.depth layer caller).map (·.2.1)

/-- A pass adds a datagram to the queue of a socket. -/
def Pass.Appends (p : Pass δ) (s : Handle) (d : Udp.Datagram) : Prop :=
  ∃ g, p.after? = some g ∧ Appended p.before g s d

omit [Nic δ] in
theorem Pass.Begins.placed {u : Setup} {p : Pass δ} (hp : p.Begins u) : p.before.Placed u := by
  cases hp <;> assumption

/-- What a pass may do to the queues: it adds the packet that it brings to one that the packet fits, or nothing. -/
theorem Pass.Begins.admits {manual : Bool} {u : Setup} (ha : u.Assembled manual) (hg : u.Agree) {p : Pass δ}
    (hp : p.Begins u) : ∃ g, p.after? = some g ∧
      ((∀ x, g.queue? x = p.before.queue? x) ∨
        ∃ packet s b, p.packet? manual = some packet ∧ u.bindings s = some (some b) ∧ Fits b packet ∧
          Appended p.before g s (kept packet)) := by
  cases hp with
  | @framed h t frame hs hu hk =>
    obtain rfl := hs.setup
    obtain ⟨res, g, v, hr, hturned⟩ := ethernet_outcome ha hg hs.sockets hu hk 4 .device
    refine ⟨g, congrArg (Option.map _) hr, ?_⟩
    rcases hturned.outcome with ⟨s, haccepts, happend⟩ | ⟨-, hx⟩
    · obtain ⟨b, hb, hfits⟩ := haccepts.fits
      refine .inr ⟨_, s, b, ?_, hb, hfits, happend⟩
      show (t.packet.unread?.bind _) = _
      rw [hu, Option.bind_some, if_pos haccepts.etherType]
    · exact .inl hx
  | @turned h t packet hs hu =>
    obtain rfl := hs.setup
    obtain ⟨res, g, v, hr, hadmits⟩ := ipv4_admits ha hg hs.sockets hu 5 .loopback
    refine ⟨g, congrArg (Option.map _) hr, ?_⟩
    rcases hadmits with ⟨s, b, hb, hfits, happend⟩ | hx
    · exact .inr ⟨packet, s, b, hu, hb, hfits, happend⟩
    · exact .inl hx
  | @sent h t layer caller hs hp =>
    obtain ⟨layers, ⟨r, g, v⟩, -, -, he, -⟩ := ends_down ha hs.setup hp layer caller
    exact ⟨g, congrArg (Option.map _) he,
      .inl ((stableDown_queue? h.queue?).descend _ (.inr fun _ _ hq => hq) (fun _ => rfl) he)⟩

/-- A pass adds only a packet that it brings, to a socket that the packet fits. -/
theorem Pass.Begins.appends {manual : Bool} {u : Setup} (ha : u.Assembled manual) (hg : u.Agree) {p : Pass δ}
    (hp : p.Begins u) {s : Handle} {b : Udp.Binding} (hb : u.bindings s = some (some b)) {d : Udp.Datagram}
    (happend : p.Appends s d) : ∃ packet, p.packet? manual = some packet ∧ Fits b packet ∧ d = kept packet := by
  obtain ⟨g, hafter, happend⟩ := happend
  obtain ⟨g', hafter', hadmits⟩ := hp.admits ha hg
  cases hafter.symm.trans hafter'
  have hw := hp.placed.sockets
  rcases hadmits with hsame | ⟨packet, x, c, hpacket, hc, hfits, happend'⟩
  · exact absurd (hsame s) (happend.changes hw)
  · obtain ⟨rfl, rfl⟩ := happend.unique hw happend'
    cases hb.symm.trans hc
    exact ⟨packet, hpacket, hfits, rfl⟩

/-! ## Nothing else is added -/

/-- The datagrams that wait in a socket, none if there is no socket. -/
def datagrams (h : Host δ) (s : Handle) : List Udp.Datagram := ((h.queue? s).map (·.toList)).getD []

/-- From one host to another a socket gains only datagrams that passes add, behind those that wait already, and the
first ones may go. -/
def Gains (s : Handle) (ps : List (Pass δ)) (h h' : Host δ) : Prop :=
  ∃ ds k, (∀ d ∈ ds, ∃ p ∈ ps, p.Appends s d) ∧ datagrams h' s = (datagrams h s ++ ds).drop k

theorem Gains.of_drop {s : Handle} {ps : List (Pass δ)} {h h' : Host δ} (k : Nat)
    (hd : datagrams h' s = (datagrams h s).drop k) : Gains s ps h h' :=
  ⟨[], k, nofun, by rw [List.append_nil]; exact hd⟩

theorem Gains.of_queue {s : Handle} {ps : List (Pass δ)} {h h' : Host δ} (hq : h'.queue? s = h.queue? s) :
    Gains s ps h h' :=
  .of_drop 0 (by unfold datagrams; rw [hq, List.drop_zero])

omit [Nic δ] in
/-- What is taken away in front of a list is taken away in front of what follows it too. -/
theorem drop_append_eq {α : Type} (l m : List α) (k : Nat) : l.drop k ++ m = (l ++ m).drop (min k l.length) := by
  rw [List.drop_append_of_le_length (Nat.min_le_right ..)]
  congr 1
  rcases Nat.le_total k l.length with hk | hk
  · rw [Nat.min_eq_left hk]
  · rw [Nat.min_eq_right hk, List.drop_length, List.drop_of_length_le hk]

theorem Gains.trans {s : Handle} {ps qs : List (Pass δ)} {h g h' : Host δ} (hp : Gains s ps h g)
    (hq : Gains s qs g h') : Gains s (ps ++ qs) h h' := by
  obtain ⟨ds, k, hds, hd⟩ := hp
  obtain ⟨es, m, hes, he⟩ := hq
  refine ⟨ds ++ es, min k (datagrams h s ++ ds).length + m, fun d hmem => ?_, ?_⟩
  · rcases List.mem_append.1 hmem with hmem | hmem
    · obtain ⟨p, hp, hd⟩ := hds d hmem
      exact ⟨p, List.mem_append_left _ hp, hd⟩
    · obtain ⟨p, hp, hd⟩ := hes d hmem
      exact ⟨p, List.mem_append_right _ hp, hd⟩
  · rw [he, hd, drop_append_eq, List.drop_drop, List.append_assoc]

/-- A pass adds at most one datagram to a queue, which may give up its first for it. -/
theorem Pass.Begins.gains {manual : Bool} {u : Setup} (ha : u.Assembled manual) (hg : u.Agree) {p : Pass δ}
    (hp : p.Begins u) {g : Host δ} (hafter : p.after? = some g) (s : Handle) : Gains s [p] p.before g := by
  obtain ⟨g', hafter', hadmits⟩ := hp.admits ha hg
  cases hafter.symm.trans hafter'
  rcases hadmits with hsame | ⟨packet, x, c, -, -, -, happend⟩
  · exact .of_queue (hsame s)
  · by_cases hx : s = x
    · subst hx
      obtain ⟨old, new, hold, hnew, hlist⟩ := happend.queue hp.placed.sockets
      refine ⟨[kept packet], min (if old.isFull then 1 else 0) old.toList.length, ?_, ?_⟩
      · rintro d hmem
        cases List.mem_singleton.1 hmem
        exact ⟨p, List.mem_cons_self .., g, hafter, happend⟩
      · unfold datagrams
        rw [hold, hnew]
        exact hlist.trans (drop_append_eq ..)
    · obtain ⟨_, _, -, -, hothers⟩ := happend
      exact .of_queue ((hothers s).trans (if_neg hx))

section calls

variable {manual : Bool} {u : Setup} (ha : u.Assembled manual) (hg : u.Agree) (s : Handle)

include ha hg

theorem gains_finish : ∀ (path : List (Layer × Layer)) {h h' : Host δ} {t t' : Transit} {r : Except Fault Unit},
    h.Placed u → t.packet.InOrder → (∀ x ∈ path, x.1 = .loopback → x.2 = .ipv4) →
    h.finish t path = some (r, h', t') → Gains s (h.finishPasses t path) h h'
  | [], _, _, _, _, _, _, _, _, e => by
    cases e
    exact .of_queue rfl
  | (layer, caller) :: rest, h, h', t, t', r, hs, hp, hpath, e => by
    have hstep : ∀ {g : Host δ} {v : Transit} {r : Except Fault Finish} {k : Counters → Counters},
        h.finishAt layer caller t = some (r, g, v) → Gains s [] h (g.count layer k) := fun e => by
      refine .of_queue ((queue?_count ..).trans ?_)
      rcases finishAt_cases e with rfl | ⟨frame, rfl⟩ <;> rfl
    have hbegins := begins_finish ((layer, caller) :: rest) hs hp hpath
    unfold Host.finish at e
    split at e
    · cases e
    · rename_i hat
      cases e
      unfold finishPasses
      rw [hat]
      exact hstep hat
    · rename_i g v hat
      unfold finishPasses
      rw [hat]
      exact (hstep hat).trans (gains_finish rest
        ((stable_placed u).count _ _ ((stable_placed u).toStable.finishAt hs hat)) (finishAt_inOrder hat hp).1
        (fun x hx => hpath x (List.mem_cons_of_mem _ hx)) e)
    · rename_i target g v hat
      obtain ⟨⟨res, g', v'⟩, hr, he⟩ := Option.map_eq_some_iff.1 e
      cases he
      unfold finishPasses at hbegins ⊢
      rw [hat] at hbegins ⊢
      have hup := (hbegins _ (List.mem_cons_self ..)).gains ha hg (congrArg (Option.map _) hr) s
      exact (hstep hat).trans hup

theorem gains_transmit {h h' : Host δ} {t t' : Transit} {r : Except Fault Unit} (hs : h.Placed u)
    (hp : t.packet.InOrder) {layer : Layer} (hlayer : layer ≠ .loopback) (caller : Layer)
    (e : h.transmit t layer caller = some (r, h', t')) : Gains s (h.transmitPasses t layer caller) h h' := by
  have hdown : ∀ {x : Except Fault (List (Layer × Layer)) × Host δ × Transit},
      h.descend t Limits.depth layer caller = some x → Gains s [.down h t layer caller] h x.2.1 := fun e =>
    .of_queue ((stableDown_queue? h.queue?).descend _ (.inr fun _ _ hq => hq) (fun _ => rfl) e s)
  unfold transmitPasses
  rcases transmit_cases e with ⟨f, -, hd⟩ | ⟨path, g, v, hd, hf⟩
  · rw [hd]
    exact hdown hd
  · rw [hd]
    exact (hdown hd).trans (gains_finish ha hg s path
      ((stable_placed u).descend _ (.inr fun _ _ hs => ⟨hs.setup, hs.sockets⟩) hs hd)
      ((descend_stacked _ hd).inOrder hp).1 (path_loopback (by rw [hs.setup]; exact ha) hp hlayer hd) hf)

omit ha hg in
/-- The messages of the resolver add nothing. -/
theorem gains_flush {h h' : Host δ} {ps : List (Pass δ)} (e : h.flush = some h') : Gains s ps h h' :=
  .of_queue ((stableFlush_queue? h.queue?).flush (fun _ => rfl) e s)

theorem gains_receiveFrame {h h' : Host δ} (hs : h.Placed u) {frame : Octets} (e : h.receiveFrame frame = some h') :
    Gains s (h.receiveFramePasses frame) h h' := by
  rw [receiveFrame_eq] at e
  obtain ⟨⟨res, g, v⟩, hr, rfl⟩ := Option.map_eq_some_iff.1 e
  have hup := (begins_receiveFrame hs frame _ (List.mem_cons_self ..)).gains ha hg
    (congrArg (Option.map _) hr) s
  have hstart : Gains s ([] : List (Pass δ)) h (h.count .device .countRx) := .of_queue (queue?_count ..)
  exact hstart.trans hup

theorem gains_receiveFrames : ∀ (k : Nat) {h h' : Host δ} {n : Nat} {r : Except Fault Nat}, h.Placed u →
    h.receiveFrames n k = some (r, h') → Gains s (h.receiveFramesPasses k) h h'
  | 0, _, _, _, _, _, e => by
    cases e
    exact .of_queue rfl
  | k + 1, h, h', n, r, hs, e => by
    unfold Host.receiveFrames at e
    split at e
    · rename_i hx
      cases e
      unfold receiveFramesPasses
      rw [hx]
      exact .of_queue rfl
    · rename_i f device hx
      unfold receiveFramesPasses
      rw [hx]
      obtain ⟨g, hflush, he⟩ := Option.map_eq_some_iff.1 e
      cases he
      have hstart : Gains s ([] : List (Pass δ)) h
          { h with device := device, deviceCounters := h.deviceCounters.countDropped } := .of_queue rfl
      exact hstart.trans (gains_flush s hflush)
    · rename_i frame device hx
      have hs' : Placed u { h with device := device } := ⟨hs.setup, hs.sockets⟩
      split at e
      · cases e
      · rename_i g' hy
        obtain ⟨g, hframe, hflush⟩ := Option.bind_eq_some_iff.1 hy
        have hgs : g.Placed u := (stable_placed u).toStableRound.receiveFrame hs' hframe
        unfold receiveFramesPasses
        rw [hx]
        dsimp only
        rw [hframe]
        dsimp only
        rw [hflush]
        have hstart : Gains s ([] : List (Pass δ)) h { h with device := device } := .of_queue rfl
        exact (hstart.trans (gains_receiveFrame ha hg s hs' hframe)).trans ((gains_flush s hflush).trans
          (gains_receiveFrames k ((stable_placed u).toStableFlush.flush hgs hflush) e))

theorem gains_poll {h h' : Host δ} (hs : h.Placed u) {now : Instant} {r : Except Fault Nat}
    (e : h.poll now = some (r, h')) : Gains s (h.pollPasses now) h h' := by
  obtain ⟨g, hrefreshed, hframes, -⟩ := poll_cases e
  have hexpire : Gains s ([] : List (Pass δ)) h { h with
      now := now
      resolver := (h.resolver.expire now h.wakeups).1
      wakeups := (h.resolver.expire now h.wakeups).2 } := .of_queue rfl
  unfold pollPasses
  rw [hrefreshed]
  exact (hexpire.trans (gains_flush s hrefreshed)).trans
    (gains_receiveFrames ha hg s _ ((stable_placed u).refreshed hs hrefreshed) hframes)

theorem gains_send {h h' : Host δ} (hs : h.Placed u) {x : Handle} {task : Task} {dst : Ipv4.Address}
    {port : UInt16} {payload : Octets} {r : Poll Nat} (e : h.send x task dst port payload = some (r, h')) :
    Gains s (h.sendPasses x task dst port payload) h h' := by
  unfold Host.send at e
  unfold sendPasses
  by_cases hlarge : h.mtu < payload.length
  · rw [if_pos hlarge] at e ⊢
    cases e
    exact .of_queue rfl
  rw [if_neg hlarge] at e ⊢
  by_cases hdead : (h.sockets.get? x).isNone = true
  · rw [if_pos hdead] at e ⊢
    cases e
    exact .of_queue rfl
  rw [if_neg hdead] at e ⊢
  cases hpush : (Packet.create h.txBuffer Limits.headerRoom).bind fun p => p.push payload with
  | error f =>
    rw [hpush] at e
    obtain ⟨g, hflush, he⟩ := Option.map_eq_some_iff.1 e
    cases he
    exact gains_flush s hflush
  | ok p =>
    rw [hpush] at e
    dsimp only at e ⊢
    cases hx : h.transmit ⟨p, { dstAddr := dst, dstPort := port, task := some task }⟩ (.socket x) .user with
    | none =>
      rw [hx] at e
      cases e
    | some y =>
      obtain ⟨result, g, v⟩ := y
      rw [hx] at e
      obtain ⟨g', hflush, he⟩ := Option.map_eq_some_iff.1 e
      obtain rfl : g' = h' := by split at he <;> cases he <;> rfl
      have hbuffer : Gains s ([] : List (Pass δ)) g { g with txBuffer := v.packet.bytes } := .of_queue rfl
      exact (gains_transmit ha hg s hs (bind_push_inOrder hpush) (by nofun) _ hx).trans
        (hbuffer.trans (gains_flush s hflush))

omit ha hg

omit [Nic δ] in
theorem datagrams_of_get? {h : Host δ} {x : Handle} {socket : Udp.Socket} (hx : h.sockets.get? x = some socket) :
    datagrams h x = socket.queue.toList := by
  unfold datagrams queue?
  rw [hx]
  rfl

/-- A socket whose first datagrams go gains nothing. -/
theorem gains_set {h : Host δ} {x : Handle} {socket socket' : Udp.Socket} (hx : h.sockets.get? x = some socket)
    (k : Nat) (hq : socket'.queue.toList = socket.queue.toList.drop k) :
    Gains s [] h { h with sockets := h.sockets.set x socket' } := by
  have hset := Pool.map_get?_set hx socket' (·.queue) s
  by_cases hs : s = x
  · subst hs
    refine .of_drop k ?_
    rw [datagrams_of_get? hx, ← hq]
    exact datagrams_of_get? (by rw [Pool.get?_set, hx]; simp)
  · exact .of_queue (hset.trans (if_neg hs))

/-- A new socket has no datagrams. -/
theorem gains_acquired {h : Host δ} {x : Handle} {p : Pool Udp.Socket Limits.sockets}
    (hp : h.sockets.acquire .empty = .ok (x, p)) : Gains s [] h { h with sockets := p } := by
  obtain ⟨hnone, hget⟩ := Pool.get?_acquire hp
  by_cases hs : s = x
  · subst hs
    refine .of_drop 0 ?_
    have hnew : p.get? s = some .empty := (hget s).trans (if_pos rfl)
    unfold datagrams queue?
    rw [hnew, hnone]
    rfl
  · exact .of_queue (congrArg (Option.map _) ((hget s).trans (if_neg hs)))

/-- A socket that is given back keeps none. -/
theorem gains_vacated (h : Host δ) (x : Handle) : Gains s [] h (h.vacated x) := by
  have hget := Pool.get?_release h.sockets x s
  by_cases hs : s = x
  · refine .of_drop (datagrams h s).length ?_
    rw [List.drop_length]
    unfold datagrams queue? vacated
    rw [hget, if_pos hs]
    rfl
  · refine .of_queue ?_
    unfold queue? vacated
    rw [hget, if_neg hs]

theorem gains_bound {h : Host δ} {x : Handle} {socket : Udp.Socket} (hx : h.sockets.get? x = some socket)
    (b : Udp.Binding) (ports : Udp.Ports) : Gains s [] h (h.bound x socket b ports) := by
  have hset : Gains s [] h { h with sockets := h.sockets.set x { socket with binding := some b } } :=
    gains_set s hx 0 rfl
  exact hset.trans (.of_queue rfl)

theorem gains_unbound {h : Host δ} {x : Handle} {socket : Udp.Socket} (hx : h.sockets.get? x = some socket)
    (b : Udp.Binding) : Gains s [] h (h.unbound x socket b) := by
  have hset : Gains s [] h { h with
      sockets := h.sockets.set x { socket with binding := none, reserved := none, waiter := .empty } } :=
    gains_set s hx 0 rfl
  exact hset.trans (.of_queue rfl)

/-- Whatever a call does, a socket gains only datagrams that its passes add. -/
theorem gains_perform {h h' : Host δ} (hs : h.Steady manual) {c : Call δ} {a : Answer}
    (e : h.perform c = some (a, h')) : Gains s (h.callPasses c) h h' := by
  have hplaced : h.Placed h.setup := ⟨rfl, hs.sockets⟩
  cases effect_perform hs.agree e with
  | acquire hp => exact gains_acquired s hp
  | release _ => exact gains_vacated s h _
  | releaseBound hx _ => exact (gains_unbound s hx _).trans (gains_vacated s _ _)
  | bind hx _ _ => exact gains_bound s hx _ _
  | unbind hx _ => exact gains_unbound s hx _
  | send hx => exact gains_send hs.assembled hs.agree s hplaced hx
  | recv hx hr =>
    rcases (Udp.Socket.recv_answered hr).queue with hq | hq
    · exact gains_set s hx 0 (by rw [hq]; rfl)
    · exact gains_set s hx 1 (by rw [hq, Queue.toList_pop (hs.sockets _ _ hx).queue, List.drop_one])
  | cancel hx => exact gains_set s hx 0 rfl
  | poll hx => exact gains_poll hs.assembled hs.agree s hplaced hx
  | _ => exact .of_queue rfl

end calls

/-- Whatever calls a program made before, a bound socket takes from the passes of the next one only packets that fit
its binding, from the device or through the loopback, and is given nothing else. -/
theorem bound_socket_restricts {d : δ} {config : Config} {allowed : Host δ → Call δ → Prop} {h₀ h h' : Host δ}
    {es : List (Call δ × Answer)} (e : create d config = .ok h₀) (hr : Run allowed h₀ es h) {s : Handle}
    {b : Udp.Binding} (hb : h.binding? s = some b) {c : Call δ} {a : Answer} (hc : h.perform c = some (a, h')) :
    (∀ p ∈ h.callPasses c, ∀ x, p.Appends s x → ∃ packet,
      p.packet? (decide ((Nic.personality d).check = .manual)) = some packet ∧ Fits b packet ∧ x = kept packet) ∧
      Gains s (h.callPasses c) h h' := by
  have hs : h.Steady (decide ((Nic.personality d).check = .manual)) :=
    Run.keeps (fun hs _ hc => steady_perform hs hc) (steady_create e) hr
  refine ⟨fun p hp x hx => ?_, gains_perform s hs hc⟩
  exact (begins_call hs c p hp).appends hs.assembled hs.agree (bindings_of_binding? hb) hx

/-- The address of the loopback as the bound one: a datagram to it is taken. -/
theorem bound_socket_restricts_loopback : ∃ h h' : Host (External 1), ∃ a : Answer,
    h.binding? ⟨0, 0⟩ = some ⟨.loopback, 7⟩ ∧ datagrams h ⟨0, 0⟩ = [] ∧
      h.perform (.send ⟨1, 0⟩ ⟨1⟩ .loopback 7 [1]) = some (a, h') ∧
      datagrams h' ⟨0, 0⟩ = [⟨.loopback, 9, 1, [1]⟩] ∧
      (∀ p ∈ h.callPasses (.send ⟨1, 0⟩ ⟨1⟩ .loopback 7 [1]), ∀ x, p.Appends ⟨0, 0⟩ x → ∃ packet,
        p.packet? false = some packet ∧ Fits ⟨.loopback, 7⟩ packet ∧ x = kept packet) ∧
      Gains ⟨0, 0⟩ (h.callPasses (.send ⟨1, 0⟩ ⟨1⟩ .loopback 7 [1])) h h' := by
  obtain ⟨_, _, h, e, hrun, hb, hbefore, hsent⟩ := exists_run (External.create 1 {})
    (.create ⟨10, 0, 0, 1⟩ ⟨255, 255, 255, 0⟩)
    [.acquire, .acquire, .bind ⟨0, 0⟩ .loopback 7, .bind ⟨1, 0⟩ .unspecified 9]
    (fun _ _ h => h.binding? ⟨0, 0⟩ = some ⟨.loopback, 7⟩ ∧ datagrams h ⟨0, 0⟩ = [] ∧
      (h.perform (.send ⟨1, 0⟩ ⟨1⟩ .loopback 7 [1])).map (fun x => datagrams x.2 ⟨0, 0⟩) =
        some [⟨.loopback, 9, 1, [1]⟩]) (by decide +kernel)
  obtain ⟨⟨a, h'⟩, hc, hafter⟩ := Option.map_eq_some_iff.1 hsent
  exact ⟨h, h', a, hb, hbefore, hc, hafter, bound_socket_restricts e hrun hb hc⟩

/-- A socket bound to an address other than the one that stands for any takes a datagram that was sent to another
address, the only one that came up: its address starts with zero. -/
theorem bound_socket_open_zero : ∃ h₀ h h' : Host (Device.Loopback 1), ∃ es a,
    create (Device.Loopback.create 1 {}) (.create ⟨10, 0, 0, 1⟩ ⟨255, 255, 255, 0⟩) = .ok h₀ ∧
      Run (fun _ _ => True) h₀ es h ∧ h.binding? ⟨0, 0⟩ = some ⟨⟨0, 0, 0, 5⟩, 7⟩ ∧
      (⟨0, 0, 0, 5⟩ : Ipv4.Address) ≠ .unspecified ∧
      h.perform (.send ⟨1, 0⟩ ⟨1⟩ .loopback 7 [1]) = some (a, h') ∧
      datagrams h ⟨0, 0⟩ = [] ∧ datagrams h' ⟨0, 0⟩ = [⟨.loopback, 9, 1, [1]⟩] ∧
      ((h.callPasses (.send ⟨1, 0⟩ ⟨1⟩ .loopback 7 [1])).filterMap (·.packet? false)).map (.stored · 16) =
        [Ipv4.Address.loopback] := by
  obtain ⟨h₀, es, h, e, hrun, hb, hbefore, hpackets, hsent⟩ := exists_run (Device.Loopback.create 1 {})
    (.create ⟨10, 0, 0, 1⟩ ⟨255, 255, 255, 0⟩)
    [.acquire, .acquire, .bind ⟨0, 0⟩ ⟨0, 0, 0, 5⟩ 7, .bind ⟨1, 0⟩ .unspecified 9]
    (fun _ _ h => h.binding? ⟨0, 0⟩ = some ⟨⟨0, 0, 0, 5⟩, 7⟩ ∧ datagrams h ⟨0, 0⟩ = [] ∧
      ((h.callPasses (.send ⟨1, 0⟩ ⟨1⟩ .loopback 7 [1])).filterMap (·.packet? false)).map (.stored · 16) =
        [Ipv4.Address.loopback] ∧
      (h.perform (.send ⟨1, 0⟩ ⟨1⟩ .loopback 7 [1])).map (fun x => datagrams x.2 ⟨0, 0⟩) =
        some [⟨.loopback, 9, 1, [1]⟩]) (by decide +kernel)
  obtain ⟨⟨a, h'⟩, hc, hafter⟩ := Option.map_eq_some_iff.1 hsent
  exact ⟨h₀, h, h', es, a, e, hrun, hb, by decide, hc, hbefore, hafter, hpackets⟩

end UdpStack.Host
