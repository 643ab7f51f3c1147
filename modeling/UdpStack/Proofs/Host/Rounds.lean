/-
A poll frame by frame: the resolver acts, and then each frame that the device has goes through the
layers in a round of its own (`rounds`). What survives polls holds before every round, and what
holds after a round holds at the end of the poll (`mem_rounds`).
-/
import UdpStack.Proofs.Host.Poll

namespace UdpStack.Host

open Device

variable {δ : Type}

/-- What one frame does to a host. -/
structure Round (δ : Type) where
  /-- The host once the frame is taken from its device. -/
  before : Host δ
  frame : Octets
  /-- The host once the frame went through the layers and everything is flushed. -/
  after : Host δ

variable [Nic δ]

/-- A round as it is run. -/
def Round.Runs (r : Round δ) : Prop := (r.before.receiveFrame r.frame).bind flush = some r.after

/-- The rounds of up to `k` frames of the device. -/
def frameRounds (h : Host δ) : Nat → List (Round δ)
  | 0 => []
  | k + 1 =>
    match Nic.receive h.device h.rxBuffer.length with
    | (.ok (some frame), device) =>
      match (receiveFrame { h with device := device } frame).bind flush with
      | none => []
      | some g => ⟨{ h with device := device }, frame, g⟩ :: frameRounds g k
    | _ => []

/-- The host once its resolver acted and everything is flushed. -/
def refreshed (h : Host δ) (now : Instant) : Option (Host δ) :=
  flush { h with
    now := now
    resolver := (h.resolver.expire now h.wakeups).1
    wakeups := (h.resolver.expire now h.wakeups).2 }

/-- A bound on the number of frames of a poll that is not reached. -/
def frameBound (h : Host δ) : Nat := 2 * Nic.pending h.device + Limits.outbox + 1

/-- The rounds of a poll. -/
def rounds (h : Host δ) (now : Instant) : List (Round δ) :=
  match h.refreshed now with
  | none => []
  | some g => g.frameRounds g.frameBound

theorem poll_eq (h : Host δ) (now : Instant) :
    h.poll now = (h.refreshed now).bind fun g => g.receiveFrames 0 g.frameBound := by
  show (match h.refreshed now with
    | none => none
    | some g => g.receiveFrames 0 g.frameBound) = _
  cases h.refreshed now <;> rfl

/-- A poll lets the resolver act and then takes frames. -/
theorem poll_cases {h h' : Host δ} {now : Instant} {res : Except Fault Nat}
    (e : h.poll now = some (res, h')) :
    ∃ g, h.refreshed now = some g ∧ g.receiveFrames 0 g.frameBound = some (res, h') ∧
      h.rounds now = g.frameRounds g.frameBound := by
  rw [poll_eq] at e
  obtain ⟨g, hg, hr⟩ := Option.bind_eq_some_iff.1 e
  exact ⟨g, hg, hr, by unfold rounds; rw [hg]⟩

theorem StablePoll.refreshed {P : Host δ → Prop} (hs : StablePoll P) {h g : Host δ} {now : Instant} (hp : P h)
    (e : h.refreshed now = some g) : P g :=
  hs.flush (hs.expire now hp) e

theorem mem_frameRounds : ∀ (k : Nat) {h h' : Host δ} {n : Nat} {res : Except Fault Nat} {r : Round δ},
    h.receiveFrames n k = some (res, h') → r ∈ h.frameRounds k →
    r.Runs ∧ (∀ P : Host δ → Prop, StablePoll P → P h → P r.before) ∧
      ∀ P : Host δ → Prop, StablePoll P → P r.after → P h'
  | 0, _, _, _, _, _, _, hr => nomatch hr
  | k + 1, h, h', n, res, r, e, hr => by
    unfold Host.receiveFrames at e
    unfold frameRounds at hr
    cases hx : Nic.receive h.device h.rxBuffer.length with
    | mk taken device =>
      have ht : ∀ P : Host δ → Prop, StablePoll P → P h → P { h with device := device } := fun P hs hp => by
        have := hs.take h.rxBuffer.length hp
        rwa [hx] at this
      rw [hx] at e hr
      rcases taken with f | _ | frame
      · cases hr
      · cases hr
      · dsimp only at e hr
        cases hy : (receiveFrame { h with device := device } frame).bind flush with
        | none => rw [hy] at e; cases e
        | some g =>
          rw [hy] at e hr
          dsimp only at e hr
          rcases List.mem_cons.1 hr with rfl | hr
          -- this frame, or one of those behind it
          · exact ⟨hy, ht, fun P hs hp => hs.receiveFrames k hp e⟩
          · obtain ⟨hruns, hb, ha⟩ := mem_frameRounds k e hr
            refine ⟨hruns, fun P hs hp => hb P hs ?_, ha⟩
            obtain ⟨u, hu, hf⟩ := Option.bind_eq_some_iff.1 hy
            exact hs.flush (hs.receiveFrame (ht P hs hp) hu) hf

/-- What survives polls holds before every round, and what holds after a round holds in the end. -/
theorem mem_rounds {h h' : Host δ} {now : Instant} {res : Except Fault Nat} {r : Round δ}
    (e : h.poll now = some (res, h')) (hr : r ∈ h.rounds now) :
    r.Runs ∧ (∀ P : Host δ → Prop, StablePoll P → P h → P r.before) ∧
      ∀ P : Host δ → Prop, StablePoll P → P r.after → P h' := by
  obtain ⟨g, hg, he, hround⟩ := poll_cases e
  rw [hround] at hr
  obtain ⟨hruns, hb, ha⟩ := mem_frameRounds _ he hr
  exact ⟨hruns, fun P hs hp => hb P hs (hs.refreshed hp hg), ha⟩

theorem StableRound.round {P : Host δ → Prop} (hs : StableRound P) {r : Round δ} (hr : r.Runs) (hp : P r.before) :
    P r.after := by
  obtain ⟨g, hg, hf⟩ := Option.bind_eq_some_iff.1 hr
  exact hs.flush (hs.receiveFrame hp hg) hf

/-! ## Polls come to an end -/

theorem receiveFrames_total : ∀ (k : Nat) (h : Host δ) (n : Nat), ∃ x, h.receiveFrames n k = some x
  | 0, h, n => ⟨_, rfl⟩
  | k + 1, h, n => by
    unfold Host.receiveFrames
    cases Nic.receive h.device h.rxBuffer.length with
    | mk taken device =>
      rcases taken with f | _ | frame
      · obtain ⟨g, hg, -⟩ := flush_total { h with
          device := device, deviceCounters := h.deviceCounters.countDropped }
        dsimp only
        rw [hg]
        exact ⟨_, rfl⟩
      · exact ⟨_, rfl⟩
      · obtain ⟨u, hu⟩ := receiveFrame_total { h with device := device } frame
        obtain ⟨g, hg, -⟩ := flush_total u
        dsimp only
        rw [hu, Option.bind_some, hg]
        exact receiveFrames_total k g (n + 1)

/-- No poll touches bytes that do not exist. -/
theorem poll_total (h : Host δ) (now : Instant) : ∃ x, h.poll now = some x := by
  obtain ⟨g, hg, -⟩ := flush_total { h with
    now := now
    resolver := (h.resolver.expire now h.wakeups).1
    wakeups := (h.resolver.expire now h.wakeups).2 }
  obtain ⟨x, hx⟩ := receiveFrames_total g.frameBound g 0
  refine ⟨x, ?_⟩
  rw [poll_eq, show h.refreshed now = some g from hg]
  exact hx

end UdpStack.Host
