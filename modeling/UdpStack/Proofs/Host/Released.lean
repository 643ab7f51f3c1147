/-
Handles of sockets that are gone. Whatever is asked of such a handle is refused and leaves the host as it is, one
call after the other (`Refuses.performAll`). All of these refusals are the same but one: a send compares its payload
with the limit before it looks for the socket, so a payload above the limit is refused for its size. No call brings
a handle back to life but one that hands it out anew (`dead_perform`); hence a program gets nothing more from a
socket that it gave back (`dead_refused`).
-/
import UdpStack.Proofs.Host.Effects

namespace UdpStack.Host

open Bounded Device

variable {δ : Type}

/-! ## Calls on dead handles -/

/-- The socket that a call is about. -/
def Call.handle? : Call δ → Option Handle
  | .release s => some s
  | .bind s _ _ => some s
  | .unbind s => some s
  | .send s _ _ _ _ => some s
  | .recv s _ _ => some s
  | .cancel s _ => some s
  | _ => none

/-- The answer to a call about a socket that does not exist. -/
def refusal [Nic δ] (h : Host δ) : Call δ → Answer
  | .send _ _ _ _ payload => .sent (.ready (.error (if h.mtu < payload.length then .badSize else .illegal)))
  | .recv _ _ _ => .received (.ready (.error .illegal))
  | .cancel _ _ => .done
  | _ => .result (.error .illegal)

/-- A host refuses everything that is asked of a handle, and nothing of that changes it. -/
structure Refuses [Nic δ] (h : Host δ) (s : Handle) : Prop where
  bind : ∀ addr port, h.bind s addr port = (.error .illegal, h)
  unbind : h.unbind s = (.error .illegal, h)
  release : h.release s = (.error .illegal, h)
  recv : ∀ task room, h.recv s task room = (.ready (.error .illegal), h)
  available : h.available s = .error .illegal
  binding : h.binding? s = none
  cancel : ∀ task, h.cancel s task = h
  send : ∀ task dst port payload, h.send s task dst port payload =
    some (.ready (.error (if h.mtu < payload.length then .badSize else .illegal)), h)

section dead

variable {h : Host δ} {s : Handle}

theorem binding?_of_dead (hs : h.sockets.get? s = none) : h.binding? s = none := by
  unfold binding?; rw [hs]; rfl

theorem unbind_of_dead (hs : h.sockets.get? s = none) : h.unbind s = (.error .illegal, h) := by
  unfold unbind; rw [hs]

/-- There is no binding to give up first, so only the slot is asked for. -/
theorem release_of_dead (hs : h.sockets.get? s = none) : h.release s = (.error .illegal, h) := by
  unfold release
  rw [binding?_of_dead hs, if_neg (by simp), vacate_eq, vacated_of_none hs, hs]
  rfl

theorem cancel_of_dead (hs : h.sockets.get? s = none) (task : Task) : h.cancel s task = h := by
  unfold cancel modifySocket; rw [hs]

theorem send_of_dead [Nic δ] (hs : h.sockets.get? s = none) (task : Task) (dst : Ipv4.Address) (port : UInt16)
    (payload : Octets) : h.send s task dst port payload =
      some (.ready (.error (if h.mtu < payload.length then .badSize else .illegal)), h) := by
  unfold send
  by_cases hle : h.mtu < payload.length
  · rw [if_pos hle, if_pos hle]
  · rw [if_neg hle, if_neg hle, if_pos (by rw [hs]; rfl)]

theorem refuses_of_dead [Nic δ] (hs : h.sockets.get? s = none) : h.Refuses s where
  bind addr port := by unfold Host.bind; rw [hs]
  unbind := unbind_of_dead hs
  release := release_of_dead hs
  recv task room := by unfold Host.recv; rw [hs]
  available := by unfold Host.available; rw [hs]
  binding := binding?_of_dead hs
  cancel := cancel_of_dead hs
  send := send_of_dead hs

theorem Refuses.perform [Nic δ] (hr : h.Refuses s) {c : Call δ} (hc : c.handle? = some s) :
    h.perform c = some (h.refusal c, h) := by
  have result : ∀ {x : Except Fault Unit × Host δ}, x = (.error .illegal, h) →
      some (Answer.result x.1, x.2) = some (.result (.error .illegal), h) := by
    rintro _ rfl; rfl
  cases c with
  | release _ => cases hc; exact result hr.release
  | bind _ addr port => cases hc; exact result (hr.bind addr port)
  | unbind _ => cases hc; exact result hr.unbind
  | send _ task dst port payload => cases hc; exact congrArg (Option.map _) (hr.send task dst port payload)
  | recv _ task room => cases hc; exact congrArg (fun x => some (Answer.received x.1, x.2)) (hr.recv task room)
  | cancel _ task => cases hc; exact congrArg (fun g => some (Answer.done, g)) (hr.cancel task)
  | _ => cases hc

/-- Calls on a dead handle are refused one after the other. -/
theorem Refuses.performAll [Nic δ] (hr : h.Refuses s) : ∀ {cs : List (Call δ)}, (∀ c ∈ cs, c.handle? = some s) →
    h.performAll cs = some (cs.map fun c => (c, h.refusal c), h)
  | [], _ => rfl
  | c :: cs, hc => by
    have hrest := hr.performAll fun c hm => hc c (List.mem_cons_of_mem _ hm)
    unfold Host.performAll
    rw [hr.perform (hc c (List.mem_cons_self ..)), Option.bind_some]
    dsimp only
    rw [hrest]
    rfl

end dead

/-! ## Handles stay dead -/

theorem dead_iff_bindings {h : Host δ} {s : Handle} : h.sockets.get? s = none ↔ h.setup.bindings s = none :=
  (Option.map_eq_none_iff ..).symm

theorem dead_set {p : Pool Udp.Socket Limits.sockets} {s : Handle} (hs : p.get? s = none) (x : Handle)
    (socket : Udp.Socket) : (p.set x socket).get? s = none := by
  rw [Pool.get?_set]
  split
  · rename_i hx
    rw [← hx.1, hs] at hx
    cases hx.2
  · exact hs

theorem dead_vacated {h : Host δ} {s : Handle} (hs : h.sockets.get? s = none) (x : Handle) :
    (h.vacated x).sockets.get? s = none := by
  show (h.sockets.release x).2.get? s = none
  rw [Pool.get?_release, hs]
  split <;> rfl

/-- No call but one that hands out the handle brings its socket back. -/
theorem dead_perform [Nic δ] {h h' : Host δ} (ha : h.setup.Agree) {s : Handle} (hs : h.sockets.get? s = none)
    {c : Call δ} {a : Answer} (e : h.perform c = some (a, h')) (hn : a ≠ .acquired (.ok s)) :
    h'.sockets.get? s = none := by
  cases effect_perform ha e with
  | @acquire x p hp =>
    have hx : s ≠ x := fun hx => hn (by rw [hx])
    rw [(Pool.get?_acquire hp).2, if_neg hx]
    exact hs
  | release _ => exact dead_vacated hs _
  | @releaseBound x socket b r hx _ => exact dead_vacated (h := h.unbound x socket b) (dead_set hs _ _) x
  | bind _ _ _ => exact dead_set hs _ _
  | unbind _ _ => exact dead_set hs _ _
  | send hx => rw [dead_iff_bindings, setup_send hx, ← dead_iff_bindings]; exact hs
  | recv _ _ => exact dead_set hs _ _
  | cancel _ => exact dead_set hs _ _
  | poll hx => rw [dead_iff_bindings, setup_poll hx, ← dead_iff_bindings]; exact hs
  | _ => exact hs

theorem Run.dead [Nic δ] {allowed : Host δ → Call δ → Prop} {h g : Host δ} {es : List (Call δ × Answer)}
    (ha : h.setup.Agree) {s : Handle} (hs : h.sockets.get? s = none) (hr : Run allowed h es g) :
    (∀ c, (c, Answer.acquired (.ok s)) ∉ es) → g.setup.Agree ∧ g.sockets.get? s = none := by
  induction hr with
  | nil => exact fun _ => ⟨ha, hs⟩
  | @snoc es g g' c a _ _ hc ih =>
    intro hn
    obtain ⟨hga, hgs⟩ := ih fun c hm => hn c (List.mem_append_left _ hm)
    have hfresh : a ≠ .acquired (.ok s) := by
      rintro rfl
      exact hn c (List.mem_append_right _ (List.mem_singleton.2 rfl))
    exact ⟨agree_perform hga hc, dead_perform hga hgs hc hfresh⟩

section refused

variable [Nic δ]

/-- In every reachable host, from the moment at which a handle refers to no socket until it is handed out again,
whatever is asked of it is refused and changes nothing, and so is every sequence of such calls. The refusal is that
of an illegal operation, except for a send of more than the limit: that is refused for its size. -/
theorem dead_refused {d : δ} {config : Config} {h₀ h g : Host δ} {es es' : List (Call δ × Answer)} {s : Handle}
    (e : create d config = .ok h₀) (hr : Run (fun _ _ => True) h₀ es h) (hs : h.sockets.get? s = none)
    (hr' : Run (fun _ _ => True) h es' g) (hn : ∀ c, (c, Answer.acquired (.ok s)) ∉ es') :
    g.Refuses s ∧ ∀ cs : List (Call δ), (∀ c ∈ cs, c.handle? = some s) →
      g.performAll cs = some (cs.map fun c => (c, g.refusal c), g) := by
  have ha : h.setup.Agree := hr.keeps (fun ha _ hc => agree_perform ha hc) (agree_create e)
  have hg := refuses_of_dead (hr'.dead ha hs hn).2
  exact ⟨hg, fun _ => hg.performAll⟩

/-- The slot of the first socket was given to a second one, which does not bring the first handle back. -/
theorem dead_refused_reused : ∃ g : Host (Device.Loopback 1), (g.sockets.get? ⟨0, 1⟩).isSome = true ∧ g.Refuses ⟨0, 0⟩ ∧
    g.performAll [.release ⟨0, 0⟩, .unbind ⟨0, 0⟩] =
      some ([(.release ⟨0, 0⟩, .result (.error .illegal)), (.unbind ⟨0, 0⟩, .result (.error .illegal))], g) := by
  obtain ⟨_, _, h, e, hrun, hdead, hnew, hlive⟩ := exists_run (Device.Loopback.create 1 {})
    (.create ⟨10, 0, 0, 1⟩ ⟨255, 255, 255, 0⟩) [.acquire, .bind ⟨0, 0⟩ .unspecified 7, .release ⟨0, 0⟩]
    (fun _ _ h => (h.sockets.get? ⟨0, 0⟩).isNone = true ∧ h.acquire.1.toOption = some ⟨0, 1⟩ ∧
      (h.acquire.2.sockets.get? ⟨0, 1⟩).isSome = true) (by decide +kernel)
  have hrun' : Run (fun _ _ => True) h [(.acquire, .acquired h.acquire.1)] h.acquire.2 := .snoc .nil trivial rfl
  have hfresh : ∀ c : Call (Device.Loopback 1),
      (c, Answer.acquired (.ok ⟨0, 0⟩)) ∉ [(.acquire, .acquired h.acquire.1)] := by
    intro c hm
    have hsame := (Answer.acquired.inj (Prod.mk.inj (List.mem_singleton.1 hm)).2).symm
    rw [hsame] at hnew
    exact absurd hnew (by decide)
  obtain ⟨hrefuses, hall⟩ := dead_refused e hrun (Option.isNone_iff_eq_none.1 hdead) hrun' hfresh
  exact ⟨h.acquire.2, hlive, hrefuses, hall _ (by simp [Call.handle?])⟩

/-- A payload above the limit is refused for its size before the handle is looked at. -/
theorem dead_send_oversized : ∃ h₀ h : Host (Device.Loopback 1), ∃ es,
    create (Device.Loopback.create 1 {}) (.create ⟨10, 0, 0, 1⟩ ⟨255, 255, 255, 0⟩) = .ok h₀ ∧
    Run (fun _ _ => True) h₀ es h ∧ h.sockets.get? ⟨0, 0⟩ = none ∧
    h.send ⟨0, 0⟩ ⟨1⟩ ⟨10, 0, 0, 2⟩ 7 (List.replicate 513 0) = some (.ready (.error .badSize), h) ∧
    h.send ⟨0, 0⟩ ⟨1⟩ ⟨10, 0, 0, 2⟩ 7 (List.replicate 513 0) ≠ some (.ready (.error .illegal), h) := by
  obtain ⟨h₀, es, h, e, hrun, hdead, hmtu⟩ := exists_run (Device.Loopback.create 1 {})
    (.create ⟨10, 0, 0, 1⟩ ⟨255, 255, 255, 0⟩) [.acquire, .release ⟨0, 0⟩]
    (fun _ _ h => (h.sockets.get? ⟨0, 0⟩).isNone = true ∧ h.mtu = 512) (by decide +kernel)
  have hs : h.sockets.get? ⟨0, 0⟩ = none := Option.isNone_iff_eq_none.1 hdead
  have hsend := send_of_dead hs ⟨1⟩ ⟨10, 0, 0, 2⟩ 7 (List.replicate 513 0)
  rw [hmtu, List.length_replicate, if_pos (by decide)] at hsend
  refine ⟨h₀, h, es, e, hrun, hs, hsend, ?_⟩
  rw [hsend]
  nofun

end refused

end UdpStack.Host
