/-
Calls one after the other, with their replies. Two things that reply alike to each call and stay related by it do so
over every run (`replay_related`).
-/
import UdpStack.Fault
import Mathlib.Tactic

namespace UdpStack.Bounded

/-- What a call answers. -/
inductive Reply (α : Type) where
  | done (result : Except Fault Unit)
  | value (a : Option α)
  | values (as : List α)
  deriving DecidableEq, Repr

/-- The reply to a call that can be refused, with what is there after it. -/
def attempt {σ α : Type} (s : σ) : Except Fault σ → Reply α × σ
  | .error f => (.done (.error f), s)
  | .ok t => (.done (.ok ()), t)

/-- The replies to calls one after the other, and what is there after them. -/
def replay {σ γ ρ : Type} (f : σ → γ → ρ × σ) (s : σ) : List γ → List ρ × σ
  | [] => ([], s)
  | c :: cs => ((f s c).1 :: (replay f (f s c).2 cs).1, (replay f (f s c).2 cs).2)

/-- What replies alike and stays related call by call does so over every run. -/
theorem replay_related {σ τ γ ρ : Type} {f : σ → γ → ρ × σ} {g : τ → γ → ρ × τ} {R : σ → τ → Prop}
    (step : ∀ {s t}, R s t → ∀ c, (f s c).1 = (g t c).1 ∧ R (f s c).2 (g t c).2) :
    ∀ (cs : List γ) {s : σ} {t : τ}, R s t →
      (replay f s cs).1 = (replay g t cs).1 ∧ R (replay f s cs).2 (replay g t cs).2
  | [], _, _, h => ⟨rfl, h⟩
  | c :: cs, s, t, h => by
    obtain ⟨hreply, h⟩ := step h c
    obtain ⟨hreplies, h⟩ := replay_related step cs h
    exact ⟨congrArg₂ List.cons hreply hreplies, h⟩

end UdpStack.Bounded
