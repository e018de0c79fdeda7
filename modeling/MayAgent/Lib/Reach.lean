import Mathlib.Logic.Relation

/-!
# Reachable states

The states of a system that takes one labelled step after the other, where every step may be asked to
meet a condition at the state it is taken in.
-/

namespace MayAgent

variable {σ α : Type*}

/-- A step by an action that meets `ok` where it is taken. -/
def Takes (next : σ → α → σ) (ok : σ → α → Prop) (s s' : σ) : Prop := ∃ a, ok s a ∧ s' = next s a

/-- The states reached from an initial one by steps that all meet `ok`. -/
def Reaches (init : σ → Prop) (next : σ → α → σ) (ok : σ → α → Prop) (s : σ) : Prop :=
  ∃ s₀, init s₀ ∧ Relation.ReflTransGen (Takes next ok) s₀ s

namespace Reaches

variable {init : σ → Prop} {next : σ → α → σ} {ok : σ → α → Prop}

theorem start {s : σ} (hinit : init s) : Reaches init next ok s := ⟨s, hinit, .refl⟩

theorem step {s : σ} (h : Reaches init next ok s) {a : α} (hok : ok s a) : Reaches init next ok (next s a) := by
  obtain ⟨s₀, hinit, hsteps⟩ := h
  exact ⟨s₀, hinit, hsteps.tail ⟨a, hok, rfl⟩⟩

/-- Where all steps are allowed, every sequence of actions makes a run. -/
theorem foldl {s : σ} (h : Reaches init next ok s) (hok : ∀ s a, ok s a) (actions : List α) :
    Reaches init next ok (actions.foldl next s) := by
  induction actions generalizing s with
  | nil => exact h
  | cons a _ ih => exact ih (h.step (hok s a))

/-- The invariant rule. -/
theorem invariant {I : σ → Prop} (hinit : ∀ s, init s → I s)
    (hstep : ∀ s a, I s → ok s a → I (next s a)) {s : σ} (h : Reaches init next ok s) : I s := by
  obtain ⟨s₀, hs₀, hsteps⟩ := h
  induction hsteps with
  | refl => exact hinit s₀ hs₀
  | @tail s _ _ hlast ih =>
    obtain ⟨a, hok, rfl⟩ := hlast
    exact hstep s a ih hok

end Reaches

end MayAgent
