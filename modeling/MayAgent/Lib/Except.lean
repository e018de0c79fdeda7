import Mathlib.Data.List.Basic

/-!
# Peeling checked computations

A computation in `Except` that returned a value went through every step without an error. These
lemmas take such a computation apart.
-/

namespace MayAgent

namespace Checked

universe u v

variable {ε : Type u} {α β : Type v}

variable {b c : β} {a : α} {f : β → α → Except ε β} {l : List α}

theorem bind_eq_ok {x : Except ε α} {f : α → Except ε β} :
    (x >>= f) = .ok b ↔ ∃ a, x = .ok a ∧ f a = .ok b := by
  cases x with
  | error => simp [bind, Except.bind]
  | ok => simp [bind, Except.bind]

theorem throw_eq_ok {e : ε} : (throw e : Except ε α) = .ok a ↔ False := by
  simp [throw, throwThe, MonadExceptOf.throw]

theorem pure_eq_ok {b : α} : (pure a : Except ε α) = .ok b ↔ a = b := by
  simp [pure, Except.pure]

theorem ite_eq_ok {c : Prop} [Decidable c] {x y : Except ε α} :
    (if c then x else y) = .ok a ↔ (c ∧ x = .ok a) ∨ (¬c ∧ y = .ok a) := by
  by_cases hc : c <;> simp [hc]

theorem foldlM_cons_eq_ok :
    (a :: l).foldlM f b = .ok c ↔ ∃ b', f b a = .ok b' ∧ l.foldlM f b' = .ok c := by
  rw [List.foldlM_cons, bind_eq_ok]

theorem foldlM_nil_eq_ok : ([] : List α).foldlM f b = .ok c ↔ b = c := by
  rw [List.foldlM_nil, pure_eq_ok]

theorem mem_of_mapM {f : α → Except ε β} {bs : List β} (h : l.mapM f = .ok bs) (hb : b ∈ bs) :
    ∃ a ∈ l, f a = .ok b := by
  induction l generalizing bs with
  | nil =>
    rw [List.mapM_nil, pure_eq_ok] at h
    subst h
    cases hb
  | cons a l ih =>
    rw [List.mapM_cons, bind_eq_ok] at h
    obtain ⟨_, hb', h⟩ := h
    rw [bind_eq_ok] at h
    obtain ⟨_, hbs', h⟩ := h
    rw [pure_eq_ok] at h
    subst h
    obtain rfl | hb := List.mem_cons.mp hb
    · exact ⟨a, List.mem_cons_self, hb'⟩
    · obtain ⟨a', ha', hf⟩ := ih hbs' hb
      exact ⟨a', List.mem_cons_of_mem a ha', hf⟩

/-- The invariant rule of a checked fold. -/
theorem foldlM_invariant {P : β → Prop} (hstep : ∀ b a b', P b → f b a = .ok b' → P b')
    (hb : P b) (h : l.foldlM f b = .ok c) : P c := by
  induction l generalizing b with
  | nil =>
    rw [foldlM_nil_eq_ok] at h
    exact h ▸ hb
  | cons a l ih =>
    obtain ⟨b', hf, h⟩ := foldlM_cons_eq_ok.mp h
    exact ih (hstep b a b' hb hf) h

end Checked

end MayAgent
