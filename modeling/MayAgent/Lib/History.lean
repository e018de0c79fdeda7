import Mathlib.Data.List.Infix
import Mathlib.Logic.Relation

/-!
# Histories

Runs of a system in which a step may depend on any earlier state, not only on the current one: a
process that read the state some time ago and acts on what it saw. A run is the list of its states,
newest first.
-/

namespace MayAgent

variable {σ : Type*}

/-- The histories of a system. `step h s` holds if `s` may follow the history `h`. -/
inductive Run (init : σ → Prop) (step : List σ → σ → Prop) : List σ → Prop
  | start {s : σ} (hinit : init s) : Run init step [s]
  | next {h : List σ} {s : σ} (hrun : Run init step h) (hstep : step h s) : Run init step (s :: h)

/-- Every state of a history is related to the later ones. -/
def Ordered (R : σ → σ → Prop) (h : List σ) : Prop := ∀ s past, s :: past <:+ h → ∀ o ∈ s :: past, R o s

namespace Run

variable {init : σ → Prop} {step : List σ → σ → Prop}

theorem ne_nil {h : List σ} (hrun : Run init step h) : h ≠ [] := by
  cases hrun <;> simp

/-- The invariant rule: a step may use that it extends a history, the invariant at every state of that
history, and that each of them is related to every later one. -/
theorem invariant {I : σ → Prop} {R : σ → σ → Prop} (hrefl : ∀ s, R s s)
    (htrans : ∀ a b c, R a b → R b c → R a c) (hinit : ∀ s, init s → I s)
    (hstep : ∀ s past s', Run init step (s :: past) → (∀ o ∈ s :: past, I o) → Ordered R (s :: past) →
      step (s :: past) s' → I s' ∧ R s s')
    {h : List σ} (hrun : Run init step h) : (∀ o ∈ h, I o) ∧ Ordered R h := by
  induction hrun with
  | @start s hs =>
    refine ⟨fun o ho => ?_, fun x xs hsuffix o ho => ?_⟩
    · rw [List.mem_singleton.mp ho]
      exact hinit s hs
    · rcases List.suffix_cons_iff.mp hsuffix with heq | hnil
      · cases heq
        rw [List.mem_singleton.mp ho]
        exact hrefl s
      · exact absurd (List.suffix_nil.mp hnil) (List.cons_ne_nil x xs)
  | @next h s' hrun hs ih =>
    obtain ⟨hI, hR⟩ := ih
    cases h with
    | nil => exact absurd rfl hrun.ne_nil
    | cons s past =>
      obtain ⟨hI', hR'⟩ := hstep s past s' hrun hI hR hs
      refine ⟨fun o ho => ?_, fun x xs hsuffix o ho => ?_⟩
      · rcases List.mem_cons.mp ho with rfl | ho
        · exact hI'
        · exact hI o ho
      · rcases List.suffix_cons_iff.mp hsuffix with heq | hlater
        · cases heq
          rcases List.mem_cons.mp ho with rfl | ho
          · exact hrefl _
          · exact htrans _ _ _ (hR s past (List.suffix_refl _) o ho) hR'
        · exact hR x xs hlater o ho

theorem mono {step' : List σ → σ → Prop} (hmono : ∀ h s, step h s → step' h s) {h : List σ}
    (hrun : Run init step h) : Run init step' h := by
  induction hrun with
  | start hs => exact .start hs
  | next _ hs ih => exact .next ih (hmono _ _ hs)

theorem suffix {h : List σ} (hrun : Run init step h) {s : σ} {past : List σ} (hsuffix : s :: past <:+ h) :
    Run init step (s :: past) := by
  induction hrun with
  | start hs =>
    rcases List.suffix_cons_iff.mp hsuffix with heq | hnil
    · rw [heq]
      exact .start hs
    · exact absurd (List.suffix_nil.mp hnil) (List.cons_ne_nil s past)
  | next hrun hs ih =>
    rcases List.suffix_cons_iff.mp hsuffix with heq | hearlier
    · rw [heq]
      exact .next hrun hs
    · exact ih hearlier

end Run

end MayAgent
