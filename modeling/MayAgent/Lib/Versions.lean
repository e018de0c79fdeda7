import Mathlib.Order.Basic

/-!
# Versioned rows

Rows that carry a version which every change raises. An optimistic writer reads a row, computes from
it and writes under the condition that the version did not change; the lemmas here say what the writer
then knows about the row, now and at every moment between its read and its write.
-/

namespace MayAgent

variable {σ κ ρ ν : Type*} [PartialOrder ν] {row : σ → κ → Option ρ} {version : ρ → ν}

/-- From `o` to `s` no row is lost, no version decreases, and a row of an unchanged version is
unchanged. -/
def Versioned (row : σ → κ → Option ρ) (version : ρ → ν) (o s : σ) : Prop :=
  ∀ k r, row o k = some r →
    ∃ r', row s k = some r' ∧ version r ≤ version r' ∧ (version r' = version r → r' = r)

namespace Versioned

theorem refl (row : σ → κ → Option ρ) (version : ρ → ν) (s : σ) : Versioned row version s s :=
  fun _ r hr => ⟨r, hr, le_refl _, fun _ => rfl⟩

theorem trans {a b c : σ} (h : Versioned row version a b) (h' : Versioned row version b c) :
    Versioned row version a c := by
  intro k r hr
  obtain ⟨r', hr', hle, heq⟩ := h k r hr
  obtain ⟨r'', hr'', hle', heq'⟩ := h' k r' hr'
  refine ⟨r'', hr'', le_trans hle hle', fun hversion => ?_⟩
  have hmiddle : version r' = version r := le_antisymm (hversion ▸ hle') hle
  rw [heq' (hversion.trans hmiddle.symm), heq hmiddle]

/-- A fence holds only if the row is the one that was read. -/
theorem fenced {o s : σ} (h : Versioned row version o s) {k : κ} {r r' : ρ} (hr : row o k = some r)
    (hr' : row s k = some r') (hversion : version r' = version r) : r' = r := by
  obtain ⟨_, hr'', -, heq⟩ := h k r hr
  rw [hr'] at hr''
  cases hr''
  exact heq hversion

/-- A row found unchanged was unchanged all the time. -/
theorem between {a b c : σ} (h : Versioned row version a b) (h' : Versioned row version b c) {k : κ} {r : ρ}
    (hr : row a k = some r) (hr' : row c k = some r) : row b k = some r := by
  obtain ⟨r₁, hr₁, hle, heq⟩ := h k r hr
  obtain ⟨_, hr₂, hle', -⟩ := h' k r₁ hr₁
  rw [hr'] at hr₂
  cases hr₂
  rw [hr₁, heq (le_antisymm hle' hle)]

end Versioned

end MayAgent
