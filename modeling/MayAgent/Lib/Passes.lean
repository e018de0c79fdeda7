import Mathlib.Algebra.GroupWithZero.Nat
import Mathlib.Data.List.Sort
import Mathlib.Logic.Function.Iterate

/-!
# Passes

A pass is a sequence of steps, each of which leaves the state or makes it smaller. Repeated often enough it leaves the
state, and then so does every step of it. A step of bounded work takes the first rows of a table by some column.
-/

namespace MayAgent

section Shrinks

variable {σ : Type*} {size : σ → ℕ} {f : σ → σ}

def Shrinks (size : σ → ℕ) (f : σ → σ) : Prop := ∀ s, f s = s ∨ size (f s) < size s

def runSteps (steps : List (σ → σ)) (s : σ) : σ := steps.foldl (fun s f => f s) s

variable {steps : List (σ → σ)} {s : σ}

theorem runSteps_invariant {I : σ → Prop} (h : ∀ f ∈ steps, ∀ s, I s → I (f s)) (hs : I s) :
    I (runSteps steps s) := by
  induction steps generalizing s with
  | nil => exact hs
  | cons f _ ih => exact ih (fun g hg => h g (List.mem_cons_of_mem f hg)) (h f List.mem_cons_self s hs)

theorem Shrinks.le (h : Shrinks size f) (s : σ) : size (f s) ≤ size s := by
  rcases h s with hsame | hless
  · rw [hsame]
  · exact hless.le

theorem Shrinks.runSteps (h : ∀ f ∈ steps, Shrinks size f) : Shrinks size (runSteps steps) := by
  induction steps with
  | nil => exact fun s => .inl rfl
  | cons f steps ih =>
    intro s
    have hrest := ih fun g hg => h g (List.mem_cons_of_mem f hg)
    show MayAgent.runSteps steps (f s) = s ∨ size (MayAgent.runSteps steps (f s)) < size s
    rcases h f List.mem_cons_self s with hsame | hless
    · rw [hsame]
      exact hrest s
    · exact .inr ((hrest.le (f s)).trans_lt hless)

theorem eq_of_runSteps_eq (h : ∀ f ∈ steps, Shrinks size f) (hfixed : runSteps steps s = s) :
    ∀ f ∈ steps, f s = s := by
  induction steps with
  | nil => exact fun _ hf => absurd hf List.not_mem_nil
  | cons f steps ih =>
    have hsteps : ∀ g ∈ steps, Shrinks size g := fun g hg => h g (List.mem_cons_of_mem f hg)
    have hfirst : f s = s := by
      refine (h f List.mem_cons_self s).resolve_right fun hless => ?_
      have hle : size (runSteps steps (f s)) ≤ size (f s) := (Shrinks.runSteps hsteps).le (f s)
      have hback : runSteps steps (f s) = s := hfixed
      rw [hback] at hle
      omega
    have hrest : runSteps steps s = s := by
      have hback : runSteps steps (f s) = s := hfixed
      rwa [hfirst] at hback
    intro g hg
    rcases List.mem_cons.mp hg with rfl | hg
    · exact hfirst
    · exact ih hsteps hrest g hg

/-- From some number of passes on nothing changes. -/
theorem Shrinks.settles (h : Shrinks size f) (s : σ) : ∃ n, ∀ m, n ≤ m → f (f^[m] s) = f^[m] s := by
  induction hsize : size s using Nat.strong_induction_on generalizing s with
  | _ k ih =>
    rcases h s with hsame | hless
    · refine ⟨0, fun m _ => ?_⟩
      rw [Function.iterate_fixed hsame, hsame]
    · obtain ⟨n, hn⟩ := ih (size (f s)) (hsize ▸ hless) (f s) rfl
      refine ⟨n + 1, fun m hm => ?_⟩
      obtain ⟨m, rfl⟩ : ∃ m', m = m' + 1 := ⟨m - 1, by omega⟩
      rw [Function.iterate_succ_apply]
      exact hn m (by omega)

end Shrinks

/-! ### Batches -/

section Oldest

variable {α : Type*} {orderBy : α → ℤ} {n : ℕ} {rows : List α}

/-- `ORDER BY … LIMIT n`. -/
def oldest (orderBy : α → ℤ) (n : ℕ) (rows : List α) : List α :=
  (rows.insertionSort fun a b => orderBy a ≤ orderBy b).take n

variable {row : α}

theorem mem_of_mem_oldest (h : row ∈ oldest orderBy n rows) : row ∈ rows :=
  (List.perm_insertionSort _ rows).mem_iff.mp (List.mem_of_mem_take h)

theorem length_oldest (orderBy : α → ℤ) (n : ℕ) (rows : List α) : (oldest orderBy n rows).length = min n rows.length := by
  rw [oldest, List.length_take, (List.perm_insertionSort _ rows).length_eq]

theorem exists_mem_oldest (hn : 1 ≤ n) (h : row ∈ rows) : ∃ first, first ∈ oldest orderBy n rows := by
  apply List.exists_mem_of_length_pos
  rw [length_oldest]
  have := List.length_pos_of_mem h
  omega

/-- A batch that is not all of one kind reaches beyond it, if there are fewer rows of the kind than fit. -/
theorem exists_mem_oldest_not {p : α → Bool} (hfew : (rows.filter p).length < n) (h : row ∈ rows)
    (hrow : p row = false) : ∃ first ∈ oldest orderBy n rows, p first = false := by
  by_contra hnone
  push Not at hnone
  have hall : ∀ first ∈ oldest orderBy n rows, p first = true := fun first hfirst => by simpa using hnone first hfirst
  have hcount : (oldest orderBy n rows).length ≤ (rows.filter p).length := by
    rw [← List.countP_eq_length.mpr hall, ← List.countP_eq_length_filter,
      ← (List.perm_insertionSort (fun a b => orderBy a ≤ orderBy b) rows).countP_eq]
    exact (List.take_sublist n _).countP_le
  have hless : (rows.filter p).length < rows.length := by
    rw [List.length_filter_lt_length_iff_exists]
    exact ⟨row, h, by simp [hrow]⟩
  rw [length_oldest] at hcount
  omega

end Oldest

/-! ### Weights -/

section Weights

variable {α : Type*} {weight : α → ℕ} {g : α → α}

theorem map_eq_or_sum_lt (h : ∀ row, g row = row ∨ weight (g row) < weight row) (rows : List α) :
    rows.map g = rows ∨ ((rows.map g).map weight).sum < (rows.map weight).sum := by
  induction rows with
  | nil => exact .inl rfl
  | cons row _ ih =>
    simp only [List.map_cons, List.sum_cons]
    rcases h row with hsame | hless <;> rcases ih with ih | ih
    · exact .inl (by rw [hsame, ih])
    · exact .inr (by rw [hsame]; omega)
    · exact .inr (by rw [ih]; omega)
    · exact .inr (by omega)

theorem filter_eq_or_sum_lt (hpos : ∀ row, 0 < weight row) (p : α → Bool) (rows : List α) :
    rows.filter p = rows ∨ ((rows.filter p).map weight).sum < (rows.map weight).sum := by
  induction rows with
  | nil => exact .inl rfl
  | cons row _ ih =>
    have hrow := hpos row
    cases hp : p row with
    | true =>
      rw [List.filter_cons_of_pos hp]
      simp only [List.map_cons, List.sum_cons]
      rcases ih with ih | ih
      · exact .inl (by rw [ih])
      · exact .inr (by omega)
    | false =>
      rw [List.filter_cons_of_neg (by simp [hp])]
      simp only [List.map_cons, List.sum_cons]
      rcases ih with ih | ih
      · exact .inr (by rw [ih]; omega)
      · exact .inr (by omega)

theorem eq_of_map_eq {rows : List α} (h : rows.map g = rows) : ∀ row ∈ rows, g row = row := by
  induction rows with
  | nil => exact fun _ hrow => absurd hrow List.not_mem_nil
  | cons _ _ ih =>
    rw [List.map_cons, List.cons.injEq] at h
    intro row hrow
    rcases List.mem_cons.mp hrow with rfl | hrow
    · exact h.1
    · exact ih h.2 row hrow

end Weights

end MayAgent
