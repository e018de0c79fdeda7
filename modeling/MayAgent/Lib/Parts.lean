import Mathlib.Data.List.Basic
import Mathlib.Tactic.NormNum

/-!
# Texts of several parts

What makes the parts of a text readable again: a separator that the first part does not have, or the size of that part.
-/

namespace MayAgent

variable {α : Type*} {l l' r r' : List α}

theorem append_cons_inj {x : α} (hl : x ∉ l) (hl' : x ∉ l') (h : l ++ x :: r = l' ++ x :: r') : l = l' ∧ r = r' := by
  induction l generalizing l' with
  | nil =>
    cases l' with
    | nil => exact ⟨rfl, (List.cons.inj h).2⟩
    | cons => exact absurd ((List.cons.inj h).1 ▸ List.mem_cons_self) hl'
  | cons a l ih =>
    cases l' with
    | nil => exact absurd ((List.cons.inj h).1 ▸ List.mem_cons_self) hl
    | cons =>
      obtain ⟨rfl, htail⟩ := List.cons.inj h
      rw [List.mem_cons, not_or] at hl hl'
      obtain ⟨rfl, rfl⟩ := ih hl.2 hl'.2 htail
      exact ⟨rfl, rfl⟩

theorem append_inj_of_size {size : α → ℕ} (hpos : ∀ a, 0 < size a) (hsize : (l.map size).sum = (l'.map size).sum)
    (h : l ++ r = l' ++ r') : l = l' ∧ r = r' := by
  induction l generalizing l' with
  | nil =>
    cases l' with
    | nil => exact ⟨rfl, h⟩
    | cons a =>
      have := hpos a
      rw [List.map_nil, List.sum_nil, List.map_cons, List.sum_cons] at hsize
      omega
  | cons a l ih =>
    cases l' with
    | nil =>
      have := hpos a
      rw [List.map_nil, List.sum_nil, List.map_cons, List.sum_cons] at hsize
      omega
    | cons =>
      obtain ⟨rfl, htail⟩ := List.cons.inj h
      rw [List.map_cons, List.sum_cons, List.map_cons, List.sum_cons, Nat.add_left_cancel_iff] at hsize
      obtain ⟨rfl, rfl⟩ := ih hsize htail
      exact ⟨rfl, rfl⟩

end MayAgent
