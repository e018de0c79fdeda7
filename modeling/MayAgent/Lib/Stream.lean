import Mathlib.Data.List.TakeWhile

/-!
# Streams read in pieces

A stream arrives in pieces of any size. Whatever consumes it one symbol at a time does not depend on the pieces: this
holds of a transducer, and of the lines of a text, of which the last one waits for its separator.
-/

namespace MayAgent

section Transducer

variable {δ ι ο : Type*}

/-- The output of a machine that reads one symbol at a time, and its state at the end. -/
def transduce (step : δ → ι → δ × List ο) : δ → List ι → δ × List ο
  | d, [] => (d, [])
  | d, i :: is =>
    let next := step d i
    let rest := transduce step next.1 is
    (rest.1, next.2 ++ rest.2)

theorem transduce_append (step : δ → ι → δ × List ο) (d : δ) (is js : List ι) :
    transduce step d (is ++ js) =
      ((transduce step (transduce step d is).1 js).1,
        (transduce step d is).2 ++ (transduce step (transduce step d is).1 js).2) := by
  induction is generalizing d with
  | nil => rfl
  | cons i _ ih =>
    rw [List.cons_append, transduce, transduce, ih]
    simp only [List.append_assoc]

end Transducer

section Lines

variable {α : Type*} [DecidableEq α]

/-- The lines of a text that are ended by the separator, and what follows the last one. -/
def cutLines (sep : α) : List α → List (List α) × List α
  | [] => ([], [])
  | c :: cs =>
    let rest := cutLines sep cs
    if c = sep then ([] :: rest.1, rest.2)
    else
      match rest.1 with
      | [] => ([], c :: rest.2)
      | line :: lines => ((c :: line) :: lines, rest.2)

/-- A text goes on in its unfinished line. -/
theorem cutLines_append (sep : α) (text more : List α) :
    cutLines sep (text ++ more) =
      ((cutLines sep text).1 ++ (cutLines sep ((cutLines sep text).2 ++ more)).1,
        (cutLines sep ((cutLines sep text).2 ++ more)).2) := by
  induction text with
  | nil => simp [cutLines]
  | cons c cs ih =>
    rw [List.cons_append]
    by_cases hc : c = sep
    · simp only [cutLines, if_pos hc, ih, List.cons_append]
    · simp only [cutLines, if_neg hc, ih]
      cases hlines : (cutLines sep cs).1 with
      | nil => simp only [List.nil_append, List.cons_append, cutLines, if_neg hc]
      | cons => simp only [List.cons_append]

theorem cutLines_of_not_mem {sep : α} {text : List α} (h : sep ∉ text) : cutLines sep text = ([], text) := by
  induction text with
  | nil => rfl
  | cons c _ ih =>
    rw [List.mem_cons, not_or] at h
    rw [cutLines, ih h.2, if_neg (Ne.symm h.1)]

end Lines

end MayAgent
