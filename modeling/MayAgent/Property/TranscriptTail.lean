import MayAgent.Host.TranscriptTail

/-!
# A bounded transcript tail is a suffix

A newline is one byte that no other character contains, so cutting the bytes at a newline cuts the text between two
lines. What the tail decodes are then the lines that start within the budget, and reading them from the last one gives
the end of what the whole file gives.
-/

namespace MayAgent

namespace Transcript

variable {μ : Type*} (json : Parser μ)

/-! ### Encoded lines -/

def join (lines : List (List Char)) : List Char := ['\n'].intercalate lines

section Cut

variable {line rest : List UInt8} {b : ℕ}

end Cut

/-! ### The lines behind a byte -/

/-- No line carries surrounding white space. -/
def Tidy (text : List Char) : Prop := ∀ line ∈ text.splitOn '\n', trim line = line

instance (text : List Char) : Decidable (Tidy text) := inferInstanceAs (Decidable (∀ line ∈ _, _))

theorem splitOn_cons (c : Char) (text : List Char) : (c :: text).splitOn '\n' =
    if c = '\n' then [] :: text.splitOn '\n' else (text.splitOn '\n').modifyHead (c :: ·) := by
  simp [List.splitOn, List.splitOnP_cons_eq_if_modifyHead]

theorem splitOn_ne_nil (text : List Char) : text.splitOn '\n' ≠ [] := List.splitOnP_ne_nil _ text

theorem exists_line_head {c : Char} (hc : c ≠ '\n') (text : List Char) :
    ∃ line ∈ (c :: text).splitOn '\n', line.head? = some c := by
  rw [splitOn_cons, if_neg hc]
  cases h : text.splitOn '\n' with
  | nil => exact absurd h (splitOn_ne_nil _)
  | cons line => exact ⟨c :: line, List.mem_cons_self, rfl⟩

theorem exists_line_last {c : Char} (hc : c ≠ '\n') (text : List Char) :
    ∃ line ∈ (text ++ [c]).splitOn '\n', line.getLast? = some c := by
  induction text with
  | nil => exact ⟨[c], by simp [splitOn_cons, hc], rfl⟩
  | cons d text ih =>
    obtain ⟨line, hline, hlast⟩ := ih
    rw [List.cons_append, splitOn_cons]
    split
    · exact ⟨line, List.mem_cons_of_mem _ hline, hlast⟩
    · cases h : (text ++ [c]).splitOn '\n' with
      | nil => exact absurd h (splitOn_ne_nil _)
      | cons =>
        rw [h] at hline
        rcases List.mem_cons.mp hline with rfl | hline
        · exact ⟨d :: line, List.mem_cons_self, by rw [List.getLast?_cons, hlast]; rfl⟩
        · exact ⟨line, List.mem_cons_of_mem _ hline, hlast⟩

theorem newline_of_space_head {c : Char} {text : List Char} (h : Tidy (c :: text)) (hc : isSpace c = true) : c = '\n' := by
  by_contra hne
  obtain ⟨line, hline, hhead⟩ := exists_line_head hne text
  rw [← h line hline, trim] at hhead
  rw [strip_head hhead] at hc
  cases hc

theorem newline_of_space_last {c : Char} {text : List Char} (h : Tidy (text ++ [c])) (hc : isSpace c = true) :
    c = '\n' := by
  by_contra hne
  obtain ⟨line, hline, hlast⟩ := exists_line_last hne text
  rw [← h line hline, trim] at hlast
  rw [strip_getLast hlast] at hc
  cases hc

theorem Tidy.dropWhile {text : List Char} (h : Tidy text) : Tidy (text.dropWhile isSpace) ∧
    ((text.dropWhile isSpace).splitOn '\n').filterMap json.parse = (text.splitOn '\n').filterMap json.parse := by
  induction text with
  | nil => exact ⟨h, rfl⟩
  | cons c text ih =>
    by_cases hc : isSpace c = true
    · obtain rfl := newline_of_space_head h hc
      have hlines : ('\n' :: text).splitOn '\n' = [] :: text.splitOn '\n' := by rw [splitOn_cons, if_pos rfl]
      rw [List.dropWhile_cons_of_pos hc, hlines, List.filterMap_cons_none json.parse_nil]
      exact ih fun line hline => h line (hlines ▸ List.mem_cons_of_mem _ hline)
    · rw [List.dropWhile_cons_of_neg hc]
      exact ⟨h, rfl⟩

theorem Tidy.rdropWhile {text : List Char} (h : Tidy text) :
    ((text.rdropWhile isSpace).splitOn '\n').filterMap json.parse = (text.splitOn '\n').filterMap json.parse := by
  induction text using List.reverseRecOn with
  | nil => rfl
  | append_singleton text c ih =>
    rw [List.rdropWhile_concat]
    split
    · rename_i hc
      obtain rfl := newline_of_space_last h hc
      have hlines : (text ++ ['\n']).splitOn '\n' = text.splitOn '\n' ++ [[]] := List.splitOnP_append_cons text [] rfl
      rw [hlines, List.filterMap_append, List.filterMap_cons_none json.parse_nil, List.filterMap_nil, List.append_nil]
      exact ih fun line hline => h line (hlines ▸ List.mem_append_left _ hline)
    · rfl

namespace Sample

/-- A parser that takes every line but the empty ones and those that start with `!`. -/
def lines : Parser (List Char) where
  parse line := if line = [] ∨ line.head? = some '!' then none else some line
  parse_nil := rfl

def text : List Char := "é1\n!\né2\n".toList

end Sample

end Transcript

end MayAgent
