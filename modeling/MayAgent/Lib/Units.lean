import Mathlib.Data.List.Infix
import MayAgent.Lib.Pattern

/-!
# Texts as code units

A string of the runtime is a sequence of UTF-16 code units, which need not be well formed: its length, its slices and
the classes of its regular expressions are all about units. The operations below are stated over any alphabet where
nothing depends on the units.
-/

namespace MayAgent

/-! ### Splitting and searching -/

section Search

variable {α : Type*} [DecidableEq α]

/-- The sections of a text between the occurrences of a separator, with `skip` units left of an occurrence. -/
def sectionsFrom (sep : List α) : ℕ → List α → List α × List (List α)
  | _, [] => ([], [])
  | skip + 1, _ :: cs => sectionsFrom sep skip cs
  | 0, c :: cs =>
    if sep <+: c :: cs then
      let rest := sectionsFrom sep (sep.length - 1) cs
      ([], rest.1 :: rest.2)
    else
      let rest := sectionsFrom sep 0 cs
      (c :: rest.1, rest.2)

/-- `text.split(sep)` for a separator that is not empty: at least one section. -/
def sections (sep text : List α) : List (List α) := (sectionsFrom sep 0 text).1 :: (sectionsFrom sep 0 text).2

theorem sections_ne_nil (sep text : List α) : sections sep text ≠ [] := List.cons_ne_nil _ _

def afterFirst (pattern : List α) : List α → Option (List α)
  | [] => if pattern = [] then some [] else none
  | c :: cs => if pattern <+: c :: cs then some ((c :: cs).drop pattern.length) else afterFirst pattern cs

/-- `text.indexOf(pattern)`. -/
def indexOf (pattern : List α) : List α → Option ℕ
  | [] => if pattern = [] then some 0 else none
  | c :: cs => if pattern <+: c :: cs then some 0 else (indexOf pattern cs).map (· + 1)

variable {pattern text sep cs : List α} {c : α}

theorem indexOf_eq_some {i : ℕ} (h : indexOf pattern text = some i) :
    i ≤ text.length ∧ pattern <+: text.drop i := by
  induction text generalizing i with
  | nil =>
    rw [indexOf] at h
    split at h
    case isTrue hnil =>
      cases h
      exact ⟨le_refl 0, hnil ▸ List.nil_prefix⟩
    case isFalse => cases h
  | cons c _ ih =>
    rw [indexOf] at h
    split at h
    case isTrue hfound =>
      cases h
      exact ⟨Nat.zero_le _, hfound⟩
    case isFalse =>
      obtain ⟨j, hj, rfl⟩ := Option.map_eq_some_iff.mp h
      obtain ⟨hle, hprefix⟩ := ih hj
      exact ⟨Nat.succ_le_succ hle, hprefix⟩

theorem exists_indexOf (h : pattern <:+: text) : ∃ i, indexOf pattern text = some i := by
  induction text with
  | nil =>
    rw [List.infix_nil] at h
    exact ⟨0, by rw [indexOf, if_pos h]⟩
  | cons c _ ih =>
    rw [indexOf]
    split
    case isTrue => exact ⟨0, rfl⟩
    case isFalse hother =>
      obtain ⟨i, hi⟩ := ih ((List.infix_cons_iff.mp h).resolve_left hother)
      exact ⟨i + 1, by rw [hi]; rfl⟩

omit [DecidableEq α] in
theorem intercalate_cons_head (sep : List α) (c : α) (s : List α) (ss : List (List α)) :
    sep.intercalate ((c :: s) :: ss) = c :: sep.intercalate (s :: ss) := by
  cases ss <;> simp [List.intercalate]

omit [DecidableEq α] in
theorem length_le_intercalate (sep : List α) {s : List α} {ss : List (List α)} (h : s ∈ ss) :
    s.length ≤ (sep.intercalate ss).length := by
  induction ss with
  | nil => cases h
  | cons t ts ih =>
    cases ts with
    | nil =>
      obtain rfl := List.mem_singleton.mp h
      simp [List.intercalate]
    | cons u us =>
      have hcons : sep.intercalate (t :: u :: us) = t ++ sep ++ sep.intercalate (u :: us) := by
        simp [List.intercalate]
      rw [hcons, List.length_append, List.length_append]
      rcases List.mem_cons.mp h with rfl | h
      · omega
      · have := ih h
        omega

omit [DecidableEq α] in
theorem intercalate_cons_flatMap (sep s : List α) (ss : List (List α)) :
    sep.intercalate (s :: ss) = s ++ ss.flatMap (sep ++ ·) := by
  induction ss generalizing s with
  | nil => simp [List.intercalate]
  | cons t _ ih =>
    rw [List.flatMap_cons, List.append_assoc, ← ih t]
    simp [List.intercalate]

theorem intercalate_sectionsFrom (hsep : sep ≠ []) (skip : ℕ) (text : List α) :
    sep.intercalate ((sectionsFrom sep skip text).1 :: (sectionsFrom sep skip text).2) = text.drop skip := by
  induction text generalizing skip with
  | nil => simp [sectionsFrom]
  | cons c cs ih =>
    cases skip with
    | succ skip => exact ih skip
    | zero =>
      rw [sectionsFrom]
      split
      case isTrue hfound =>
        obtain ⟨rest, hrest⟩ := hfound
        obtain ⟨d, ds, rfl⟩ := List.exists_cons_of_ne_nil hsep
        have hcs : cs = ds ++ rest := (List.cons.inj hrest).2.symm
        have hdrop := ih ds.length
        rw [hcs, List.drop_left] at hdrop
        rw [← hrest, List.drop_zero, ← hdrop, hcs]
        simp [List.intercalate]
      case isFalse =>
        rw [intercalate_cons_head, ih 0]
        rfl

theorem intercalate_sections (hsep : sep ≠ []) (text : List α) :
    sep.intercalate (sections sep text) = text := intercalate_sectionsFrom hsep 0 text

theorem sectionsFrom_append (sep front rest : List α) :
    sectionsFrom sep front.length (front ++ rest) = sectionsFrom sep 0 rest := by
  induction front with
  | nil => rfl
  | cons c _ ih => exact ih

theorem sectionsFrom_of_not_mem (hc : c ∈ sep) (h : c ∉ text) :
    sectionsFrom sep 0 text = (text, []) := by
  induction text with
  | nil => rfl
  | cons d text ih =>
    have hother : ¬sep <+: d :: text := fun hfound => h (hfound.subset hc)
    rw [sectionsFrom, if_neg hother, ih (fun hmem => h (List.mem_cons_of_mem d hmem))]

theorem sections_cons_append (h : c ∉ text) : sections (c :: cs) (c :: cs ++ text) = [[], text] := by
  have hsplit : sectionsFrom (c :: cs) 0 (c :: cs ++ text) = ([], [text]) := by
    rw [List.cons_append, sectionsFrom, if_pos ⟨text, rfl⟩, List.length_cons, Nat.add_sub_cancel, sectionsFrom_append,
      sectionsFrom_of_not_mem List.mem_cons_self h]
  rw [sections, hsplit]

theorem afterFirst_append {before : List α} (h : c ∉ before) (rest : List α) :
    afterFirst (c :: cs) (before ++ (c :: cs) ++ rest) = some rest := by
  induction before with
  | nil =>
    rw [List.nil_append, List.cons_append, afterFirst, if_pos ⟨rest, rfl⟩]
    simp
  | cons d _ ih =>
    obtain ⟨hd, hbefore⟩ := not_or.mp (mt List.mem_cons.mpr h)
    rw [List.cons_append, List.cons_append, afterFirst, if_neg, ih hbefore]
    rintro ⟨_, hfound⟩
    exact hd (List.cons.inj hfound).1

end Search

/-! ### Code units -/

abbrev Units := List UInt16

/-- The units of a text of the basic plane. -/
def units (s : String) : Units := s.toList.map fun c => UInt16.ofNat c.toNat

namespace Units

/-- `\s`. -/
def isSpace (c : UInt16) : Bool := isSpaceCode c.toNat

def trim (text : Units) : Units := strip isSpace text

def includes (text pattern : Units) : Bool := decide (pattern <:+: text)

/-- The first unit of a surrogate pair. -/
def isHigh (c : UInt16) : Bool := 0xd800 ≤ c.toNat && c.toNat < 0xdc00

/-- The second unit of a surrogate pair. -/
def isLow (c : UInt16) : Bool := 0xdc00 ≤ c.toNat && c.toNat < 0xe000

/-- A cut between the two texts goes through a surrogate pair. -/
def Severs (front back : Units) : Prop := ∃ high ∈ front.getLast?, ∃ low ∈ back.head?, isHigh high = true ∧ isLow low = true

/-- The bytes that a unit adds to the UTF-8 form of a text. The second unit of a pair adds one to the three of the first
one; a unit that stands alone becomes a replacement character. -/
def unitBytes (c : UInt16) : ℕ := if c.toNat < 0x80 then 1 else if c.toNat < 0x800 then 2 else 3

/-- The bytes that a text adds behind a unit that does or does not start a pair. -/
def bytesAfter : Bool → Units → ℕ
  | _, [] => 0
  | high, c :: cs => (if high && isLow c then 1 else unitBytes c) + bytesAfter (isHigh c) cs

/-- `Buffer.byteLength(text)`. -/
def byteLength (text : Units) : ℕ := bytesAfter false text

theorem bytesAfter_le_append (high : Bool) (text more : Units) : bytesAfter high text ≤ bytesAfter high (text ++ more) := by
  induction text generalizing high with
  | nil => exact Nat.zero_le _
  | cons c _ ih =>
    rw [List.cons_append, bytesAfter, bytesAfter]
    exact Nat.add_le_add_left (ih _) _

theorem byteLength_mono {text longer : Units} (h : text <+: longer) : byteLength text ≤ byteLength longer := by
  obtain ⟨more, rfl⟩ := h
  exact bytesAfter_le_append false text more

/-- White space starts no pair, so what stands in front of a text does not change its bytes. -/
theorem byteLength_dropWhile_le (text : Units) : byteLength (text.dropWhile isSpace) ≤ byteLength text := by
  induction text with
  | nil => exact le_refl _
  | cons c cs ih =>
    by_cases hc : isSpace c = true
    · rw [List.dropWhile_cons_of_pos hc]
      have hhigh : isHigh c = false := by
        simp only [isSpace, isSpaceCode, Bool.or_eq_true, List.contains_eq_mem, List.mem_cons, List.not_mem_nil, or_false,
          Bool.and_eq_true, decide_eq_true_eq] at hc
        simp only [isHigh, Bool.and_eq_false_iff, decide_eq_false_iff_not]
        omega
      calc byteLength (cs.dropWhile isSpace) ≤ byteLength cs := ih
        _ ≤ byteLength (c :: cs) := by
          rw [byteLength, byteLength, bytesAfter, hhigh]
          exact Nat.le_add_left _ _
    · rw [List.dropWhile_cons_of_neg hc]

theorem byteLength_trim_le (text : Units) : byteLength (trim text) ≤ byteLength text :=
  le_trans (byteLength_mono (List.rdropWhile_prefix _ _)) (byteLength_dropWhile_le text)

end Units

end MayAgent
