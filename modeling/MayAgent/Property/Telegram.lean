import MayAgent.Host.Telegram

/-!
# Nothing of a message is lost

The loop ends, since every round takes something; no chunk is longer than the limit, and only white space behind a cut
is dropped. Two things may go wrong. A chunk behind a cut starts with text, but the first one may be nothing but white
space. And where neither a line break nor a blank is near, the cut is made at the limit, also in the middle of a
surrogate pair.
-/

namespace MayAgent

namespace Telegram

/-! ### Where a text is cut -/

section Cuts

variable {text : Units} {c : UInt16} {maxLen : ℕ}

variable {i : ℕ}

theorem lastIndexOf_eq_some {position : ℕ} (h : lastIndexOf text c position = some i) :
    i ≤ position ∧ text[i]? = some c := by
  induction position with
  | zero =>
    rw [lastIndexOf] at h
    split at h
    case isTrue hc =>
      cases h
      exact ⟨le_refl 0, hc⟩
    case isFalse => cases h
  | succ _ ih =>
    rw [lastIndexOf] at h
    split at h
    case isTrue hc =>
      cases h
      exact ⟨le_refl _, hc⟩
    case isFalse =>
      obtain ⟨hle, hc⟩ := ih h
      exact ⟨by omega, hc⟩

theorem le_lastIndexOf {position : ℕ} (hi : i ≤ position) (hc : text[i]? = some c) :
    ∃ j, lastIndexOf text c position = some j ∧ i ≤ j := by
  induction position with
  | zero =>
    obtain rfl : i = 0 := by omega
    exact ⟨0, by rw [lastIndexOf, if_pos hc], le_refl 0⟩
  | succ position ih =>
    rw [lastIndexOf]
    split
    case isTrue => exact ⟨position + 1, rfl, hi⟩
    case isFalse hother =>
      refine ih ?_
      have hne : i ≠ position + 1 := fun heq => hother (heq ▸ hc)
      omega

theorem lateIndexOf_eq_some (h : lateIndexOf text c maxLen = some i) :
    maxLen ≤ 2 * i ∧ i ≤ maxLen ∧ text[i]? = some c := by
  rw [lateIndexOf, Option.filter_eq_some_iff] at h
  obtain ⟨hle, hc⟩ := lastIndexOf_eq_some h.1
  exact ⟨by simpa using h.2, hle, hc⟩

theorem lateIndexOf_eq_none (h : lateIndexOf text c maxLen = none) (hlate : maxLen ≤ 2 * i) (hi : i ≤ maxLen) :
    text[i]? ≠ some c := by
  intro hc
  obtain ⟨j, hj, hij⟩ := le_lastIndexOf hi hc
  rw [lateIndexOf, Option.filter_eq_none_iff] at h
  have hearly := h j hj
  simp only [decide_eq_true_eq] at hearly
  omega

/-- No line break and no blank stands in the second half of the limit. -/
def Unbroken (maxLen : ℕ) (text : Units) : Prop :=
  ∀ i, maxLen ≤ 2 * i → i ≤ maxLen → text[i]? ≠ some newline ∧ text[i]? ≠ some blank

theorem splitAt_cases (text : Units) (maxLen : ℕ) :
    (maxLen ≤ 2 * splitAt text maxLen ∧ splitAt text maxLen ≤ maxLen ∧
      (text[splitAt text maxLen]? = some newline ∨ text[splitAt text maxLen]? = some blank)) ∨
    (splitAt text maxLen = maxLen ∧ Unbroken maxLen text) := by
  rw [splitAt]
  cases hline : lateIndexOf text newline maxLen with
  | some =>
    obtain ⟨hlate, hle, hc⟩ := lateIndexOf_eq_some hline
    exact .inl ⟨hlate, hle, .inl hc⟩
  | none =>
    cases hblank : lateIndexOf text blank maxLen with
    | some =>
      obtain ⟨hlate, hle, hc⟩ := lateIndexOf_eq_some hblank
      exact .inl ⟨hlate, hle, .inr hc⟩
    | none =>
      exact .inr ⟨rfl, fun i hlate hi => ⟨lateIndexOf_eq_none hline hlate hi, lateIndexOf_eq_none hblank hlate hi⟩⟩

theorem splitAt_le (text : Units) (maxLen : ℕ) : splitAt text maxLen ≤ maxLen := by
  rcases splitAt_cases text maxLen with ⟨-, hle, -⟩ | ⟨heq, -⟩
  · exact hle
  · exact heq.le

theorem splitAt_pos (text : Units) (hmax : 0 < maxLen) : 0 < splitAt text maxLen := by
  rcases splitAt_cases text maxLen with ⟨hlate, -, -⟩ | ⟨heq, -⟩ <;> omega

theorem not_severs_splitAt (hfront : text[splitAt text maxLen]? = some newline ∨ text[splitAt text maxLen]? = some blank) :
    ¬Units.Severs (text.take (splitAt text maxLen)) (text.drop (splitAt text maxLen)) := by
  rintro ⟨-, -, low, hlow, -, hsecond⟩
  rw [List.head?_drop] at hlow
  rcases hfront with hc | hc
  · rw [hc] at hlow
    cases hlow
    exact absurd hsecond (by decide)
  · rw [hc] at hlow
    cases hlow
    exact absurd hsecond (by decide)

/-- A round that cuts at the limit does not cut through a pair. -/
def Keeps (maxLen : ℕ) (text : Units) : Prop :=
  maxLen < text.length → Unbroken maxLen text → ¬Units.Severs (text.take maxLen) (text.drop maxLen)

theorem keeps_iff (hlong : maxLen < text.length) :
    Keeps maxLen text ↔ ¬Units.Severs (text.take (splitAt text maxLen)) (text.drop (splitAt text maxLen)) := by
  rcases splitAt_cases text maxLen with ⟨hlate, hle, hfront⟩ | ⟨heq, hunbroken⟩
  · refine iff_of_true (fun _ hunbroken => ?_) (not_severs_splitAt hfront)
    obtain ⟨hline, hblank⟩ := hunbroken _ hlate hle
    exact absurd hfront (not_or.mpr ⟨hline, hblank⟩)
  · rw [heq]
    exact ⟨fun h => h hlong hunbroken, fun h _ _ => h⟩

theorem length_remaining_le (maxLen : ℕ) (text : Units) : (remaining maxLen text).length ≤ text.length :=
  le_trans (List.dropWhile_suffix _).length_le (by rw [List.length_drop]; omega)

theorem length_remaining_lt (hmax : 0 < maxLen) (hne : text ≠ []) : (remaining maxLen text).length < text.length := by
  have hpos := splitAt_pos text hmax
  have hlen : 0 < text.length := List.length_pos_of_ne_nil hne
  have hdrop : (remaining maxLen text).length ≤ (text.drop (splitAt text maxLen)).length :=
    (List.dropWhile_suffix _).length_le
  rw [List.length_drop] at hdrop
  omega

theorem head_remaining (h : (remaining maxLen text).head? = some c) : Units.isSpace c = false := by
  rw [remaining, trimStart] at h
  have hhead := List.head?_dropWhile_not Units.isSpace (text.drop (splitAt text maxLen))
  rw [h] at hhead
  simpa using hhead

end Cuts

/-! ### The rounds -/

inductive Rounds (maxLen : ℕ) : Units → List Units → Prop
  | done : Rounds maxLen [] []
  | last {text : Units} : text ≠ [] → text.length ≤ maxLen → Rounds maxLen text [text]
  | cut {text : Units} {chunks : List Units} : maxLen < text.length → Rounds maxLen (remaining maxLen text) chunks →
      Rounds maxLen text (text.take (splitAt text maxLen) :: chunks)

section Loop

variable {text : Units} {chunks : List Units} {maxLen : ℕ}

theorem splitLoop_ends (hmax : 0 < maxLen) {rounds : ℕ} (h : text.length ≤ rounds) :
    ∃ chunks, splitLoop maxLen rounds text = some chunks := by
  induction rounds generalizing text with
  | zero =>
    obtain rfl := List.length_eq_zero_iff.mp (Nat.le_zero.mp h)
    exact ⟨[], rfl⟩
  | succ rounds ih =>
    cases text with
    | nil => exact ⟨[], rfl⟩
    | cons c cs =>
      rw [splitLoop]
      split
      · exact ⟨_, rfl⟩
      · have hless := length_remaining_lt hmax (List.cons_ne_nil c cs)
        have hrest : (remaining maxLen (c :: cs)).length ≤ rounds := by omega
        obtain ⟨chunks, hchunks⟩ := ih hrest
        rw [hchunks]
        exact ⟨_, rfl⟩

theorem Rounds.of_splitLoop {rounds : ℕ} (h : splitLoop maxLen rounds text = some chunks) : Rounds maxLen text chunks := by
  induction rounds generalizing text chunks with
  | zero =>
    cases text with
    | nil =>
      cases h
      exact .done
    | cons => cases h
  | succ _ ih =>
    cases text with
    | nil =>
      cases h
      exact .done
    | cons c cs =>
      rw [splitLoop] at h
      split at h
      case isTrue hshort =>
        cases h
        exact .last (List.cons_ne_nil c cs) hshort
      case isFalse hlong =>
        obtain ⟨rest, hrest, rfl⟩ := Option.map_eq_some_iff.mp h
        exact .cut (by omega) (ih hrest)

theorem Rounds.unique {others : List Units} (h : Rounds maxLen text chunks) (h' : Rounds maxLen text others) :
    chunks = others := by
  induction h generalizing others with
  | done =>
    cases h' with
    | done => rfl
    | last hne => exact absurd rfl hne
    | cut hlong => exact absurd hlong (Nat.not_lt_zero _)
  | last hne =>
    cases h' with
    | done => exact absurd rfl hne
    | last => rfl
    | cut => omega
  | cut hlong _ ih =>
    cases h' with
    | done => exact absurd hlong (Nat.not_lt_zero _)
    | last => omega
    | cut _ hrest => rw [ih hrest]

theorem Rounds.length_le (h : Rounds maxLen text chunks) : ∀ chunk ∈ chunks, chunk.length ≤ maxLen := by
  induction h with
  | done => exact fun _ hmem => absurd hmem List.not_mem_nil
  | last =>
    intro chunk hmem
    rwa [List.mem_singleton.mp hmem]
  | @cut text _ _ _ ih =>
    intro chunk hmem
    rcases List.mem_cons.mp hmem with rfl | hmem
    · rw [List.length_take]
      exact le_trans (Nat.min_le_left _ _) (splitAt_le text maxLen)
    · exact ih chunk hmem

theorem Rounds.head (hmax : 0 < maxLen) {chunk : Units} (h : Rounds maxLen text (chunk :: chunks)) :
    chunk.head? = text.head? ∧ chunk ≠ [] := by
  cases h with
  | last hne => exact ⟨rfl, hne⟩
  | cut =>
    have hpos := splitAt_pos text hmax
    have hne : text ≠ [] := List.ne_nil_of_length_pos (by omega)
    rw [List.head?_take, if_neg (by omega)]
    exact ⟨rfl, by simp [hne]; omega⟩

end Loop

/-! ### What the chunks have to be -/

/-- The text is made of the chunks, each followed by white space, and no chunk ends within a surrogate pair. -/
inductive Parts : Units → List Units → Prop
  | nil : Parts [] []
  | cons {chunk gap rest : Units} {chunks : List Units} : (∀ c ∈ gap, Units.isSpace c = true) →
      ¬Units.Severs chunk (gap ++ rest) → Parts rest chunks → Parts (chunk ++ (gap ++ rest)) (chunk :: chunks)

theorem Parts.self (text : Units) : Parts text [text] := by
  have hwhole : ¬Units.Severs text [] := by
    rintro ⟨-, -, low, hlow, -⟩
    cases hlow
  have h : Parts (text ++ ([] ++ [])) [text] := .cons (fun _ hc => absurd hc List.not_mem_nil) hwhole .nil
  simpa using h

variable {text : Units} {chunks : List Units} {maxLen : ℕ}

theorem Parts.cons_inv {chunk back : Units} (h : Parts text (chunk :: chunks))
    (htext : text = chunk ++ back) : ∃ gap rest, back = gap ++ rest ∧ (∀ c ∈ gap, Units.isSpace c = true) ∧
      ¬Units.Severs chunk (gap ++ rest) ∧ Parts rest chunks := by
  cases h with
  | @cons _ gap rest _ hgap hsevers hparts =>
    exact ⟨gap, rest, (List.append_cancel_left htext).symm, hgap, hsevers, hparts⟩

theorem dropWhile_gap {gap rest : Units} (hgap : ∀ c ∈ gap, Units.isSpace c = true)
    (hrest : ∀ c ∈ rest.head?, Units.isSpace c = false) : (gap ++ rest).dropWhile Units.isSpace = rest := by
  rw [List.dropWhile_append_of_pos hgap]
  cases rest with
  | nil => rfl
  | cons c => exact List.dropWhile_cons_of_neg (by simp [hrest c rfl])

theorem parts_cut_iff (hmax : 0 < maxLen) (hlong : maxLen < text.length)
    (hrounds : Rounds maxLen (remaining maxLen text) chunks) :
    Parts text (text.take (splitAt text maxLen) :: chunks) ↔ Keeps maxLen text ∧ Parts (remaining maxLen text) chunks := by
  have hsplit : text.take (splitAt text maxLen) ++ text.drop (splitAt text maxLen) = text := List.take_append_drop _ _
  have hdrop : (text.drop (splitAt text maxLen)).takeWhile Units.isSpace ++ remaining maxLen text =
      text.drop (splitAt text maxLen) := List.takeWhile_append_dropWhile
  rw [keeps_iff hlong]
  constructor
  · intro h
    obtain ⟨gap, rest, hgapped, hgap, hsevers, hparts⟩ := h.cons_inv hsplit.symm
    rw [hgapped]
    refine ⟨hsevers, ?_⟩
    -- The next chunk does not start with white space, so the gap is all of it that is there.
    have hhead : ∀ c ∈ rest.head?, Units.isSpace c = false := by
      intro c hc
      cases hparts with
      | nil => cases hc
      | @cons _ _ _ _ _ _ _ =>
        obtain ⟨hsame, hne⟩ := hrounds.head hmax
        rw [List.head?_append_of_ne_nil _ hne, hsame] at hc
        exact head_remaining hc
    rwa [remaining, trimStart, hgapped, dropWhile_gap hgap hhead]
  · rintro ⟨hkeeps, hparts⟩
    have h : Parts (text.take (splitAt text maxLen) ++
        ((text.drop (splitAt text maxLen)).takeWhile Units.isSpace ++ remaining maxLen text))
        (text.take (splitAt text maxLen) :: chunks) :=
      .cons (fun c hc => List.mem_takeWhile_imp hc) (by rwa [hdrop]) hparts
    rwa [hdrop, hsplit] at h

theorem Keeps.of_le (h : text.length ≤ maxLen) : Keeps maxLen text := fun hlong => by omega

theorem iterate_remaining_le (maxLen : ℕ) (text : Units) (n : ℕ) :
    ((remaining maxLen)^[n] text).length ≤ text.length := by
  induction n generalizing text with
  | zero => exact le_refl _
  | succ n ih =>
    rw [Function.iterate_succ_apply]
    exact le_trans (ih _) (length_remaining_le maxLen text)

theorem Rounds.parts_iff (hmax : 0 < maxLen)
    (h : Rounds maxLen text chunks) : Parts text chunks ↔ ∀ n, Keeps maxLen ((remaining maxLen)^[n] text) := by
  induction h with
  | done => exact iff_of_true .nil fun n => .of_le (le_trans (iterate_remaining_le maxLen [] n) (Nat.zero_le _))
  | @last text _ hshort => exact iff_of_true (.self text) fun n => .of_le (le_trans (iterate_remaining_le maxLen text n) hshort)
  | @cut _ _ hlong hrounds ih =>
    rw [parts_cut_iff hmax hlong hrounds, ih]
    constructor
    · rintro ⟨hfirst, hrest⟩ n
      cases n with
      | zero => exact hfirst
      | succ n =>
        rw [Function.iterate_succ_apply]
        exact hrest n
    · intro hall
      refine ⟨hall 0, fun n => ?_⟩
      have := hall (n + 1)
      rwa [Function.iterate_succ_apply] at this

/-! ### Blank chunks -/

theorem trim_ne_nil_iff : Units.trim text ≠ [] ↔ ∃ c ∈ text, Units.isSpace c = false := by
  rw [Units.trim, strip, Ne, List.rdropWhile_eq_nil_iff]
  constructor
  · intro h
    push Not at h
    obtain ⟨c, hc, hspace⟩ := h
    exact ⟨c, (List.dropWhile_suffix _).subset hc, by simpa using hspace⟩
  · rintro ⟨c, hc, hspace⟩ hall
    rw [← List.takeWhile_append_dropWhile (p := Units.isSpace) (l := text), List.mem_append] at hc
    rcases hc with hc | hc
    · rw [List.mem_takeWhile_imp hc] at hspace
      cases hspace
    · rw [hall c hc] at hspace
      cases hspace

theorem Rounds.nonBlank (hmax : 0 < maxLen) (h : Rounds maxLen text chunks)
    (hhead : ∀ c ∈ text.head?, Units.isSpace c = false) : ∀ chunk ∈ chunks, Units.trim chunk ≠ [] := by
  induction h with
  | done => exact fun _ hmem => absurd hmem List.not_mem_nil
  | @last _ hne _ =>
    intro chunk hmem
    obtain rfl := List.mem_singleton.mp hmem
    exact trim_ne_nil_iff.mpr ⟨chunk.head hne, List.head_mem hne, hhead _ (List.head?_eq_some_head hne)⟩
  | @cut _ _ hlong hrounds ih =>
    intro chunk hmem
    rcases List.mem_cons.mp hmem with rfl | hmem
    · obtain ⟨hsame, hne⟩ := (Rounds.cut hlong hrounds).head hmax
      refine trim_ne_nil_iff.mpr ⟨_, List.head_mem hne, hhead _ ?_⟩
      rw [← hsame]
      exact List.head?_eq_some_head hne
    · exact ih (fun c hc => head_remaining hc) chunk hmem

/-- Something other than white space stands before the first cut of a text, or in a text that is not cut. -/
def Opens (maxLen : ℕ) (text : Units) : Prop :=
  ∃ c ∈ text.take (if text.length ≤ maxLen then text.length else splitAt text maxLen), Units.isSpace c = false

structure Split (text : Units) (maxLen : ℕ) (chunks : List Units) : Prop where
  nonBlank : ∀ chunk ∈ chunks, Units.trim chunk ≠ []
  bounded : ∀ chunk ∈ chunks, chunk.length ≤ maxLen
  parts : Parts text chunks

/-- The function returns the chunks, however many rounds beyond the needed ones it is given. -/
def Returns (text : Units) (maxLen : ℕ) (chunks : List Units) : Prop :=
  ∃ enough, ∀ rounds, enough ≤ rounds → splitTelegramMessage text maxLen rounds = some chunks

theorem returns_iff (hmax : 0 < maxLen) :
    Returns text maxLen chunks ↔
      if text.length ≤ maxLen then chunks = [text] else Rounds maxLen text chunks := by
  by_cases hshort : text.length ≤ maxLen
  · rw [if_pos hshort]
    constructor
    · rintro ⟨enough, h⟩
      have hreturned := h enough (le_refl _)
      rw [splitTelegramMessage, if_pos hshort] at hreturned
      exact (Option.some.inj hreturned).symm
    · rintro rfl
      exact ⟨0, fun rounds _ => by rw [splitTelegramMessage, if_pos hshort]⟩
  · rw [if_neg hshort]
    constructor
    · rintro ⟨enough, h⟩
      have hreturned := h enough (le_refl _)
      rw [splitTelegramMessage, if_neg hshort] at hreturned
      exact .of_splitLoop hreturned
    · intro hrounds
      refine ⟨text.length, fun rounds henough => ?_⟩
      obtain ⟨others, hothers⟩ := splitLoop_ends hmax henough
      rw [splitTelegramMessage, if_neg hshort, hothers, hrounds.unique (.of_splitLoop hothers)]

theorem Rounds.nonBlank_iff (hmax : 0 < maxLen)
    (hlong : maxLen < text.length) (h : Rounds maxLen text chunks) :
    (∀ chunk ∈ chunks, Units.trim chunk ≠ []) ↔ Opens maxLen text := by
  rw [Opens, if_neg (by omega), ← trim_ne_nil_iff]
  cases h with
  | done => exact absurd hlong (Nat.not_lt_zero _)
  | last => omega
  | cut _ hrounds =>
    refine ⟨fun hall => hall _ List.mem_cons_self, fun hfirst chunk hmem => ?_⟩
    rcases List.mem_cons.mp hmem with rfl | hmem
    · exact hfirst
    · exact hrounds.nonBlank hmax (fun c hc => head_remaining hc) chunk hmem

/-- The splitting of a message ends with chunks that lose nothing exactly if the text opens with something and no round
cuts through a surrogate pair. -/
theorem splitTelegramMessage_lossless (text : Units) (maxLen : ℕ) (hmax : 0 < maxLen) :
    (∃ chunks, Returns text maxLen chunks ∧ Split text maxLen chunks) ↔
      Opens maxLen text ∧ ∀ n, Keeps maxLen ((remaining maxLen)^[n] text) := by
  by_cases hshort : text.length ≤ maxLen
  · have hkeeps : ∀ n, Keeps maxLen ((remaining maxLen)^[n] text) :=
      fun n => .of_le (le_trans (iterate_remaining_le maxLen text n) hshort)
    simp only [returns_iff hmax, if_pos hshort, hkeeps, implies_true, and_true, exists_eq_left]
    rw [Opens, if_pos hshort, List.take_length, ← trim_ne_nil_iff]
    refine ⟨fun h => h.nonBlank text (List.mem_singleton_self text), fun h => ⟨?_, ?_, .self text⟩⟩
    · intro chunk hmem
      rwa [List.mem_singleton.mp hmem]
    · intro chunk hmem
      rwa [List.mem_singleton.mp hmem]
  · simp only [returns_iff hmax, if_neg hshort]
    have hlong : maxLen < text.length := by omega
    constructor
    · rintro ⟨chunks, hrounds, hsplit⟩
      exact ⟨(hrounds.nonBlank_iff hmax hlong).mp hsplit.nonBlank, (hrounds.parts_iff hmax).mp hsplit.parts⟩
    · rintro ⟨hopens, hkeeps⟩
      obtain ⟨chunks, hchunks⟩ := splitLoop_ends hmax (le_refl text.length)
      have hrounds := Rounds.of_splitLoop hchunks
      exact ⟨chunks, hrounds, (hrounds.nonBlank_iff hmax hlong).mpr hopens, hrounds.length_le,
        (hrounds.parts_iff hmax).mpr hkeeps⟩

/-- A message of two words. -/
theorem splitTelegramMessage_words :
    ∃ chunks, Returns (units "one two") 4 chunks ∧ Split (units "one two") 4 chunks := by
  refine (splitTelegramMessage_lossless (units "one two") 4 (by decide)).mpr ⟨⟨111, by decide, by decide⟩, ?_⟩
  intro n hlong hunbroken
  cases n with
  | zero => exact absurd rfl (hunbroken 3 (by decide) (by decide)).2
  | succ n =>
    rw [Function.iterate_succ_apply] at hlong
    have hle := iterate_remaining_le 4 (remaining 4 (units "one two")) n
    have hthree : (remaining 4 (units "one two")).length = 3 := by decide
    omega

def emoji : Units := [0x61, 0xd83d, 0xde00]

theorem splitTelegramMessage_severs :
    ¬∃ chunks, Returns emoji 2 chunks ∧ Split emoji 2 chunks := by
  rintro ⟨chunks, hreturns, hsplit⟩
  have hrounds : Rounds 2 emoji chunks := (returns_iff (by decide)).mp hreturns
  have hkeeps := (hrounds.parts_iff (by decide)).mp hsplit.parts 0
  refine hkeeps (by decide) (fun i hlate hi => ?_) ⟨0xd83d, by decide, 0xde00, by decide, by decide, by decide⟩
  have hcases : i = 1 ∨ i = 2 := by omega
  rcases hcases with rfl | rfl <;> decide

end Telegram

end MayAgent
