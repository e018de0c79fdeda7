import MayAgent.Host.Edit

/-!
# An edit changes the matched text

The tool rewrites the whole file in the style of its first line ending, so what stands outside of the match keeps its
line terminators only if they are all in that style. Occurrences are counted without overlaps, so a text that overlaps
with itself passes as unique.
-/

namespace MayAgent

namespace Edit

/-! ### Line endings -/

theorem length_replaceCrlf_le (text : Text) : (replaceCrlf text).length ≤ text.length := by
  induction text using replaceCrlf.induct with
  | case1 => exact le_refl _
  | case2 => exact le_refl _
  | case3 c d _ h =>
    rw [replaceCrlf, if_pos h, List.length_cons, List.length_cons, List.length_cons]
    omega
  | case4 c d _ h =>
    rw [replaceCrlf, if_neg h, List.length_cons, List.length_cons]
    omega

theorem length_normalizeToLF_le (text : Text) : (normalizeToLF text).length ≤ text.length := by
  rw [normalizeToLF, List.length_map]
  exact length_replaceCrlf_le text

theorem cr_not_mem_normalizeToLF (text : Text) : '\r' ∉ normalizeToLF text := by
  intro h
  obtain ⟨c, -, hc⟩ := List.mem_map.mp h
  split at hc
  · exact absurd hc (by decide)
  case isFalse hother => exact hother hc

theorem restoreLineEndings_append (text more : Text) (ending : Ending) :
    restoreLineEndings (text ++ more) ending = restoreLineEndings text ending ++ restoreLineEndings more ending := by
  cases ending with
  | crlf => exact List.flatMap_append
  | lf => rfl

theorem length_le_restore_normalize (text : Text) :
    text.length ≤ (restoreLineEndings (normalizeToLF text) .crlf).length := by
  -- What a character that is kept is restored to.
  have hkept (c : Char) : 1 ≤ (restoreLineEndings [if c = '\r' then '\n' else c] .crlf).length := by
    by_cases hc : c = '\r'
    · rw [if_pos hc]
      decide
    · rw [if_neg hc]
      by_cases hlf : c = '\n' <;> simp [restoreLineEndings, hlf]
  induction text using replaceCrlf.induct with
  | case1 => exact Nat.zero_le _
  | case2 c => exact hkept c
  | case3 c d cs h =>
    have hsplit : normalizeToLF (c :: d :: cs) = ['\n'] ++ normalizeToLF cs := by
      rw [normalizeToLF, replaceCrlf, if_pos h]
      rfl
    rw [hsplit, restoreLineEndings_append, List.length_append, List.length_cons, List.length_cons]
    have htwo : (restoreLineEndings ['\n'] .crlf).length = 2 := by decide
    omega
  | case4 c d cs h =>
    have hsplit : normalizeToLF (c :: d :: cs) = [if c = '\r' then '\n' else c] ++ normalizeToLF (d :: cs) := by
      rw [normalizeToLF, replaceCrlf, if_neg h]
      rfl
    rw [hsplit, restoreLineEndings_append, List.length_append, List.length_cons]
    have := hkept c
    omega

theorem normalizeToLF_of_not_mem {text : Text} (h : '\r' ∉ text) : normalizeToLF text = text := by
  induction text using replaceCrlf.induct with
  | case1 => rfl
  | case2 c =>
    have hc : c ≠ '\r' := fun heq => h (heq ▸ List.mem_singleton_self c)
    rw [normalizeToLF, replaceCrlf, List.map_singleton, if_neg hc]
  | case3 c d _ hpair => exact absurd (hpair.1 ▸ List.mem_cons_self) h
  | case4 c d cs hpair ih =>
    have hc : c ≠ '\r' := fun heq => h (heq ▸ List.mem_cons_self)
    have hrest : normalizeToLF (d :: cs) = d :: cs := ih fun hmem => h (List.mem_cons_of_mem c hmem)
    rw [normalizeToLF, replaceCrlf, if_neg hpair, List.map_cons, if_neg hc]
    exact congrArg (c :: ·) hrest

theorem normalizeToLF_restore {text : Text} (h : '\r' ∉ text) (ending : Ending) :
    normalizeToLF (restoreLineEndings text ending) = text := by
  cases ending with
  | lf => exact normalizeToLF_of_not_mem h
  | crlf =>
    induction text with
    | nil => rfl
    | cons c cs ih =>
      rw [List.mem_cons, not_or] at h
      have hrest := ih h.2
      by_cases hc : c = '\n'
      · have hrestored : restoreLineEndings (c :: cs) .crlf = '\r' :: '\n' :: restoreLineEndings cs .crlf := by
          rw [restoreLineEndings, List.flatMap_cons, if_pos hc]
          rfl
        rw [hrestored, normalizeToLF, replaceCrlf, if_pos ⟨rfl, rfl⟩, List.map_cons, hc]
        exact congrArg ('\n' :: ·) hrest
      · have hrestored : restoreLineEndings (c :: cs) .crlf = c :: restoreLineEndings cs .crlf := by
          rw [restoreLineEndings, List.flatMap_cons, if_neg hc]
          rfl
        have hreplaced (rest : Text) : replaceCrlf (c :: rest) = c :: replaceCrlf rest := by
          cases rest with
          | nil => rfl
          | cons => rw [replaceCrlf, if_neg fun hpair => h.1 hpair.1.symm]
        rw [hrestored, normalizeToLF, hreplaced, List.map_cons, if_neg (Ne.symm h.1)]
        exact congrArg (c :: ·) hrest

def Styled (ending : Ending) (text : Text) : Prop := ∃ plain, '\r' ∉ plain ∧ text = restoreLineEndings plain ending

theorem styled_iff {ending : Ending} {text : Text} :
    Styled ending text ↔ restoreLineEndings (normalizeToLF text) ending = text := by
  constructor
  · rintro ⟨_, hplain, rfl⟩
    rw [normalizeToLF_restore hplain]
  · intro h
    exact ⟨normalizeToLF text, cr_not_mem_normalizeToLF text, h.symm⟩

theorem styled_of_append {ending : Ending} {before after middle : Text}
    (h : restoreLineEndings (normalizeToLF before) ending ++ middle ++ restoreLineEndings (normalizeToLF after) ending =
      before ++ middle ++ after) : Styled ending before ∧ Styled ending after := by
  have hlength := congrArg List.length h
  simp only [List.length_append] at hlength
  -- Normalisation makes both shorter and restoring makes both longer, so neither changes the length.
  have hsame : (restoreLineEndings (normalizeToLF before) ending).length = before.length := by
    cases ending with
    | crlf =>
      have hbefore := length_le_restore_normalize before
      have hafter := length_le_restore_normalize after
      omega
    | lf =>
      have hbefore := length_normalizeToLF_le before
      have hafter := length_normalizeToLF_le after
      simp only [restoreLineEndings] at hlength ⊢
      omega
  rw [List.append_assoc, List.append_assoc] at h
  obtain ⟨hbefore, hrest⟩ := List.append_inj h hsame
  exact ⟨styled_iff.mpr hbefore, styled_iff.mpr (List.append_cancel_left hrest)⟩

/-! ### Edits -/

def OccursAt (pattern text : Text) (i : ℕ) : Prop := i ≤ text.length ∧ pattern <+: text.drop i

/-- The text is found at exactly one position; positions may overlap. -/
def OccursOnce (pattern text : Text) : Prop := ∃! i, OccursAt pattern text i

/-- The file around an occurrence of the old text, cut between line terminators. -/
structure Around (content oldText before matched after : Text) : Prop where
  whole : content = before ++ matched ++ after
  normalized : normalizeToLF content = normalizeToLF before ++ normalizeToLF matched ++ normalizeToLF after
  matches_old : normalizeToLF matched = normalizeToLF oldText

/-- The new file is the old one with an occurrence of the old text replaced by the new one in the style of the file. -/
def Replaced (rawContent oldText newText result : Text) : Prop :=
  ∃ before matched after, Around (stripBom rawContent).2 oldText before matched after ∧
    result = (stripBom rawContent).1 ++ before ++
      restoreLineEndings (normalizeToLF newText) (detectLineEnding (stripBom rawContent).2) ++ after

def Precise (path : String) (rawContent oldText newText : Text) : Prop :=
  ∀ result, edit path rawContent oldText newText = .ok result →
    OccursOnce (normalizeToLF oldText) (normalizeToLF (stripBom rawContent).2) ∧
      Replaced rawContent oldText newText result

/-- The tool refuses: it counts several occurrences without typographic differences, or there is nothing to change. -/
def Refused (content oldText newText : Text) : Prop :=
  1 < occurrences (normalizeForFuzzyMatch (normalizeToLF content)) (normalizeForFuzzyMatch (normalizeToLF oldText)) ∨
    normalizeToLF newText = normalizeToLF oldText

section Result

variable {content oldText newText before matched after : Text}

theorem Around.occursAt (h : Around content oldText before matched after) :
    OccursAt (normalizeToLF oldText) (normalizeToLF content) (normalizeToLF before).length := by
  rw [h.normalized, h.matches_old, List.append_assoc]
  refine ⟨by simp, ?_⟩
  rw [List.drop_left]
  exact List.prefix_append _ _

theorem take_append_drop_of_prefix {α : Type*} {pattern text : List α} {i : ℕ} (h : pattern <+: text.drop i) :
    text = text.take i ++ pattern ++ text.drop (i + pattern.length) := by
  obtain ⟨rest, hrest⟩ := h
  have hdrop : text.drop (i + pattern.length) = rest := by
    rw [← List.drop_drop, ← hrest, List.drop_left]
  rw [hdrop, List.append_assoc, hrest, List.take_append_drop]

theorem edit_of_found {path : String} {rawContent : Text} {i : ℕ}
    (hi : indexOf (normalizeToLF oldText) (normalizeToLF (stripBom rawContent).2) = some i) (result : Text) :
    edit path rawContent oldText newText = .ok result ↔ ¬Refused (stripBom rawContent).2 oldText newText ∧
      result = (stripBom rawContent).1 ++ restoreLineEndings ((normalizeToLF (stripBom rawContent).2).take i ++
        normalizeToLF newText ++ (normalizeToLF (stripBom rawContent).2).drop (i + (normalizeToLF oldText).length))
          (detectLineEnding (stripBom rawContent).2) := by
  have hsame : (normalizeToLF (stripBom rawContent).2 = (normalizeToLF (stripBom rawContent).2).take i ++
      normalizeToLF newText ++ (normalizeToLF (stripBom rawContent).2).drop (i + (normalizeToLF oldText).length)) ↔
      normalizeToLF newText = normalizeToLF oldText := by
    have hwhole := take_append_drop_of_prefix (indexOf_eq_some hi).2
    constructor
    · intro h
      have heq := hwhole.symm.trans h
      rw [List.append_assoc, List.append_assoc] at heq
      exact (List.append_cancel_right (List.append_cancel_left heq)).symm
    · intro h
      rw [h]
      exact hwhole
  rw [edit]
  simp only [fuzzyFindText, hi, Refused, hsame, not_or]
  split
  case isTrue hmany => simp [hmany]
  case isFalse hone =>
    split
    case isTrue hnone => simp [hnone]
    case isFalse hchanged =>
      simp only [hone, hchanged, not_false_eq_true, and_self, true_and, Except.ok.injEq]
      exact eq_comm

end Result

/-- For a text that occurs in the file, an edit is precise exactly if the tool refuses it, or the text occurs once and
all terminators around it are in the style of the file. -/
theorem edit_precise (path : String) (rawContent oldText newText : Text)
    (hoccurs : normalizeToLF oldText <:+: normalizeToLF (stripBom rawContent).2) :
    Precise path rawContent oldText newText ↔
      Refused (stripBom rawContent).2 oldText newText ∨
        (OccursOnce (normalizeToLF oldText) (normalizeToLF (stripBom rawContent).2) ∧
          ∃ before matched after, Around (stripBom rawContent).2 oldText before matched after ∧
            Styled (detectLineEnding (stripBom rawContent).2) before ∧
            Styled (detectLineEnding (stripBom rawContent).2) after) := by
  obtain ⟨i, hi⟩ := exists_indexOf hoccurs
  have hfound : OccursAt (normalizeToLF oldText) (normalizeToLF (stripBom rawContent).2) i := indexOf_eq_some hi
  -- Around the only occurrence, the normalised text is cut where it is found.
  have hcut {before matched after : Text} (honce : OccursOnce (normalizeToLF oldText) (normalizeToLF (stripBom rawContent).2))
      (h : Around (stripBom rawContent).2 oldText before matched after) :
      (normalizeToLF (stripBom rawContent).2).take i = normalizeToLF before ∧
        (normalizeToLF (stripBom rawContent).2).drop (i + (normalizeToLF oldText).length) = normalizeToLF after := by
    have hindex : i = (normalizeToLF before).length := honce.unique hfound h.occursAt
    rw [hindex, ← h.matches_old, h.normalized]
    constructor
    · rw [List.append_assoc, List.take_left]
    · rw [← List.length_append, List.drop_left]
  constructor
  · intro hprecise
    by_cases hrefused : Refused (stripBom rawContent).2 oldText newText
    · exact .inl hrefused
    · obtain ⟨honce, before, matched, after, haround, hresult⟩ :=
        hprecise _ ((edit_of_found hi _).mpr ⟨hrefused, rfl⟩)
      obtain ⟨hbefore, hafter⟩ := hcut honce haround
      rw [hbefore, hafter, restoreLineEndings_append, restoreLineEndings_append, List.append_assoc _ before,
        List.append_assoc _ (before ++ _)] at hresult
      exact .inr ⟨honce, before, matched, after, haround, styled_of_append (List.append_cancel_left hresult)⟩
  · rintro (hrefused | ⟨honce, before, matched, after, haround, hbefore, hafter⟩) _ hwritten
    · exact absurd hrefused ((edit_of_found hi _).mp hwritten).1
    · refine ⟨honce, before, matched, after, haround, ?_⟩
      obtain ⟨-, hresult⟩ := (edit_of_found hi _).mp hwritten
      obtain ⟨htake, hdrop⟩ := hcut honce haround
      rw [hresult, htake, hdrop, restoreLineEndings_append, restoreLineEndings_append, styled_iff.mp hbefore,
        styled_iff.mp hafter]
      simp only [List.append_assoc]

/-- The second word of a line. -/
theorem edit_precise_word : edit "f" ['a', ' ', 'b'] ['b'] ['c'] = .ok ['a', ' ', 'c'] ∧
    Precise "f" ['a', ' ', 'b'] ['b'] ['c'] := by
  refine ⟨by decide, (edit_precise "f" ['a', ' ', 'b'] ['b'] ['c'] (by decide)).mpr (.inr ⟨⟨2, ?_, fun j hj => ?_⟩, ?_⟩)⟩
  · exact ⟨by decide, by decide⟩
  · obtain ⟨hle, hprefix⟩ := hj
    have hlength : (normalizeToLF ['a', ' ', 'b']).length = 3 := by decide
    have hcases : j = 0 ∨ j = 1 ∨ j = 2 ∨ j = 3 := by
      rw [show (stripBom ['a', ' ', 'b']).2 = ['a', ' ', 'b'] by decide] at hle
      omega
    rcases hcases with rfl | rfl | rfl | rfl
    · exact absurd hprefix (by decide)
    · exact absurd hprefix (by decide)
    · rfl
    · exact absurd hprefix (by decide)
  · exact ⟨['a', ' '], ['b'], [], ⟨by decide, by decide, by decide⟩, ⟨['a', ' '], by decide, by decide⟩,
      ⟨[], by decide, by decide⟩⟩

/-- A file with two kinds of line endings: the second one changes with the first word. -/
theorem edit_imprecise : ¬Precise "f" ['a', '\r', '\n', 'b', '\n'] ['a'] ['x'] := by
  intro hprecise
  have hwritten : edit "f" ['a', '\r', '\n', 'b', '\n'] ['a'] ['x'] = .ok ['x', '\r', '\n', 'b', '\r', '\n'] := by decide
  obtain ⟨-, _, matched, _, haround, hresult⟩ := hprecise _ hwritten
  have hmatched := length_normalizeToLF_le matched
  rw [haround.matches_old] at hmatched
  have hone : (normalizeToLF ['a']).length = 1 := by decide
  have hwhole := congrArg List.length haround.whole
  have hlength := congrArg List.length hresult
  simp only [List.length_append] at hwhole hlength
  have hfive : (stripBom ['a', '\r', '\n', 'b', '\n']).2.length = 5 := by decide
  have hmark : (stripBom ['a', '\r', '\n', 'b', '\n']).1.length = 0 := by decide
  have hnew : (restoreLineEndings (normalizeToLF ['x'])
      (detectLineEnding (stripBom ['a', '\r', '\n', 'b', '\n']).2)).length = 1 := by decide
  have hsix : (['x', '\r', '\n', 'b', '\r', '\n'] : Text).length = 6 := rfl
  omega

end Edit

end MayAgent
