import MayAgent.Host.Compaction
import MayAgent.Lib.Reach

/-!
# What a compaction keeps

A compacted transcript is a summary and a suffix of the history that is never cut between a call and its results. The
original task goes from summary to summary as long as each of them fits its budget, and a summary is bounded as long as
the text after its last separator is: trimming drops whole sections from the front, and never shortens the last one.
-/

namespace MayAgent

namespace Compaction

/-! ### The split -/

def Answered (history : List Message) : Prop :=
  ∀ (j : ℕ) (m : Message), history[j]? = some m → m.role = .toolResult →
    ∃ i < j, ∃ a : Message, history[i]? = some a ∧ a.role = .assistant ∧ m.toolCallId ∈ a.toolCalls.map ToolCall.id ∧
      ∀ k, i < k → k < j → history[k]?.any (·.role == .toolResult) = true

variable {i : ℕ} {history : List Message} {s t rest tail : Units} {c : UInt16} {m : Message}

theorem splitFrom_bounds (tokens : Estimator) (budget : ℤ) (messages : List Message) (hi : 0 < i) (kept : ℚ)
    (splitAt : ℕ) : 0 < splitFrom tokens budget messages i kept splitAt ∧ splitFrom tokens budget messages i kept splitAt ≤ i := by
  induction i generalizing kept splitAt with
  | zero => exact absurd hi (lt_irrefl 0)
  | succ i ih =>
    rw [splitFrom]
    split
    · exact ⟨Nat.succ_pos i, le_refl _⟩
    · cases i with
      | zero => exact ⟨Nat.one_pos, le_refl 1⟩
      | succ i =>
        obtain ⟨hpos, hle⟩ := ih (Nat.succ_pos i) (kept + (messages[i + 1 + 1]?.map tokens.message).getD 0) (i + 1 + 1)
        exact ⟨hpos, Nat.le_succ_of_le hle⟩

theorem backOverResults_bounds (messages : List Message) (hi : 0 < i) :
    0 < backOverResults messages i ∧ backOverResults messages i ≤ i ∧ (backOverResults messages i = 1 ∨
      messages[backOverResults messages i]?.any (·.role == .toolResult) = false) := by
  induction i with
  | zero => exact absurd hi (lt_irrefl 0)
  | succ i ih =>
    rw [backOverResults]
    split
    case isTrue h =>
      obtain ⟨hpos, hle, hstop⟩ := ih (Nat.lt_of_succ_lt_succ h.2)
      exact ⟨hpos, Nat.le_succ_of_le hle, hstop⟩
    case isFalse h =>
      refine ⟨Nat.succ_pos i, le_refl _, ?_⟩
      rcases not_and_or.mp h with hother | hone
      · exact .inr (Bool.eq_false_iff.mpr hother)
      · exact .inl (by omega)

variable {first : Message} {messages : List Message} {splitAt budget : ℕ} {more : Units}

theorem splitMessages_spec (tokens : Estimator) (keepRatio : ℚ)
    (hfirst : history[0]? = some first) (huser : first.role = .user) (hanswered : Answered history)
    (hlength : 1 < history.length) :
    0 < splitMessages tokens history keepRatio ∧ splitMessages tokens history keepRatio < history.length ∧
      history[splitMessages tokens history keepRatio]?.any (·.role == .toolResult) = false := by
  obtain ⟨hpos, _⟩ := splitFrom_bounds tokens (max 1 ⌊estimateTranscriptTokens tokens history * keepRatio⌋) history
    (i := history.length - 1) (by omega) 0 (history.length - 1)
  obtain ⟨hpos, _, hstop⟩ := backOverResults_bounds history hpos
  refine ⟨hpos, by rw [splitMessages]; omega, ?_⟩
  rcases hstop with hone | hstop
  · -- The second message is no tool result: the message before it is the user's.
    rw [splitMessages, hone]
    cases hsecond : history[1]? with
    | none => rfl
    | some m =>
      rw [Option.any_some, beq_eq_false_iff_ne]
      intro hresult
      obtain ⟨i, _, a, ha, hassistant, -⟩ := hanswered 1 m hsecond hresult
      obtain rfl : i = 0 := by omega
      obtain rfl : first = a := Option.some.inj (hfirst.symm.trans ha)
      rw [huser] at hassistant
      cases hassistant
  · exact hstop

theorem answered_drop (hanswered : Answered history) {n : ℕ}
    (hn : history[n]?.any (·.role == .toolResult) = false) : Answered (history.drop n) := by
  intro j m hm hresult
  rw [List.getElem?_drop] at hm
  obtain ⟨i, _, a, ha, hassistant, hcall, hbetween⟩ := hanswered (n + j) m hm hresult
  have hni : n ≤ i := by
    by_contra hlt
    rcases Nat.eq_zero_or_pos j with rfl | hj
    · rw [Nat.add_zero] at hm
      simp [hm, hresult] at hn
    · rw [hbetween n (by omega) (by omega)] at hn
      cases hn
  refine ⟨i - n, by omega, a, ?_, hassistant, hcall, fun k hk hkj => ?_⟩
  · rw [List.getElem?_drop, Nat.add_sub_cancel' hni]
    exact ha
  · rw [List.getElem?_drop]
    exact hbetween (n + k) (by omega) (by omega)

theorem splitPoint_eq_some {options : Options}
    (h : splitPoint options messages = some splitAt) :
    1 < (historyOf messages).length ∧ splitAt = splitMessages options.tokens (historyOf messages) options.keepRatio ∧
      splitAt ≠ 0 := by
  rw [splitPoint] at h
  split at h
  · cases h
  split at h
  · cases h
  split at h
  · cases h
  case isFalse hlength =>
    dsimp only at h
    split at h
    · cases h
    case isFalse hzero =>
      obtain rfl := Option.some.inj h
      exact ⟨by omega, rfl, hzero⟩

/-- A transcript that was not compacted, or the system message, one user summary and a suffix of the history. -/
def Kept (options : Options) (messages output : List Message) : Prop :=
  output = messages ∨ ∃ summary suffix,
    output = (options.currentSystem messages).toList ++ textMessage summary :: suffix ∧ suffix <:+ historyOf messages ∧
      suffix.getLast? = (historyOf messages).getLast? ∧ suffix ≠ [] ∧ Answered suffix

/-- The compacted transcript is well formed. -/
theorem transform_kept (options : Options) (messages : List Message) (first : Message) (rest : List Message)
    (hhistory : historyOf messages = first :: rest) (huser : first.role = .user)
    (hanswered : Answered (historyOf messages)) : Kept options messages (transform options messages) := by
  rw [transform]
  cases hpoint : splitPoint options messages with
  | none => exact .inl rfl
  | some =>
    obtain ⟨hlength, rfl, -⟩ := splitPoint_eq_some hpoint
    obtain ⟨-, hlt, hstop⟩ := splitMessages_spec options.tokens options.keepRatio
      (by rw [hhistory]; rfl) huser hanswered hlength
    refine .inr ⟨_, _, rfl, List.drop_suffix _ _, ?_, ?_, answered_drop hanswered hstop⟩
    · rw [List.getLast?_drop, if_neg (by omega)]
    · simpa using hlt

namespace Sample

def options : Options where
  contextWindow := 0
  threshold := 0
  keepRatio := 1 / 4
  tokens := { message := fun _ => 1, context := fun _ => 0 }
  currentSystem := fun _ => none
  system := nofun

def json (path : Units) : Units := units "\x7b\"path\":\"" ++ (path ++ units "\"\x7d")

def read (path : Units) : Message where
  role := .assistant
  content := .blocks [.toolCall { id := [49], name := units "read", arguments := { json := json path, path := some path } }]

def transcript (task path : Units) : List Message :=
  [{ role := .user, content := .text task }, read path,
    { role := .toolResult, content := .text (units "done"), toolCallId := [49], toolName := some (units "read") },
    { role := .user, content := .text (units "go on") }]

theorem answered_transcript (task path : Units) : Answered (historyOf (transcript task path)) := by
  intro j m hm hresult
  match j, hm with
  | 0, hm => cases hm; cases hresult
  | 1, hm => cases hm; cases hresult
  | 2, hm =>
    cases hm
    exact ⟨1, by decide, _, rfl, rfl, List.mem_singleton_self _, fun k hk hk' => by omega⟩
  | 3, hm => cases hm; cases hresult

end Sample

theorem transform_kept_transcript : Kept Sample.options (Sample.transcript (units "Z") (units "a"))
    (transform Sample.options (Sample.transcript (units "Z") (units "a"))) :=
  transform_kept _ _ _ _ rfl rfl (Sample.answered_transcript _ _)

/-! ### Trimming -/

/-- The length of what trimming puts in front of the sections it keeps. -/
def overhead : ℕ := (units "_(earlier compaction rounds trimmed)_" ++ COMPACTION_SEPARATOR).length

def lastSection (text : Units) : Units := (sections COMPACTION_SEPARATOR text).getLast (sections_ne_nil _ _)

def FitsLast (text : Units) (budget : ℕ) : Prop :=
  (sections COMPACTION_SEPARATOR text).length ≤ 1 ∨ (lastSection text).length ≤ budget

theorem length_intercalate_cons {ss : List Units} (h : ss ≠ []) :
    (COMPACTION_SEPARATOR.intercalate (s :: ss)).length =
      s.length + COMPACTION_SEPARATOR.length + (COMPACTION_SEPARATOR.intercalate ss).length := by
  obtain ⟨t, _, rfl⟩ := List.exists_cons_of_ne_nil h
  simp [List.intercalate, Nat.add_assoc]

theorem keepSections_length_le {remaining kept : List Units} {length : ℕ} (hkept : kept ≠ [])
    (hlength : length = (COMPACTION_SEPARATOR.intercalate kept).length) (hle : length ≤ budget) :
    (COMPACTION_SEPARATOR.intercalate (keepSections budget remaining kept length)).length ≤ budget := by
  induction remaining generalizing kept length with
  | nil => exact hlength ▸ hle
  | cons s _ ih =>
    have hempty : kept.isEmpty = false := by simpa using hkept
    have hnext : (COMPACTION_SEPARATOR.intercalate (s :: kept)).length = length + s.length + COMPACTION_SEPARATOR.length := by
      rw [length_intercalate_cons hkept, ← hlength]
      omega
    rw [keepSections]
    simp only [hempty, Bool.false_eq_true, if_false]
    split
    · exact hlength ▸ hle
    case isFalse hover =>
      have hwithin : length + s.length + COMPACTION_SEPARATOR.length ≤ budget := by
        by_contra hgt
        exact hover ⟨Nat.lt_of_not_le hgt, hkept⟩
      split
      · rw [hnext]
        exact hwithin
      · exact ih (List.cons_ne_nil _ _) hnext.symm hwithin

theorem keepSections_of_long (remaining : List Units) (h : budget ≤ s.length) :
    keepSections budget (s :: remaining) [] 0 = [s] := by
  rw [keepSections]
  simp [h]

theorem keepSections_length_iff (s : Units) (remaining : List Units) :
    (COMPACTION_SEPARATOR.intercalate (keepSections budget (s :: remaining) [] 0)).length ≤ budget ↔ s.length ≤ budget := by
  rcases Nat.lt_or_ge s.length budget with hlt | hge
  · refine ⟨fun _ => le_of_lt hlt, fun _ => ?_⟩
    have hnext : keepSections budget (s :: remaining) [] 0 = keepSections budget remaining [s] s.length := by
      rw [keepSections]
      simp [Nat.not_le.mpr hlt]
    rw [hnext]
    exact keepSections_length_le (List.cons_ne_nil _ _) (by simp [List.intercalate]) (le_of_lt hlt)
  · rw [keepSections_of_long remaining hge]
    simp [List.intercalate]

variable (text : Units)

theorem length_lastSection_le : (lastSection text).length ≤ text.length := by
  have hle := length_le_intercalate COMPACTION_SEPARATOR (List.getLast_mem (sections_ne_nil COMPACTION_SEPARATOR text))
  rwa [intercalate_sections (show COMPACTION_SEPARATOR ≠ [] by decide)] at hle

theorem reverse_sections : (sections COMPACTION_SEPARATOR text).reverse =
    lastSection text :: (sections COMPACTION_SEPARATOR text).dropLast.reverse := by
  have hsplit := List.dropLast_append_getLast (sections_ne_nil COMPACTION_SEPARATOR text)
  conv_lhs => rw [← hsplit]
  rw [List.reverse_append]
  rfl

theorem length_trimAccumulatedSummary (budget : ℕ) (hlong : ¬text.length ≤ budget)
    (hseveral : ¬(sections COMPACTION_SEPARATOR text).length ≤ 1) :
    (trimAccumulatedSummary text budget).length = overhead + (COMPACTION_SEPARATOR.intercalate (keepSections budget
      (lastSection text :: (sections COMPACTION_SEPARATOR text).dropLast.reverse) [] 0)).length := by
  rw [trimAccumulatedSummary, if_neg hlong]
  dsimp only
  rw [if_neg hseveral, reverse_sections, List.length_append]
  rfl

theorem length_trimAccumulatedSummary_iff (budget : ℕ) :
    (trimAccumulatedSummary text budget).length ≤ budget + overhead ↔ FitsLast text budget := by
  by_cases hshort : text.length ≤ budget
  · rw [trimAccumulatedSummary, if_pos hshort]
    exact ⟨fun _ => .inr ((length_lastSection_le text).trans hshort), fun _ => hshort.trans (Nat.le_add_right _ _)⟩
  by_cases hsingle : (sections COMPACTION_SEPARATOR text).length ≤ 1
  · refine ⟨fun _ => .inl hsingle, fun _ => ?_⟩
    have hmarker : (units "_(earlier context trimmed)_\n").length ≤ overhead := by decide
    rw [trimAccumulatedSummary, if_neg hshort]
    dsimp only
    rw [if_pos hsingle, List.length_append, List.length_drop]
    omega
  · rw [length_trimAccumulatedSummary text budget hshort hsingle, Nat.add_comm, Nat.add_le_add_iff_right, keepSections_length_iff,
      FitsLast, or_iff_right hsingle]

def summaryText (options : Options) (messages : List Message) : Units :=
  let history := historyOf messages
  (units "\n\n").intercalate (summaryParts (history.take (splitMessages options.tokens history options.keepRatio))
    (extractExistingSummary history))

theorem transform_eq {options : Options}
    (h : splitPoint options messages = some splitAt) : transform options messages =
      (options.currentSystem messages).toList
        ++ textMessage (trimAccumulatedSummary (summaryText options messages) SUMMARY_BUDGET)
          :: (historyOf messages).drop splitAt := by
  obtain ⟨-, rfl, -⟩ := splitPoint_eq_some h
  rw [transform, h]
  rfl

/-- Trimming keeps to its budget, and so does the summary of every compaction, whatever was compacted before, exactly when
the text after the last separator fits the budget. -/
theorem summaries_bounded_iff (text : Units) (budget : ℕ) (options : Options) (messages : List Message) :
    ((trimAccumulatedSummary text budget).length ≤ budget + overhead ↔ FitsLast text budget) ∧
    ∀ splitAt, splitPoint options messages = some splitAt →
      ∃ summary, transform options messages =
          (options.currentSystem messages).toList ++ textMessage summary :: (historyOf messages).drop splitAt ∧
        (summary.length ≤ SUMMARY_BUDGET + overhead ↔ FitsLast (summaryText options messages) SUMMARY_BUDGET) :=
  ⟨length_trimAccumulatedSummary_iff text budget, fun _ hpoint =>
    ⟨_, transform_eq hpoint, length_trimAccumulatedSummary_iff _ _⟩⟩

/-- A separator and a long section: no constant bounds what is left of it. -/
theorem trim_unbounded :
    ¬∃ constant, ∀ text budget, (trimAccumulatedSummary text budget).length ≤ budget + constant := by
  rintro ⟨constant, hbound⟩
  obtain ⟨long, hlong, hnone⟩ : ∃ long : Units, long.length = constant + 1 ∧ (10 : UInt16) ∉ long :=
    ⟨List.replicate (constant + 1) 97, List.length_replicate,
      fun h => absurd (List.eq_of_mem_replicate h) (by decide)⟩
  have hsections : sections COMPACTION_SEPARATOR (COMPACTION_SEPARATOR ++ long) = [[], long] := sections_cons_append hnone
  have hlast : lastSection (COMPACTION_SEPARATOR ++ long) = long := by simp [lastSection, hsections]
  have hlength := length_trimAccumulatedSummary (COMPACTION_SEPARATOR ++ long) 0
    (by simp [hlong]) (by simp [hsections])
  rw [hlast, keepSections_of_long _ (Nat.zero_le _)] at hlength
  have hle := hbound (COMPACTION_SEPARATOR ++ long) 0
  rw [hlength] at hle
  simp only [List.intercalate, List.intersperse, List.flatten_cons, List.flatten_nil, List.append_nil, hlong] at hle
  omega

/-! ### The original task -/

def opening (task : Units) : Units := task.take ORIGINAL_TASK_MAX_LENGTH

/-- A task that is read back from a summary: white space at its ends does not reach its first 500 units, it has no mark of
a summary, and nothing in these units ends the task of a summary. -/
structure Plain (task : Units) : Prop where
  trimmed : opening (Units.trim task) = opening task
  unmarked : Units.includes (Units.trim task) header = false
  untitled : ¬units "\n\n[" <:+: opening task
  unruled : ¬units "\n\n---" <:+: opening task

/-- What may follow the opening of a task: an ellipsis, or, if the opening is the whole task, a line end or nothing. -/
def Follows (task more : Units) : Prop :=
  more.head? = some 0x2026 ∨
    (Units.trim task).length ≤ ORIGINAL_TASK_MAX_LENGTH ∧ (more = [] ∨ more.head? = some 10)

variable {task : Units}

theorem Plain.opening_of_le (h : Plain task) (hle : (Units.trim task).length ≤ ORIGINAL_TASK_MAX_LENGTH) :
    opening task = Units.trim task := h.trimmed.symm.trans (List.take_of_length_le hle)

theorem opening_ne_nil (h : task ≠ []) : opening task ≠ [] := by
  obtain ⟨c, _, rfl⟩ := List.exists_cons_of_ne_nil h
  exact List.cons_ne_nil _ _

theorem head?_opening (task : Units) : (opening task).head? = task.head? := by
  cases task <;> rfl

theorem Plain.head (h : Plain task) : ∀ c ∈ (opening task).head?, Units.isSpace c = false := by
  intro c hc
  rw [← h.trimmed, head?_opening] at hc
  exact strip_head hc

theorem Plain.last_of_suffix (h : Plain task) (hle : (Units.trim task).length ≤ ORIGINAL_TASK_MAX_LENGTH) (init : Units)
    (ht : init ++ [c] <:+ opening task) : Units.isSpace c = false := by
  obtain ⟨_, hfront⟩ := ht
  rw [h.opening_of_le hle] at hfront
  have hlast : (strip Units.isSpace task).getLast? = some c := by
    rw [← Units.trim, ← hfront]
    simp
  exact strip_getLast hlast

theorem Plain.prefix_of_end (h : Plain task) (ht : t <:+ opening task) (hne : t ≠ [])
    (hmore : Follows task more) (hline : 10 ∉ rest) (hellipsis : 0x2026 ∉ rest) (hfound : 10 :: 10 :: rest <+: t ++ more) :
    10 :: 10 :: rest <+: t := by
  rcases List.prefix_or_prefix_of_prefix hfound (List.prefix_append t more) with hwithin | ⟨past, hpast⟩
  · exact hwithin
  cases past with
  | nil =>
    rw [List.append_nil] at hpast
    exact hpast ▸ List.prefix_refl _
  | cons x past =>
    exfalso
    -- The next unit of the end is the first one after the opening.
    have hnext : more.head? = some x := by
      rw [← hpast] at hfound
      obtain ⟨_, htail⟩ := (List.prefix_append_right_inj t).mp hfound
      rw [← htail]
      rfl
    rcases hmore with hdots | ⟨hle, hnone | hbreak⟩
    · obtain rfl : x = 0x2026 := Option.some.inj (hnext.symm.trans hdots)
      have hmem : (0x2026 : UInt16) ∈ (10 :: 10 :: rest : Units) := by
        rw [← hpast]
        simp
      simp [hellipsis] at hmem
    · rw [hnone] at hnext
      cases hnext
    · obtain rfl : x = 10 := Option.some.inj (hnext.symm.trans hbreak)
      match t, hne with
      | [c], _ =>
        obtain ⟨rfl, -⟩ := List.cons.inj hpast
        exact absurd (h.last_of_suffix hle [] ht) (by decide)
      | c :: d :: t, _ =>
        have hrest : t ++ 10 :: past = rest := (List.cons.inj (List.cons.inj hpast).2).2
        exact hline (hrest ▸ List.mem_append_right t List.mem_cons_self)

theorem Plain.endsTask_append (h : Plain task) (ht : t <:+ opening task) (hne : t ≠ [])
    (hmore : Follows task more) : endsTask (t ++ more) = false := by
  rw [endsTask, Bool.or_eq_false_iff, Bool.or_eq_false_iff]
  refine ⟨⟨Bool.eq_false_iff.mpr fun hfound => h.untitled ?_, Bool.eq_false_iff.mpr fun hfound => h.unruled ?_⟩,
    Bool.eq_false_iff.mpr fun hall => ?_⟩
  · have hwithin := h.prefix_of_end ht hne hmore (by decide) (by decide) (List.isPrefixOf_iff_prefix.mp hfound)
    exact hwithin.isInfix.trans ht.isInfix
  · have hwithin := h.prefix_of_end ht hne hmore (by decide) (by decide) (List.isPrefixOf_iff_prefix.mp hfound)
    exact hwithin.isInfix.trans ht.isInfix
  · have hlines : ∀ c ∈ t ++ more, c = 10 := fun c hc => by simpa using List.all_eq_true.mp hall c hc
    rcases hmore with hdots | ⟨hle, -⟩
    · have hmem := List.mem_of_mem_head? hdots
      exact absurd (hlines _ (List.mem_append_right _ hmem)) (by decide)
    · obtain ⟨init, c, rfl⟩ := (List.eq_nil_or_concat t).resolve_left hne
      rw [List.concat_eq_append] at hlines ht
      have hspace := h.last_of_suffix hle init ht
      rw [hlines c (by simp)] at hspace
      exact absurd hspace (by decide)

theorem upToEnd_append {l : Units} (h : ∀ t, t <:+ l → t ≠ [] → endsTask (t ++ more) = false) :
    upToEnd (l ++ more) = l ++ upToEnd more := by
  induction l with
  | nil => rfl
  | cons c l ih =>
    have hc := h (c :: l) (List.suffix_refl _) (List.cons_ne_nil _ _)
    rw [List.cons_append] at hc
    rw [List.cons_append, upToEnd, hc, ih fun t ht => h t (ht.trans (List.suffix_cons c l))]
    rfl

theorem Follows.upToEnd (h : Follows task more) : Follows task (upToEnd more) := by
  cases more with
  | nil => exact h
  | cons c =>
    rw [Compaction.upToEnd]
    split
    case isTrue hends =>
      rcases h with hdots | ⟨hle, -⟩
      · obtain rfl : c = 0x2026 := Option.some.inj hdots
        simp [endsTask, units] at hends
      · exact .inr ⟨hle, .inl rfl⟩
    case isFalse =>
      rcases h with hdots | ⟨hle, hnone | hbreak⟩
      · exact .inl hdots
      · cases hnone
      · exact .inr ⟨hle, .inr hbreak⟩

theorem Plain.trim_append (h : Plain task) (hne : task ≠ []) (hmore : Follows task more) :
    ∃ left, Units.trim (opening task ++ more) = opening task ++ left ∧ Follows task left := by
  have hopening := opening_ne_nil hne
  rcases hmore with hdots | ⟨hle, hmore⟩
  · obtain ⟨rest, rfl⟩ : ∃ rest, more = 0x2026 :: rest := List.head?_eq_some_iff.mp hdots
    have hfront : opening task ++ [0x2026] <+: Units.trim (opening task ++ [0x2026] ++ rest) := by
      refine prefix_strip ?_ ?_ (by simp) rest
      · rw [List.head?_append_of_ne_nil _ hopening]
        exact h.head
      · intro c hc
        obtain rfl : 0x2026 = c := by simpa using hc
        decide
    obtain ⟨left, hleft⟩ := hfront
    refine ⟨0x2026 :: left, ?_, .inl rfl⟩
    simpa using hleft.symm
  · have hlast : ∀ c ∈ (opening task).getLast?, Units.isSpace c = false := by
      intro c hc
      obtain ⟨init, hinit⟩ := List.getLast?_eq_some_iff.mp hc
      exact h.last_of_suffix hle init (hinit ▸ List.suffix_refl (opening task))
    obtain ⟨left, hleft⟩ := prefix_strip h.head hlast hopening more
    refine ⟨left, hleft.symm, .inr ⟨hle, ?_⟩⟩
    -- The trimmed text starts like the whole one.
    have hwhole : opening task ++ left <+: opening task ++ more := by
      rw [hleft, strip_eq_rdropWhile]
      · exact List.rdropWhile_prefix _ _
      · rw [List.head?_append_of_ne_nil _ hopening]
        exact h.head
    obtain ⟨rest, rfl⟩ := (List.prefix_append_right_inj _).mp hwhole
    cases left with
    | nil => exact .inl rfl
    | cons => exact .inr (hmore.resolve_left (by simp))

theorem Follows.preview (h : Follows task more) (htail : tail = [] ∨ tail.head? = some 10) :
    ∃ next, previewWithEllipsis (opening task ++ more) ORIGINAL_TASK_MAX_LENGTH ++ tail = opening task ++ next ∧
      Follows task next := by
  have hlength : (opening task).length ≤ ORIGINAL_TASK_MAX_LENGTH := List.length_take_le _ _
  rw [previewWithEllipsis]
  split
  · refine ⟨more ++ tail, List.append_assoc _ _ _, ?_⟩
    cases more with
    | nil => exact .inr ⟨(h.resolve_left (by simp)).1, htail⟩
    | cons => exact h.imp_right fun ⟨hle, hnext⟩ => ⟨hle, .inr (hnext.resolve_left (by simp))⟩
  case isFalse hlong =>
    rw [List.take_append, List.take_of_length_le hlength]
    refine ⟨more.take (ORIGINAL_TASK_MAX_LENGTH - (opening task).length) ++ (units "…" ++ tail), by simp, ?_⟩
    cases hroom : ORIGINAL_TASK_MAX_LENGTH - (opening task).length with
    | zero => exact .inl rfl
    | succ =>
      cases more with
      | nil => exact .inl rfl
      | cons => exact h.imp_right fun ⟨hle, hnext⟩ => ⟨hle, .inr (hnext.resolve_left (by simp))⟩

theorem Plain.preview (h : Plain task) (htail : tail = [] ∨ tail.head? = some 10) :
    ∃ next, previewWithEllipsis (Units.trim task) ORIGINAL_TASK_MAX_LENGTH ++ tail = opening task ++ next ∧
      Follows task next := by
  rw [previewWithEllipsis]
  split
  case isTrue hle => exact ⟨tail, by rw [h.opening_of_le hle], .inr ⟨hle, htail⟩⟩
  case isFalse => exact ⟨units "…" ++ tail, by rw [← h.trimmed, List.append_assoc]; rfl, .inl rfl⟩

/-- A text that shows the header, the opening of the task, and the task where the next compaction looks for it. -/
structure Carries (task text : Units) : Prop where
  marked : header <+: text
  shown : opening task <:+: text
  found : task ≠ [] → ∃ more, extractOriginalTaskFromSummary text = some (opening task ++ more) ∧ Follows task more

/-- The text before the task in a summary. -/
def lead : Units := header ++ units "\n\n" ++ units "[Original task]\n"

theorem Plain.carries (h : Plain task) (hmore : Follows task more) :
    Carries task (lead ++ (opening task ++ more)) where
  marked := by
    rw [lead, List.append_assoc, List.append_assoc]
    exact List.prefix_append _ _
  shown := by
    rw [← List.append_assoc]
    exact ⟨lead, more, rfl⟩
  found := by
    intro hne
    obtain ⟨left, htrim, hleft⟩ := h.trim_append hne hmore.upToEnd
    have hfound : afterFirst (units "[Original task]\n") (lead ++ (opening task ++ more)) = some (opening task ++ more) :=
      afterFirst_append (by decide) _
    have hend : upToEnd (opening task ++ more) = opening task ++ upToEnd more :=
      upToEnd_append fun t ht htne => h.endsTask_append ht htne hmore
    refine ⟨left, ?_, hleft⟩
    rw [extractOriginalTaskFromSummary, hfound]
    dsimp only
    rw [hend, htrim, if_neg (by simp [opening_ne_nil hne])]

/-! ### Whole runs -/

/-- The message a history starts with: the task itself or a summary that carries it. -/
def Holds (task : Units) (m : Message) : Prop :=
  m.role = .user ∧ (messageText m = task ∨ Carries task (messageText m))

theorem messageText_textMessage : messageText (textMessage text) = text := by
  rcases eq_or_ne text [] with rfl | hne
  · rfl
  · simp [messageText, textMessage, Block.asText, hne, List.intercalate]

theorem extractOriginalTask_cons (hm : m.role = .user) (ms : List Message) :
    extractOriginalTask (m :: ms) = if Units.trim (messageText m) = [] ∨ Units.includes (Units.trim (messageText m)) header = true
      then none else some (Units.trim (messageText m)) := by
  rw [extractOriginalTask, if_neg (not_not_intro hm)]

theorem extractExistingSummary_cons (hm : m.role = .user) (ms : List Message)
    (hmarked : header <:+: messageText m) : extractExistingSummary (m :: ms) = some (messageText m) := by
  have hfound : Units.includes (messageText m) header = true := decide_eq_true hmarked
  rw [extractExistingSummary, if_neg (not_not_intro hm), if_pos hfound]

theorem Carries.marked_trim {text : Units} (h : Carries task text) : Units.includes (Units.trim text) header = true := by
  obtain ⟨rest, rfl⟩ := h.marked
  have hfirst : header.head? = some 67 := by decide
  have hlast : header.getLast? = some 84 := by decide
  refine decide_eq_true (prefix_strip ?_ ?_ (by decide) rest).isInfix
  · rw [hfirst]
    rintro _ ⟨⟩
    decide
  · rw [hlast]
    rintro _ ⟨⟩
    decide

theorem Plain.originalTask_spec (h : Plain task) (hne : task ≠ []) (hfirst : Holds task first)
    (compacted rest : List Message) : ∃ found,
      originalTask (first :: compacted) (extractExistingSummary (first :: rest)) = some found ∧
      ∀ tail : Units, tail = [] ∨ tail.head? = some 10 → ∃ next,
        previewWithEllipsis found ORIGINAL_TASK_MAX_LENGTH ++ tail = opening task ++ next ∧ Follows task next := by
  obtain ⟨huser, htext | hcarries⟩ := hfirst
  · refine ⟨Units.trim task, ?_, fun tail htail => h.preview htail⟩
    have htrim : Units.trim task ≠ [] := by
      intro hnil
      apply opening_ne_nil hne
      rw [← h.trimmed, hnil]
      rfl
    rw [originalTask, extractOriginalTask_cons huser, htext, if_neg (by simp [htrim, h.unmarked])]
    rfl
  · obtain ⟨more, hfound, hmore⟩ := hcarries.found hne
    refine ⟨opening task ++ more, ?_, fun tail htail => hmore.preview htail⟩
    rw [originalTask, extractOriginalTask_cons huser, if_pos (.inr hcarries.marked_trim),
      extractExistingSummary_cons huser rest hcarries.marked.isInfix]
    exact hfound

/-- What a summary says besides the task, each part after an empty line. -/
def besides (messages : List Message) (previousSummary : Option Units) : Units :=
  (details messages previousSummary).flatMap (units "\n\n" ++ ·)

theorem besides_head (messages : List Message) (previousSummary : Option Units) :
    besides messages previousSummary = [] ∨ (besides messages previousSummary).head? = some 10 := by
  rw [besides]
  cases details messages previousSummary with
  | nil => exact .inl rfl
  | cons => exact .inr rfl

theorem summaryParts_text (messages : List Message) (previousSummary : Option Units) :
    (units "\n\n").intercalate (summaryParts messages previousSummary) =
      match originalTask messages previousSummary with
      | some found => lead ++ (previewWithEllipsis found ORIGINAL_TASK_MAX_LENGTH ++ besides messages previousSummary)
      | none => header ++ besides messages previousSummary := by
  rw [summaryParts, List.cons_append, intercalate_cons_flatMap]
  cases originalTask messages previousSummary <;> simp [besides, lead]

theorem Plain.carries_summary (h : Plain task) (hfirst : Holds task first) (compacted rest : List Message) :
    Carries task ((units "\n\n").intercalate
      (summaryParts (first :: compacted) (extractExistingSummary (first :: rest)))) := by
  rcases eq_or_ne task [] with rfl | hne
  · refine ⟨?_, List.nil_infix, fun hne => absurd rfl hne⟩
    rw [summaryParts, List.cons_append, intercalate_cons_flatMap]
    exact List.prefix_append _ _
  · obtain ⟨_, hfound, hpreview⟩ := h.originalTask_spec hne hfirst compacted rest
    obtain ⟨_, hnext, hfollows⟩ := hpreview _ (besides_head (first :: compacted) (extractExistingSummary (first :: rest)))
    rw [summaryParts_text, hfound]
    dsimp only
    rw [hnext]
    exact h.carries hfollows

theorem length_previewWithEllipsis_le (maxLength : ℕ) :
    (previewWithEllipsis text maxLength).length ≤ maxLength + 1 := by
  rw [previewWithEllipsis]
  split
  case isTrue h => exact Nat.le_succ_of_le h
  case isFalse =>
    rw [List.length_append, List.length_take]
    exact Nat.add_le_add_right (Nat.min_le_left _ _) 1

theorem length_summaryParts_text_le (messages : List Message) (previousSummary : Option Units) :
    ((units "\n\n").intercalate (summaryParts messages previousSummary)).length ≤
      lead.length + (ORIGINAL_TASK_MAX_LENGTH + 1) + (besides messages previousSummary).length := by
  rw [summaryParts_text]
  cases originalTask messages previousSummary with
  | none =>
    have hheader : header.length ≤ lead.length := by decide
    simp only [List.length_append]
    omega
  | some found =>
    have hpreview := length_previewWithEllipsis_le found ORIGINAL_TASK_MAX_LENGTH
    simp only [List.length_append]
    omega

/-- The previous summary, the key facts, the tool trace and the last reasoning of what would be compacted leave room for
the header and the task. -/
def Fits (options : Options) (messages : List Message) : Prop :=
  let history := historyOf messages
  lead.length + (ORIGINAL_TASK_MAX_LENGTH + 1)
    + (besides (history.take (splitMessages options.tokens history options.keepRatio)) (extractExistingSummary history)).length
    ≤ SUMMARY_BUDGET

/-- What happens to a transcript: new messages, or a compaction. -/
inductive Action where
  | extend (new : List Message)
  | compact

def next (options : Options) (messages : List Message) : Action → List Message
  | .extend new => messages ++ new
  | .compact => transform options messages

/-- A compaction is made of a transcript whose summary has room. -/
def Roomy (options : Options) (messages : List Message) : Action → Prop
  | .extend _ => True
  | .compact => Fits options messages

def Starts (task : Units) (messages : List Message) : Prop :=
  ∃ first rest, historyOf messages = first :: rest ∧ first.role = .user ∧ messageText first = task

/-- A compaction of the transcript keeps the task in a summary that the next one recognises. -/
def Survives (options : Options) (task : Units) (messages : List Message) : Prop :=
  ∀ splitAt, splitPoint options messages = some splitAt → ∃ summary,
    transform options messages = (options.currentSystem messages).toList
      ++ textMessage summary :: (historyOf messages).drop splitAt ∧
    opening task <:+: summary ∧
    ∀ new, extractExistingSummary (historyOf (transform options messages ++ new)) = some summary

theorem historyOf_append (a b : List Message) : historyOf (a ++ b) = historyOf a ++ historyOf b := List.filter_append a b

theorem historyOf_system (options : Options) (messages rest : List Message) :
    historyOf ((options.currentSystem messages).toList ++ rest) = historyOf rest := by
  cases hsystem : options.currentSystem messages with
  | none => rfl
  | some m => simp [historyOf, options.system messages m hsystem]

theorem Plain.transform_carries (h : Plain task) {options : Options}
    {rest : List Message} (hhistory : historyOf messages = first :: rest) (hfirst : Holds task first)
    (hfits : Fits options messages) (hpoint : splitPoint options messages = some splitAt) :
    Carries task (summaryText options messages) ∧ transform options messages =
      (options.currentSystem messages).toList ++ textMessage (summaryText options messages)
        :: (historyOf messages).drop splitAt := by
  obtain ⟨-, hsplit, hpos⟩ := splitPoint_eq_some hpoint
  obtain ⟨n, hn⟩ := Nat.exists_eq_succ_of_ne_zero hpos
  refine ⟨?_, ?_⟩
  · rw [summaryText, ← hsplit, hn, hhistory, List.take_succ_cons]
    exact h.carries_summary hfirst _ rest
  · have hlength : (summaryText options messages).length ≤ SUMMARY_BUDGET := (length_summaryParts_text_le _ _).trans hfits
    rw [transform_eq hpoint, trimAccumulatedSummary, if_pos hlength]

/-- In every transcript reached by compactions with room, the history starts with the task or a summary that carries it. -/
theorem Plain.holds_of_reaches (h : Plain task) {options : Options}
    (hmessages : Reaches (Starts task) (next options) (Roomy options) messages) :
    ∃ first rest, historyOf messages = first :: rest ∧ Holds task first := by
  refine Reaches.invariant (I := fun messages => ∃ first rest, historyOf messages = first :: rest ∧ Holds task first)
    ?_ ?_ hmessages
  · rintro messages ⟨first, rest, hhistory, huser, htext⟩
    exact ⟨first, rest, hhistory, huser, .inl htext⟩
  · rintro messages action ⟨first, rest, hhistory, hfirst⟩ hok
    cases action with
    | extend new => exact ⟨first, rest ++ historyOf new, by rw [next, historyOf_append, hhistory, List.cons_append], hfirst⟩
    | compact =>
      rw [next]
      cases hpoint : splitPoint options messages with
      | none =>
        rw [transform, hpoint]
        exact ⟨first, rest, hhistory, hfirst⟩
      | some splitAt =>
        obtain ⟨hcarries, htransform⟩ := h.transform_carries hhistory hfirst hok hpoint
        refine ⟨textMessage (summaryText options messages), historyOf ((historyOf messages).drop splitAt), ?_, rfl, .inr ?_⟩
        · rw [htransform, historyOf_system]
          rfl
        · rw [messageText_textMessage]
          exact hcarries

/-- The original task survives any number of compactions. -/
theorem task_survives (options : Options) (task : Units) (hplain : Plain task) (messages : List Message)
    (hmessages : Reaches (Starts task) (next options) (Roomy options) messages) (hfits : Fits options messages) :
    Survives options task messages := by
  intro splitAt hpoint
  obtain ⟨_, _, hhistory, hfirst⟩ := hplain.holds_of_reaches hmessages
  obtain ⟨hcarries, htransform⟩ := hplain.transform_carries hhistory hfirst hfits hpoint
  refine ⟨_, htransform, hcarries.shown, fun new => ?_⟩
  have hstart : historyOf (transform options messages ++ new) = textMessage (summaryText options messages)
      :: (historyOf ((historyOf messages).drop splitAt) ++ historyOf new) := by
    rw [historyOf_append, htransform, historyOf_system]
    rfl
  rw [hstart, extractExistingSummary_cons rfl, messageText_textMessage]
  rw [messageText_textMessage]
  exact hcarries.marked.isInfix

namespace Sample

theorem splitPoint_transcript (task path : Units) : splitPoint options (transcript task path) = some 3 := by
  have hhistory : historyOf (transcript task path) = transcript task path := rfl
  rw [splitPoint, hhistory]
  norm_num [transcript, options, estimateTokens, splitMessages, estimateTranscriptTokens, splitFrom, backOverResults,
    show Role.user ≠ Role.toolResult by decide]

def front : Units := header ++ (units "\n\n" ++ (units "[Original task]\n" ++ (units "Z" ++ (units "\n\n" ++
  (units "[Key facts]\n" ++ units "Files read: ")))))

def reasoning (path : Units) : Option Units := lastSubstantialReasoning ((transcript (units "Z") path).take 3)

def back (path : Units) : Units :=
  units "\n\n" ++ (units "[Compacted tool trace]\n" ++ (units "[" ++ (units "read" ++ (units "] " ++
    (truncateWithEllipsis (json path) 180 ++ (units "\n" ++ (units "[" ++ (units "read" ++ (units " " ++ (units "ok" ++
      (units "] " ++ (units "done" ++ ((reasoning path).map fun text =>
        units "\n\n" ++ (units "[Last reasoning before compaction]\n" ++ text)).getD []))))))))))))

variable {path : Units}

theorem summaryText_transcript (hpath : path ≠ []) :
    summaryText options (transcript (units "Z") path) = front ++ (path ++ back path) := by
  obtain ⟨-, hsplit, -⟩ := splitPoint_eq_some (splitPoint_transcript (units "Z") path)
  obtain ⟨c, cs, rfl⟩ := List.exists_cons_of_ne_nil hpath
  set compacted := (historyOf (transcript (units "Z") (c :: cs))).take 3 with hcompacted
  have hprevious : extractExistingSummary (historyOf (transcript (units "Z") (c :: cs))) = none := rfl
  have htask : originalTask compacted none = some (units "Z") := rfl
  have hfacts : formatKeyFacts (extractKeyFacts compacted) = [units "Files read: " ++ c :: cs] := by
    have hread : extractKeyFacts compacted = { filesRead := [c :: cs] } := rfl
    rw [hread]
    simp [formatKeyFacts, fileLine, List.intercalate]
  have htrace : summarizeMessages compacted = [units "[" ++ units "read" ++ units "] "
      ++ truncateWithEllipsis (json (c :: cs)) 180,
    units "[" ++ units "read" ++ units " " ++ units "ok" ++ units "] " ++ units "done"] := rfl
  have hreasoning : lastSubstantialReasoning compacted = reasoning (c :: cs) := rfl
  have hshort : (units "Z").length ≤ ORIGINAL_TASK_MAX_LENGTH := by decide
  rw [summaryText, ← hsplit, ← hcompacted, hprevious, summaryParts, htask, details, hfacts, htrace, hreasoning]
  unfold back
  cases reasoning (c :: cs) <;> simp [titled, List.intercalate, previewWithEllipsis, hshort, front]

def texts : List String :=
  ["\n", "\n\n", "[Compacted tool trace]\n", "[", "read", "] ", "\x7b\"path\":\"", "\"\x7d", "…", " ", "ok", "done",
    "[Last reasoning before compaction]\n", "\n_(reasoning truncated)_"]

theorem not_mem_texts : ∀ text ∈ texts, 45 ∉ units text ∧ 90 ∉ units text := by decide +kernel

/-- A character that is neither in the path nor in the texts around it is not in the rest of the summary. -/
theorem not_mem_back {c : UInt16} (hc : ∀ text ∈ texts, c ∉ units text) (hpath : c ∉ path) : c ∉ back path := by
  simp only [texts, List.forall_mem_cons] at hc
  obtain ⟨hline, hgap, htitle, hleft, hname, hright, hopen, hclose, hdots, hblank, hok, hdone, hlast, hcut, -⟩ := hc
  have hjson : c ∉ json path := by simp [json, hopen, hpath, hclose]
  have hshown : c ∉ truncateWithEllipsis (json path) 180 := by
    rw [truncateWithEllipsis]
    split
    · exact hjson
    · exact fun hmem => (List.mem_append.mp hmem).elim (fun hmem => hjson (List.mem_of_mem_take hmem)) hdots
  have hcall : messageText (read path) = units "[" ++ units "read" ++ units "] " ++ json path := by
    simp [messageText, read, Block.asText, List.intercalate, show units "[" ≠ [] by decide]
  have htext : c ∉ Units.trim (messageText (read path)) := fun hmem => by
    have hmem := (List.dropWhile_suffix _).subset ((List.rdropWhile_prefix _ _).subset hmem)
    simp [hcall, hleft, hname, hright, hjson] at hmem
  have hlong : ∀ text, reasoning path = some text → c ∉ text := by
    intro text h
    simp only [reasoning, lastSubstantialReasoning, transcript, List.take, List.reverse_cons, List.reverse_nil,
      List.nil_append, List.cons_append] at h
    rw [substantialReasoning, if_pos (by decide), substantialReasoning,
      if_neg (not_not_intro (show (read path).role = .assistant from rfl))] at h
    dsimp only at h
    split at h
    · simp [substantialReasoning] at h
    split at h
    · cases h
      exact htext
    · cases h
      exact fun hmem => (List.mem_append.mp hmem).elim (fun hmem => htext (List.mem_of_mem_take hmem)) hcut
  simp only [back, List.mem_append, not_or]
  refine ⟨hgap, htitle, hleft, hname, hright, hshown, hline, hleft, hname, hblank, hok, hright, hdone, ?_⟩
  cases h : reasoning path with
  | none => simp
  | some text => simp [hgap, hlast, hlong text h]

end Sample

/-- Two compactions with room, and new messages in between. -/
theorem task_survives_transcript : Survives Sample.options (units "Z")
    (next Sample.options (next Sample.options (Sample.transcript (units "Z") (units "a")) .compact)
      (.extend [textMessage (units "more"), textMessage (units "end")])) := by
  have hstart : Starts (units "Z") (Sample.transcript (units "Z") (units "a")) := ⟨_, _, rfl, rfl, rfl⟩
  have hroom : Fits Sample.options (Sample.transcript (units "Z") (units "a")) := by unfold Fits; decide +kernel
  exact task_survives _ _ ⟨by decide, by decide, by decide, by decide⟩ _
    (((Reaches.start hstart).step (a := Action.compact) hroom).step (a := Action.extend _) trivial)
    (by unfold Fits; decide +kernel)

theorem trimAccumulatedSummary_append {front : Units} (hc : c ∈ COMPACTION_SEPARATOR)
    (hfree : c ∉ front ++ rest) (hfront : front ≠ []) (hle : budget ≤ rest.length) :
    trimAccumulatedSummary (front ++ rest) budget =
      units "_(earlier context trimmed)_\n" ++ rest.drop (rest.length - budget) := by
  have hpos := List.length_pos_iff.mpr hfront
  have hsingle : (sections COMPACTION_SEPARATOR (front ++ rest)).length ≤ 1 := by
    rw [sections, sectionsFrom_of_not_mem hc hfree]
    exact le_refl 1
  have hcut : (front ++ rest).length - budget = front.length + (rest.length - budget) := by
    rw [List.length_append]
    omega
  rw [trimAccumulatedSummary, if_neg (by rw [List.length_append]; omega)]
  dsimp only
  rw [if_pos hsingle, hcut, List.drop_append, List.drop_of_length_le (Nat.le_add_right _ _), List.nil_append,
    Nat.add_sub_cancel_left]

/-- A long path in the key facts: the header and the task are what is trimmed. -/
theorem task_lost : ¬∀ options task messages,
    Reaches (Starts task) (next options) (fun _ _ => True) messages → Survives options task messages := by
  intro hall
  obtain ⟨path, hlength, hunits⟩ : ∃ path : Units, path.length = SUMMARY_BUDGET ∧ ∀ c ∈ path, c = 97 :=
    ⟨List.replicate SUMMARY_BUDGET 97, List.length_replicate, fun c hc => List.eq_of_mem_replicate hc⟩
  have hpath : path ≠ [] := by
    rintro rfl
    cases hlength
  obtain ⟨summary, htransform, hopening, -⟩ := hall Sample.options (units "Z") (Sample.transcript (units "Z") path)
    (Reaches.start ⟨_, _, rfl, rfl, rfl⟩) 3 (Sample.splitPoint_transcript _ _)
  rw [transform_eq (Sample.splitPoint_transcript _ _), Sample.summaryText_transcript hpath] at htransform
  have hmessage := (List.cons.inj (List.append_cancel_left htransform)).1
  have hother (c : UInt16) (hc : c ≠ 97) (htexts : ∀ text ∈ Sample.texts, c ∉ units text) : c ∉ path ++ Sample.back path :=
    have hpath : c ∉ path := fun hmem => hc (hunits c hmem)
    fun hmem => (List.mem_append.mp hmem).elim hpath (Sample.not_mem_back htexts hpath)
  have hdash := hother 45 (by decide) fun text h => (Sample.not_mem_texts text h).1
  rw [trimAccumulatedSummary_append (show 45 ∈ COMPACTION_SEPARATOR by decide)
    (fun hmem => (List.mem_append.mp hmem).elim (by decide) hdash) (by decide)
    (by rw [List.length_append]; omega)] at hmessage
  -- What is left is the mark of the trimming, the end of the path and the tool trace: no Z.
  have hsummary := congrArg messageText hmessage
  rw [messageText_textMessage, messageText_textMessage] at hsummary
  have hmem : (90 : UInt16) ∈ summary := hopening.subset (by decide)
  rw [← hsummary] at hmem
  rcases List.mem_append.mp hmem with hmem | hmem
  · exact absurd hmem (by decide)
  · exact hother 90 (by decide) (fun text h => (Sample.not_mem_texts text h).2) (List.mem_of_mem_drop hmem)

end Compaction

end MayAgent
