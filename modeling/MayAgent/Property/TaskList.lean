import MayAgent.Host.TaskList

/-!
# Lists of Tasks

Of the rows of a Task exactly one is shown: its closure, or else its row or receipt of the higher generation, the receipt
where they are equal. The list and the detail show the same row, so each Task is listed once, under one status. Pages
follow the order of their keys, which no two listed rows share, so a cursor splits the list where the page ended. The
detail is read under normalized ids, so a Task whose ids are stored otherwise is listed and not found.
-/

namespace MayAgent

namespace TaskList

/-! ### The row that is shown -/

namespace Store

variable {store : Store} {row : TaskRow} {id : Identity}

inductive Shown (store : Store) : TaskRow → Prop where
  | live (task : LiveTask) (htask : task ∈ store.live)
      (hreceipts : ∀ receipt ∈ store.receipts, receipt.identity = task.identity → receipt.generation < task.generation)
      (hclosures : ∀ closure ∈ store.closures, closure.identity ≠ task.identity) : Shown store (store.liveRow task)
  | receipt (receipt : StoredReceipt) (hreceipt : receipt ∈ store.receipts)
      (hclosures : ∀ closure ∈ store.closures, closure.identity ≠ receipt.identity)
      (hlive : ∀ task ∈ store.live, task.identity = receipt.identity → task.generation ≤ receipt.generation) :
      Shown store receipt.row
  | closure (closure : StoredClosure) (hclosure : closure ∈ store.closures) : Shown store closure.row

def HasTask (store : Store) (id : Identity) : Prop :=
  id ∈ store.live.map LiveTask.identity ∨ id ∈ store.receipts.map StoredReceipt.identity ∨
    id ∈ store.closures.map StoredClosure.identity

theorem mem_rowsOf : row ∈ store.rowsOf id ↔
    (∃ task ∈ store.live, task.identity = id ∧ store.liveRow task = row) ∨
      (∃ receipt ∈ store.receipts, receipt.identity = id ∧ receipt.row = row) ∨
      ∃ closure ∈ store.closures, closure.identity = id ∧ closure.row = row := by
  simp only [rowsOf, List.mem_append, List.mem_map, List.mem_filter, decide_eq_true_eq, and_assoc, or_assoc]

theorem eq_of_argmax {rows : List TaskRow} (hrow : row ∈ rows)
    (h : ∀ other ∈ rows, other = row ∨ other.precedence < row.precedence) :
    rows.argmax TaskRow.precedence = some row := by
  rw [← Option.mem_def, List.mem_argmax_iff]
  refine ⟨hrow, fun other hother => ?_, fun other hother hle => ?_⟩
  · rcases h other hother with rfl | hlt
    · exact le_refl _
    · exact hlt.le
  · rcases h other hother with rfl | hlt
    · exact le_refl _
    · exact absurd hle (not_le.mpr hlt)

theorem precedence_lt {a b : TaskRow} (ha : a.payload.terminal ≠ 2)
    (h : b.payload.terminal = 2 ∨ a.payload.generation < b.payload.generation ∨
      a.payload.generation = b.payload.generation ∧ a.payload.terminal < b.payload.terminal) :
    a.precedence < b.precedence := by
  simp only [TaskRow.precedence, Prod.Lex.toLex_lt_toLex, if_neg ha]
  split
  · exact .inl Nat.zero_lt_one
  · exact .inr ⟨rfl, by simpa using h.resolve_left (by assumption)⟩

theorem Shown.readTaskRow (h : store.Shown row) : store.readTaskRow row.identity = some row := by
  cases h with
  | live task htask hreceipts hclosures =>
    refine eq_of_argmax (mem_rowsOf.mpr (.inl ⟨task, htask, rfl, rfl⟩)) fun other hother => ?_
    rcases mem_rowsOf.mp hother with ⟨_, htask', hid, rfl⟩ | ⟨receipt, hreceipt, hid, rfl⟩ | ⟨closure, hclosure, hid, rfl⟩
    · exact .inl (congrArg store.liveRow (List.inj_on_of_nodup_map store.liveKey htask' htask hid))
    · exact .inr (precedence_lt (show 1 ≠ 2 by decide) (.inr (.inl (hreceipts receipt hreceipt hid))))
    · exact absurd hid (hclosures closure hclosure)
  | receipt receipt hreceipt hclosures hlive =>
    refine eq_of_argmax (mem_rowsOf.mpr (.inr (.inl ⟨receipt, hreceipt, rfl, rfl⟩))) fun other hother => ?_
    rcases mem_rowsOf.mp hother with ⟨task, htask, hid, rfl⟩ | ⟨_, hreceipt', hid, rfl⟩ | ⟨closure, hclosure, hid, rfl⟩
    · refine .inr (precedence_lt (show 0 ≠ 2 by decide) (.inr ?_))
      rcases (hlive task htask hid).lt_or_eq with hlt | heq
      · exact .inl hlt
      · exact .inr ⟨heq, Nat.zero_lt_one⟩
    · exact .inl (congrArg StoredReceipt.row (List.inj_on_of_nodup_map store.receiptKey hreceipt' hreceipt hid))
    · exact absurd hid (hclosures closure hclosure)
  | closure closure hclosure =>
    refine eq_of_argmax (mem_rowsOf.mpr (.inr (.inr ⟨closure, hclosure, rfl, rfl⟩))) fun other hother => ?_
    rcases mem_rowsOf.mp hother with ⟨task, htask, hid, rfl⟩ | ⟨receipt, hreceipt, hid, rfl⟩ | ⟨_, hclosure', hid, rfl⟩
    · exact .inr (precedence_lt (show 0 ≠ 2 by decide) (.inl rfl))
    · exact .inr (precedence_lt (show 1 ≠ 2 by decide) (.inl rfl))
    · exact .inl (congrArg StoredClosure.row (List.inj_on_of_nodup_map store.closureKey hclosure' hclosure hid))

theorem Shown.eq {row' : TaskRow} (h : store.Shown row) (h' : store.Shown row') (hid : row'.identity = row.identity) :
    row' = row := by
  have hread := h'.readTaskRow
  rw [hid, h.readTaskRow, Option.some.injEq] at hread
  exact hread.symm

theorem Shown.hasTask (h : store.Shown row) : store.HasTask row.identity := by
  cases h with
  | live _ htask => exact .inl (List.mem_map_of_mem htask)
  | receipt _ hreceipt => exact .inr (.inl (List.mem_map_of_mem hreceipt))
  | closure _ hclosure => exact .inr (.inr (List.mem_map_of_mem hclosure))

theorem exists_shown (h : store.HasTask id) : ∃ row, store.Shown row ∧ row.identity = id := by
  by_cases hclosed : id ∈ store.closures.map StoredClosure.identity
  · obtain ⟨closure, hclosure, rfl⟩ := List.mem_map.mp hclosed
    exact ⟨closure.row, .closure closure hclosure, rfl⟩
  have hclosures : ∀ closure ∈ store.closures, closure.identity ≠ id := fun closure hclosure hid =>
    hclosed (hid ▸ List.mem_map_of_mem hclosure)
  -- Where there are a live row and a receipt, the higher generation decides.
  by_cases hdone : ∃ receipt ∈ store.receipts, receipt.identity = id ∧
      ∀ task ∈ store.live, task.identity = id → task.generation ≤ receipt.generation
  · obtain ⟨receipt, hreceipt, rfl, hlive⟩ := hdone
    exact ⟨receipt.row, .receipt receipt hreceipt hclosures hlive, rfl⟩
  · push Not at hdone
    obtain ⟨task, htask, rfl⟩ : ∃ task ∈ store.live, task.identity = id := by
      rcases h with hlive | hreceipt | hclosure
      · exact List.mem_map.mp hlive
      · obtain ⟨receipt, hmem, hid⟩ := List.mem_map.mp hreceipt
        obtain ⟨task, htask, hsame, -⟩ := hdone receipt hmem hid
        exact ⟨task, htask, hsame⟩
      · exact absurd hclosure hclosed
    refine ⟨store.liveRow task, .live task htask (fun receipt hreceipt hid => ?_) hclosures, rfl⟩
    obtain ⟨_, htask', hsame, hlt⟩ := hdone receipt hreceipt hid
    rwa [List.inj_on_of_nodup_map store.liveKey htask' htask hsame] at hlt

end Store

/-! ### The union -/

namespace ListInput

/-- The filters of a list let a payload through. -/
def Admits (input : ListInput) : Payload → Prop
  | .live phase _ _ => input.includeLive = true ∧ phase ∈ input.livePhases
  | .receipt _ _ => input.includes .done = true
  | .closure kind _ _ => input.includes (if kind = some .closed then .closed else .cancelled) = true

end ListInput

namespace Store

variable {store : Store} {input : ListInput} {row : TaskRow}

variable {task : LiveTask} {before rest : List TaskRow}

theorem mem_storedPhases (h : store.viewPhase task ∈ input.livePhases) :
    task.phase ∈ input.storedPhases := by
  have hpending : .pending ∈ input.livePhases → task.phase = .converged ∨ task.phase = .waiting →
      task.phase ∈ input.storedPhases := by
    intro hmem hphase
    rw [ListInput.storedPhases, if_pos (List.contains_iff_mem.mpr hmem)]
    apply List.mem_append_right
    rcases hphase with hphase | hphase <;> simp [hphase]
  unfold viewPhase at h
  split at h
  case isTrue hconverged => exact hpending h (.inl hconverged.1)
  case isFalse =>
    split at h
    case isTrue hwaiting => exact hpending h (.inr hwaiting.1)
    case isFalse =>
      unfold ListInput.storedPhases
      split
      · exact List.mem_append_left _ h
      · exact h

theorem listsLive_iff : store.listsLive input task = true ↔
    store.viewPhase task ∈ input.livePhases ∧ input.covers task.appId = true ∧
      (∀ receipt ∈ store.receipts, receipt.identity = task.identity → receipt.generation < task.generation) ∧
      ∀ closure ∈ store.closures, closure.identity ≠ task.identity := by
  simp only [listsLive, Bool.and_eq_true, List.contains_iff_mem, Bool.not_eq_true', List.any_eq_false, beq_iff_eq,
    decide_eq_true_eq, not_and, not_le]
  constructor
  · rintro ⟨⟨⟨⟨-, hphase⟩, hreceipts⟩, hclosures⟩, hcovers⟩
    exact ⟨hphase, hcovers, hreceipts, hclosures⟩
  · rintro ⟨hphase, hcovers, hreceipts, hclosures⟩
    exact ⟨⟨⟨⟨mem_storedPhases hphase, hphase⟩, hreceipts⟩, hclosures⟩, hcovers⟩

theorem listsReceipt_iff {receipt : StoredReceipt} : store.listsReceipt input receipt = true ↔
    input.covers receipt.appId = true ∧ (∀ closure ∈ store.closures, closure.identity ≠ receipt.identity) ∧
      ∀ task ∈ store.live, task.identity = receipt.identity → task.generation ≤ receipt.generation := by
  simp only [listsReceipt, Bool.and_eq_true, Bool.not_eq_true', List.any_eq_false, beq_iff_eq, decide_eq_true_eq, not_and,
    not_lt]
  constructor
  · rintro ⟨⟨hclosures, hlive⟩, hcovers⟩
    exact ⟨hcovers, hclosures, hlive⟩
  · rintro ⟨hcovers, hclosures, hlive⟩
    exact ⟨⟨hclosures, hlive⟩, hcovers⟩

theorem listsClosure_iff {closure : StoredClosure} : listsClosure input closure = true ↔
    input.covers closure.appId = true ∧ input.Admits closure.row.payload := by
  have hkind : closure.kind.getD .cancelled = .closed ↔ closure.kind = some .closed := by
    cases closure.kind <;> simp
  simp only [listsClosure, Bool.and_eq_true, hkind]
  exact and_comm

theorem mem_listedRows : row ∈ store.listedRows input ↔
    store.Shown row ∧ input.covers row.appId = true ∧ input.Admits row.payload := by
  unfold listedRows
  rw [List.mem_append, List.mem_append]
  constructor
  · rintro ((hrow | hrow) | hrow)
    · split at hrow
      case isTrue hlive =>
        obtain ⟨task, htask, rfl⟩ := List.mem_map.mp hrow
        obtain ⟨hmem, hlists⟩ := List.mem_filter.mp htask
        obtain ⟨hphase, hcovers, hreceipts, hclosures⟩ := listsLive_iff.mp hlists
        exact ⟨.live task hmem hreceipts hclosures, hcovers, hlive, hphase⟩
      case isFalse => cases hrow
    · split at hrow
      case isTrue hdone =>
        obtain ⟨receipt, hreceipt, rfl⟩ := List.mem_map.mp hrow
        obtain ⟨hmem, hlists⟩ := List.mem_filter.mp hreceipt
        obtain ⟨hcovers, hclosures, hlive⟩ := listsReceipt_iff.mp hlists
        exact ⟨.receipt receipt hmem hclosures hlive, hcovers, hdone⟩
      case isFalse => cases hrow
    · obtain ⟨closure, hclosure, rfl⟩ := List.mem_map.mp hrow
      obtain ⟨hmem, hlists⟩ := List.mem_filter.mp hclosure
      exact ⟨.closure closure hmem, listsClosure_iff.mp hlists⟩
  · rintro ⟨hshown, hcovers, hadmits⟩
    cases hshown with
    | live _ htask hreceipts hclosures =>
      refine .inl (.inl ?_)
      rw [if_pos hadmits.1]
      exact List.mem_map_of_mem (List.mem_filter.mpr ⟨htask, listsLive_iff.mpr ⟨hadmits.2, hcovers, hreceipts, hclosures⟩⟩)
    | receipt _ hreceipt hclosures hlive =>
      refine .inl (.inr ?_)
      have hdone : input.includes .done = true := hadmits
      rw [if_pos hdone]
      exact List.mem_map_of_mem (List.mem_filter.mpr ⟨hreceipt, listsReceipt_iff.mpr ⟨hcovers, hclosures, hlive⟩⟩)
    | closure _ hclosure =>
      exact .inr (List.mem_map_of_mem (List.mem_filter.mpr ⟨hclosure, listsClosure_iff.mpr ⟨hcovers, hadmits⟩⟩))

theorem nodup_rows (store : Store) (input : ListInput) : (store.listedRows input).Nodup := by
  have hlive : ((store.live.filter (store.listsLive input)).map store.liveRow).Nodup :=
    .of_map TaskRow.identity (by rw [List.map_map]; exact store.liveKey.sublist (List.filter_sublist.map _))
  have hreceipts : ((store.receipts.filter (store.listsReceipt input)).map StoredReceipt.row).Nodup :=
    .of_map TaskRow.identity (by rw [List.map_map]; exact store.receiptKey.sublist (List.filter_sublist.map _))
  have hclosures : ((store.closures.filter (listsClosure input)).map StoredClosure.row).Nodup :=
    .of_map TaskRow.identity (by rw [List.map_map]; exact store.closureKey.sublist (List.filter_sublist.map _))
  have hmem : ∀ {c : Prop} [Decidable c] {rows : List TaskRow} {row}, row ∈ (if c then rows else []) → row ∈ rows := by
    intro c _ rows row hrow
    split at hrow
    · exact hrow
    · cases hrow
  have hnodup : ∀ {c : Prop} [Decidable c] {rows : List TaskRow}, rows.Nodup → (if c then rows else []).Nodup := by
    intro c _ rows hrows
    split
    · exact hrows
    · exact .nil
  unfold listedRows
  refine List.nodup_append.mpr ⟨List.nodup_append.mpr ⟨hnodup hlive, hnodup hreceipts, ?_⟩, hclosures, ?_⟩
  · rintro a ha _ hb rfl
    obtain ⟨task, -, rfl⟩ := List.mem_map.mp (hmem ha)
    obtain ⟨receipt, -, heq⟩ := List.mem_map.mp (hmem hb)
    cases congrArg (fun row => row.payload.terminal) heq
  · rintro a ha _ hb rfl
    obtain ⟨_, -, rfl⟩ := List.mem_map.mp hb
    rcases List.mem_append.mp ha with ha | ha
    · obtain ⟨task, -, heq⟩ := List.mem_map.mp (hmem ha)
      cases congrArg (fun row => row.payload.terminal) heq
    · obtain ⟨receipt, -, heq⟩ := List.mem_map.mp (hmem ha)
      cases congrArg (fun row => row.payload.terminal) heq

theorem nodup_listedRows (store : Store) (input : ListInput) : ((store.listedRows input).map TaskRow.identity).Nodup := by
  refine List.Nodup.map_on (fun row hrow row' hrow' hid => ?_) (store.nodup_rows input)
  exact (mem_listedRows.mp hrow').1.eq (mem_listedRows.mp hrow).1 hid

/-! ### Pages -/

theorem key_lt_iff (cursor : TaskCursor) (row : TaskRow) : cursor.isBefore row = true ↔ cursor.key < row.key := by
  simp only [TaskCursor.isBefore, TaskRow.key, TaskCursor.key, TaskRow.cursor, Prod.Lex.toLex_lt_toLex, Bool.or_eq_true,
    Bool.and_eq_true, decide_eq_true_eq, Int.neg_lt_neg_iff, Int.neg_inj]
  constructor
  · rintro (((h | ⟨ht, h⟩) | ⟨⟨ht, ha⟩, h⟩) | ⟨⟨⟨ht, ha⟩, hi⟩, h⟩)
    · exact .inl h
    · exact .inr ⟨ht.symm, .inl h⟩
    · exact .inr ⟨ht.symm, .inr ⟨ha.symm, .inl h⟩⟩
    · exact .inr ⟨ht.symm, .inr ⟨ha.symm, .inr ⟨hi.symm, h⟩⟩⟩
  · rintro (h | ⟨ht, h | ⟨ha, h | ⟨hi, h⟩⟩⟩)
    · exact .inl (.inl (.inl h))
    · exact .inl (.inl (.inr ⟨ht.symm, h⟩))
    · exact .inl (.inr ⟨⟨ht.symm, ha.symm⟩, h⟩)
    · exact .inr ⟨⟨⟨ht.symm, ha.symm⟩, hi.symm⟩, h⟩

theorem identity_of_key {a b : TaskRow} (h : a.key = b.key) : a.identity = b.identity := by
  have hpair := congrArg ofLex (congrArg Prod.snd (congrArg ofLex h))
  have happ : a.appId = b.appId := congrArg Prod.fst hpair
  have htask : a.taskId = b.taskId := congrArg Prod.fst (congrArg ofLex (congrArg Prod.snd hpair))
  exact Prod.ext happ htask

theorem perm_sortedRows (store : Store) (input : ListInput) : (store.sortedRows input).Perm (store.listedRows input) :=
  List.perm_insertionSort _ _

theorem pairwise_sortedRows (store : Store) (input : ListInput) :
    (store.sortedRows input).Pairwise fun a b => a.key < b.key := by
  have hdistinct : (store.sortedRows input).Pairwise fun a b => a.identity ≠ b.identity := by
    have hnodup := ((store.perm_sortedRows input).map TaskRow.identity).nodup_iff.mpr (store.nodup_listedRows input)
    exact List.pairwise_map.mp hnodup
  have hsorted : (store.sortedRows input).Pairwise fun a b => a.key ≤ b.key := List.pairwise_insertionSort _ _
  exact (hsorted.and hdistinct).imp fun h => lt_of_le_of_ne h.1 fun heq => h.2 (identity_of_key heq)

theorem filter_isBefore (h : (before ++ rest).Pairwise fun a b => a.key < b.key) :
    ((before ++ rest).filter fun row => (before.getLast?.map TaskRow.cursor).all fun c => c.isBefore row) = rest := by
  rcases List.eq_nil_or_concat before with rfl | ⟨front, last, rfl⟩
  · simp
  · rw [List.concat_eq_append] at h ⊢
    rw [List.getLast?_concat, List.filter_append]
    obtain ⟨hfront, -, hrest⟩ := List.pairwise_append.mp h
    obtain ⟨-, -, hlast⟩ := List.pairwise_append.mp hfront
    have hnone : ((front ++ [last]).filter fun row => ((some last).map TaskRow.cursor).all fun c => c.isBefore row) = [] := by
      rw [List.filter_eq_nil_iff]
      intro row hrow
      simp only [Option.map_some, Option.all_some, key_lt_iff]
      rcases List.mem_append.mp hrow with hrow | hrow
      · exact (hlast row hrow last List.mem_cons_self).asymm
      · rw [List.mem_singleton.mp hrow]
        exact lt_irrefl _
    have hall : (rest.filter fun row => ((some last).map TaskRow.cursor).all fun c => c.isBefore row) = rest := by
      rw [List.filter_eq_self]
      intro row hrow
      simp only [Option.map_some, Option.all_some, key_lt_iff]
      exact hrest last (List.mem_append_right _ List.mem_cons_self) row hrow
    rw [hnone, hall, List.nil_append]

theorem listTasks_eq (hrows : store.sortedRows input = before ++ rest)
    (hlimit : 1 ≤ input.limit ∧ input.limit ≤ 100) :
    listTasks store input (before.getLast?.map TaskRow.cursor) =
      .ok ⟨(rest.take input.limit).map projectTask,
        if input.limit < rest.length then (before ++ rest.take input.limit).getLast?.map TaskRow.cursor else none⟩ := by
  have hsorted := store.pairwise_sortedRows input
  rw [hrows] at hsorted
  unfold listTasks
  rw [if_neg (by omega), hrows, filter_isBefore hsorted]
  have htake : (rest.take (input.limit + 1)).take input.limit = rest.take input.limit := by
    rw [List.take_take, min_eq_left (by omega)]
  have hlength : input.limit < (rest.take (input.limit + 1)).length ↔ input.limit < rest.length := by
    rw [List.length_take]
    omega
  dsimp only
  rw [htake, if_congr hlength rfl rfl]
  by_cases hmore : input.limit < rest.length
  · have hne : rest.take input.limit ≠ [] := by
      rw [← List.length_pos_iff, List.length_take]
      omega
    rw [if_pos hmore, if_pos hmore, List.getLast?_append_of_ne_nil _ hne]
  · rw [if_neg hmore, if_neg hmore]

theorem followCursor_eq (hlimit : 1 ≤ input.limit ∧ input.limit ≤ 100) {fuel : Nat}
    (hrows : store.sortedRows input = before ++ rest) (hfuel : rest.length < fuel) :
    followCursor store input fuel (before.getLast?.map TaskRow.cursor) = some (rest.map projectTask) := by
  induction fuel generalizing before rest with
  | zero => omega
  | succ _ ih =>
    rw [followCursor, listTasks_eq hrows hlimit]
    by_cases hmore : input.limit < rest.length
    · have hsplit : store.sortedRows input = (before ++ rest.take input.limit) ++ rest.drop input.limit := by
        rw [List.append_assoc, List.take_append_drop, hrows]
      have hnext := ih hsplit (by rw [List.length_drop]; omega)
      have hne : before ++ rest.take input.limit ≠ [] := by
        intro hnil
        have := congrArg List.length hnil
        rw [List.length_append, List.length_take, List.length_nil] at this
        omega
      obtain ⟨last, hlast⟩ : ∃ last, (before ++ rest.take input.limit).getLast? = some last :=
        ⟨_, List.getLast?_eq_some_getLast hne⟩
      rw [hlast] at hnext
      rw [if_pos hmore, hlast, Option.map_some]
      simp only [Option.map_some] at hnext
      simp only [hnext, Option.map_some]
      rw [← List.map_append, List.take_append_drop]
    · rw [if_neg hmore, List.take_of_length_le (by omega)]

end Store

/-! ### Lists and details -/

/-- Following the cursors of a list ends with the views. -/
def Lists (store : Store) (input : ListInput) (items : List HumanTaskView) : Prop :=
  ∃ fuel, ∀ fuel', fuel ≤ fuel' → followCursor store input fuel' none = some items

variable {store : Store} {input : ListInput} {items : List HumanTaskView}

theorem lists_sortedRows (hlimit : 1 ≤ input.limit ∧ input.limit ≤ 100) :
    Lists store input ((store.sortedRows input).map projectTask) :=
  ⟨(store.sortedRows input).length + 1, fun fuel hfuel =>
    Store.followCursor_eq hlimit (List.nil_append _).symm (by omega)⟩

theorem Lists.eq {items' : List HumanTaskView} (h : Lists store input items) (h' : Lists store input items') : items' = items := by
  obtain ⟨fuel, hfuel⟩ := h
  obtain ⟨fuel', hfuel'⟩ := h'
  have hsame := (hfuel (fuel + fuel') (by omega)).symm.trans (hfuel' (fuel + fuel') (by omega))
  exact (Option.some.inj hsame).symm

theorem identity_projectTask (row : TaskRow) : (projectTask row).identity = row.identity := by
  unfold projectTask
  split <;> rfl

theorem mem_items (hlimit : 1 ≤ input.limit ∧ input.limit ≤ 100) (h : Lists store input items) (view : HumanTaskView) :
    view ∈ items ↔ ∃ row, (store.Shown row ∧ input.covers row.appId = true ∧ input.Admits row.payload) ∧
      projectTask row = view := by
  rw [(lists_sortedRows hlimit).eq h, List.mem_map]
  refine exists_congr fun row => and_congr_left fun _ => ?_
  rw [(store.perm_sortedRows input).mem_iff, Store.mem_listedRows]

theorem nodup_items (hlimit : 1 ≤ input.limit ∧ input.limit ≤ 100) (h : Lists store input items) :
    (items.map HumanTaskView.identity).Nodup := by
  rw [(lists_sortedRows hlimit).eq h, List.map_map]
  have hsame : HumanTaskView.identity ∘ projectTask = TaskRow.identity := funext identity_projectTask
  rw [hsame, ((store.perm_sortedRows input).map TaskRow.identity).nodup_iff]
  exact store.nodup_listedRows input

/-- Ids that are stored as a detail read asks for them: without blanks at their ends, and without the App's suffix. -/
structure Identity.Plain (id : Identity) : Prop where
  app : Text.Tidy id.1
  bare : Text.endsWith id.1 ".app" = false
  task : Text.Tidy id.2

theorem stripAppSuffix_eq_self_iff {appId : String} :
    stripAppSuffix (Text.trim appId) = appId ↔ Text.Tidy appId ∧ Text.endsWith appId ".app" = false := by
  constructor
  · intro h
    -- A text that lost its suffix is shorter than it was.
    have hbare : Text.endsWith (Text.trim appId) ".app" = false := by
      cases hends : Text.endsWith (Text.trim appId) ".app" with
      | false => rfl
      | true =>
        have hfour := (List.isSuffixOf_iff_suffix.mp hends).length_le
        have hlength := congrArg String.length h
        rw [stripAppSuffix, if_pos hends, String.length_ofList, List.length_take] at hlength
        have hle := Text.length_trim_le appId
        rw [String.length_toList] at hfour hlength
        have hfour : 4 ≤ (Text.trim appId).length := hfour
        omega
    have htrim : Text.trim appId = appId := by rwa [stripAppSuffix, hbare, if_neg Bool.false_ne_true] at h
    rw [htrim] at hbare
    exact ⟨Text.trim_eq_self_iff.mp htrim, hbare⟩
  · rintro ⟨htidy, hbare⟩
    rw [Text.trim_eq_self_iff.mpr htidy, stripAppSuffix, hbare, if_neg Bool.false_ne_true]

variable {id : Identity} {row : TaskRow}

theorem Store.HasTask.named (h : store.HasTask id) :
    stripAppSuffix (Text.trim id.1) ≠ "" ∧ Text.trim id.2 ≠ "" := by
  refine store.named id ?_
  rw [List.mem_append, List.mem_append, or_assoc]
  exact h

theorem identity_readTaskRow (h : store.readTaskRow id = some row) : row.identity = id := by
  rcases Store.mem_rowsOf.mp (List.argmax_mem h) with ⟨_, -, hid, rfl⟩ | ⟨_, -, hid, rfl⟩ | ⟨_, -, hid, rfl⟩ <;> exact hid

/-- The detail of a Task is read under its normalized ids. -/
theorem getTask_iff (h : store.Shown row) :
    getTask store row.identity = .ok (some (projectTask row)) ↔ row.identity.Plain := by
  obtain ⟨happ, htask⟩ := h.hasTask.named
  have hget : getTask store row.identity = .ok ((store.readTaskRow
      (stripAppSuffix (Text.trim row.identity.1), Text.trim row.identity.2)).map projectTask) := by
    simp only [getTask, normalizeAppId, if_neg happ, if_neg htask]
  rw [hget, Except.ok.injEq]
  constructor
  · intro hview
    obtain ⟨_, hother, hsame⟩ := Option.map_eq_some_iff.mp hview
    have hid := identity_readTaskRow hother
    rw [← identity_projectTask, hsame, identity_projectTask] at hid
    obtain ⟨hid, hid'⟩ := Prod.mk.inj hid
    obtain ⟨htidy, hbare⟩ := stripAppSuffix_eq_self_iff.mp hid.symm
    exact ⟨htidy, hbare, Text.trim_eq_self_iff.mp hid'.symm⟩
  · rintro ⟨htidy, hbare, htask⟩
    rw [stripAppSuffix_eq_self_iff.mpr ⟨htidy, hbare⟩, Text.trim_eq_self_iff.mpr htask]
    exact Option.map_eq_some_iff.mpr ⟨row, h.readTaskRow, rfl⟩

theorem getTask_iff_of_mem (hlimit : 1 ≤ input.limit ∧ input.limit ≤ 100) (h : Lists store input items)
    {view : HumanTaskView} (hview : view ∈ items) :
    getTask store view.identity = .ok (some view) ↔ view.identity.Plain := by
  obtain ⟨_, ⟨hshown, -⟩, rfl⟩ := (mem_items hlimit h view).mp hview
  rw [identity_projectTask]
  exact getTask_iff hshown

theorem admits_all (limit : Nat) (payload : Payload) : ListInput.Admits { includeDone := true, limit := limit } payload := by
  cases payload with
  | live phase => exact ⟨rfl, by cases phase <;> simp [ListInput.livePhases]⟩
  | receipt => rfl
  | closure => rfl

theorem admits_status_iff (limit : Nat) (status : HumanTaskStatus) (row : TaskRow) :
    ListInput.Admits { status := some [status], limit := limit } row.payload ↔ (projectTask row).status = status := by
  unfold projectTask
  cases row.payload with
  | live phase => cases phase <;> cases status <;> simp [ListInput.Admits, ListInput.includeLive, ListInput.isTerminal,
      ListInput.livePhases, ListInput.livePhase, taskStatus]
  | receipt => cases status <;> simp [ListInput.Admits, ListInput.includes]
  | closure kind =>
    by_cases hkind : kind = some .closed <;> cases status <;> simp [ListInput.Admits, ListInput.includes, hkind]

/-- Every Task is listed once among all Tasks, and under one status; and a listed view is the detail of its Task exactly
if its ids are plain. -/
theorem lists_partition (store : Store) (limit : Nat) (hlimit : 1 ≤ limit ∧ limit ≤ 100) :
    (∃ items, Lists store { includeDone := true, limit := limit } items ∧ (items.map HumanTaskView.identity).Nodup ∧
      (∀ id, id ∈ items.map HumanTaskView.identity ↔ store.HasTask id) ∧
      ∀ view ∈ items, getTask store view.identity = .ok (some view) ↔ view.identity.Plain) ∧
    (∀ status, ∃ items, Lists store { status := some [status], limit := limit } items ∧
      ∀ view ∈ items, view.status = status ∧ (getTask store view.identity = .ok (some view) ↔ view.identity.Plain)) ∧
    ∀ id, store.HasTask id → ∃! status, ∃ items, Lists store { status := some [status], limit := limit } items ∧
      id ∈ items.map HumanTaskView.identity := by
  refine ⟨?_, fun status => ?_, fun id hid => ?_⟩
  · have hlists : Lists store { includeDone := true, limit := limit } _ := lists_sortedRows hlimit
    refine ⟨_, hlists, nodup_items hlimit hlists, fun id => ⟨fun hid => ?_, fun hid => ?_⟩, fun view hview =>
      getTask_iff_of_mem hlimit hlists hview⟩
    · obtain ⟨view, hview, rfl⟩ := List.mem_map.mp hid
      obtain ⟨row, ⟨hshown, -⟩, rfl⟩ := (mem_items hlimit hlists view).mp hview
      rw [identity_projectTask]
      exact hshown.hasTask
    · obtain ⟨row, hshown, rfl⟩ := Store.exists_shown hid
      have hview := (mem_items hlimit hlists (projectTask row)).mpr ⟨row, ⟨hshown, rfl, admits_all limit _⟩, rfl⟩
      exact identity_projectTask row ▸ List.mem_map_of_mem hview
  · have hlists : Lists store { status := some [status], limit := limit } _ := lists_sortedRows hlimit
    refine ⟨_, hlists, fun view hview => ⟨?_, getTask_iff_of_mem hlimit hlists hview⟩⟩
    obtain ⟨row, ⟨-, -, hadmits⟩, rfl⟩ := (mem_items hlimit hlists view).mp hview
    exact (admits_status_iff limit status row).mp hadmits
  · obtain ⟨row, hshown, rfl⟩ := Store.exists_shown hid
    refine ⟨(projectTask row).status, ⟨_, lists_sortedRows hlimit, ?_⟩, fun status hstatus => ?_⟩
    · have hview := (mem_items hlimit (lists_sortedRows hlimit) (projectTask row)).mpr
        ⟨row, ⟨hshown, rfl, (admits_status_iff limit _ row).mpr rfl⟩, rfl⟩
      exact identity_projectTask row ▸ List.mem_map_of_mem hview
    · obtain ⟨items, hlists, hmem⟩ := hstatus
      obtain ⟨view, hview, hsame⟩ := List.mem_map.mp hmem
      obtain ⟨row', ⟨hshown', -, hadmits⟩, rfl⟩ := (mem_items hlimit hlists view).mp hview
      rw [identity_projectTask] at hsame
      rw [← hshown.eq hshown' hsame]
      exact ((admits_status_iff limit status row').mp hadmits).symm

end TaskList

namespace Sample.TaskList

open MayAgent.TaskList

/-- A Task that was completed in its first generation and revised. -/
def revised : Store where
  live := [⟨"app", "t", 2, 5, 1, .running, false, false, 20, []⟩]
  receipts := [⟨"app", "t", 1, 3, 10⟩]
  closures := []
  liveKey := List.nodup_singleton _
  receiptKey := List.nodup_singleton _
  closureKey := List.nodup_nil
  named := by decide

/-- A running Task under an id that ends with a blank. -/
def padded : Store where
  live := [⟨"app", "a ", 1, 1, 1, .running, false, false, 20, []⟩]
  receipts := []
  closures := []
  liveKey := List.nodup_singleton _
  receiptKey := List.nodup_nil
  closureKey := List.nodup_nil
  named := by decide

def paddedView : HumanTaskView := ⟨"app", "a ", .running, 1, 1, 20⟩

end Sample.TaskList

open Sample.TaskList MayAgent.TaskList in
/-- The revised Task is listed as running, and its detail is what is listed. -/
theorem TaskList.lists_partition_revised : ∃ items, Lists revised { status := some [.running], limit := 1 } items ∧
    items = [⟨"app", "t", .running, 2, 5, 20⟩] ∧ ∀ view ∈ items, getTask revised view.identity = .ok (some view) := by
  obtain ⟨items, hlists, hitems⟩ := (TaskList.lists_partition revised 1 ⟨by decide, by decide⟩).2.1 .running
  have hone : items = [⟨"app", "t", .running, 2, 5, 20⟩] := by
    obtain ⟨fuel, hfuel⟩ := hlists
    have hpage := hfuel (fuel + 1) (Nat.le_succ fuel)
    rw [followCursor] at hpage
    exact (Option.some.inj hpage).symm
  refine ⟨items, hlists, hone, fun view hview => (hitems view hview).2.mpr ?_⟩
  rw [hone, List.mem_singleton] at hview
  subst hview
  exact ⟨Text.trim_eq_self_iff.mp (by decide), by decide, Text.trim_eq_self_iff.mp (by decide)⟩

open Sample.TaskList MayAgent.TaskList in
/-- The Task is on the only page of the list, and its detail is not found. -/
theorem TaskList.listed_without_detail : listTasks padded {} none = .ok ⟨[paddedView], none⟩ ∧
    getTask padded paddedView.identity = .ok none := by
  decide +kernel

end MayAgent
