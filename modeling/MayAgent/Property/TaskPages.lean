import MayAgent.Property.TaskList

/-!
# Pages of a list that changes

A reader follows the cursors of a list while Tasks are created, updated and closed. The cursor names the last row that was
read, by its key and not by its position, so each page goes on behind the keys of all earlier pages, whatever changed.
-/

namespace MayAgent

namespace TaskList

/-- The pages a reader gets who finds the stores one after the other, up to the last page. -/
def followPages (input : ListInput) : List Store → Option TaskCursor → Option (List (List HumanTaskView))
  | [], _ => none
  | store :: stores, cursor =>
    match listTasks store input cursor with
    | .error _ => none
    | .ok ⟨items, none⟩ => some [items]
    | .ok ⟨items, some next⟩ => (followPages input stores (some next)).map (items :: ·)

/-- The cursor lets the row through. -/
def Behind (cursor : Option TaskCursor) (row : TaskRow) : Prop := ∀ c, cursor = some c → c.key < row.key

variable {cursor : Option TaskCursor} {input : ListInput}

theorem Behind.trans {a b : TaskRow} (h : Behind cursor a) (hlt : a.key < b.key) :
    Behind cursor b := fun c hc => (h c hc).trans hlt

/-- A page is the beginning of the rows behind its cursor, and all of them if there is no next cursor. -/
theorem listTasks_page {store : Store} {next : Option TaskCursor} {items : List HumanTaskView}
    (h : listTasks store input cursor = .ok ⟨items, next⟩) :
    ∃ page rest, items = page.map projectTask ∧ (page ++ rest).Pairwise (fun a b => a.key < b.key) ∧
      (∀ row, row ∈ page ++ rest ↔ row ∈ store.listedRows input ∧ Behind cursor row) ∧
      ((next = none ∧ rest = []) ∨ ∃ front last, page = front ++ [last] ∧ next = some last.cursor) := by
  unfold listTasks at h
  split at h
  case isTrue => cases h
  case isFalse hlimit =>
    generalize hrows : (store.sortedRows input).filter (fun row => cursor.all fun c => c.isBefore row) = rows at h
    simp only [Except.ok.injEq, TaskPage.mk.injEq, List.take_take, min_eq_left (Nat.le_succ input.limit)] at h
    obtain ⟨rfl, rfl⟩ := h
    refine ⟨rows.take input.limit, rows.drop input.limit, rfl, ?_, fun row => ?_, ?_⟩
    · rw [List.take_append_drop, ← hrows]
      exact (store.pairwise_sortedRows input).sublist List.filter_sublist
    · rw [List.take_append_drop, ← hrows, List.mem_filter, (store.perm_sortedRows input).mem_iff]
      refine and_congr_right fun _ => ?_
      cases cursor with
      | none => simp [Behind]
      | some => simp [Behind, Store.key_lt_iff]
    · rw [List.length_take]
      by_cases hmore : input.limit < rows.length
      · obtain ⟨front, last, hlast⟩ := (List.eq_nil_or_concat (rows.take input.limit)).resolve_left
          (List.ne_nil_of_length_pos (by rw [List.length_take]; omega))
        rw [List.concat_eq_append] at hlast
        refine .inr ⟨front, last, hlast, ?_⟩
        rw [if_pos (by omega), hlast, List.getLast?_concat, Option.map_some]
      · exact .inl ⟨if_neg (by omega), List.drop_of_length_le (by omega)⟩

/-- What a reader gets behind a cursor, page by page. -/
structure Reads (input : ListInput) (stores : List Store) (cursor : Option TaskCursor) (pages : List (List TaskRow)) : Prop where
  ordered : pages.flatten.Pairwise fun a b => a.key < b.key
  behind : ∀ row ∈ pages.flatten, Behind cursor row
  listed : List.Forall₂ (fun store page => ∀ row ∈ page, row ∈ store.listedRows input) (stores.take pages.length) pages
  complete : ∀ row, (∀ store ∈ stores.take pages.length, row ∈ store.listedRows input) → Behind cursor row →
    row ∈ pages.flatten

/-- The cursor of a page is the key of its last row, so what is read later is behind all of the page. -/
theorem Reads.cons {store : Store} {stores : List Store}
    {front rest : List TaskRow} {pages : List (List TaskRow)} {last : TaskRow} (h : Reads input stores (some last.cursor) pages)
    (hordered : (front ++ [last] ++ rest).Pairwise fun a b => a.key < b.key)
    (hmem : ∀ row, row ∈ front ++ [last] ++ rest ↔ row ∈ store.listedRows input ∧ Behind cursor row) :
    Reads input (store :: stores) cursor ((front ++ [last]) :: pages) := by
  obtain ⟨hpage, -, hrest⟩ := List.pairwise_append.mp hordered
  have hlast : last ∈ front ++ [last] := List.mem_append_right _ List.mem_cons_self
  have hread : ∀ row ∈ front ++ [last], row ∈ store.listedRows input ∧ Behind cursor row :=
    fun row hrow => (hmem row).mp (List.mem_append_left _ hrow)
  refine ⟨List.pairwise_append.mpr ⟨hpage, h.ordered, fun a ha b hb => ?_⟩, fun row hrow => ?_,
    .cons (fun row hrow => (hread row hrow).1) h.listed, fun row hall hbehind => ?_⟩
  · rcases List.mem_append.mp ha with ha | ha
    · exact ((List.pairwise_append.mp hpage).2.2 a ha last List.mem_cons_self).trans (h.behind b hb _ rfl)
    · rw [List.mem_singleton.mp ha]
      exact h.behind b hb _ rfl
  · rcases List.mem_append.mp hrow with hrow | hrow
    · exact (hread row hrow).2
    · exact (hread last hlast).2.trans (h.behind row hrow _ rfl)
  · rcases List.mem_append.mp ((hmem row).mpr ⟨hall store List.mem_cons_self, hbehind⟩) with hrow | hrow
    · exact List.mem_append_left _ hrow
    · refine List.mem_append_right _ (h.complete row (fun s hs => hall s (List.mem_cons_of_mem _ hs)) ?_)
      rintro _ ⟨⟩
      exact hrest last hlast row hrow

theorem followPages_reads {stores : List Store}
    {items : List (List HumanTaskView)} (h : followPages input stores cursor = some items) :
    ∃ pages, items = pages.map (List.map projectTask) ∧ Reads input stores cursor pages := by
  induction stores generalizing cursor items with
  | nil => cases h
  | cons store _ ih =>
    rw [followPages] at h
    split at h
    case h_1 => cases h
    case h_2 items hpage =>
      cases h
      obtain ⟨page, rest, rfl, hordered, hmem, ⟨-, rfl⟩ | ⟨_, _, -, ⟨⟩⟩⟩ := listTasks_page hpage
      rw [List.append_nil] at hordered hmem
      refine ⟨[page], rfl, ⟨?_, ?_, .cons (fun row hrow => ((hmem row).mp hrow).1) .nil, fun row hall hbehind => ?_⟩⟩
      · rwa [List.flatten_singleton]
      · rw [List.flatten_singleton]
        exact fun row hrow => ((hmem row).mp hrow).2
      · rw [List.flatten_singleton]
        exact (hmem row).mpr ⟨hall store List.mem_cons_self, hbehind⟩
    case h_3 items next hpage =>
      obtain ⟨_, hlater, rfl⟩ := Option.map_eq_some_iff.mp h
      obtain ⟨page, rest, rfl, hordered, hmem, ⟨⟨⟩, -⟩ | ⟨front, last, rfl, hnext⟩⟩ := listTasks_page hpage
      cases hnext
      obtain ⟨pages, rfl, hreads⟩ := ih hlater
      exact ⟨(front ++ [last]) :: pages, rfl, hreads.cons hordered hmem⟩

/-- A reader who reaches the last page of a list that changes between the pages: the rows are in the strict order of the
list, each is shown in the store its page was read from, and a row that is shown in all these stores is among them. A
Task is listed twice only if it was updated backwards in time, or ended at the time of its last update. -/
theorem pages_across_changes {input : ListInput} {stores : List Store} {items : List (List HumanTaskView)}
    (h : followPages input stores none = some items) :
    ∃ pages : List (List TaskRow), items = pages.map (List.map projectTask) ∧
      pages.flatten.Pairwise (fun a b => a.key < b.key) ∧
      List.Forall₂ (fun store page => ∀ row ∈ page, store.Shown row ∧ input.covers row.appId = true ∧
        input.Admits row.payload) (stores.take pages.length) pages ∧
      (∀ row, (∀ store ∈ stores.take pages.length, store.Shown row) → input.covers row.appId = true →
        input.Admits row.payload → row ∈ pages.flatten) ∧
      pages.flatten.Pairwise fun a b => a.identity = b.identity → b.updatedAt < a.updatedAt ∨
        b.updatedAt = a.updatedAt ∧ a.payload.terminal < b.payload.terminal := by
  obtain ⟨pages, hitems, hreads⟩ := followPages_reads h
  refine ⟨pages, hitems, hreads.ordered, ?_, fun row hshown hcovers hadmits => ?_, hreads.ordered.imp fun {a b} hlt hid => ?_⟩
  · exact hreads.listed.imp fun store page hpage row hrow => Store.mem_listedRows.mp (hpage row hrow)
  · refine hreads.complete row (fun store hstore => ?_) fun c hc => nomatch hc
    exact Store.mem_listedRows.mpr ⟨hshown store hstore, hcovers, hadmits⟩
  · obtain ⟨happ, htask⟩ := Prod.mk.inj hid
    have hbefore := (Store.key_lt_iff a.cursor b).mpr hlt
    simpa [TaskCursor.isBefore, TaskRow.cursor, happ, htask] using hbefore

end TaskList

namespace Sample.TaskList

open MayAgent.TaskList

/-- Two running Tasks, of which one was updated at 10 and the other at a given time. -/
def busy (updatedAt : Int) : Store where
  live := [⟨"app", "t", 1, 1, 1, .running, false, false, updatedAt, []⟩, ⟨"app", "u", 1, 1, 1, .running, false, false, 10, []⟩]
  receipts := []
  closures := []
  liveKey := (by decide : [("app", "t"), ("app", "u")].Nodup)
  receiptKey := List.nodup_nil
  closureKey := List.nodup_nil
  named := (by decide : ∀ id ∈ [("app", "t"), ("app", "u")], stripAppSuffix (Text.trim id.1) ≠ "" ∧ Text.trim id.2 ≠ "")

def busyRow (taskId : String) (updatedAt : Int) : TaskRow := ⟨"app", taskId, updatedAt, .live .running 1 1⟩

end Sample.TaskList

open Sample.TaskList MayAgent.TaskList in
/-- The first page shows a Task that is updated again before the second page is read, which shows the other one. -/
theorem TaskList.pages_across_changes_busy :
    ∃ pages : List (List TaskRow), pages.map (List.map projectTask) =
        [[projectTask (busyRow "t" 20)], [projectTask (busyRow "u" 10)]] ∧
      List.Forall₂ (fun store page => ∀ row ∈ page, Store.Shown store row) [busy 20, busy 30] pages ∧
      busyRow "u" 10 ∈ pages.flatten := by
  have hitems : followPages { limit := 1 } [busy 20, busy 30] none =
      some [[projectTask (busyRow "t" 20)], [projectTask (busyRow "u" 10)]] := by decide +kernel
  obtain ⟨pages, hpages, -, hshown, hcomplete, -⟩ := TaskList.pages_across_changes hitems
  have htwo : pages.length = 2 := by simpa using (congrArg List.length hpages).symm
  rw [htwo] at hshown hcomplete
  refine ⟨pages, hpages.symm, hshown.imp fun store page hpage row hrow => (hpage row hrow).1, ?_⟩
  refine hcomplete (busyRow "u" 10) (fun store hstore => ?_) rfl ⟨rfl, by decide⟩
  have hu : ∀ time, Store.Shown (busy time) (busyRow "u" 10) := fun time =>
    .live ⟨"app", "u", 1, 1, 1, .running, false, false, 10, []⟩ (List.mem_cons_of_mem _ List.mem_cons_self)
      (fun _ h => nomatch h) fun _ h => nomatch h
  rcases List.mem_pair.mp hstore with rfl | rfl <;> exact hu _

end MayAgent
