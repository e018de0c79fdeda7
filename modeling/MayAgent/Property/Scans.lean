import MayAgent.Host.Scans

/-!
# Fairness of the recovery scans

`recoverInputs` freezes the end of each cycle, and ids of events only grow: a row waits at most for the rows that
were pending with it, twice. The scans of the inbox do not freeze anything. They reach the rows behind the cursor
when a page is not full, so rows that keep arriving ahead of the cursor keep the others waiting; as long as less
than a page of rows becomes due between two passes, and no pass ends with an error, the waiting is bounded.
-/

namespace MayAgent

/-! ### Events -/

namespace InputScan

variable {s : InputScan} {outcome : Nat → Redelivery}

/-- The rows of the current cycle that are not read yet. -/
def window (s : InputScan) : Finset Nat := s.pending.filter fun id => s.cursor < id ∧ id ≤ s.maxId

/-- What holds of the variables. -/
structure Sound (s : InputScan) : Prop where
  ids : ∀ id ∈ s.pending, 0 < id ∧ id < s.nextId
  bounded : s.cycleMaxId < s.nextId
  idle : s.cycleMaxId = 0 → s.cursor = 0

theorem reached_initial (recovered : Nat) (rows : List Nat) : reached outcome recovered rows <+: rows := by
  induction rows generalizing recovered with
  | nil => exact List.prefix_refl _
  | cons id rest ih =>
    have hone : [id] <+: id :: rest := ⟨rest, rfl⟩
    unfold reached
    split
    · exact hone
    · exact List.cons_prefix_cons.mpr ⟨rfl, ih _⟩
    · split
      · exact hone
      · exact List.cons_prefix_cons.mpr ⟨rfl, ih _⟩

theorem reached_ne_nil (recovered : Nat) {rows : List Nat} (h : rows ≠ []) : reached outcome recovered rows ≠ [] := by
  cases rows with
  | nil => exact absurd rfl h
  | cons =>
    unfold reached
    split
    · simp
    · simp
    · split <;> simp

theorem mem_window {id : Nat} : id ∈ s.window ↔ id ∈ s.pending ∧ s.cursor < id ∧ id ≤ s.maxId := Finset.mem_filter

theorem rows_eq_nil : s.rows = [] ↔ s.window = ∅ := by
  show (s.window.sort (· ≤ ·)).take APP_ADMISSION_RECOVERY_SCAN_SIZE = [] ↔ _
  rw [List.take_eq_nil_iff, or_iff_right (by decide), ← Finset.card_eq_zero, ← Finset.length_sort (· ≤ ·),
    List.length_eq_zero_iff]

theorem getLast_reached {last : Nat} (h : (reached outcome 0 s.rows).getLast? = some last) :
    last ∈ s.window ∧ ∀ id ∈ s.window, id ∉ reached outcome 0 s.rows → last < id := by
  have hinitial : reached outcome 0 s.rows <+: s.window.sort (· ≤ ·) :=
    (reached_initial 0 s.rows).trans (List.take_prefix _ _)
  have hlast := List.mem_of_getLast? h
  refine ⟨(Finset.mem_sort (· ≤ ·)).mp (hinitial.subset hlast), fun id hid hmissed => ?_⟩
  obtain ⟨rest, hrest⟩ := hinitial
  have hsorted : (s.window.sort (· ≤ ·)).Pairwise (· < ·) := (Finset.sortedLT_sort _).pairwise
  rw [← hrest] at hsorted
  have hmem : id ∈ s.window.sort (· ≤ ·) := (Finset.mem_sort (· ≤ ·)).mpr hid
  rw [← hrest, List.mem_append] at hmem
  exact (List.pairwise_append.mp hsorted).2.2 last hlast id (hmem.resolve_left hmissed)

theorem recoverInputs_cases (s : InputScan) (outcome : Nat → Redelivery) :
    (s.window = ∅ ∧ s.recoverInputs outcome = { s with cursor := 0, cycleMaxId := 0 }) ∨
      ∃ last, (reached outcome 0 s.rows).getLast? = some last ∧
        s.recoverInputs outcome = { s with cursor := last, cycleMaxId := s.maxId } := by
  unfold recoverInputs
  split
  case h_1 hrows => exact .inl ⟨rows_eq_nil.mp hrows, rfl⟩
  case h_2 rows hne =>
    obtain ⟨last, hlast⟩ : ∃ last, (reached outcome 0 s.rows).getLast? = some last :=
      ⟨_, List.getLast?_eq_getLast_of_ne_nil (reached_ne_nil 0 hne)⟩
    exact .inr ⟨last, hlast, by rw [hlast]; rfl⟩

theorem Sound.maxId_lt (h : s.Sound) : s.maxId < s.nextId := by
  unfold maxId
  split
  · exact (Finset.sup_lt_iff (Nat.zero_lt_of_lt h.bounded)).mpr fun id hid => (h.ids id hid).2
  · exact h.bounded

theorem Sound.next (h : s.Sound) (action : Action) : (s.next action).Sound := by
  cases action with
  | insert =>
    refine ⟨fun id hid => ?_, Nat.lt_succ_of_lt h.bounded, h.idle⟩
    rcases Finset.mem_insert.mp hid with rfl | hid
    · exact ⟨Nat.zero_lt_of_lt h.bounded, Nat.lt_succ_self _⟩
    · exact ⟨(h.ids id hid).1, Nat.lt_succ_of_lt (h.ids id hid).2⟩
  | settle => exact ⟨fun id hid => h.ids id (Finset.mem_sdiff.mp hid).1, h.bounded, h.idle⟩
  | pass outcome =>
    show (s.recoverInputs outcome).Sound
    rcases s.recoverInputs_cases outcome with ⟨-, hnext⟩ | ⟨last, hlast, hnext⟩ <;> rw [hnext]
    · exact ⟨h.ids, Nat.zero_lt_of_lt h.bounded, fun _ => rfl⟩
    · have hwindow := mem_window.mp (getLast_reached hlast).1
      refine ⟨h.ids, h.maxId_lt, fun hzero => ?_⟩
      have hpos := (h.ids last hwindow.1).1
      have hle := hwindow.2.2
      have hzero' : s.maxId = 0 := hzero
      omega

/-- The row belongs to the current cycle, or to the one that the next pass starts. -/
def Ahead (s : InputScan) (r : Nat) : Prop := s.cursor < r ∧ r ≤ s.maxId

instance (s : InputScan) (r : Nat) : Decidable (s.Ahead r) := inferInstanceAs (Decidable (_ ∧ _))

/-- How many passes a row may wait. -/
def waiting (r : Nat) (s : InputScan) : Nat :=
  if s.Ahead r then (s.pending.filter fun id => s.cursor < id ∧ id ≤ r).card
  else s.window.card + 1 + (s.pending.filter (· ≤ r)).card

theorem Sound.ahead_of_idle (h : s.Sound) {r : Nat} (hr : r ∈ s.pending) (hidle : s.cycleMaxId = 0) : s.Ahead r := by
  refine ⟨by rw [h.idle hidle]; exact (h.ids r hr).1, ?_⟩
  rw [maxId, if_pos hidle]
  exact Finset.le_sup (f := id) hr

theorem waiting_le_of_subset {s' : InputScan} {r : Nat} (hs : s.Sound) (hs' : s'.Sound) (hr : r ∈ s.pending)
    (hr' : r ∈ s'.pending) (hcursor : s'.cursor = s.cursor) (hmax : s'.cycleMaxId = s.cycleMaxId)
    (hsubset : ∀ id ∈ s'.pending, id < s.nextId → id ∈ s.pending) : waiting r s' ≤ waiting r s := by
  have hrnext := (hs.ids r hr).2
  have hbelow : ∀ id, id ∈ s'.pending → id ≤ r → id ∈ s.pending := fun id hid hle => hsubset id hid (by omega)
  by_cases hidle : s.cycleMaxId = 0
  · rw [waiting, waiting, if_pos (hs.ahead_of_idle hr hidle), if_pos (hs'.ahead_of_idle hr' (hmax.trans hidle)), hcursor]
    refine Finset.card_le_card fun id hid => ?_
    obtain ⟨hid, hrange⟩ := Finset.mem_filter.mp hid
    exact Finset.mem_filter.mpr ⟨hbelow id hid hrange.2, hrange⟩
  · have hmaxId : s'.maxId = s.maxId := by
      rw [maxId, maxId, hmax, if_neg hidle, if_neg hidle]
    have hahead : s'.Ahead r ↔ s.Ahead r := by rw [Ahead, Ahead, hcursor, hmaxId]
    by_cases h : s.Ahead r
    · rw [waiting, waiting, if_pos h, if_pos (hahead.mpr h), hcursor]
      refine Finset.card_le_card fun id hid => ?_
      obtain ⟨hid, hrange⟩ := Finset.mem_filter.mp hid
      exact Finset.mem_filter.mpr ⟨hbelow id hid hrange.2, hrange⟩
    · rw [waiting, waiting, if_neg h, if_neg (fun h' => h (hahead.mp h'))]
      have hwindow : s'.window ⊆ s.window := by
        intro id hid
        obtain ⟨hid, hrange⟩ := mem_window.mp hid
        rw [hcursor, hmaxId] at hrange
        exact mem_window.mpr ⟨hsubset id hid (hrange.2.trans_lt hs.maxId_lt), hrange⟩
      have hfilter : s'.pending.filter (· ≤ r) ⊆ s.pending.filter (· ≤ r) := by
        intro id hid
        obtain ⟨hid, hle⟩ := Finset.mem_filter.mp hid
        exact Finset.mem_filter.mpr ⟨hbelow id hid hle, hle⟩
      have := Finset.card_le_card hwindow
      have := Finset.card_le_card hfilter
      omega

theorem Sound.waiting_lt (h : s.Sound) {r : Nat} (hr : r ∈ s.pending) (hmissed : r ∉ reached outcome 0 s.rows) :
    waiting r (s.recoverInputs outcome) < waiting r s := by
  have hs' : (s.recoverInputs outcome).Sound := h.next (.pass outcome)
  rcases s.recoverInputs_cases outcome with ⟨hempty, hnext⟩ | ⟨last, hlast, hnext⟩
  · -- The cycle is over: the next pass starts a new one that the row belongs to.
    have hbehind : ¬s.Ahead r := fun hahead => by
      have hmem : r ∈ s.window := mem_window.mpr ⟨hr, hahead⟩
      rw [hempty] at hmem
      cases hmem
    have hidle : (s.recoverInputs outcome).cycleMaxId = 0 := by rw [hnext]
    have hr' : r ∈ (s.recoverInputs outcome).pending := by rw [hnext]; exact hr
    rw [waiting, waiting, if_neg hbehind, if_pos (hs'.ahead_of_idle hr' hidle), hnext, hempty]
    refine Nat.lt_of_le_of_lt (Finset.card_le_card (t := s.pending.filter (· ≤ r)) fun id hid => ?_) (by simp)
    obtain ⟨hid, hrange⟩ := Finset.mem_filter.mp hid
    exact Finset.mem_filter.mpr ⟨hid, hrange.2⟩
  · obtain ⟨hmem, hbefore⟩ := getLast_reached hlast
    have hmem' := mem_window.mp hmem
    have hmaxId : (s.recoverInputs outcome).maxId = s.maxId := by
      rw [hnext, maxId]
      have hne : s.maxId ≠ 0 := by
        have := (h.ids last hmem'.1).1
        omega
      exact if_neg hne
    have hcursor : (s.recoverInputs outcome).cursor = last := by rw [hnext]
    have hpending : (s.recoverInputs outcome).pending = s.pending := by rw [hnext]
    by_cases hahead : s.Ahead r
    · have hlt : last < r := hbefore r (mem_window.mpr ⟨hr, hahead⟩) hmissed
      have hahead' : (s.recoverInputs outcome).Ahead r := ⟨hcursor ▸ hlt, hmaxId ▸ hahead.2⟩
      rw [waiting, waiting, if_pos hahead, if_pos hahead', hcursor, hpending]
      refine Finset.card_lt_card (Finset.ssubset_iff_of_subset (fun id hid => ?_) |>.mpr ⟨last, ?_, ?_⟩)
      · obtain ⟨hid, hrange⟩ := Finset.mem_filter.mp hid
        exact Finset.mem_filter.mpr ⟨hid, hmem'.2.1.trans hrange.1, hrange.2⟩
      · exact Finset.mem_filter.mpr ⟨hmem'.1, hmem'.2.1, hlt.le⟩
      · exact fun hself => lt_irrefl last (Finset.mem_filter.mp hself).2.1
    · have hbehind : ¬(s.recoverInputs outcome).Ahead r := by
        rintro ⟨hlt, hle⟩
        rw [hcursor] at hlt
        rw [hmaxId] at hle
        exact hahead ⟨hmem'.2.1.trans hlt, hle⟩
      have hwindow : (s.recoverInputs outcome).window.card < s.window.card := by
        refine Finset.card_lt_card (Finset.ssubset_iff_of_subset (fun id hid => ?_) |>.mpr ⟨last, hmem, ?_⟩)
        · obtain ⟨hid, hrange⟩ := mem_window.mp hid
          rw [hpending] at hid
          rw [hcursor, hmaxId] at hrange
          exact mem_window.mpr ⟨hid, hmem'.2.1.trans hrange.1, hrange.2⟩
        · intro hself
          have := (mem_window.mp hself).2.1
          rw [hcursor] at this
          exact lt_irrefl last this
      rw [waiting, waiting, if_neg hahead, if_neg hbehind, hpending]
      omega

theorem fair : scanner.Fair Initial fun _ _ => True := by
  refine Scanner.fair_of_measure Sound waiting (fun n => 2 * n + 1) ?_ ?_ ?_ ?_
  · rintro s ⟨hcursor, hmax, hnext, hids⟩
    exact ⟨hids, by omega, fun _ => hcursor⟩
  · exact fun s action h _ => h.next action
  · intro r s action h _ hr hr' hmissed
    cases action with
    | insert =>
      refine waiting_le_of_subset h (h.next .insert) hr hr' rfl rfl fun id hid hlt => ?_
      rcases Finset.mem_insert.mp hid with rfl | hid
      · exact absurd hlt (lt_irrefl _)
      · exact hid
    | settle ids => exact waiting_le_of_subset h (h.next (.settle ids)) hr hr' rfl rfl fun id hid _ => (Finset.mem_sdiff.mp hid).1
    | pass => exact h.waiting_lt hr hmissed
  · intro r s _ _
    have hwindow : s.window.card ≤ s.pending.card := Finset.card_le_card (Finset.filter_subset _ _)
    have hbelow : (s.pending.filter (· ≤ r)).card ≤ s.pending.card := Finset.card_le_card (Finset.filter_subset _ _)
    have hrange : (s.pending.filter fun id => s.cursor < id ∧ id ≤ r).card ≤ s.pending.card :=
      Finset.card_le_card (Finset.filter_subset _ _)
    show waiting r s ≤ 2 * s.pending.card + 1
    unfold waiting
    split <;> omega

end InputScan

/-! ### Inputs -/

namespace PagedScan

variable {κ : Type} [LinearOrder κ] {P : PagedScan κ} {size : Nat}

/-- Less than a page of rows becomes due between two passes, and no pass ends with an error. -/
def Steady (P : PagedScan κ) (size : Nat) (s : InboxScan κ) : Action κ → Prop
  | .change items now => s.arrivals + (P.keys items now \ P.due s).card < size
  | .pass throws => ∀ k, throws k = false

omit [LinearOrder κ] in
theorem reached_of_not_throws {throws : κ → Bool} (h : ∀ k, throws k = false) (rows : List κ) : reached throws rows = rows := by
  induction rows with
  | nil => rfl
  | cons k _ ih => rw [reached, h k, ih]; rfl

theorem fair (hsize : 0 < size)
    (hpass : ∀ due cursor, Keyset.Pass size due cursor (P.pass due cursor).2 (P.pass due cursor).1) :
    P.scanner.Fair Initial (P.Steady size) := by
  refine Scanner.fair_of_measure (fun s => s.arrivals < size)
    (fun r s => Keyset.waiting size (size - 1 - s.arrivals) (P.due s) s.cursor r)
    (fun n => size * (n + size) + n + size) ?_ ?_ ?_ ?_
  · rintro s ⟨-, hzero⟩
    omega
  · intro s action _ hok
    cases action with
    | change => exact hok
    | pass => exact hsize
  · intro r s action harrivals hok hr hr' hmissed
    cases action with
    | change items now =>
      have hsteady : s.arrivals + (P.keys items now \ P.due s).card < size := hok
      have hchange : Keyset.waiting size (size - 1 - s.arrivals - (P.keys items now \ P.due s).card) (P.keys items now)
          s.cursor r ≤ Keyset.waiting size (size - 1 - s.arrivals) (P.due s) s.cursor r :=
        Keyset.waiting_change hr hr' rfl (by omega)
      have hbudget : size - 1 - (s.arrivals + (P.keys items now \ P.due s).card) =
          size - 1 - s.arrivals - (P.keys items now \ P.due s).card := by omega
      show Keyset.waiting size (size - 1 - (s.arrivals + (P.keys items now \ P.due s).card)) (P.keys items now) s.cursor r ≤ _
      rw [hbudget]
      exact hchange
    | pass =>
      have hmissed' : r ∉ (P.pass (P.due s) s.cursor).1 := by
        rw [← reached_of_not_throws hok (P.pass (P.due s) s.cursor).1]
        exact hmissed
      exact (hpass (P.due s) s.cursor).waiting_lt hsize hr hmissed' (size - 1 - s.arrivals)
  · intro r s _ _
    exact Keyset.waiting_le (by omega) _ _ r

end PagedScan

theorem restart_eq {κ β : Type} [LinearOrder κ] {size : Nat} (hsize : 0 < size) (due : Finset κ) (cursor : Option κ)
    (f : Option κ → β) :
    (if (Keyset.page due cursor size).isEmpty && cursor.isSome then f none else f cursor) = f (Keyset.start due cursor) := by
  cases cursor with
  | none => simp [Keyset.start]
  | some c =>
    by_cases hempty : Keyset.ahead due (some c) = ∅
    · rw [Keyset.start, if_pos hempty, (Keyset.page_eq_nil hsize).mpr hempty]
      rfl
    · have hne : Keyset.page due (some c) size ≠ [] := fun h => hempty ((Keyset.page_eq_nil hsize).mp h)
      rw [Keyset.start, if_neg hempty, if_neg (by simpa using hne)]

theorem recoverAdmissions_pass (due : Finset String) (cursor : Option String) :
    Keyset.Pass 64 due cursor (recoverAdmissions.pass due cursor).2 (recoverAdmissions.pass due cursor).1 := by
  have hrows : (recoverAdmissions.pass due cursor).1 = Keyset.page due (Keyset.start due cursor) 64 :=
    restart_eq (by decide) due cursor fun c => Keyset.page due c 64
  refine ⟨hrows, ?_⟩
  have hcursor : (recoverAdmissions.pass due cursor).2 =
      if (recoverAdmissions.pass due cursor).1.length = 64 then (recoverAdmissions.pass due cursor).1.getLast? else none := rfl
  rw [hcursor, hrows]
  by_cases hfull : (Keyset.page due (Keyset.start due cursor) 64).length = 64
  · have hne : Keyset.page due (Keyset.start due cursor) 64 ≠ [] := fun hnil => by
      rw [hnil] at hfull
      cases hfull
    refine .inr ⟨_, ?_, List.getLast?_eq_getLast_of_ne_nil hne, hfull⟩
    rw [if_pos hfull, List.getLast?_eq_getLast_of_ne_nil hne]
  · refine .inl ⟨if_neg hfull, fun k hk => ?_⟩
    by_contra hnot
    exact hfull (Keyset.full_of_notMem_page hk hnot).1

variable (due : Finset DependencyKey)

theorem listAppInboxTaskDependencyKeys_fst (after : Option DependencyKey) (limit : Nat) :
    (listAppInboxTaskDependencyKeys due after limit).1 = Keyset.page due after limit := by
  show ((_ : List DependencyKey).take (limit + 1)).take limit = _
  rw [List.take_take, Nat.min_eq_left (Nat.le_succ _)]
  rfl

theorem listAppInboxTaskDependencyKeys_snd (after : Option DependencyKey) {limit : Nat}
    (hlimit : 0 < limit) :
    ((listAppInboxTaskDependencyKeys due after limit).2 = none ∧
        ∀ k ∈ Keyset.ahead due after, k ∈ Keyset.page due after limit) ∨
      ∃ last, (listAppInboxTaskDependencyKeys due after limit).2 = some last ∧
        (Keyset.page due after limit).getLast? = some last ∧ (Keyset.page due after limit).length = limit := by
  have hitems := listAppInboxTaskDependencyKeys_fst due after limit
  have hcursor : (listAppInboxTaskDependencyKeys due after limit).2 =
      if limit < (Keyset.page due after (limit + 1)).length ∧ (listAppInboxTaskDependencyKeys due after limit).1 ≠ []
      then (listAppInboxTaskDependencyKeys due after limit).1.getLast? else none := rfl
  rw [hcursor, hitems]
  by_cases hmore : limit < (Keyset.page due after (limit + 1)).length
  · have hlength : (Keyset.page due after limit).length = limit := by
      rw [Keyset.page, List.length_take] at hmore ⊢
      omega
    have hne : Keyset.page due after limit ≠ [] := List.ne_nil_of_length_pos (by rw [hlength]; exact hlimit)
    refine .inr ⟨_, ?_, List.getLast?_eq_getLast_of_ne_nil hne, hlength⟩
    rw [if_pos ⟨hmore, hne⟩, List.getLast?_eq_getLast_of_ne_nil hne]
  · refine .inl ⟨if_neg fun h => hmore h.1, fun k hk => ?_⟩
    have hall : k ∈ Keyset.page due after (limit + 1) := by
      by_contra hnot
      have := (Keyset.full_of_notMem_page hk hnot).1
      omega
    rw [← hitems]
    show k ∈ (Keyset.page due after (limit + 1)).take limit
    rwa [List.take_of_length_le (by omega)]

theorem recoverTaskResults_pass (cursor : Option DependencyKey) :
    Keyset.Pass 256 due cursor (recoverTaskResults.pass due cursor).2 (recoverTaskResults.pass due cursor).1 := by
  have hpass : recoverTaskResults.pass due cursor =
      listAppInboxTaskDependencyKeys due (Keyset.start due cursor) 256 := by
    show (if (listAppInboxTaskDependencyKeys due cursor 256).1.isEmpty && cursor.isSome
      then listAppInboxTaskDependencyKeys due none 256 else listAppInboxTaskDependencyKeys due cursor 256) = _
    rw [listAppInboxTaskDependencyKeys_fst]
    exact restart_eq (by decide) due cursor fun c => listAppInboxTaskDependencyKeys due c 256
  rw [hpass]
  refine ⟨listAppInboxTaskDependencyKeys_fst due _ 256, ?_⟩
  rw [listAppInboxTaskDependencyKeys_fst]
  exact listAppInboxTaskDependencyKeys_snd due _ (by decide)

/-- The scans are fair: the one of the events in every run, those of the inbox in every steady one. -/
theorem recovery_scans_fair (n : ℕ) :
    (∃ bound, InputScan.scanner.Bounded InputScan.Initial (fun _ _ => True) n bound) ∧
      (∃ bound, recoverAdmissions.scanner.Bounded PagedScan.Initial (recoverAdmissions.Steady 64) n bound) ∧
      ∃ bound, recoverTaskResults.scanner.Bounded PagedScan.Initial (recoverTaskResults.Steady 256) n bound :=
  ⟨InputScan.fair.bounded n, (PagedScan.fair (by decide) recoverAdmissions_pass).bounded n,
    (PagedScan.fair (by decide) recoverTaskResults_pass).bounded n⟩

/-! ### A run that starves a row -/

namespace Sample.Scans

def row : InboxColumns := ⟨"ops", .pending, none, none, none, none, none, none, none, false, none, none⟩

def inbox (ids : List String) : InboxTable := ids.foldl (fun items id => items.put id row) ∅

theorem get_inbox (ids : List String) (id : String) : (inbox ids).get id = if id ∈ ids then some row else none := by
  suffices h : ∀ items : InboxTable, (ids.foldl (fun items id => items.put id row) items).get id =
      if id ∈ ids then some row else items.get id by
    rw [inbox, h, Table.get_empty]
  induction ids with
  | nil => simp
  | cons first ids ih =>
    intro items
    rw [List.foldl_cons, ih, Table.get_put]
    by_cases hid : id ∈ ids <;> by_cases hfirst : id = first <;> simp [hid, hfirst]

theorem admissionKeys_inbox (ids : List String) (now : Int) : admissionKeys (inbox ids) now = ids.toFinset := by
  ext id
  have hdue : (row.unadmitted now || row.unreported now) = true := rfl
  rw [admissionKeys, List.mem_toFinset, List.mem_toFinset, List.mem_map]
  constructor
  · rintro ⟨⟨key, value⟩, hmem, rfl⟩
    have hget := (Table.get_eq_some_iff _ _ _).mpr hmem
    rw [Table.get_filter_eq_some_iff, get_inbox] at hget
    by_contra hnot
    rw [if_neg hnot] at hget
    cases hget.1
  · intro hmem
    refine ⟨⟨id, row⟩, (Table.get_eq_some_iff _ _ _).mp ?_, rfl⟩
    rw [Table.get_filter_eq_some_iff, get_inbox, if_pos hmem]
    exact ⟨rfl, hdue⟩

/-- A page of ids after `c`. -/
def later (c : String) : List String := (List.range 64).map fun n => c ++ String.ofList (List.replicate (n + 1) 'b')

theorem lt_of_mem_later {c id : String} (h : id ∈ later c) : c < id := by
  obtain ⟨n, -, rfl⟩ := List.mem_map.mp h
  rw [String.lt_iff_toList_lt, String.toList_append, String.toList_ofList]
  nth_rewrite 1 [← List.append_nil c.toList]
  exact List.append_left_lt (List.nil_lt_cons _ _)

theorem nodup_later (c : String) : (later c).Nodup := by
  refine List.nodup_range.map fun m n h => ?_
  have hlength := congrArg String.length h
  simpa using hlength

theorem card_later (c : String) : (later c).toFinset.card = 64 := by
  rw [List.toFinset_card_of_nodup (nodup_later c), later, List.length_map, List.length_range]

theorem starved_pass {due : Finset String} {cursor : Option String} {r : String}
    (hbehind : ∀ id ∈ Keyset.ahead due cursor, r < id) (hfull : 64 ≤ (Keyset.ahead due cursor).card) :
    ∃ last, (recoverAdmissions.pass due cursor).2 = some last ∧ r ≤ last ∧ r ∉ (recoverAdmissions.pass due cursor).1 := by
  have hstart : Keyset.start due cursor = cursor := by
    refine if_neg fun hempty => ?_
    rw [hempty, Finset.card_empty] at hfull
    omega
  have hrows := (recoverAdmissions_pass due cursor).read
  rw [hstart] at hrows
  have hcursor : (recoverAdmissions.pass due cursor).2 =
      if (recoverAdmissions.pass due cursor).1.length = 64 then (recoverAdmissions.pass due cursor).1.getLast? else none :=
    rfl
  have hlength : (Keyset.page due cursor 64).length = 64 := by
    rw [Keyset.page, List.length_take, Finset.length_sort, Nat.min_eq_left hfull]
  have hne : Keyset.page due cursor 64 ≠ [] := List.ne_nil_of_length_pos (by rw [hlength]; omega)
  have hafter : ∀ id ∈ Keyset.page due cursor 64, r < id := fun id hid => hbehind id (Keyset.mem_ahead_of_mem_page hid)
  rw [hcursor, hrows, if_pos hlength]
  exact ⟨_, List.getLast?_eq_getLast_of_ne_nil hne, (hafter _ (List.getLast_mem hne)).le, fun hmem => lt_irrefl r (hafter r hmem)⟩

theorem card_ahead_later (r c : String) : 64 ≤ (Keyset.ahead (r :: later c).toFinset (some c)).card := by
  rw [← card_later c]
  refine Finset.card_le_card fun id hid => Keyset.mem_ahead.mpr ⟨?_, fun d hd => ?_⟩
  · exact List.mem_toFinset.mpr (List.mem_cons_of_mem r (List.mem_toFinset.mp hid))
  · cases hd
    exact lt_of_mem_later (List.mem_toFinset.mp hid)

/-- With a page of new rows before every pass, a row behind the cursor waits as long as one likes. -/
theorem waits_behind (r : String) (passes : Nat) (s : InboxScan String) (c : String) (hcursor : s.cursor = some c)
    (hr : r ≤ c) (hdue : r ∈ recoverAdmissions.due s) :
    ∃ as, recoverAdmissions.scanner.Waits (fun _ _ => True) r s as ∧ as.countP recoverAdmissions.scanner.isPass = passes := by
  induction passes generalizing s c with
  | zero => exact ⟨[], hdue, rfl⟩
  | succ _ ih =>
    obtain ⟨last, hlast, hle, hmissed⟩ := starved_pass
      (fun id hid => hr.trans_lt ((Keyset.mem_ahead.mp hid).2 c rfl)) (card_ahead_later r c)
    let changed := recoverAdmissions.next s (.change (inbox (r :: later c)) 0)
    let passed := recoverAdmissions.next changed (.pass fun _ => false)
    have hkeys : recoverAdmissions.due changed = (r :: later c).toFinset := admissionKeys_inbox _ 0
    have hmem : r ∈ recoverAdmissions.due changed := by
      rw [hkeys]
      exact List.mem_toFinset.mpr List.mem_cons_self
    have hchanged : changed.cursor = some c := hcursor
    have hpassed : passed.cursor = some last := by
      show (recoverAdmissions.pass (recoverAdmissions.due changed) changed.cursor).2 = some last
      rw [hkeys, hchanged, hlast]
    obtain ⟨as, hwaits, hcount⟩ := ih passed last hpassed hle hmem
    refine ⟨.change (inbox (r :: later c)) 0 :: .pass (fun _ => false) :: as,
      ⟨hdue, trivial, List.not_mem_nil, hmem, trivial, ?_, hwaits⟩, ?_⟩
    · show r ∉ PagedScan.reached (fun _ => false) (recoverAdmissions.pass (recoverAdmissions.due changed) changed.cursor).1
      rw [PagedScan.reached_of_not_throws fun _ => rfl, hkeys, hchanged]
      exact hmissed
    · rw [List.countP_cons, List.countP_cons, hcount]
      rfl

end Sample.Scans

open Sample.Scans in
/-- `recoverAdmissions` is not fair: a page of rows that become due after the cursor before every pass keeps a row
behind the cursor waiting, though it was the only one that was due. -/
theorem recoverAdmissions_not_fair : ¬recoverAdmissions.scanner.Fair PagedScan.Initial fun _ _ => True := by
  rintro ⟨f, hf⟩
  -- The first pass reads a full page after "b"; then the row "a" becomes due, alone.
  let first : InboxScan String := ⟨inbox (later "b"), 0, none, 0⟩
  have hfirst : recoverAdmissions.due first = (later "b").toFinset := admissionKeys_inbox _ 0
  have hbehind : ∀ id ∈ Keyset.ahead (later "b").toFinset none, "a" < id := fun id hid =>
    lt_trans (by decide) (lt_of_mem_later (List.mem_toFinset.mp (Keyset.mem_ahead.mp hid).1))
  obtain ⟨last, hlast, hle, -⟩ := starved_pass hbehind (by rw [Keyset.ahead_none, card_later])
  let passed := recoverAdmissions.next first (.pass fun _ => false)
  let start := recoverAdmissions.next passed (.change (inbox ["a"]) 0)
  have hreach : Reaches PagedScan.Initial recoverAdmissions.scanner.next (fun _ _ => True) start := by
    have hinitial : Reaches PagedScan.Initial recoverAdmissions.scanner.next (fun _ _ => True) first :=
      Reaches.start ⟨rfl, rfl⟩
    have hpassed : Reaches PagedScan.Initial recoverAdmissions.scanner.next (fun _ _ => True) passed :=
      hinitial.step (a := PagedScan.Action.pass fun _ => false) trivial
    exact hpassed.step (a := PagedScan.Action.change (inbox ["a"]) 0) trivial
  have hcursor : start.cursor = some last := by
    show (recoverAdmissions.pass (recoverAdmissions.due first) none).2 = some last
    rw [hfirst, hlast]
  have hdue : recoverAdmissions.due start = {"a"} := admissionKeys_inbox ["a"] 0
  obtain ⟨as, hwaits, hcount⟩ := waits_behind "a" (f 1 + 1) start last hcursor hle (by rw [hdue]; exact Finset.mem_singleton_self _)
  have hbound := hf start hreach "a" as hwaits
  have hcard : (recoverAdmissions.scanner.due start).card = 1 := by
    show (recoverAdmissions.due start).card = 1
    rw [hdue, Finset.card_singleton]
  rw [hcard, hcount] at hbound
  omega

end MayAgent
