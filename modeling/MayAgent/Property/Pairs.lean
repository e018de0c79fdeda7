import MayAgent.Property.Publication

/-!
# Lifecycle pairs

A run is opened by an event and closed by a later one of its contract and key, or, when the closing event was recorded
first, by the last closing event of the key that the journal holds. The journal does not say whether that event has
closed a run already: a key that is used again after its run was closed opens a run that is closed at once, by the
event of the run before.
-/

namespace MayAgent

/-! ### One run -/

def PairRun.Becomes (closer : Option Nat) (run run' : PairRun) : Prop :=
  run' = run ∨ run.isOpen = true ∧ ((∃ note, run' = { run with status := .orphan, note := note }) ∨
    ∃ closeEventId closedAt note, closer = some closeEventId ∧ run' = run.close closeEventId closedAt note)

namespace PairRun.Becomes

variable {closer : Option Nat} {run run' run'' : PairRun}

theorem refl (closer : Option Nat) (run : PairRun) : Becomes closer run run := .inl rfl

theorem eq_of_closed (h : Becomes closer run run') (hclosed : run.isOpen = false) : run' = run := by
  rcases h with rfl | ⟨hopen, -⟩
  · rfl
  · rw [hclosed] at hopen
    cases hopen

theorem trans (h : Becomes closer run run') (h' : Becomes closer run' run'') : Becomes closer run run'' := by
  rcases h with rfl | ⟨hopen, ⟨note, rfl⟩ | ⟨closeEventId, closedAt, note, hcloser, rfl⟩⟩
  · exact h'
  · rcases h' with rfl | ⟨-, ⟨note', rfl⟩ | ⟨closeEventId, closedAt, note', hcloser, rfl⟩⟩
    · exact .inr ⟨hopen, .inl ⟨note, rfl⟩⟩
    · exact .inr ⟨hopen, .inl ⟨note', rfl⟩⟩
    · exact .inr ⟨hopen, .inr ⟨closeEventId, closedAt, note', hcloser, rfl⟩⟩
  · rw [h'.eq_of_closed rfl]
    exact .inr ⟨hopen, .inr ⟨closeEventId, closedAt, note, hcloser, rfl⟩⟩

theorem same (h : Becomes closer run run') :
    run'.pairName = run.pairName ∧ run'.correlationKey = run.correlationKey ∧ run'.openEventId = run.openEventId := by
  rcases h with rfl | ⟨-, ⟨note, rfl⟩ | ⟨_, _, note, -, rfl⟩⟩ <;> exact ⟨rfl, rfl, rfl⟩

theorem closeEventId (h : Becomes closer run run') :
    run'.closeEventId = run.closeEventId ∨ run.isOpen = true ∧ run'.isOpen = false ∧ run'.closeEventId = closer ∧
      closer ≠ none := by
  rcases h with rfl | ⟨hopen, ⟨note, rfl⟩ | ⟨closeEventId, _, note, rfl, rfl⟩⟩
  · exact .inl rfl
  · exact .inl rfl
  · exact .inr ⟨hopen, rfl, rfl, by simp⟩

theorem isOpen_eq (h : Becomes closer run run') (hrun : run.isOpen = run.closeEventId.isNone) :
    run'.isOpen = run'.closeEventId.isNone := by
  rcases h with rfl | ⟨hopen, ⟨note, rfl⟩ | ⟨_, _, note, -, rfl⟩⟩
  · exact hrun
  · rw [hopen] at hrun
    exact hrun
  · rfl

end PairRun.Becomes

def PairsBecome (closer : Option Nat) (pairs pairs' : List PairRun) : Prop :=
  ∃ f, pairs' = pairs.map f ∧ ∀ run, PairRun.Becomes closer run (f run)

namespace PairsBecome

variable {closer : Option Nat} {pairs pairs' pairs'' : List PairRun}

theorem refl (closer : Option Nat) (pairs : List PairRun) : PairsBecome closer pairs pairs :=
  ⟨id, (List.map_id _).symm, PairRun.Becomes.refl closer⟩

theorem trans (h : PairsBecome closer pairs pairs') (h' : PairsBecome closer pairs' pairs'') :
    PairsBecome closer pairs pairs'' := by
  obtain ⟨f, rfl, hf⟩ := h
  obtain ⟨g, rfl, hg⟩ := h'
  exact ⟨g ∘ f, List.map_map, fun run => (hf run).trans (hg (f run))⟩

theorem of_mem (h : PairsBecome closer pairs pairs') {run' : PairRun} (hrun : run' ∈ pairs') :
    ∃ run ∈ pairs, PairRun.Becomes closer run run' := by
  obtain ⟨f, rfl, hf⟩ := h
  obtain ⟨run, hmem, rfl⟩ := List.mem_map.mp hrun
  exact ⟨run, hmem, hf run⟩

theorem pairwise_openEventId (h : PairsBecome closer pairs pairs')
    (hpairs : pairs.Pairwise fun a b => a.openEventId < b.openEventId) :
    pairs'.Pairwise fun a b => a.openEventId < b.openEventId := by
  obtain ⟨f, rfl, hf⟩ := h
  refine List.pairwise_map.mpr (hpairs.imp fun {a b} hlt => ?_)
  rw [(hf a).same.2.2, (hf b).same.2.2]
  exact hlt

end PairsBecome

theorem closePairForFollowup_becomes (payload : Event) (closeEventId : Nat) (closedAt : Int) (pairs : List PairRun) :
    PairsBecome (some closeEventId) pairs (closePairForFollowup payload closeEventId closedAt pairs) := by
  rw [closePairForFollowup]
  split
  · refine ⟨_, rfl, fun run => ?_⟩
    split
    case isTrue h => exact .inr ⟨h.2.2, .inr ⟨_, _, _, rfl, rfl⟩⟩
    case isFalse => exact .refl _ _
  · exact .refl _ _

theorem closeConventionPairs_becomes (type : String) (payload : Event) (closeEventId : Nat) (closedAt : Int)
    (pairs : List PairRun) :
    PairsBecome (some closeEventId) pairs (closeConventionPairs type payload closeEventId closedAt pairs) := by
  refine List.foldlRecOn _ _ (PairsBecome.refl _ _) fun pairs' hpairs pair _ => hpairs.trans ?_
  split
  · refine ⟨_, rfl, fun run => ?_⟩
    split
    case isTrue h => exact .inr ⟨h.1, .inr ⟨_, _, _, rfl, rfl⟩⟩
    case isFalse => exact .refl _ _
  · exact .refl _ _

theorem sweepStalePairs_becomes (now : Int) (pairs : List PairRun) : PairsBecome none pairs (sweepStalePairs now pairs) := by
  refine ⟨_, rfl, fun run => ?_⟩
  split
  case isTrue h => exact .inr ⟨by simp [PairRun.isOpen, h.1], .inl ⟨_, rfl⟩⟩
  case isFalse => exact .refl _ _

/-! ### Opening a run -/

def Publication.Opens (p : Publication) (pair : PairContract) (key : String) : Prop :=
  PAIR_CONTRACTS.find? (fun pair => pair.opens == p.event.type) = some pair ∧ pair.key (journalPayload p.event) = some key

def LedgerRow.Closes (row : LedgerRow) (pair : PairContract) (key : String) : Prop :=
  row.eventType ∈ pair.closes ∧ pair.key row.data = some key

def LedgerRow.Columned (row : LedgerRow) : Prop :=
  ∀ pair ∈ PAIR_CONTRACTS, row.eventType ∈ pair.closes → ∀ column ∈ pair.column, column row = pair.key row.data

def othersBetween (pair : PairContract) (key : String) (first last : Nat) (rows : List LedgerRow) : List LedgerRow :=
  rows.filter fun row => decide (first < row.id) && decide (row.id < last) && pair.closes.contains row.eventType &&
    pair.key row.data != some key

variable {α : Type*}

variable {R : α → α → Prop} {p : α → Bool} {l : List α} {a : α}

theorem eq_or_rel_of_find? {b : α} (hsorted : l.Pairwise R)
    (hfound : l.find? p = some b) (ha : a ∈ l) (hpa : p a = true) : a = b ∨ R b a := by
  obtain ⟨-, _, _, rfl, hbefore⟩ := List.find?_eq_some_iff_append.mp hfound
  rcases List.mem_append.mp ha with ha | ha
  · have := hbefore a ha
    rw [hpa] at this
    cases this
  · rcases List.mem_cons.mp ha with rfl | ha
    · exact .inl rfl
    · exact .inr ((List.pairwise_cons.mp (List.pairwise_append.mp hsorted).2.1).1 a ha)

theorem find?_take_isSome {before after : List α} {n : Nat} (ha : p a = true)
    (hbefore : (before.filter fun x => !p x).length < n) : (((before ++ a :: after).take n).find? p).isSome = true := by
  rw [List.find?_isSome]
  by_contra hnone
  have hall : ∀ x ∈ (before ++ a :: after).take n, p x = false := fun x hx =>
    Bool.eq_false_iff.mpr fun hpx => hnone ⟨x, hx, hpx⟩
  rcases Nat.lt_or_ge before.length n with hlt | hge
  · have hmem : a ∈ (before ++ a :: after).take n := by
      rw [List.take_append, List.take_of_length_le (Nat.le_of_lt hlt)]
      obtain ⟨m, hm⟩ := Nat.exists_eq_succ_of_ne_zero (Nat.sub_ne_zero_of_lt hlt)
      rw [hm, List.take_succ_cons]
      simp
    rw [hall a hmem] at ha
    cases ha
  · have hfront : (before ++ a :: after).take n = before.take n := List.take_append_of_le_length hge
    have hmissed : (before.take n).filter (fun x => !p x) = before.take n :=
      List.filter_eq_self.mpr fun x hx => by rw [hall x (hfront ▸ hx)]; rfl
    have hle := ((List.take_sublist n before).filter fun x => !p x).length_le
    rw [hmissed, List.length_take_of_le hge] at hle
    omega

theorem pairwise_of_length_le_one (h : l.length ≤ 1) : l.Pairwise R := by
  match l, h with
  | [], _ => exact .nil
  | [a], _ => exact List.pairwise_singleton R a

section EarlierClose

variable {db : Ledger} {pair : PairContract} {key : String}

/-- The rows that are searched for an earlier closing event, the last one first. -/
def closingRows (pair : PairContract) (openEventId : Nat) (rows : List LedgerRow) : List LedgerRow :=
  rows.reverse.filter fun row => pair.closes.contains row.eventType && row.id != openEventId

variable {openEventId : Nat}

theorem mem_closingRows {rows : List LedgerRow} {row : LedgerRow} :
    row ∈ closingRows pair openEventId rows ↔ row ∈ rows ∧ row.eventType ∈ pair.closes ∧ row.id ≠ openEventId := by
  simp [closingRows]

theorem closingRows_sorted (h : db.Indexed) (openEventId : Nat) :
    (closingRows pair openEventId db.rows).Pairwise fun a b => b.id < a.id :=
  (List.pairwise_reverse.mpr h.ids).filter _

theorem earlierClose_append (row : LedgerRow) :
    pair.earlierClose (db.rows ++ [row]) key row.id = pair.earlierClose db.rows key row.id := by
  simp [PairContract.earlierClose]

theorem earlierClose_spec (hcolumned : ∀ row ∈ db.rows, row.Columned) (hpair : pair ∈ PAIR_CONTRACTS)
    {last : LedgerRow} (hlast : pair.earlierClose db.rows key openEventId = some last) :
    last ∈ db.rows ∧ last.Closes pair key := by
  rw [PairContract.earlierClose] at hlast
  split at hlast
  case h_1 column hcolumn =>
    obtain ⟨hmem, htype, -⟩ := mem_closingRows.mp (List.mem_of_find?_eq_some hlast)
    have hkey : column last = some key := by simpa using List.find?_some hlast
    exact ⟨hmem, htype, (hcolumned last hmem pair hpair htype column hcolumn).symm.trans hkey⟩
  case h_2 =>
    obtain ⟨hmem, htype, -⟩ := mem_closingRows.mp (List.mem_of_mem_take (List.mem_of_find?_eq_some hlast))
    exact ⟨hmem, htype, by simpa using List.find?_some hlast⟩

theorem earlierClose_of_closes (hdb : db.Indexed) (hcolumned : ∀ row ∈ db.rows, row.Columned) (hpair : pair ∈ PAIR_CONTRACTS)
    {closing : LedgerRow} (hmem : closing ∈ db.rows) (hcloses : closing.Closes pair key)
    (hothers : pair.column = none → (othersBetween pair key closing.id db.nextId db.rows).length < 200) :
    ∃ last, pair.earlierClose db.rows key db.nextId = some last ∧ closing.id ≤ last.id := by
  have hin : closing ∈ closingRows pair db.nextId db.rows :=
    mem_closingRows.mpr ⟨hmem, hcloses.1, Nat.ne_of_lt (Ledger.id_lt_nextId hmem)⟩
  have hsorted : (closingRows pair db.nextId db.rows).Pairwise fun a b => b.id < a.id := closingRows_sorted hdb db.nextId
  have hle {p : LedgerRow → Bool} {last : LedgerRow} (hfound : (closingRows pair db.nextId db.rows).find? p = some last)
      (hp : p closing = true) : closing.id ≤ last.id := by
    rcases eq_or_rel_of_find? hsorted hfound hin hp with rfl | hlt
    · exact Nat.le_refl _
    · exact Nat.le_of_lt hlt
  rw [PairContract.earlierClose, ← closingRows]
  split
  case h_1 column hcolumn =>
    have hkey : (column closing == some key) = true := by
      rw [hcolumned closing hmem pair hpair hcloses.1 column hcolumn, hcloses.2, beq_self_eq_true]
    have hsome : ((closingRows pair db.nextId db.rows).find? fun row => column row == some key).isSome = true :=
      List.find?_isSome.mpr ⟨closing, hin, hkey⟩
    obtain ⟨last, hlast⟩ := Option.isSome_iff_exists.mp hsome
    exact ⟨last, hlast, hle hlast hkey⟩
  case h_2 hcolumn =>
    have hkey : (pair.key closing.data == some key) = true := by rw [hcloses.2, beq_self_eq_true]
    obtain ⟨before, after, hsplit⟩ := List.append_of_mem hin
    have hbefore : (before.filter fun row => !(pair.key row.data == some key)).length < 200 := by
      refine Nat.lt_of_le_of_lt ?_ (hothers hcolumn)
      rw [hsplit] at hsorted
      -- What stands before the closing event was recorded after it.
      have hbetween : before.filter (fun row => !(pair.key row.data == some key)) = before.filter fun row =>
          decide (closing.id < row.id) && decide (row.id < db.nextId) && pair.key row.data != some key := by
        refine List.filter_congr fun row hrow => ?_
        have hlater : closing.id < row.id := (List.pairwise_append.mp hsorted).2.2 row hrow closing List.mem_cons_self
        have hknown : row.id < db.nextId :=
          Ledger.id_lt_nextId (mem_closingRows.mp (hsplit ▸ List.mem_append_left _ hrow)).1
        simp [hlater, hknown, bne]
      have hsub := (List.sublist_append_left before (closing :: after)).filter fun row =>
        decide (closing.id < row.id) && decide (row.id < db.nextId) && pair.key row.data != some key
      rw [hbetween]
      refine hsub.length_le.trans ?_
      rw [← hsplit, closingRows, List.filter_filter, othersBetween, ← List.length_reverse, ← List.filter_reverse,
        List.reverse_reverse]
      refine (List.monotone_filter_right _ fun row hrow => ?_).length_le
      simp only [Bool.and_eq_true] at hrow ⊢
      exact ⟨⟨hrow.1.1, hrow.2.1⟩, hrow.1.2⟩
    have hsome : (((closingRows pair db.nextId db.rows).take 200).find? fun row =>
        pair.key row.data == some key).isSome = true := by
      rw [hsplit]
      exact find?_take_isSome hkey hbefore
    obtain ⟨last, hlast⟩ := Option.isSome_iff_exists.mp hsome
    exact ⟨last, hlast, hle ((List.take_prefix 200 _).find?_eq_some hlast) hkey⟩

end EarlierClose

theorem openConventionPair_append (type : String) (payload : Event) (openEventId : Nat) (owner : Option String) (openedAt : Int)
    (rows : List LedgerRow) (pairs : List PairRun) :
    openConventionPair type payload openEventId owner openedAt rows pairs =
      pairs ++ openConventionPair type payload openEventId owner openedAt rows [] := by
  rw [openConventionPair, openConventionPair]
  split
  · exact (List.append_nil _).symm
  · split
    · exact (List.append_nil _).symm
    · dsimp only
      split <;> simp

theorem length_openConventionPair_le (type : String) (payload : Event) (openEventId : Nat) (owner : Option String)
    (openedAt : Int) (rows : List LedgerRow) :
    (openConventionPair type payload openEventId owner openedAt rows []).length ≤ 1 := by
  rw [openConventionPair]
  split
  · exact Nat.zero_le 1
  · split
    · exact Nat.zero_le 1
    · dsimp only
      split <;> exact Nat.le_refl 1

structure Publication.Opened (p : Publication) (rows : List LedgerRow) (id : Nat) (pair : PairContract) (run : PairRun) : Prop where
  opens : p.Opens pair run.correlationKey
  pairName : run.pairName = pair.name
  openEventId : run.openEventId = id
  closeEventId : run.closeEventId = (pair.earlierClose rows run.correlationKey id).map LedgerRow.id
  isOpen : run.isOpen = run.closeEventId.isNone

theorem opened_of_mem {p : Publication} {rows : List LedgerRow} {id : Nat} {owner : Option String} {now : Int} {run : PairRun}
    (h : run ∈ openConventionPair p.event.type (journalPayload p.event) id owner now rows []) :
    ∃ pair, p.Opened rows id pair run := by
  rw [openConventionPair] at h
  split at h
  · cases h
  case h_2 pair hpair =>
    split at h
    · cases h
    case h_2 key hkey =>
      dsimp only at h
      split at h
      case h_1 hnone =>
        obtain rfl := List.mem_singleton.mp h
        exact ⟨pair, ⟨hpair, hkey⟩, rfl, rfl, by simp [hnone], rfl⟩
      case h_2 row hrow =>
        obtain rfl := List.mem_singleton.mp h
        exact ⟨pair, ⟨hpair, hkey⟩, rfl, rfl, by simp [PairRun.close, hrow], rfl⟩

theorem PairContract.eq_of_name {pair pair' : PairContract} (hpair : pair ∈ PAIR_CONTRACTS)
    (hpair' : pair' ∈ PAIR_CONTRACTS) (hname : pair.name = pair'.name) : pair = pair' :=
  List.inj_on_of_nodup_map (show (PAIR_CONTRACTS.map PairContract.name).Nodup by decide) hpair hpair' hname

/-! ### Steps and runs -/

namespace Ledger

variable {db db' : Ledger}

theorem persistExactTaskWake_pairs {target : Option Value} {eventId : Nat}
    (h : persistExactTaskWake db target eventId = .ok db') : db'.pairs = db.pairs := by
  unfold persistExactTaskWake at h
  split at h
  · split at h
    · split at h
      · cases h
        rfl
      · cases h
    · cases h
      rfl
  · cases h
    rfl

theorem insertPublication_pairs {p : Publication} {now : Int} {projection : Option String} {r : Receipt}
    (h : insertPublication db p now projection = .ok (db', r)) :
    db'.pairs = p.pairs (db.rows ++ [p.row db.nextId now]) db.nextId now db.pairs := by
  unfold insertPublication at h
  split at h
  · cases h
  · dsimp only at h
    split at h
    · cases h
    · cases h
    case h_3 woken hwoken =>
      cases h
      dsimp only
      split at hwoken
      · rw [persistExactTaskWake_rows hwoken, persistExactTaskWake_pairs hwoken]
      · cases hwoken
        rfl

/-- What an action does to the runs: it may change those that are open, and add one. A run is closed or added only if the
row of an event is appended. -/
theorem next_pairs (db : Ledger) (action : LedgerAction) :
    ∃ closer kept opened, (db.next action).pairs = kept ++ opened ∧ PairsBecome closer db.pairs kept ∧
      (closer = none ∧ opened = [] ∧ (db.next action).rows = db.rows ∨
        closer = some db.nextId ∧ ∃ p now projection, action = .publish p now projection ∧
        (db.next action).rows = db.rows ++ [(p.complete db).row db.nextId now] ∧ opened.length ≤ 1 ∧
        ∀ run ∈ opened, ∃ pair, (p.complete db).Opened db.rows db.nextId pair run) := by
  cases action with
  | publish p now projection =>
    unfold Ledger.next
    dsimp only
    split
    case h_1 db' r hok =>
      rcases publish_ok hok with ⟨-, rfl, -⟩ | ⟨_, -, -, hinsert⟩
      · exact ⟨none, _, [], (List.append_nil _).symm, .refl _ _, .inl ⟨rfl, rfl, rfl⟩⟩
      · rcases insertKeyed_ok hinsert with ⟨_, -, -, -, rfl, -⟩ | ⟨-, hinserted⟩
        · exact ⟨none, _, [], (List.append_nil _).symm, .refl _ _, .inl ⟨rfl, rfl, rfl⟩⟩
        · rw [insertPublication_pairs hinserted, Publication.pairs, openConventionPair_append]
          refine ⟨_, _, _, rfl, (closePairForFollowup_becomes _ _ _ _).trans (closeConventionPairs_becomes _ _ _ _ _),
            .inr ⟨rfl, p, now, projection, rfl, (insertPublication_ok hinserted).1,
              length_openConventionPair_le _ _ _ _ _ _, fun run hrun => ?_⟩⟩
          obtain ⟨pair, hopened⟩ := opened_of_mem hrun
          refine ⟨pair, hopened.opens, hopened.pairName, hopened.openEventId, ?_, hopened.isOpen⟩
          rw [hopened.closeEventId]
          exact congrArg _ (earlierClose_append ((p.complete db).row db.nextId now))
    case h_2 => exact ⟨none, _, [], (List.append_nil _).symm, .refl _ _, .inl ⟨rfl, rfl, rfl⟩⟩
  | record => exact ⟨none, _, [], (List.append_nil _).symm, .refl _ _, .inl ⟨rfl, rfl, rfl⟩⟩
  | sweepPairs now =>
    exact ⟨none, _, [], (List.append_nil _).symm, sweepStalePairs_becomes now db.pairs, .inl ⟨rfl, rfl, rfl⟩⟩

theorem nextId_le_next (db : Ledger) (action : LedgerAction) : db.nextId ≤ (db.next action).nextId := by
  rcases db.next_rows action with hsame | ⟨p, now, -, hrows⟩
  · rw [nextId, nextId, hsame]
  · have hnew : p.row db.nextId now ∈ (db.next action).rows := by simp [hrows]
    exact Nat.le_of_lt (id_lt_nextId hnew)

variable {action : LedgerAction}

/-- A run after an action: it was there, and has its closing event still or the row that was appended, or it was added. -/
theorem next_run {run' : PairRun} (h : run' ∈ (db.next action).pairs) :
    (∃ run ∈ db.pairs, (∃ closer, run.Becomes closer run') ∧ (run'.closeEventId = run.closeEventId ∨
        run.isOpen = true ∧ run'.closeEventId = some db.nextId ∧ db.nextId < (db.next action).nextId)) ∨
      ∃ p now projection pair, action = .publish p now projection ∧ (p.complete db).Opened db.rows db.nextId pair run' ∧
        db.nextId < (db.next action).nextId := by
  obtain ⟨closer, kept, _, hpairs, hkept, hcloser⟩ := db.next_pairs action
  rw [hpairs] at h
  rcases hcloser with ⟨rfl, rfl, -⟩ | ⟨rfl, p, now, projection, rfl, hrows, -, hopened⟩
  · obtain ⟨run, hrun, hbecomes⟩ := hkept.of_mem (List.append_nil kept ▸ h)
    refine .inl ⟨run, hrun, ⟨_, hbecomes⟩, .inl ?_⟩
    rcases hbecomes.closeEventId with hsame | ⟨-, -, -, hnone⟩
    · exact hsame
    · exact absurd rfl hnone
  · have hnew : (p.complete db).row db.nextId now ∈ (db.next (.publish p now projection)).rows := by simp [hrows]
    have hlt : db.nextId < (db.next (.publish p now projection)).nextId := id_lt_nextId hnew
    rcases List.mem_append.mp h with h | h
    · obtain ⟨run, hrun, hbecomes⟩ := hkept.of_mem h
      refine .inl ⟨run, hrun, ⟨_, hbecomes⟩, ?_⟩
      rcases hbecomes.closeEventId with hsame | ⟨hopen, -, hclose, -⟩
      · exact .inl hsame
      · exact .inr ⟨hopen, hclose, hlt⟩
    · obtain ⟨pair, hopened⟩ := hopened run' h
      exact .inr ⟨p, now, projection, pair, rfl, hopened, hlt⟩

/-- A table of runs, each opened by an event of its own, and open as long as it has no closing event. -/
structure Paired (db : Ledger) : Prop where
  opened : db.pairs.Pairwise fun a b => a.openEventId < b.openEventId
  openKnown : ∀ run ∈ db.pairs, run.openEventId < db.nextId
  closeKnown : ∀ run ∈ db.pairs, ∀ c, run.closeEventId = some c → c < db.nextId
  isOpen : ∀ run ∈ db.pairs, run.isOpen = run.closeEventId.isNone

theorem earlierClose_id_lt {pair : PairContract} {key : String} {last : LedgerRow}
    (h : pair.earlierClose db.rows key db.nextId = some last) : last.id < db.nextId := by
  rw [PairContract.earlierClose] at h
  split at h
  · exact id_lt_nextId (mem_closingRows.mp (List.mem_of_find?_eq_some h)).1
  · exact id_lt_nextId (mem_closingRows.mp (List.mem_of_mem_take (List.mem_of_find?_eq_some h))).1

theorem Paired.next (h : db.Paired) (action : LedgerAction) : (db.next action).Paired := by
  have hmono := db.nextId_le_next action
  refine ⟨?_, fun run' hrun' => ?_, fun run' hrun' c hc => ?_, fun run' hrun' => ?_⟩
  · obtain ⟨closer, _, _, hpairs, hkept, hcloser⟩ := db.next_pairs action
    rw [hpairs]
    have hsorted := hkept.pairwise_openEventId h.opened
    rcases hcloser with ⟨-, rfl, -⟩ | ⟨-, p, now, projection, -, -, hlength, hopened⟩
    · rw [List.append_nil]
      exact hsorted
    · refine List.pairwise_append.mpr ⟨hsorted, ?_, fun a ha b hb => ?_⟩
      · exact pairwise_of_length_le_one hlength
      · obtain ⟨run, hrun, hbecomes⟩ := hkept.of_mem ha
        obtain ⟨pair, hopened⟩ := hopened b hb
        rw [hbecomes.same.2.2, hopened.openEventId]
        exact h.openKnown run hrun
  · rcases next_run hrun' with ⟨run, hrun, ⟨closer, hbecomes⟩, -⟩ | ⟨p, now, projection, pair, -, hopened, hlt⟩
    · rw [hbecomes.same.2.2]
      exact (h.openKnown run hrun).trans_le hmono
    · rw [hopened.openEventId]
      exact hlt
  · rcases next_run hrun' with ⟨run, hrun, -, hsame | ⟨-, hclose, hlt⟩⟩ | ⟨p, now, projection, pair, -, hopened, hlt⟩
    · exact (h.closeKnown run hrun c (hsame ▸ hc)).trans_le hmono
    · obtain rfl : db.nextId = c := Option.some.inj (hclose.symm.trans hc)
      exact hlt
    · rw [hopened.closeEventId] at hc
      obtain ⟨_, hlast, rfl⟩ := Option.map_eq_some_iff.mp hc
      exact (earlierClose_id_lt hlast).trans hlt
  · rcases next_run hrun' with ⟨run, hrun, ⟨closer, hbecomes⟩, -⟩ | ⟨p, now, projection, pair, -, hopened, -⟩
    · exact hbecomes.isOpen_eq (h.isOpen run hrun)
    · exact hopened.isOpen

theorem paired_empty : empty.Paired where
  opened := .nil
  openKnown := fun _ hrun => absurd hrun List.not_mem_nil
  closeKnown := fun _ hrun => absurd hrun List.not_mem_nil
  isOpen := fun _ hrun => absurd hrun List.not_mem_nil

theorem Reachable.paired {ok : Ledger → LedgerAction → Prop} (h : Reachable ok db) : db.Paired := by
  refine Reaches.invariant (fun db hdb => ?_) (fun db action hpaired _ => hpaired.next action) h
  subst hdb
  exact paired_empty

theorem Later.paired (h : Later db db') (hdb : db.Paired) : db'.Paired := by
  induction h with
  | refl => exact hdb
  | tail _ hlast ih =>
    obtain ⟨action, -, rfl⟩ := hlast
    exact ih.next action

variable {run : PairRun}

theorem Later.mem_pairs (h : Later db db') (hrun : run ∈ db.pairs) (hclosed : run.isOpen = false) :
    run ∈ db'.pairs := by
  induction h with
  | refl => exact hrun
  | @tail mid _ _ hlast ih =>
    obtain ⟨action, -, rfl⟩ := hlast
    obtain ⟨_, _, _, hpairs, ⟨f, rfl, hf⟩, -⟩ := mid.next_pairs action
    rw [hpairs]
    refine List.mem_append_left _ (List.mem_map.mpr ⟨run, ih, ?_⟩)
    exact (hf run).eq_of_closed hclosed

theorem Paired.eq_of_openEventId (h : db.Paired) {a b : PairRun} (ha : a ∈ db.pairs) (hb : b ∈ db.pairs)
    (hopen : a.openEventId = b.openEventId) : a = b := by
  by_contra hne
  rcases List.pairwise_iff_getElem.mp h.opened with hlt
  obtain ⟨i, hi, rfl⟩ := List.getElem_of_mem ha
  obtain ⟨j, hj, rfl⟩ := List.getElem_of_mem hb
  rcases Nat.lt_trichotomy i j with hij | rfl | hij
  · have := hlt i j hi hj hij
    omega
  · exact hne rfl
  · have := hlt j i hj hi hij
    omega

/-! ### Own closing events -/

def OwnClosings (db : Ledger) : Prop :=
  ∀ a ∈ db.pairs, ∀ b ∈ db.pairs, a.pairName = b.pairName → a.correlationKey = b.correlationKey →
    ∀ c, a.closeEventId = some c → b.closeEventId = some c → a.openEventId < c → b.openEventId < c

/-- A closing event of the key that was recorded before the run was opened has closed it, or a later such event has. -/
def ClosedByEarlier (db : Ledger) : Prop :=
  ∀ pair ∈ PAIR_CONTRACTS, ∀ run ∈ db.pairs, run.pairName = pair.name →
    ∀ closing ∈ db.rows, closing.Closes pair run.correlationKey → closing.id < run.openEventId →
      (pair.column = none →
        (othersBetween pair run.correlationKey closing.id run.openEventId db.rows).length < 200) →
      run.status = .closed ∧ ∃ last ∈ db.rows, last.Closes pair run.correlationKey ∧ closing.id ≤ last.id ∧
        last.id < run.openEventId ∧ run.closeEventId = some last.id

/-- No event opens a run under a key whose last closing event closed a run when it was recorded, and closing events
have their key in its column. -/
def Regular (db : Ledger) : LedgerAction → Prop
  | .publish p now _ => ((p.complete db).row db.nextId now).Columned ∧
      ∀ pair key last, (p.complete db).Opens pair key → pair.earlierClose db.rows key db.nextId = some last →
        ∀ run ∈ db.pairs, run.pairName = pair.name → run.correlationKey = key → run.closeEventId = some last.id →
          last.id < run.openEventId
  | _ => True

theorem OwnClosings.next (h : db.OwnClosings) (hpaired : db.Paired) (hok : db.Regular action) :
    (db.next action).OwnClosings := by
  intro a' ha' b' hb' hname hkey c hac hbc hlt
  have hpaired' := hpaired.next action
  rcases next_run ha' with ⟨a, ha, ⟨_, hbecomes⟩, hclose⟩ | ⟨p, now, projection, pair, -, hopened, -⟩
  · rw [hbecomes.same.1] at hname
    rw [hbecomes.same.2.1] at hkey
    rw [hbecomes.same.2.2] at hlt
    rcases next_run hb' with ⟨b, hb, ⟨_, hbecomes'⟩, hclose'⟩ | ⟨p, now, projection, pair, rfl, hopened, -⟩
    · rw [hbecomes'.same.1] at hname
      rw [hbecomes'.same.2.1] at hkey
      rw [hbecomes'.same.2.2]
      rcases hclose' with hclose' | ⟨-, hclose', -⟩
      · rcases hclose with hclose | ⟨-, hclose, -⟩
        · exact h a ha b hb hname hkey c (hclose ▸ hac) (hclose' ▸ hbc) hlt
        · obtain rfl : db.nextId = c := Option.some.inj (hclose.symm.trans hac)
          exact absurd (hpaired.closeKnown b hb _ (hclose' ▸ hbc)) (lt_irrefl _)
      · obtain rfl : db.nextId = c := Option.some.inj (hclose'.symm.trans hbc)
        exact hpaired.openKnown b hb
    · -- The last closing event of the key closed `a` when it was recorded.
      exfalso
      rw [hopened.closeEventId] at hbc
      obtain ⟨last, hlast, rfl⟩ := Option.map_eq_some_iff.mp hbc
      have hknown := earlierClose_id_lt hlast
      rcases hclose with hclose | ⟨-, hclose, -⟩
      · have := hok.2 pair _ last hopened.opens hlast a ha (hname.trans hopened.pairName) hkey (hclose ▸ hac)
        omega
      · have := Option.some.inj (hclose.symm.trans hac)
        omega
  · rw [hopened.closeEventId] at hac
    obtain ⟨last, hlast, rfl⟩ := Option.map_eq_some_iff.mp hac
    have hknown := earlierClose_id_lt hlast
    rw [hopened.openEventId] at hlt
    omega

theorem mem_rows_of_next {row : LedgerRow} (h : row ∈ (db.next action).rows)
    (hlt : row.id < db.nextId) : row ∈ db.rows := by
  rcases db.next_rows action with hsame | ⟨p, _, -, hrows⟩
  · exact hsame ▸ h
  · rw [hrows] at h
    rcases List.mem_append.mp h with h | h
    · exact h
    · rw [List.mem_singleton.mp h] at hlt
      exact absurd hlt (lt_irrefl _)

theorem rows_subset_next (db : Ledger) (action : LedgerAction) : db.rows ⊆ (db.next action).rows := by
  rcases db.next_rows action with hsame | ⟨p, _, -, hrows⟩
  · rw [hsame]
    exact List.Subset.refl _
  · rw [hrows]
    exact List.subset_append_left _ _

theorem othersBetween_next (pair : PairContract) (key : String) (first : Nat) {last : Nat} (hlast : last ≤ db.nextId)
    (action : LedgerAction) :
    othersBetween pair key first last (db.next action).rows = othersBetween pair key first last db.rows := by
  rcases db.next_rows action with hsame | ⟨p, now, -, hrows⟩
  · rw [hsame]
  · have hnot : ¬(p.row db.nextId now).id < last := Nat.not_lt.mpr hlast
    rw [hrows, othersBetween, List.filter_append, othersBetween]
    simp [hnot]

theorem status_of_isOpen (h : run.isOpen = false) : run.status = .closed := by
  cases hstatus : run.status <;> simp [PairRun.isOpen, hstatus] at h ⊢

theorem ClosedByEarlier.next (h : db.ClosedByEarlier) (hdb : db.Indexed) (hpaired : db.Paired)
    (hcolumned : ∀ row ∈ db.rows, row.Columned) (action : LedgerAction) : (db.next action).ClosedByEarlier := by
  intro pair hpair run' hrun' hname closing hclosing hcloses hlt hothers
  rcases next_run hrun' with ⟨run, hrun, ⟨_, hbecomes⟩, -⟩ | ⟨p, _, _, pair', -, hopened, -⟩
  · obtain ⟨hsamename, hsamekey, hsameopen⟩ := hbecomes.same
    rw [hsamekey] at hcloses hothers
    rw [hsameopen] at hlt hothers
    have hopen := hpaired.openKnown run hrun
    obtain ⟨hstatus, last, hlast, hlastcloses⟩ := h pair hpair run hrun (hsamename ▸ hname) closing
      (mem_rows_of_next hclosing (hlt.trans hopen)) hcloses hlt
      (fun hcolumn => othersBetween_next pair _ _ (Nat.le_of_lt hopen) action ▸ hothers hcolumn)
    rw [hbecomes.eq_of_closed (by simp [PairRun.isOpen, hstatus])]
    exact ⟨hstatus, last, db.rows_subset_next action hlast, hlastcloses⟩
  · obtain rfl : pair' = pair :=
      PairContract.eq_of_name (List.mem_of_find?_eq_some hopened.opens.1) hpair (hopened.pairName.symm.trans hname)
    rw [hopened.openEventId] at hlt hothers ⊢
    have hmem := mem_rows_of_next hclosing hlt
    obtain ⟨last, hlast, hle⟩ := earlierClose_of_closes hdb hcolumned hpair hmem hcloses
      (fun hcolumn => othersBetween_next pair' _ _ (Nat.le_refl _) action ▸ hothers hcolumn)
    obtain ⟨hlastmem, hlastcloses⟩ := earlierClose_spec hcolumned hpair hlast
    have hclose : run'.closeEventId = some last.id := by rw [hopened.closeEventId, hlast]; rfl
    refine ⟨status_of_isOpen (by rw [hopened.isOpen, hclose]; rfl), last, db.rows_subset_next action hlastmem, hlastcloses, hle,
      earlierClose_id_lt hlast, hclose⟩

theorem columned_next (h : ∀ row ∈ db.rows, row.Columned) (hok : db.Regular action) :
    ∀ row ∈ (db.next action).rows, row.Columned := by
  obtain ⟨_, _, _, -, -, hcloser⟩ := db.next_pairs action
  rcases hcloser with ⟨-, -, hsame⟩ | ⟨-, p, _, _, rfl, hrows, -⟩
  · rw [hsame]
    exact h
  · intro row hrow
    rw [hrows] at hrow
    rcases List.mem_append.mp hrow with hrow | hrow
    · exact h row hrow
    · rw [List.mem_singleton.mp hrow]
      exact hok.1

theorem closings_empty : empty.OwnClosings ∧ empty.ClosedByEarlier :=
  ⟨fun _ ha => absurd ha List.not_mem_nil, fun _ _ _ hrun => absurd hrun List.not_mem_nil⟩

theorem Reachable.closings (h : Reachable Regular db) : db.OwnClosings ∧ db.ClosedByEarlier := by
  have hall : (db.OwnClosings ∧ db.ClosedByEarlier ∧ ∀ row ∈ db.rows, row.Columned) ∧ db.Indexed ∧ db.Paired := by
    refine Reaches.invariant (I := fun db => (db.OwnClosings ∧ db.ClosedByEarlier ∧ ∀ row ∈ db.rows, row.Columned) ∧
      db.Indexed ∧ db.Paired) ?_ ?_ h
    · rintro db rfl
      exact ⟨⟨closings_empty.1, closings_empty.2, fun _ hrow => absurd hrow List.not_mem_nil⟩, ⟨.nil, .nil⟩,
        paired_empty⟩
    · rintro db action ⟨⟨hown, hearlier, hcolumned⟩, hindexed, hpaired⟩ hok
      exact ⟨⟨hown.next hpaired hok, hearlier.next hindexed hpaired hcolumned action, columned_next hcolumned hok⟩,
        hindexed.next action, hpaired.next action⟩
  exact ⟨hall.1.1, hall.1.2.1⟩

end Ledger

/-- A run is closed by its own closing event, for good, as long as no key is opened again right after one of its runs was
closed. -/
theorem pairs_closed_by_own_event (db : Ledger) (h : Ledger.Reachable Ledger.Regular db) :
    db.OwnClosings ∧ db.ClosedByEarlier ∧
      ∀ db', db.Later db' → ∀ run ∈ db.pairs, run.status = .closed →
        run ∈ db'.pairs ∧ ∀ run' ∈ db'.pairs, run'.openEventId = run.openEventId → run'.closeEventId = run.closeEventId := by
  obtain ⟨hown, hearlier⟩ := h.closings
  refine ⟨hown, hearlier, fun db' hlater run hrun hstatus => ?_⟩
  have hmem := hlater.mem_pairs hrun (by simp [PairRun.isOpen, hstatus])
  refine ⟨hmem, fun run' hrun' hopen => ?_⟩
  rw [(hlater.paired h.paired).eq_of_openEventId hrun' hmem hopen]

namespace Ledger.Sample

/-- An event of the handler run `run`. -/
def handlerEvent (type : String) : Publication where
  event := {
    type := type
    envelope := [("data", .obj [("handlerRunId", .str "run")]), ("owner", .str "project:sample"), ("source", .str "watchdog"),
      ("type", .str type)]
    rowId := none
    typed := rfl }

def handlerRuns (types : List String) : Ledger :=
  types.foldl (fun db type => db.next (.publish (handlerEvent type) 0 none)) Ledger.empty

theorem reachable_handlerRuns (types : List String) : Ledger.Reachable (fun _ _ => True) (handlerRuns types) :=
  List.foldlRecOn types _ reachable_empty fun _ hdb type _ => hdb.step (a := .publish (handlerEvent type) 0 none) trivial

theorem regular_handlerEvent {db : Ledger} (type : String) (hpairs : db.pairs = [])
    (htype : ∀ pair ∈ PAIR_CONTRACTS, type ∈ pair.closes → pair.column.isNone = true) :
    db.Regular (.publish (handlerEvent type) 0 none) := by
  refine ⟨fun pair hpair hcloses column hcolumn => ?_, fun _ _ _ _ _ run hrun => ?_⟩
  · have hsame : (completeEvent db (handlerEvent type).event).type = type := type_completeEvent db _
    have hnone := htype pair hpair (hsame ▸ hcloses)
    rw [Option.mem_def.mp hcolumn] at hnone
    cases hnone
  · rw [hpairs] at hrun
    cases hrun

end Ledger.Sample

open Ledger Ledger.Sample in
/-- A completion that is recorded before its handler run is started. -/
theorem pairs_closed_by_own_event_completed :
    ((Ledger.empty.next (.publish (handlerEvent "handler.completed") 0 none)).next
      (.publish (handlerEvent "handler.started") 0 none)).ClosedByEarlier := by
  have hempty : Ledger.Reachable Regular Ledger.empty := Reaches.start rfl
  have hcompleted := hempty.step (regular_handlerEvent "handler.completed" rfl (by decide))
  have hnone : (Ledger.empty.next (.publish (handlerEvent "handler.completed") 0 none)).pairs = [] := by decide +kernel
  exact (pairs_closed_by_own_event _ (hcompleted.step (regular_handlerEvent "handler.started" hnone (by decide)))).2.1

open Ledger Ledger.Sample in
/-- A handler run that is started, completed and started again: the second run is closed by the completion of the first. -/
theorem reopened_run_closed : ¬∀ db, Ledger.Reachable (fun _ _ => True) db → db.OwnClosings := by
  intro hall
  have hown := hall _ (reachable_handlerRuns ["handler.started", "handler.completed", "handler.started"])
  obtain ⟨a, ha, b, hb, hname, hkey, hac, hbc, halt, hblt⟩ :
      ∃ a ∈ (handlerRuns ["handler.started", "handler.completed", "handler.started"]).pairs,
        ∃ b ∈ (handlerRuns ["handler.started", "handler.completed", "handler.started"]).pairs,
          a.pairName = b.pairName ∧ a.correlationKey = b.correlationKey ∧ a.closeEventId = some 2 ∧
            b.closeEventId = some 2 ∧ a.openEventId < 2 ∧ ¬b.openEventId < 2 := by
    decide +kernel
  exact hblt (hown a ha b hb hname hkey 2 hac hbc halt)

end MayAgent
