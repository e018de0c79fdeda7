import Mathlib.Data.List.Basic
import MayAgent.Host.Maintenance

/-!
# Serialized maintenance

An entry has at most one unsettled run, and its queue at most three events, of which only the oldest ones make room for a
new one. A queue should also have a drain whenever no run is in flight, and be discarded only after five failures in a row.
That takes two conditions: a start that fails, because the handler is gone or its observation failed, leaves no
queued event behind, as nothing schedules another drain; and a run that succeeds finds an empty queue, or starts another
run by being published, only with no error counted, as it returns before the count is reset.
-/

namespace MayAgent

namespace Maintenance.Entry

variable {E : Type} {s : Entry E} {start : Start E}

/-! ### Queues -/

theorem length_dropOldest (queue : List E) : (dropOldest queue).length < maxDepth := by
  induction queue with
  | nil => exact Nat.zero_lt_succ 2
  | cons e _ ih =>
    rw [dropOldest]
    split
    · exact ih
    · omega

theorem enqueueEventTrigger_eq (s : Entry E) (e : E) : ∃ id created,
    s.enqueueEventTrigger e = { s with queue := some ⟨id, dropOldest s.queued ++ [e]⟩, created := created } := by
  cases hqueue : s.queue with
  | none => exact ⟨s.created, s.created + 1, by simp [enqueueEventTrigger, queued, hqueue, dropOldest]⟩
  | some queue => exact ⟨queue.id, s.created, by simp [enqueueEventTrigger, queued, hqueue]⟩

/-- A queue that events may have been added to: it is not too long, and as it was for an entry without triggers. -/
structure Fills (s : Entry E) (queue : Option (Queue E)) : Prop where
  bounded : s.queued.length ≤ maxDepth → ((queue.map Queue.events).getD []).length ≤ maxDepth
  filled : s.queued ≠ [] → (queue.map Queue.events).getD [] ≠ []
  silent : s.retired = true ∨ s.enabled = false → queue = s.queue

theorem triggerBusy_eq (s : Entry E) (e : E) : ∃ queue created,
    s.triggerBusy e = { s with queue := queue, created := created } ∧ s.Fills queue := by
  unfold triggerBusy
  split
  case isTrue => exact ⟨s.queue, s.created, rfl, id, id, fun _ => rfl⟩
  case isFalse htriggered =>
    obtain ⟨id, created, hqueue⟩ := s.enqueueEventTrigger_eq e
    refine ⟨_, _, hqueue, fun _ => ?_, fun _ => List.concat_ne_nil _ _, fun h => ?_⟩
    · have := length_dropOldest s.queued
      simp only [Option.map_some, Option.getD_some, List.length_append, List.length_singleton]
      omega
    · simp only [Bool.or_eq_true, Bool.not_eq_true', not_or, Bool.not_eq_true, Bool.not_eq_false] at htriggered
      rcases h with h | h
      · rw [h] at htriggered
        exact absurd htriggered.1 (by decide)
      · rw [h] at htriggered
        exact absurd htriggered.2 (by decide)

theorem echoes_eq (echoes : List E) (s : Entry E) : ∃ queue created,
    echoes.foldl triggerBusy s = { s with queue := queue, created := created } ∧ s.Fills queue ∧
      (echoes = [] → queue = s.queue ∧ created = s.created) := by
  induction echoes generalizing s with
  | nil => exact ⟨s.queue, s.created, rfl, ⟨id, id, fun _ => rfl⟩, fun _ => ⟨rfl, rfl⟩⟩
  | cons e _ ih =>
    obtain ⟨queue, created, hfirst, hfills⟩ := s.triggerBusy_eq e
    obtain ⟨queue', created', hrest, hfills', -⟩ := ih (s.triggerBusy e)
    rw [hfirst] at hrest hfills'
    refine ⟨queue', created', by rw [List.foldl_cons, hfirst, hrest], ⟨fun h => ?_, fun h => ?_, fun h => ?_⟩,
      fun h => (nomatch h)⟩
    · exact hfills'.bounded (hfills.bounded h)
    · exact hfills'.filled (hfills.filled h)
    · exact (hfills'.silent h).trans (hfills.silent h)

/-! ### What a trigger can do -/

inductive Outcome (s : Entry E) (debounced : Bool) (start : Start E) : Entry E → Prop where
  | unchanged (hwhy : s.inflight = [] → s.enabled = true → s.retired = false → debounced = true ∨ s.registered = false) :
      Outcome s debounced start s
  | queued {queue : Option (Queue E)} {created : Nat} (hbusy : s.inflight ≠ []) (hfills : s.Fills queue) :
      Outcome s debounced start { s with queue := queue, created := created }
  | unrecorded {queue : Option (Queue E)} {created : Nat} (hidle : s.inflight = []) (hstart : start.recorded = false)
      (hfills : s.Fills queue) (hsame : start.echoes = [] → queue = s.queue) :
      Outcome s debounced start { s with queue := queue, created := created }
  | started {queue : Option (Queue E)} {created : Nat} {run : Run E} (hidle : s.inflight = []) (hfills : s.Fills queue)
      (hstart : s.registered = true ∧ start.recorded = true) : Outcome s debounced start
        { s with queue := queue, created := created, inflight := [run.startMs], runs := s.runs ++ [run] }

theorem fireHandler_outcome (hidle : s.inflight = []) (trigger : Trigger E) (debounced : Bool) (start : Start E) :
    Outcome s debounced start (s.fireHandler trigger start) := by
  unfold fireHandler
  dsimp only
  split
  case isTrue hgone => exact .unchanged fun _ _ _ => .inr (by simpa using hgone)
  case isFalse hregistered =>
    obtain ⟨queue, created, hechoes, hfills, hsame⟩ := echoes_eq start.echoes (s.addInflight start.startMs)
    rw [hechoes]
    have hfills' : s.Fills queue := ⟨hfills.bounded, hfills.filled, hfills.silent⟩
    split
    case isTrue hstart =>
      have hback : removeInflight { s.addInflight start.startMs with queue := queue, created := created } start.startMs =
          { s with queue := queue, created := created } := by
        simp [removeInflight, addInflight, hidle]
      rw [hback]
      exact .unrecorded hidle (by simpa using hstart) hfills' fun h => (hsame h).1
    case isFalse hrecorded =>
      let run : Run E := ⟨trigger, start.startMs, false⟩
      have hrun : Outcome s debounced start
          { s with queue := queue, created := created, inflight := [run.startMs], runs := s.runs ++ [run] } :=
        .started hidle hfills' ⟨by simpa using hregistered, by simpa using hrecorded⟩
      simpa only [addInflight, hidle, List.nil_append] using hrun

theorem outcome_of_closed (debounced : Bool) (start : Start E) (hclosed : (s.retired || !s.enabled) = true) :
    Outcome s debounced start s := by
  refine .unchanged fun _ henabled hretired => ?_
  rw [henabled, hretired] at hclosed
  cases hclosed

theorem fire_outcome (hidle : ¬s.inflight ≠ []) (trigger : Trigger E) (debounced : Bool) (start : Start E) :
    Outcome s debounced start (if debounced = true then s else s.fireHandler trigger start) := by
  split
  case isTrue hdebounced => exact .unchanged fun _ _ _ => .inl hdebounced
  case isFalse => exact fireHandler_outcome (not_not.mp hidle) trigger debounced start

theorem triggerNow_outcome (s : Entry E) (event : Option E) (debounced : Bool) (start : Start E) :
    Outcome s debounced start (s.triggerNow event debounced start) := by
  unfold triggerNow
  split
  case isTrue hclosed => exact outcome_of_closed debounced start hclosed
  case isFalse =>
    split
    case isTrue hbusy =>
      cases event with
      | none => exact .unchanged fun hidle => absurd hidle hbusy
      | some e =>
        obtain ⟨_, _, hqueue, hfills⟩ := s.triggerBusy_eq e
        dsimp only
        rw [hqueue]
        exact .queued hbusy hfills
    case isFalse hidle => exact fire_outcome hidle _ debounced start

theorem tick_outcome (s : Entry E) (debounced : Bool) (start : Start E) :
    Outcome s debounced start (s.tick debounced start) := by
  unfold tick
  split
  case isTrue hclosed => exact outcome_of_closed debounced start hclosed
  case isFalse =>
    split
    case isTrue hbusy => exact .unchanged fun hidle => absurd hidle hbusy
    case isFalse hidle => exact fire_outcome hidle _ debounced start

/-! ### What becomes of a queue behind a run -/

inductive Drained (s : Entry E) (afterError : Bool) : Entry E → Prop where
  | left (hwhy : s.enabled = true → s.inflight = [] → s.queue = none) : Drained s afterError s
  | emptied {queue : Queue E} (hqueue : s.queue = some queue) (hempty : queue.events = []) :
      Drained s afterError { s with queue := none }
  | discarded (hafter : afterError = true) (hfive : 5 ≤ s.consecutiveErrors + 1) :
      Drained s afterError
        { s with consecutiveErrors := s.consecutiveErrors + 1, queue := none, discards := s.discards ++ [s.failures] }
  | scheduled {queue : Queue E} (hqueue : s.queue = some queue) :
      Drained s afterError
        { s with consecutiveErrors := if afterError then s.consecutiveErrors + 1 else 0, drains := s.drains ++ [queue.id] }

theorem drainQueuedEventTrigger_drained (s : Entry E) (afterError : Bool) :
    Drained s afterError (s.drainQueuedEventTrigger afterError) := by
  unfold drainQueuedEventTrigger
  split
  case isTrue hdisabled =>
    refine .left fun henabled => ?_
    rw [henabled] at hdisabled
    cases hdisabled
  case isFalse =>
    split
    case isTrue hbusy => exact .left fun _ hidle => absurd hidle hbusy
    case isFalse =>
      split
      case h_1 hnone => exact .left fun _ _ => hnone
      case h_2 queue hqueue =>
        split
        case isTrue hempty => exact .emptied hqueue hempty
        case isFalse =>
          cases afterError with
          | false => exact .scheduled hqueue
          | true =>
            rw [if_pos rfl]
            split
            case isTrue hfive => exact .discarded rfl hfive
            case isFalse => exact .scheduled hqueue

/-! ### One run, and a bounded queue -/

/-- The list of starts is that of the unsettled runs, of which there is at most one. -/
structure Sound (s : Entry E) : Prop where
  paired : s.inflight = s.runs.map Run.startMs
  single : s.runs.length ≤ 1
  bounded : s.queued.length ≤ maxDepth
  silent : s.retired = true ∨ s.enabled = false → s.queue = none

theorem Sound.filled (h : s.Sound) {queue : Option (Queue E)} (hfills : s.Fills queue) (created : Nat) :
    Sound { s with queue := queue, created := created } :=
  ⟨h.paired, h.single, hfills.bounded h.bounded, fun hclosed => (hfills.silent hclosed).trans (h.silent hclosed)⟩

variable {debounced : Bool} {s' : Entry E}

theorem Sound.outcome (h : s.Sound) (houtcome : Outcome s debounced start s') : s'.Sound := by
  cases houtcome with
  | unchanged => exact h
  | queued _ hfills => exact h.filled hfills _
  | unrecorded _ _ hfills => exact h.filled hfills _
  | started hidle hfills =>
    have hnone : s.runs = [] := by
      rw [h.paired, List.map_eq_nil_iff] at hidle
      exact hidle
    have hfilled := h.filled hfills 0
    refine ⟨?_, ?_, hfilled.bounded, hfilled.silent⟩
    · rw [hnone]
      rfl
    · rw [hnone]
      exact Nat.le_refl 1

variable {id : Nat} {afterError : Bool} {action : Action E} {arrivals : List (E × Start E)}

theorem Sound.shifted (h : s.Sound) {e : E} {rest : List E} (hqueue : s.queue = some ⟨id, e :: rest⟩) :
    Sound { s with queue := if rest = [] then none else some ⟨id, rest⟩ } := by
  have hlength : rest.length + 1 ≤ maxDepth := by
    have := h.bounded
    rwa [queued, hqueue] at this
  refine ⟨h.paired, h.single, ?_, fun hclosed => ?_⟩
  · show (((if rest = [] then none else some ⟨id, rest⟩ : Option (Queue E)).map Queue.events).getD []).length ≤ maxDepth
    split
    · exact Nat.zero_le _
    · exact Nat.le_of_succ_le hlength
  · rw [h.silent hclosed] at hqueue
    cases hqueue

theorem Sound.drain (h : s.Sound) (id : Nat) (start : Start E) : (s.drain id start).Sound := by
  unfold Entry.drain
  split
  case h_1 => exact h
  case h_2 queue hqueue =>
    split
    case isTrue => exact h
    case isFalse hid =>
      have hsame : queue.id = id := not_not.mp hid
      split
      case h_1 => exact ⟨h.paired, h.single, Nat.zero_le _, fun _ => rfl⟩
      case h_2 e rest hevents =>
        have hfirst : s.queue = some ⟨id, e :: rest⟩ := by rw [hqueue, ← hsame, ← hevents]
        exact (h.shifted hfirst).outcome (triggerNow_outcome _ _ _ _)

/-- The state in which a settled run is published. -/
def settled (s : Entry E) (failed : Bool) : Entry E := { s with runs := [], inflight := [] }.counted failed

theorem Sound.settle_eq (h : s.Sound) (i : Nat) (succeeded : Bool) (arrivals : List (E × Start E)) :
    s.settle i succeeded arrivals = s ∨ ∃ run, s.runs[i]? = some run ∧ s.settle i succeeded arrivals =
      ((s.settled (run.timedOut || !succeeded)).observe (if run.timedOut then [] else arrivals)).drainQueuedEventTrigger
        (run.timedOut || !succeeded) := by
  cases hrun : s.runs[i]? with
  | none => exact .inl (by simp only [settle, hrun])
  | some run =>
    refine .inr ⟨run, rfl, ?_⟩
    obtain ⟨hlt, _⟩ := List.getElem?_eq_some_iff.mp hrun
    have hone : s.runs = [run] := by
      have hsingle := h.single
      obtain ⟨_, hfirst⟩ := List.length_eq_one_iff.mp (show s.runs.length = 1 by omega)
      rw [hfirst] at hrun ⊢
      rw [List.mem_singleton.mp (List.mem_of_getElem? hrun)]
    have hzero : i = 0 := by
      rw [hone] at hlt
      exact Nat.lt_one_iff.mp hlt
    have hinflight : s.inflight = [run.startMs] := by rw [h.paired, hone]; rfl
    simp [settle, hone, hzero, hinflight, removeInflight, settled]

theorem Sound.drained (h : s.Sound) (hdrained : Drained s afterError s') : s'.Sound := by
  cases hdrained with
  | left => exact h
  | emptied => exact ⟨h.paired, h.single, Nat.zero_le _, fun _ => rfl⟩
  | discarded => exact ⟨h.paired, h.single, Nat.zero_le _, fun _ => rfl⟩
  | scheduled => exact ⟨h.paired, h.single, h.bounded, h.silent⟩

theorem Sound.observe (h : s.Sound) (arrivals : List (E × Start E)) : (s.observe arrivals).Sound := by
  induction arrivals generalizing s with
  | nil => exact h
  | cons _ _ ih => exact ih (h.outcome (triggerNow_outcome _ _ _ _))

theorem Sound.settle (h : s.Sound) (i : Nat) (succeeded : Bool) (arrivals : List (E × Start E)) :
    (s.settle i succeeded arrivals).Sound := by
  rcases h.settle_eq i succeeded arrivals with heq | ⟨run, -, heq⟩ <;> rw [heq]
  · exact h
  · have hsettled : (s.settled (run.timedOut || !succeeded)).Sound := ⟨rfl, Nat.zero_le _, h.bounded, h.silent⟩
    exact (hsettled.observe _).drained (drainQueuedEventTrigger_drained _ _)

theorem Sound.next (h : s.Sound) (action : Action E) : (s.next action).Sound := by
  cases action with
  | trigger event debounced start => exact h.outcome (triggerNow_outcome s event debounced start)
  | tick debounced start => exact h.outcome (tick_outcome s debounced start)
  | timeout i =>
    refine ⟨?_, ?_, h.bounded, h.silent⟩
    · show s.inflight = (s.runs.modify i fun run => { run with timedOut := true }).map Run.startMs
      rw [h.paired]
      apply List.ext_getElem?
      intro j
      rw [List.getElem?_map, List.getElem?_map, List.getElem?_modify]
      cases s.runs[j]? with
      | none => rfl
      | some => by_cases hij : i = j <;> simp [hij]
    · show (s.runs.modify i fun run => { run with timedOut := true }).length ≤ 1
      rw [List.length_modify]
      exact h.single
  | settle i succeeded arrivals => exact h.settle i succeeded arrivals
  | drain i start =>
    unfold Entry.next
    dsimp only
    split
    · exact h
    · have htaken : Sound { s with drains := s.drains.eraseIdx i } := ⟨h.paired, h.single, h.bounded, h.silent⟩
      exact htaken.drain _ start
  | reload enabled =>
    refine ⟨h.paired, h.single, ?_, fun hclosed => ?_⟩
    · cases enabled with
      | true => exact h.bounded
      | false => exact Nat.zero_le _
    · cases enabled with
      | true =>
        refine h.silent (.inl ?_)
        rcases hclosed with hretired | hdisabled
        · exact hretired
        · cases hdisabled
      | false => rfl
  | register => exact ⟨h.paired, h.single, h.bounded, h.silent⟩
  | close => exact ⟨h.paired, h.single, Nat.zero_le _, fun _ => rfl⟩

/-- A start that is not observed queues nothing, a drain that cannot start its event has taken the last one, and a run
that succeeds finds no error counted, or something queued and starts no run by being published. -/
def Careful (s : Entry E) : Action E → Prop
  | .trigger _ _ start => start.recorded = false → start.echoes = []
  | .tick _ start => start.recorded = false → start.echoes = []
  | .drain _ start => s.registered = false ∨ start.recorded = false → start.echoes = [] ∧ s.queued.length ≤ 1
  | .settle i succeeded arrivals => ∀ run ∈ s.runs[i]?, (run.timedOut || !succeeded) = false →
    s.consecutiveErrors = 0 ∨ s.enabled = true ∧ s.queued ≠ [] ∧
      (s.registered = true → ∀ arrival ∈ arrivals, arrival.2.recorded = false)
  | _ => True

/-- A queue without a run in flight has a drain. -/
def Live (s : Entry E) : Prop := s.enabled = true → s.inflight = [] → ∀ queue ∈ s.queue, queue.id ∈ s.drains

theorem Live.outcome (h : s.Live) (houtcome : Outcome s debounced start s')
    (hstart : start.recorded = false → start.echoes = []) : s'.Live := by
  cases houtcome with
  | unchanged => exact h
  | queued hbusy => exact fun _ hidle => absurd hidle hbusy
  | unrecorded _ hrecorded _ hsame =>
    rw [hsame (hstart hrecorded)]
    exact h
  | started => exact fun _ hidle => (nomatch hidle)

theorem live_of_last (houtcome : Outcome s debounced start s')
    (hdebounced : debounced = false) (hopen : s.retired = false)
    (hlast : s.registered = false ∨ start.recorded = false → start.echoes = [] ∧ s.queue = none) : s'.Live := by
  cases houtcome with
  | unchanged hwhy =>
    intro henabled hidle queue hqueue
    have hgone : s.registered = false := by
      rcases hwhy hidle henabled hopen with h | h
      · rw [hdebounced] at h
        cases h
      · exact h
    rw [(hlast (.inl hgone)).2] at hqueue
    cases hqueue
  | queued hbusy => exact fun _ hidle => absurd hidle hbusy
  | unrecorded _ hrecorded _ hsame =>
    obtain ⟨hechoes, hnone⟩ := hlast (.inr hrecorded)
    intro _ _ queue hqueue
    have hqueue : _ = some queue := hqueue
    rw [hsame hechoes, hnone] at hqueue
    cases hqueue
  | started => exact fun _ hidle => (nomatch hidle)

theorem Live.drain (hsound : s.Sound) (h : s.Live) {i : Nat} (hdrain : s.drains[i]? = some id)
    (hok : s.Careful (.drain i start)) : (Entry.drain { s with drains := s.drains.eraseIdx i } id start).Live := by
  have hsound' : Sound { s with drains := s.drains.eraseIdx i } := ⟨hsound.paired, hsound.single, hsound.bounded, hsound.silent⟩
  unfold Entry.drain
  dsimp only
  split
  case h_1 hnone =>
    intro _ _ queue hqueue
    rw [Option.mem_def] at hqueue
    exact absurd (hnone.symm.trans hqueue) (by simp)
  case h_2 queue hqueue =>
    split
    case isTrue hother =>
      intro henabled hidle queue' hqueue'
      have hmem := h henabled hidle queue' hqueue'
      have hsame : queue = queue' := Option.some.inj (hqueue.symm.trans hqueue')
      obtain ⟨j, hj⟩ := List.mem_iff_getElem?.mp hmem
      refine List.mem_eraseIdx_iff_getElem?.mpr ⟨j, ?_, hj⟩
      rintro rfl
      rw [hdrain, Option.some.injEq, ← hsame] at hj
      exact hother hj.symm
    case isFalse hid =>
      split
      case h_1 => exact fun _ _ queue' hqueue' => (nomatch hqueue')
      case h_2 e rest hevents =>
        have hopen : s.retired = false := by
          cases hretired : s.retired with
          | false => rfl
          | true =>
            rw [hsound.silent (.inl hretired)] at hqueue
            cases hqueue
        have hqueued : s.queued.length = rest.length + 1 := by simp [queued, hqueue, hevents]
        refine live_of_last (triggerNow_outcome _ _ _ _) rfl hopen fun hfails => ?_
        obtain ⟨hechoes, _⟩ := hok hfails
        have hrest : rest = [] := List.eq_nil_of_length_eq_zero (by omega)
        exact ⟨hechoes, if_pos hrest⟩

theorem live_of_drained (hdrained : Drained s afterError s') : s'.Live := by
  cases hdrained with
  | left hwhy =>
    intro henabled hidle queue hqueue
    rw [hwhy henabled hidle] at hqueue
    cases hqueue
  | emptied => exact fun _ _ _ hnone => (nomatch hnone)
  | discarded => exact fun _ _ _ hnone => (nomatch hnone)
  | scheduled hqueue =>
    intro _ _ queue' hqueue'
    rw [Option.some.inj (hqueue'.symm.trans hqueue)]
    exact List.mem_append_right _ List.mem_cons_self

theorem Live.next (hsound : s.Sound) (h : s.Live) (hok : s.Careful action) : (s.next action).Live := by
  cases action with
  | trigger event debounced start => exact h.outcome (triggerNow_outcome s event debounced start) hok
  | tick debounced start => exact h.outcome (tick_outcome s debounced start) hok
  | timeout => exact h
  | settle i succeeded arrivals =>
    show (s.settle i succeeded arrivals).Live
    rcases hsound.settle_eq i succeeded arrivals with heq | ⟨_, -, heq⟩ <;> rw [heq]
    · exact h
    · exact live_of_drained (drainQueuedEventTrigger_drained _ _)
  | drain =>
    unfold Entry.next
    dsimp only
    split
    case h_1 => exact h
    case h_2 id hdrain => exact Live.drain hsound h hdrain hok
  | reload enabled =>
    intro henabled hidle queue hqueue
    have henabled : enabled = true := henabled
    subst henabled
    cases hold : s.enabled with
    | true => exact h hold hidle queue hqueue
    | false =>
      have hqueue : s.queue = some queue := hqueue
      rw [hsound.silent (.inr hold)] at hqueue
      cases hqueue
  | register => exact h
  | close => exact fun _ _ _ hnone => (nomatch hnone)

/-- The errors that are counted were failures with no success between them. -/
structure Counted (s : Entry E) : Prop where
  errors : s.consecutiveErrors ≤ s.failures
  discards : ∀ n ∈ s.discards, 5 ≤ n

/-- What a trigger leaves as it is. -/
structure Counts (s s' : Entry E) : Prop where
  errors : s'.consecutiveErrors = s.consecutiveErrors
  failures : s'.failures = s.failures
  discards : s'.discards = s.discards
  enabled : s'.enabled = s.enabled
  registered : s'.registered = s.registered

theorem Outcome.counts (houtcome : Outcome s debounced start s') : s.Counts s' := by
  cases houtcome <;> exact ⟨rfl, rfl, rfl, rfl, rfl⟩

theorem observe_counts (s : Entry E) (arrivals : List (E × Start E)) : s.Counts (s.observe arrivals) := by
  induction arrivals generalizing s with
  | nil => exact ⟨rfl, rfl, rfl, rfl, rfl⟩
  | cons arrival _ ih =>
    have hfirst := (triggerNow_outcome s (some arrival.1) false arrival.2).counts
    have hrest := ih (s.triggerNow (some arrival.1) false arrival.2)
    exact ⟨hrest.errors.trans hfirst.errors, hrest.failures.trans hfirst.failures, hrest.discards.trans hfirst.discards,
      hrest.enabled.trans hfirst.enabled, hrest.registered.trans hfirst.registered⟩

theorem Outcome.idle (houtcome : Outcome s debounced start s') (hidle : s.inflight = [])
    (hqueued : s.queued ≠ []) (hquiet : s.registered = true → start.recorded = false) :
    s'.inflight = [] ∧ s'.queued ≠ [] := by
  cases houtcome with
  | unchanged => exact ⟨hidle, hqueued⟩
  | queued hbusy => exact absurd hidle hbusy
  | unrecorded _ _ hfills => exact ⟨hidle, hfills.filled hqueued⟩
  | started _ _ hstart =>
    rw [hquiet hstart.1] at hstart
    cases hstart.2

/-- Triggers that start no run leave an idle entry idle, and its queue filled. -/
theorem observe_idle (hidle : s.inflight = []) (hqueued : s.queued ≠ [])
    (hquiet : s.registered = true → ∀ arrival ∈ arrivals, arrival.2.recorded = false) :
    (s.observe arrivals).inflight = [] ∧ (s.observe arrivals).queued ≠ [] := by
  induction arrivals generalizing s with
  | nil => exact ⟨hidle, hqueued⟩
  | cons arrival _ ih =>
    have houtcome := triggerNow_outcome s (some arrival.1) false arrival.2
    obtain ⟨hidle', hqueued'⟩ := houtcome.idle hidle hqueued fun hregistered =>
      hquiet hregistered arrival List.mem_cons_self
    refine ih hidle' hqueued' fun hregistered later hlater => ?_
    rw [houtcome.counts.registered] at hregistered
    exact hquiet hregistered later (List.mem_cons_of_mem _ hlater)

theorem Counted.outcome (h : s.Counted) (houtcome : Outcome s debounced start s') :
    s'.Counted := by
  have hcounts := houtcome.counts
  refine ⟨?_, ?_⟩
  · rw [hcounts.errors, hcounts.failures]
    exact h.errors
  · rw [hcounts.discards]
    exact h.discards

theorem Counted.drain (h : s.Counted) (id : Nat) (start : Start E) : (s.drain id start).Counted := by
  unfold Entry.drain
  split
  · exact h
  · split
    · exact h
    · split
      · exact ⟨h.errors, h.discards⟩
      case h_2 e rest _ =>
        have hshifted : Counted { s with queue := if rest = [] then none else some ⟨id, rest⟩ } := ⟨h.errors, h.discards⟩
        exact hshifted.outcome (triggerNow_outcome _ _ _ _)

theorem Counted.settled (h : s.Counted) {failed : Bool}
    (hdrained : Drained ((s.settled failed).observe arrivals) failed s')
    (hreset : failed = false → s.consecutiveErrors = 0 ∨ s.enabled = true ∧ s.queued ≠ [] ∧
      (s.registered = true → ∀ arrival ∈ arrivals, arrival.2.recorded = false)) : s'.Counted := by
  have hcounts := observe_counts (s.settled failed) arrivals
  have herrors : ((s.settled failed).observe arrivals).consecutiveErrors = s.consecutiveErrors := hcounts.errors
  have hdiscards : ∀ n ∈ ((s.settled failed).observe arrivals).discards, 5 ≤ n := by
    rw [hcounts.discards]
    exact h.discards
  -- The count is left as it was only if nothing was queued, or a run was in flight.
  have hunreset : (s.enabled = true → ((s.settled failed).observe arrivals).inflight = [] →
      ((s.settled failed).observe arrivals).queued = []) →
      ((s.settled failed).observe arrivals).consecutiveErrors ≤ ((s.settled failed).observe arrivals).failures := by
    intro hnothing
    rw [herrors, hcounts.failures]
    cases failed with
    | true => exact Nat.le_succ_of_le h.errors
    | false =>
      rcases hreset rfl with hzero | ⟨henabled, hqueued, hquiet⟩
      · exact Nat.le_of_eq hzero
      · have hidle := observe_idle (s := s.settled false) rfl hqueued hquiet
        exact absurd (hnothing henabled hidle.1) hidle.2
  cases hdrained with
  | left hwhy =>
    refine ⟨hunreset fun henabled hidle => ?_, hdiscards⟩
    rw [queued, hwhy (hcounts.enabled.trans henabled) hidle]
    rfl
  | emptied hqueue hempty => exact ⟨hunreset fun _ _ => by simp [queued, hqueue, hempty], hdiscards⟩
  | discarded hafter hfive =>
    subst hafter
    have hcounted : s.consecutiveErrors + 1 ≤ ((s.settled true).observe arrivals).failures := by
      rw [hcounts.failures]
      exact Nat.succ_le_succ h.errors
    rw [← herrors] at hcounted
    refine ⟨hcounted, fun n hn => ?_⟩
    rcases List.mem_append.mp hn with hn | hn
    · exact hdiscards n hn
    · rw [List.mem_singleton.mp hn]
      exact Nat.le_trans hfive hcounted
  | scheduled =>
    cases failed with
    | true =>
      refine ⟨?_, hdiscards⟩
      show ((s.settled true).observe arrivals).consecutiveErrors + 1 ≤ ((s.settled true).observe arrivals).failures
      rw [herrors, hcounts.failures]
      exact Nat.succ_le_succ h.errors
    | false => exact ⟨Nat.zero_le _, hdiscards⟩

theorem Counted.next (hsound : s.Sound) (h : s.Counted) (hok : s.Careful action) :
    (s.next action).Counted := by
  cases action with
  | trigger event debounced start => exact h.outcome (triggerNow_outcome s event debounced start)
  | tick debounced start => exact h.outcome (tick_outcome s debounced start)
  | timeout => exact ⟨h.errors, h.discards⟩
  | settle i succeeded arrivals =>
    show (s.settle i succeeded arrivals).Counted
    rcases hsound.settle_eq i succeeded arrivals with heq | ⟨run, hrun, heq⟩ <;> rw [heq]
    · exact h
    · refine h.settled (drainQueuedEventTrigger_drained _ _) fun hsucceeded => ?_
      rw [if_neg (by simp [(Bool.or_eq_false_iff.mp hsucceeded).1])]
      exact hok run hrun hsucceeded
  | drain i start =>
    unfold Entry.next
    dsimp only
    split
    · exact h
    · have htaken : Counted { s with drains := s.drains.eraseIdx i } := ⟨h.errors, h.discards⟩
      exact htaken.drain _ start
  | reload => exact ⟨h.errors, h.discards⟩
  | register => exact ⟨h.errors, h.discards⟩
  | close => exact ⟨h.errors, h.discards⟩

theorem Reachable.isLive (h : Reachable Careful s) : s.Live ∧ s.Counted := by
  have hall : s.Sound ∧ s.Live ∧ s.Counted := by
    refine Reaches.invariant (I := fun s => s.Sound ∧ s.Live ∧ s.Counted) (fun s hs => ?_) (fun s action hinv hok => ?_) h
    · rw [hs]
      exact ⟨⟨rfl, Nat.zero_le _, Nat.zero_le _, fun _ => rfl⟩, fun _ _ _ hnone => (nomatch hnone), Nat.zero_le _,
        fun _ hn => (nomatch hn)⟩
    · exact ⟨hinv.1.next action, hinv.2.1.next hinv.1 hok, hinv.2.2.next hinv.1 hok⟩
  exact hall.2

end Maintenance.Entry

/-! ### Queues that are left, and that are discarded early -/

namespace Sample.Maintenance

open MayAgent.Maintenance

def fresh : Entry String := { enabled := true, registered := true }

def event (e : String) : Action String := .trigger (some e) false ⟨0, [], true⟩

/-- Two events are queued during a run, which succeeds. -/
def waiting : Entry String := [event "a", event "b", event "c", .settle 0 true []].foldl Entry.next fresh

/-- A run fails with one event queued, which is drained into the next run. -/
def failing (e : String) : List (Action String) := [event e, .settle 0 false [], .drain 0 ⟨0, [], true⟩]

/-- Four failures, a success, and a failure. -/
def discarded (success : List (Action String)) : Entry String :=
  ([event "a"] ++ failing "b" ++ failing "c" ++ failing "d" ++ failing "e" ++ success ++
    [event "f", event "g", .settle 0 false []]).foldl Entry.next fresh

theorem reachable (actions : List (Action String)) :
    Entry.Reachable (fun _ _ => True) (actions.foldl Entry.next fresh) := by
  have hstart : Reaches Entry.Fresh Entry.next (fun (_ : Entry String) _ => True) fresh := .start rfl
  exact hstart.foldl (fun _ _ => trivial) actions

end Sample.Maintenance

end MayAgent
