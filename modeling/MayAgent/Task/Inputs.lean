import MayAgent.Task.Scope

/-!
# Admitted inputs

Which admitted inputs an attempt considers, which of them its result answers, and how an
unanswered input returns to a later attempt (`app-task-inputs.ts` and the admission half of the
reconciler). Admissions are read from the store and written outside the fenced Task row.
-/

namespace MayAgent

/-- `AppTaskClaim`: the assignment handed to a worker. -/
structure Claim where
  taskId : String
  generation : Nat
  resourceVersion : Nat
  specHash : SpecHash
  attemptId : String
  agent : String
  handler : String
  intent : Intent
  events : List TriggerEvent
  eventsTruncated : Bool
  continuedInputKeys : List String
  previousAttempt : Option Attempt
  trigger : Option Event
  declaredOutputPaths : List String
  handoff : Option Value

/-! ### Waits of unanswered inputs -/

/-- An admission of the Task that no result answers yet. -/
def Admission.outstanding (a : Admission) (taskId : String) (generation : Nat) : Bool :=
  decide (a.taskId = taskId) && decide (a.taskGeneration ≤ generation) && a.resultAttemptId.isNone

/-- `retainTaskInputWait` for one key. -/
def retainTaskInputWait (s : Store) (r : Resource) (key : String) (wait : InputWait) : Resource :=
  if (s.admissions.get key).any fun a => a.outstanding r.metadata.id r.metadata.generation then
    { r with status := { r.status with inputWaits := r.status.inputWaits.put key wait } }
  else r

/-- The wait of an input that useful work remains on, keeping what was recorded before. -/
def pendingWait (generation : Nat) (previous : Option InputWait) : InputWait where
  taskGeneration := (previous.map InputWait.taskGeneration).getD generation
  pending := true
  conditions := (previous.map InputWait.conditions).getD []
  reviewAt := previous.bind InputWait.reviewAt

/-- A wait that neither a Condition, a deadline nor remaining work brings back. -/
def InputWait.bare (w : InputWait) : Bool := w.conditions.isEmpty && w.reviewAt.isNone

/-- The condition under which `continuedTaskInputKeys` selects a wait. -/
def InputWait.continues (now : Int) (t : Tree) (r : Resource) (hasEvents : Bool) (observed : List String)
    (w : InputWait) : Bool :=
  w.pending || decide (w.taskGeneration < r.metadata.generation)
    || w.reviewAt.any (fun at_ => decide (at_ ≤ now))
    || (w.bare && hasEvents)
    || w.conditions.any (fun ref => !r.status.conditionIds.contains ref.id
      || decide ((t.conditions.get ref.id).map Condition.generation ≠ some ref.generation))
    || w.conditions.any (fun ref => observed.contains ref.id
      && decide ((t.conditions.get ref.id).map Condition.generation = some ref.generation))

def continuedTaskInputKeys (ctx : Context) (now : Int) (t : Tree) (r : Resource) (events : List TriggerEvent)
    (readyConditionIds : List String) : List String :=
  let matching := r.status.conditionIds.filter fun id =>
    events.any fun entry => (t.conditions.get id).any fun c => matchesAppTaskConditionFacts ctx c entry.event
  let observed := readyConditionIds ++ matching
  (r.status.inputWaits.entries.filter fun e => e.2.continues now t r (!events.isEmpty) observed).map Sigma.fst

/-! ### The scope of a result -/

/-- The keys of the saved assignment: the attempt's batch, its continued inputs and the live events
the worker incorporated. -/
def assignedInputKeys (a : Option Attempt) (trigger : Option Trigger) (acceptedLiveEventIds : List Int) :
    List String :=
  let live := (pendingTriggerEvents trigger).filter fun entry =>
    (entry.event.number? "eventId").any fun id => acceptedLiveEventIds.contains id
  taskInputAdmissionKeys ((a.map Attempt.events).getD [] ++ live) ((a.map Attempt.continuedInputKeys).getD [])

/-- `resultInputKeys`: an explicit scope names outstanding inputs of the Task, an omitted one is the
saved assignment. -/
def resultInputKeys (s : Store) (a : Option Attempt) (trigger : Option Trigger) (taskId : String)
    (generation : Nat) (acceptedLiveEventIds : List Int) (inputKeys : Option (List String)) :
    Except TaskError (List String) :=
  match inputKeys with
  | none => .ok (assignedInputKeys a trigger acceptedLiveEventIds)
  | some keys =>
    if 64 < keys.length ∨ keys.any (fun key => !Text.nonEmpty key) = true then
      .error (.error "inputKeys must contain at most 64 non-empty exact keys")
    else
      match keys.find? fun key => !(s.admissions.get key).any fun a => a.outstanding taskId generation with
      | some key => .error (.error ("inputKeys contains input not outstanding on this Task: " ++ key))
      | none => .ok keys.eraseDups

/-! ### Reports -/

inductive ReportState where
  | accepted (state : ResultState)
  | error
  deriving DecidableEq

/-- What a report shows of an attempt. -/
structure Report where
  state : ReportState
  summary : String
  facts : List String
  response : Option String := none
  result : Option Event := none
  deriving DecidableEq

def appTaskAttemptReport (a : Attempt) : Option Report :=
  let pre := match a.retryExhausted with
    | some e => "Automatic retries exhausted after " ++ toString e.failures ++ " unsuccessful attempts (limit "
        ++ toString e.limit ++ "); owner repair or explicit retry required. "
    | none => ""
  match a.acceptedResult with
  | some accepted =>
    if accepted.state = .incomplete ∨ (accepted.state = .waiting ∧ accepted.report = true) then
      some {
        state := .accepted accepted.state
        summary := pre ++ accepted.summary
        facts := accepted.facts
        response := accepted.response
        result := accepted.result }
    else none
  | none =>
    if a.state = .failed then
      let text := (a.summary.or a.failureReason).getD "Unknown execution failure"
      some {
        state := .error
        summary := pre ++ "Execution failed before an accepted result: " ++ String.ofList (text.toList.take 1024)
        facts := ["task-attempt:" ++ a.id] }
    else none

/-- `admissionFeedback`: the selected progress and failure reports, with the older single report
filed under its kind. -/
def admissionFeedback (s : Store) (a : Admission) : Option Selection × Option Selection :=
  match a.reportAttemptId.bind s.readAttempt with
  | none => (a.progress, a.failure)
  | some attempt =>
    if (appTaskAttemptReport attempt).isNone then (a.progress, a.failure)
    else
      let legacy : Selection := { attemptId := attempt.id, revision := a.reportRevision.getD 1, legacyBlocked := true }
      if attempt.acceptedResult.map AcceptedResult.state = some .waiting then (a.progress.or (some legacy), a.failure)
      else (a.progress, a.failure.or (some legacy))

/-! ### Binding the outcome of an attempt -/

inductive OutcomeKind where
  | answer | progress | failure | retain
  deriving DecidableEq

def selectReport (s : Store) (a : Admission) (failure : Bool) (attemptId : String) : Admission :=
  let feedback := admissionFeedback s a
  let entries := feedback.1.toList ++ feedback.2.toList
  let migrated := entries.any fun e => decide (some e.attemptId = a.reportAttemptId)
  let revision := (entries.map Selection.revision).foldl max (a.reportRevision.getD 0) + 1
  let selected : Selection := { attemptId := attemptId, revision := revision }
  { a with
    progress := if failure then feedback.1 else some selected
    failure := if failure then some selected else feedback.2
    reportAttemptId := if migrated then none else a.reportAttemptId
    reportRevision := if migrated then none else a.reportRevision }

/-- The admission write of one key in the scope of a result. -/
def outcomeAdmission (s : Store) (taskId : String) (generation : Nat) (attemptId : String) (report : Bool)
    (kind : OutcomeKind) (key : String) : Option (String × Admission) :=
  match s.admissions.get key with
  | none => none
  | some a =>
    if !a.outstanding taskId generation then none
    else match kind with
      | .retain => none
      | .answer => some (key, { a with resultAttemptId := some attemptId })
      | .progress =>
        if (admissionFeedback s a).1.isSome && !report then none else some (key, selectReport s a false attemptId)
      | .failure =>
        if (admissionFeedback s a).2.isSome && !report then none else some (key, selectReport s a true attemptId)

/-- The waits `inputOutcomeAdmissions` records for the saved assignment. -/
def retainAssignedInputs (s : Store) (generation : Nat) (keys : List String) (r : Resource)
    (assigned : List String) : Resource :=
  assigned.foldl (fun r key =>
    let previous := r.status.inputWaits.get key
    if previous.isNone || !keys.contains key then retainTaskInputWait s r key (pendingWait generation previous)
    else r) r

def dropInputWaits (r : Resource) (keys : List String) : Resource :=
  { r with status := { r.status with inputWaits := r.status.inputWaits.dropAll keys } }

/-- `inputOutcomeAdmissions`: the Task with its waits adjusted, the resolved scope and the admission
writes. -/
def inputOutcomeAdmissions (s : Store) (r : Resource) (a : Option Attempt) (trigger : Option Trigger)
    (generation : Nat) (attemptId : String) (input : ResultInput) (kind : OutcomeKind) :
    Except TaskError (Resource × List String × List (String × Admission)) :=
  match resultInputKeys s a trigger r.metadata.id generation input.acceptedLiveEventIds input.inputKeys with
  | .error e => .error e
  | .ok keys =>
    let r := retainAssignedInputs s generation keys r (assignedInputKeys a trigger input.acceptedLiveEventIds)
    let writes := keys.filterMap (outcomeAdmission s r.metadata.id generation attemptId input.report kind)
    let r := if kind = .answer then dropInputWaits r (writes.map Prod.fst) else r
    .ok (r, keys, writes)

/-! ### Reading an outcome -/

/-- `readAppTaskAdmissionOutcome` for an answer: the attempt and its accepted converged result. -/
def readAppTaskAdmissionAnswer (s : Store) (taskId admissionKey : String) : Option (String × Nat × AcceptedResult) :=
  match s.admissions.get admissionKey with
  | none => none
  | some admission =>
    if admission.taskId ≠ taskId then none
    else match admission.resultAttemptId.bind s.readAttempt with
      | none => none
      | some attempt =>
        if attempt.taskId ≠ taskId ∨ attempt.taskGeneration < admission.taskGeneration then none
        else match attempt.acceptedResult with
          | some accepted =>
            if accepted.state = .converged then some (attempt.id, attempt.taskGeneration, accepted) else none
          | none => none

end MayAgent
