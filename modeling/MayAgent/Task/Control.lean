import MayAgent.Task.Recovery

/-!
# Explicit controls

The owner's controls over one Task: retrying a failed one, ending responsibility for it and
reopening it. Each may carry a control key, whose receipt makes a repeated request harmless.
-/

namespace MayAgent

/-! ### Retry -/

/-- The arguments of `retryFailedAppTask`, with the random id of its receipt. -/
structure RetryInput where
  appId : String
  taskId : String
  expectedGeneration : Nat
  expectedResourceVersion : Nat
  controlKey : Option String := none
  receiptUuid : String
  deriving DecidableEq

def ControlReceipt.same (receipt : ControlReceipt) (action : ControlAction) (appId taskId : String)
    (expectedGeneration expectedResourceVersion : Nat) : Bool :=
  decide (receipt.action = action) && decide (receipt.appId = appId) && decide (receipt.taskId = taskId)
    && decide (receipt.expectedGeneration = expectedGeneration)
    && decide (receipt.expectedResourceVersion = expectedResourceVersion)

/-- The refusal of a Task whose generation or version is not the expected one. -/
def checkVersion (appId taskId : String) (r : Resource) (expectedGeneration expectedResourceVersion : Nat) :
    Except TaskError Unit :=
  let task := "Task " ++ appId ++ "/" ++ taskId
  if r.metadata.generation ≠ expectedGeneration then
    .error (.error (task ++ " generation changed: expected " ++ toString expectedGeneration ++ ", current "
      ++ toString r.metadata.generation))
  else if r.metadata.resourceVersion ≠ expectedResourceVersion then
    .error (.error (task ++ " resource version changed: expected " ++ toString expectedResourceVersion
      ++ ", current " ++ toString r.metadata.resourceVersion))
  else .ok ()

def retriedResource (now : Int) (r : Resource) : Resource :=
  touchResource now r fun st => { st with
    phase := .pending
    executionFailures := 0
    executionFailureAttemptId := none
    executionRetryAt := none
    retryExhausted := none
    observedGeneration := r.metadata.generation - 1
    currentAttemptId := none }

def retriedAttempt (late : Store) (t : Tree) (r : Resource) (taskId : String) (generation : Nat) : Option Attempt :=
  match r.status.retryExhausted with
  | some exhaustion => late.readAttempt exhaustion.attemptId
  | none => latestTaskAttempt t taskId (some generation)

def replayRetry (input : RetryInput) (controlKey : String) (prior : ControlReceipt) : Plan RetryReceipt :=
  if !prior.same .retry input.appId input.taskId input.expectedGeneration input.expectedResourceVersion then
    .throw (.error ("Task control key " ++ controlKey ++ " was already used for a different operation"))
  else match prior.result with
    | some (.retry receipt) => .done receipt
    | _ => .throw (.error ("Task retry control receipt " ++ controlKey ++ " has no valid result"))

/-- The write of a retry that is neither rejected nor a replay. -/
def retryPlan (now : Int) (input : RetryInput) (t : Tree) (r : Resource) (a : Attempt) : Plan RetryReceipt :=
  let scope := beginResourceMutationScopeForTasks t [input.taskId]
  let trigger := t.taskTriggers.get input.taskId
  let next := retriedResource now r
  let t := (t.setResource next).setTrigger input.taskId
    (if a.state = .failed then restoreAttemptEvents r a trigger now else trigger)
  let receipt : RetryReceipt := {
    receiptId := input.receiptUuid
    appId := input.appId
    taskId := input.taskId
    generation := input.expectedGeneration
    previousResourceVersion := r.metadata.resourceVersion
    resourceVersion := next.metadata.resourceVersion
    previousAttemptId := a.id
    acceptedAt := now }
  .commit { finishResourceMutationScope now scope t with
      controlReceipts := input.controlKey.toList.map fun controlKey => {
        controlKey := controlKey
        appId := input.appId
        taskId := input.taskId
        action := .retry
        expectedGeneration := input.expectedGeneration
        expectedResourceVersion := input.expectedResourceVersion
        appliedResourceVersion := next.metadata.resourceVersion
        appliedAt := now
        result := some (.retry receipt) } } receipt

/-- An empty control key is no control key. -/
def usedControlKey (controlKey : Option String) : Option String := controlKey.filter (· != "")

def retryFailedAppTask (now : Int) (reads : Reads) (input : RetryInput) : Plan RetryReceipt :=
  let input := { input with controlKey := usedControlKey input.controlKey }
  let task := "Task " ++ input.appId ++ "/" ++ input.taskId
  if reads.check.isCancelled input.taskId then
    .throw (.error ("Cannot retry cancelled task " ++ input.appId ++ "/" ++ input.taskId
      ++ "; create a new linked task"))
  else match input.controlKey.bind fun key => (reads.check.readControlReceipt key).map fun prior => (key, prior) with
    | some (key, prior) => replayRetry input key prior
    | none =>
      let t := reads.snapshot.readTaskContext { taskIds := [input.taskId] }
      match t.resources.get input.taskId with
      | none => .throw (.error (task ++ " was not found"))
      | some r =>
        Plan.check (checkVersion input.appId input.taskId r input.expectedGeneration input.expectedResourceVersion)
          fun _ =>
        if r.status.phase ≠ .attention ∧ ¬(r.status.phase = .pending ∧ r.status.executionRetryAt.isSome = true) then
          .throw (.error (task ++ " is not eligible for retry: phase is " ++ r.status.phase.text
            ++ ", expected a failed attempt awaiting retry"))
        else match (retriedAttempt reads.late t r input.taskId input.expectedGeneration).filter fun a =>
            a.unsuccessful && r.status.currentAttemptId.isNone with
          | none => .throw (.error (task
              ++ " is not eligible for retry: its current generation has no completed failed attempt"))
          | some a => retryPlan now input t r a

/-! ### Ending responsibility -/

inductive CloseDecision where
  | human | appPolicy
  deriving DecidableEq

/-- The arguments of `closeTask`; `afterResult` is present exactly for a closure after a result. -/
structure CloseInput where
  appId : String
  taskId : String
  expectedGeneration : Nat
  expectedResourceVersion : Nat
  reason : String
  actor : Option Creator := none
  decision : Option CloseDecision := none
  controlKey : Option String := none
  afterResult : Option String := none
  deriving DecidableEq

def CloseInput.kind (input : CloseInput) : ClosureKind := if input.afterResult.isSome then .closed else .cancelled

/-- `AppTaskCancellationResult`. -/
structure CloseResult where
  cancellation : Cancellation
  cancelledAttemptId : Option String := none
  applied : Bool
  deriving DecidableEq

/-- A recorded closure answers a request for the same kind of ending. -/
def checkClosure (input : CloseInput) (closure : Cancellation) : Except TaskError Unit :=
  if closure.kind.getD .cancelled ≠ input.kind then .error (.error "The Task was ended by a different control")
  else if input.kind = .closed ∧ closure.acceptedResultAttemptId ≠ input.afterResult then
    .error (.error "The Task was closed against a different accepted result")
  else .ok ()

def replayClose (s : Store) (input : CloseInput) (controlKey : String) (prior : ControlReceipt) : Plan CloseResult :=
  if !prior.same .cancel input.appId input.taskId input.expectedGeneration input.expectedResourceVersion then
    .throw (.error ("Task control key " ++ controlKey ++ " was already used for a different operation"))
  else
    match (s.readPastCancellation input.taskId input.expectedGeneration (input.expectedResourceVersion + 1)).or
        (s.readCancellation input.taskId) with
    | none => .throw (.error ("Task cancellation receipt " ++ controlKey ++ " has no terminal facts"))
    | some closure => Plan.check (checkClosure input closure) fun _ => .done { cancellation := closure, applied := false }

def repeatClose (input : CloseInput) (closure : Cancellation) : Plan CloseResult :=
  if closure.generation ≠ input.expectedGeneration ∨ closure.resourceVersion ≠ input.expectedResourceVersion + 1 then
    .throw (.error ("Task " ++ input.appId ++ "/" ++ input.taskId ++ " was already cancelled at another version"))
  else Plan.check (checkClosure input closure) fun _ => .done { cancellation := closure, applied := false }

def CloseInput.endReason (input : CloseInput) : String :=
  if Text.trim input.reason ≠ "" then Text.trim input.reason
  else if input.kind = .closed then "owner ended the Task" else "human requested cancellation"

def CloseInput.summary (input : CloseInput) : String :=
  let verb := if input.kind = .closed then "Closed" else "Cancelled"
  if input.actor.isSome then verb ++ " by creator: " ++ input.endReason
  else if input.kind = .closed ∨ input.decision = some .appPolicy then verb ++ " by App policy: " ++ input.endReason
  else "Cancelled by human: " ++ input.endReason

def CloseInput.decidedBy (input : CloseInput) : Decider :=
  match input.actor with
  | some creator => .creator creator
  | none => if input.kind = .closed ∨ input.decision = some .appPolicy then .appPolicy else .human

def cancelledAttempt (now : Int) (summary : String) (a : Attempt) : Attempt :=
  { a.finish .interrupted summary now with reason := summary, lease := none }

/-- The closed Task: ending responsibility does not turn an accepted answer into a failure. -/
def closedResource (now : Int) (input : CloseInput) (r : Resource) : Resource :=
  touchResource now r fun st => { st with
    phase := if input.kind = .closed ∧ st.phase = .converged then .converged else .attention
    observedGeneration := r.metadata.generation
    currentAttemptId := none
    summary := if input.kind = .closed then st.summary else some input.summary
    response := if input.kind = .closed then st.response else some input.summary
    result := if input.kind = .closed then st.result else none
    facts := some (st.facts.getD [])
    conditionIds := [] }

def closureOf (now : Int) (input : CloseInput) (r : Resource) : Cancellation where
  kind := some input.kind
  acceptedResultAttemptId := input.afterResult
  appId := input.appId
  taskId := input.taskId
  generation := r.metadata.generation
  resourceVersion := r.metadata.resourceVersion
  outcome := r.spec.outcome
  reason := input.endReason
  summary := input.summary
  cancelledAt := now
  decidedBy := some input.decidedBy
  response := r.status.response
  result := r.status.result
  facts := r.status.facts

def commitTaskCancellation (now : Int) (input : CloseInput) (t : Tree) (r : Resource) : Plan CloseResult :=
  let scope := beginResourceMutationScopeForTasks t [input.taskId]
  let attempt := r.status.currentAttemptId.bind t.attempts.get
  let released := if attempt.isSome then r.release .interrupted else r
  let next := closedResource now input released
  let t := ((t.setResource next).setTrigger input.taskId none).setAttempts
    (attempt.map (cancelledAttempt now input.summary)).toList
  let closure := closureOf now input next
  .commit { finishResourceMutationScope now scope t with
      cancellations := [closure]
      pruneConditionIds := r.status.conditionIds
      controlReceipts := input.controlKey.toList.map fun controlKey => {
        controlKey := controlKey
        appId := input.appId
        taskId := input.taskId
        action := .cancel
        expectedGeneration := input.expectedGeneration
        expectedResourceVersion := input.expectedResourceVersion
        appliedResourceVersion := next.metadata.resourceVersion
        appliedAt := now
        result := none } }
    { cancellation := closure, cancelledAttemptId := r.status.currentAttemptId, applied := true }

/-- A closure after a result needs that result to be the Task's last word. -/
def settledBy (late : Store) (t : Tree) (r : Resource) (input : CloseInput) (afterResult : String) : Bool :=
  ((late.readAttempt afterResult).any fun a =>
      decide (a.taskId = input.taskId) && decide (a.taskGeneration = input.expectedGeneration)
        && (decide (a.acceptedResult.map AcceptedResult.state = some .converged)
          || decide (a.acceptedResult.map AcceptedResult.state = some .incomplete)))
    && decide (r.status.observedAttemptId = some afterResult) && decide (r.status.phase = .converged)
    && r.status.currentAttemptId.isNone && !t.taskTriggers.has input.taskId

def closeTask (ctx : Context) (now : Int) (reads : Reads) (input : CloseInput) : Plan CloseResult :=
  let input := { input with controlKey := usedControlKey input.controlKey }
  if input.appId ≠ ctx.appId then .throw (.error ("Task cancellation belongs to another App: " ++ input.appId))
  else
    Plan.check (match input.actor with
      | some actor =>
        assertResourceCreator ((reads.check.readTask input.taskId).bind fun r => r.metadata.creator) actor
      | none => .ok ()) fun _ =>
    match input.controlKey.bind fun key => (reads.check.readControlReceipt key).map fun prior => (key, prior) with
    | some (key, prior) => replayClose reads.check input key prior
    | none =>
      match reads.check.readCancellation input.taskId with
      | some closure => repeatClose input closure
      | none =>
        let t := reads.snapshot.readTaskContext { taskIds := [input.taskId] }
        match t.resources.get input.taskId with
        | none => .throw (.error ("Task " ++ input.appId ++ "/" ++ input.taskId ++ " was not found"))
        | some r =>
          Plan.check (checkVersion input.appId input.taskId r input.expectedGeneration input.expectedResourceVersion)
            fun _ =>
          if input.afterResult.any fun result => !settledBy reads.late t r input result then
            .throw (.error "Cannot close after a result while newer or unresolved work remains")
          else commitTaskCancellation now input t r

/-- `closeAppTask`: completion only, after the named accepted result. -/
def closeAppTask (ctx : Context) (now : Int) (reads : Reads) (input : CloseInput) (afterResult : String) :
    Plan CloseResult :=
  Plan.check (requireNonEmptyString afterResult "Task completion afterResult") fun _ =>
  closeTask ctx now reads { input with afterResult := some afterResult }

def cancelAppTask (ctx : Context) (now : Int) (reads : Reads) (input : CloseInput) : Plan CloseResult :=
  closeTask ctx now reads { input with afterResult := none }

/-! ### Reopening -/

/-- The arguments of `reopenAppTask`. -/
structure ReopenInput where
  appId : String
  taskId : String
  expectedGeneration : Nat
  expectedResourceVersion : Nat
  reason : String
  controlKey : String
  input : Option Value := none
  intent : Option Intent := none
  deriving DecidableEq

/-- The answer to a reopening whose key is already recorded. -/
def replayReopen (input : ReopenInput) (prior : ControlReceipt) : Plan ReopenReceipt :=
  let used : TaskError := .error "Task control key was already used for a different operation"
  match prior.result with
  | some (.reopen result) =>
    if prior.action ≠ .reopen ∨ prior.taskId ≠ input.taskId ∨ prior.expectedGeneration ≠ input.expectedGeneration
        ∨ prior.expectedResourceVersion ≠ input.expectedResourceVersion ∨ result.reason ≠ Text.trim input.reason
        ∨ result.input ≠ input.input then .throw used
    else .done result
  | _ => .throw used

def reopenedSpec (input : ReopenInput) (spec : Spec) : Except TaskError Spec :=
  match input.intent with
  | none => .ok spec
  | some intent =>
    match normalizeTaskAgent { intent with id := input.taskId, parentId := spec.parentId } with
    | .error e => .error e
    | .ok intent =>
      match validateIntent intent with
      | .error e => .error e
      | .ok () =>
        if intent.executor = some "conversation" then .error (.error "Conversation input must use its linked successor")
        else .ok (resourceSpec intent)

/-- The reopened Task: a new generation with a fresh status. -/
def reopenedResource (now : Int) (input : ReopenInput) (lastEventId : Int) (spec : Spec) (r : Resource) : Resource where
  metadata := { r.metadata with
    generation := r.metadata.generation + 1
    resourceVersion := r.metadata.resourceVersion + 1
    reopenedAfterEventId := some lastEventId }
  spec := spec
  status := {
    phase := .pending
    observedGeneration := input.expectedGeneration
    lane := some .human
    summary := some ("Reopened at the user's request: " ++ Text.trim input.reason)
    updatedAt := now }

/-- A fresh control carries the continuation reason; it never restores a cancelled input batch. -/
def reopenTrigger (now : Int) (input : ReopenInput) (generation : Nat) : Trigger :=
  let event : Event := [("data", .obj [("reason", .str (Text.trim input.reason))]), ("source", .str "human"),
    ("type", .str "app.task.reopen.requested")]
  { taskId := input.taskId
    taskGeneration := generation
    resourceVersion := 1
    event := event
    events := [⟨event, now⟩]
    observedAt := now }

/-- The write of a reopening that is neither rejected nor a replay. -/
def reopenPlan (now : Int) (input : ReopenInput) (lastEventId : Int) (t : Tree) (r : Resource) (spec : Spec)
    (closure : Cancellation) : Plan ReopenReceipt :=
  let scope := beginResourceMutationScopeForTasks t [input.taskId]
  let next := reopenedResource now input lastEventId spec r
  let trigger := if input.input.isNone then some (reopenTrigger now input next.metadata.generation)
    else t.taskTriggers.get input.taskId
  let t := { (t.setResource next).setTrigger input.taskId trigger with
    cancellations := t.cancellations.drop input.taskId }
  let receipt : ReopenReceipt := {
    taskId := input.taskId
    generation := next.metadata.generation
    resourceVersion := next.metadata.resourceVersion
    closure := closure
    reason := Text.trim input.reason
    input := input.input
    admissionKey := input.input.map fun _ => "task-reopen:" ++ input.controlKey }
  .commit { finishResourceMutationScope now scope t with
      reopenTaskIds := [input.taskId]
      controlReceipts := [{
        controlKey := input.controlKey
        appId := input.appId
        taskId := input.taskId
        action := .reopen
        expectedGeneration := input.expectedGeneration
        expectedResourceVersion := input.expectedResourceVersion
        appliedResourceVersion := next.metadata.resourceVersion
        appliedAt := now
        result := some (.reopen receipt) }] } receipt

/-- `reopenAppTask`, one transaction. -/
def reopenAppTask (ctx : Context) (now : Int) (reads : Reads) (input : ReopenInput) : Plan ReopenReceipt :=
  Plan.check (requireNonEmptyString input.reason "Task reopening reason") fun _ =>
  Plan.check (requireNonEmptyString input.controlKey "Task reopening control key") fun _ =>
  if input.appId ≠ ctx.appId then .throw (.error "Task reopening belongs to another App")
  else match reads.check.readControlReceipt input.controlKey with
    | some prior => replayReopen input prior
    | none =>
      let t := reads.snapshot.readTaskContext { taskIds := [input.taskId] }
      match t.resources.get input.taskId, t.cancellations.get input.taskId with
      | some r, some closure =>
        if r.metadata.generation ≠ input.expectedGeneration
            ∨ r.metadata.resourceVersion ≠ input.expectedResourceVersion then
          .throw (.error "Task version changed; read the current Task before reopening")
        else if reads.late.isCancelled r.spec.parentId then
          .throw (.error "Reopen the closed parent before its child")
        else if r.spec.executor = some "conversation" then
          .throw (.error "Conversation input must use its linked successor")
        else if input.input.isSome ∧ input.intent.isNone then
          .throw (.error "Task continuation requires the responsible App's mapped requirements")
        else
          Plan.check (reopenedSpec input r.spec) fun spec =>
          reopenPlan now input reads.late.lastEventId t r spec closure
      | _, _ => .throw (.error "Only a closed or cancelled Task can be reopened")

end MayAgent
