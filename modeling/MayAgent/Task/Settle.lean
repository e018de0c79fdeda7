import MayAgent.Task.Changes

/-!
# Settling an attempt

How the attempt of a claim ends: by an execution failure, an accepted incomplete report, an
accepted wait or an accepted outcome; and the changes a worker may apply while it keeps running.
-/

namespace MayAgent

/-! ### Currency of a claim -/

def matchingClaimAttempt (r : Option Resource) (a : Option Attempt) (claim : Claim) : Option (Resource × Attempt) :=
  match r, a with
  | some r, some a =>
    if r.status.currentAttemptId = some claim.attemptId ∧ a.state = .running
        ∧ a.taskGeneration = claim.generation ∧ a.handler = claim.handler ∧ a.specHash = claim.specHash then
      some (r, a)
    else none
  | _, _ => none

/-- The current attempt of a claim, whatever the Task's present generation. -/
def claimedAttempt (t : Tree) (claim : Claim) : Option (Resource × Attempt) :=
  matchingClaimAttempt (t.resources.get claim.taskId) (t.attempts.get claim.attemptId) claim

/-- `matchingTaskAttempt`: the claim is current for the Task's present generation too. -/
def matchingTaskAttempt (t : Tree) (claim : Claim) : Option (Resource × Attempt) :=
  (claimedAttempt t claim).filter fun m => decide (m.1.metadata.generation = claim.generation)

/-! ### The failure sequence -/

/-- The limit that one more failure reaches: of a retained exhaustion, else of the App's policy. -/
def exhaustedLimit (ctx : Context) (r : Resource) : Option Nat :=
  let limit := match r.status.retryExhausted with
    | some e => FailureLimit.count e.limit
    | none => ctx.failureLimit
  match limit with
  | .unlimited => none
  | .count n => if n ≤ r.status.executionFailures + 1 then some n else none

/-- `failedExecutionState`, on the attempt. -/
def Attempt.noteFailure (ctx : Context) (now : Int) (r : Resource) (a : Attempt) : Attempt :=
  match exhaustedLimit ctx r with
  | some limit => { a with retryExhausted := some (exhaustionOf a (r.status.executionFailures + 1) limit now) }
  | none => a

/-- `failedExecutionState`, on the status: `r` is the Task before the failure. -/
def Status.noteFailure (ctx : Context) (now : Int) (r : Resource) (a : Attempt) (st : Status) : Status :=
  let failures := r.status.executionFailures + 1
  let exhausted := (exhaustedLimit ctx r).isSome
  { st with
    phase := if exhausted then .attention else .pending
    executionFailures := failures
    executionFailureAttemptId := some a.id
    retryExhausted := (a.noteFailure ctx now r).retryExhausted
    executionRetryAt := if exhausted || r.status.freshHumanInput then none
      else some (now + taskExecutionRetryDelay failures) }

/-! ### Execution failure -/

/-- The optional details of `failAppTaskAttempt`. -/
structure FailureDetails where
  reason : Option String := none
  result : Option Event := none
  facts : Option (List String) := none
  unacceptedResult : Option Value := none

inductive FailureResult where
  | retrying (summary : String) (retryAt : Option Int)
  | exhausted (summary : String)
  | superseded (summary : String)
  deriving DecidableEq

/-- The attempt after `failAppTaskAttempt`. -/
def failedAttempt (ctx : Context) (now : Int) (r : Resource) (a : Attempt) (failure : String)
    (details : FailureDetails) : Attempt :=
  let a := (a.noteFailure ctx now r).finish .failed failure now
  { a with
    failureReason := some (details.reason.getD "HandlerExecutionFailed")
    unacceptedResult := details.unacceptedResult.or a.unacceptedResult }

/-- The Task after `failAppTaskAttempt`; `before` is the Task as it was read, `r` the Task with its
waits retained. -/
def failedResource (ctx : Context) (now : Int) (claim : Claim) (before r : Resource) (a : Attempt)
    (summary : String) (details : FailureDetails) : Resource :=
  touchResource now (r.release .failed) fun st => { Status.noteFailure ctx now before a st with
    observedGeneration := claim.generation
    currentAttemptId := none
    summary := some summary
    facts := details.facts.or st.facts
    result := details.result.or st.result }

def failAppTaskAttempt (ctx : Context) (now : Int) (reads : Reads) (claim : Claim) (failure : String)
    (details : FailureDetails) : Plan FailureResult :=
  let t := reads.snapshot.readTaskContext { taskIds := [claim.taskId] }
  match claimedAttempt t claim with
  | none => .done (.superseded failure)
  | some (r, a) =>
    let scope := beginResourceMutationScope t claim.taskId []
    let exhausted := (exhaustedLimit ctx r).isSome
    let trigger := t.taskTriggers.get claim.taskId
    Plan.check (inputOutcomeAdmissions reads.late r (some a) trigger claim.generation claim.attemptId
      { summary := failure, report := exhausted } .failure) fun (retained, _, admissions) =>
    let summary := if exhausted then
        "Automatic retries exhausted; owner repair or explicit retry required. " ++ failure
      else failure
    let next := failedResource ctx now claim r retained a summary details
    let t := ((t.setResource next).setTrigger claim.taskId (restoreAttemptEvents r a trigger now)).setAttempt
      (failedAttempt ctx now r a failure details)
    .commit { finishResourceMutationScope now scope t with admissions := admissions }
      (if exhausted then .exhausted summary else .retrying summary next.status.executionRetryAt)

/-! ### Incomplete report -/

inductive SettleResult where
  | stale
  | applied (actionsApplied reconcileTaskIds : List String) (taskContinues : Bool)
  deriving DecidableEq

def defaultTaskAcceptance (claim : Claim) (facts : List String) : AcceptanceBasis where
  method := if Text.startsWith claim.handler "workflow:" then .workflowContract else .agentJudgment
  facts := facts

/-- Keeps useful work on every input of a result's scope. -/
def retainPendingInputs (s : Store) (generation : Nat) (r : Resource) (keys : List String) : Resource :=
  keys.foldl (fun r key => retainTaskInputWait s r key (pendingWait generation (r.status.inputWaits.get key))) r

/-- The Task after `reportAppTaskFailure`. -/
def reportedResource (ctx : Context) (now : Int) (claim : Claim) (before r : Resource) (a : Attempt)
    (summary : String) (input : ResultInput) : Resource :=
  touchResource now (r.release .completed) fun st => { Status.noteFailure ctx now before a st with
    observedGeneration := claim.generation
    observedAttemptId := some claim.attemptId
    currentAttemptId := none
    summary := some summary
    response := input.response
    result := input.result
    facts := some (input.facts.getD []) }

def reportAppTaskFailure (ctx : Context) (now : Int) (reads : Reads) (claim : Claim) (input : ResultInput) :
    Plan SettleResult :=
  let t := reads.snapshot.readTaskContext { taskIds := [claim.taskId] }
  match matchingTaskAttempt t claim with
  | none => .done .stale
  | some (r, a) =>
    Plan.check (requireNonEmptyString input.summary "Incomplete report summary") fun _ =>
    Plan.check (requireStringList (input.facts.getD []) "Incomplete report facts") fun _ =>
    let scope := beginResourceMutationScope t claim.taskId []
    let exhausted := (exhaustedLimit ctx r).isSome
    let trigger := t.taskTriggers.get claim.taskId
    Plan.check (inputOutcomeAdmissions reads.late r (some a) trigger claim.generation claim.attemptId
      { input with report := input.report || exhausted } .failure) fun (retained, keys, admissions) =>
    let summary := "Outcome not achieved: " ++ Text.trim input.summary ++ "; "
      ++ (if exhausted then "automatic retries exhausted; owner repair or explicit retry required"
        else "continuing after backoff")
    let accepted := acceptedAttemptResult trigger .incomplete { input with inputKeys := some keys }
      (defaultTaskAcceptance claim (input.facts.getD []))
    let retained := retainPendingInputs reads.late claim.generation retained keys
    let a' := { a.noteFailure ctx now r with acceptedResult := some accepted }
    let next := reportedResource ctx now claim r retained a summary input
    let t := ((t.setResource next).setTrigger claim.taskId (consumeSettledTaskEvents trigger claim.agent
      accepted.acceptedLiveEventIds keys)).setAttempt (a'.finish .completed summary now)
    .commit { finishResourceMutationScope now scope t with admissions := admissions }
      (.applied [] [] false)

/-! ### Accepted outcome -/

/-- The arguments of `completeAppTask` beyond the result itself. -/
structure CompleteInput where
  result : ResultInput
  actions : List TaskAction := []
  acceptanceBasis : Option AcceptanceBasis := none
  workspace : Option (Workspace × Bool) := none

def Tree.claimed (t : Tree) (taskId : String) (r : Resource) : Resource := (t.resources.get taskId).getD r

/-- The Tasks of a snapshot that depend on one that has just converged. -/
def dependentTaskIds (t : Tree) (taskId : String) : List String :=
  (t.resources.entries.filter fun e => (e.2.spec.dependsOn.getD []).contains taskId).map Sigma.fst

def pendingWork (ctx : Context) (now : Int) (t : Tree) (taskId : String) (r : Resource) : Bool :=
  t.taskTriggers.has taskId || !(continuedTaskInputKeys ctx now t r [] []).isEmpty

/-- The Task after `completeAppTask`. -/
def completedResource (now : Int) (claim : Claim) (r : Resource) (continues : Bool) (input : ResultInput) : Resource :=
  let reviewAt := earliest (r.status.inputWaits.values.filterMap fun wait => validDeadline wait.reviewAt)
  touchResource now r fun st => { st with
    phase := if continues then .pending
      else if !st.conditionIds.isEmpty || reviewAt.isSome then .waiting
      else .converged
    reviewAt := reviewAt
    observedGeneration := claim.generation
    observedAttemptId := some claim.attemptId
    currentAttemptId := none
    summary := some input.summary
    response := input.response
    result := input.result
    facts := some (input.facts.getD []) }

def unblockedTaskIds (actions : List TaskAction) : List String :=
  actions.filterMap fun
    | .unblockTask taskId _ _ => some taskId
    | .retireCondition _ _ _ => none

def settledWorkspace (a : Attempt) (workspace : Option (Workspace × Bool)) (r : Resource) : Attempt :=
  match workspace with
  | none => a
  | some (metadata, removable) =>
    { a with workspace := some { metadata with
        released := metadata.released || (removable && decide (r.status.phase = .converged)) } }

def completeAppTask (ctx : Context) (now : Int) (reads : Reads) (claim : Claim) (input : CompleteInput) :
    Plan SettleResult :=
  let t := reads.snapshot.readTaskContext {
    taskIds := claim.taskId :: taskActionContextIds input.actions
    conditionIds := taskActionConditionIds input.actions }
  match matchingTaskAttempt t claim with
  | none => .done .stale
  | some (r, a) =>
    let trigger := t.taskTriggers.get claim.taskId
    Plan.check (inputOutcomeAdmissions reads.late r (some a) trigger claim.generation claim.attemptId input.result
      .answer) fun (retained, keys, admissions) =>
    Plan.check (validateActionFacts claim.taskId input.result.facts input.actions.length) fun _ =>
    let basis := input.acceptanceBasis.getD (defaultTaskAcceptance claim (input.result.facts.getD []))
    let t := t.setResource retained
    let scope := beginResourceMutationScope t claim.taskId input.actions
    Plan.check (applyTaskActions ctx now claim.taskId t input.actions) fun (t, actionsApplied) =>
    let accepted := acceptedAttemptResult trigger .converged { input.result with inputKeys := some keys } basis
    let t := t.setTrigger claim.taskId (consumeSettledTaskEvents trigger claim.agent accepted.acceptedLiveEventIds keys)
    let t := unlinkSatisfiedTaskConditions now t claim.taskId
    let a' := { a with acceptedResult := some accepted }.finish .completed input.result.summary now
    let released := (t.claimed claim.taskId retained).release .completed
    let t := t.setResource released
    let continues := pendingWork ctx now t claim.taskId released
    let dependents := (unblockedTaskIds input.actions ++ (if continues then [claim.taskId] else [])
      ++ (if continues then [] else dependentTaskIds t claim.taskId)).eraseDups
    let scope := dependents.foldl (trackResourceMutationTask t) scope
    let next := completedResource now claim released continues input.result
    let t := (t.setResource next).setAttempt (settledWorkspace a' input.workspace next)
    .commit { finishResourceMutationScope now scope t with admissions := admissions }
      (.applied actionsApplied dependents continues)

/-! ### Accepted wait -/

/-- The arguments of `deferAppTask` beyond the result itself. -/
structure DeferInput where
  result : ResultInput
  continue_ : Bool := false
  actions : List TaskAction := []
  conditions : List ConditionDecl := []

/-- The stored Conditions among `ids` that the Task links, with their generations. -/
def linkedConditionRefs (t : Tree) (r : Resource) (ids : List String) : List ConditionRef :=
  ids.filterMap fun id =>
    if r.status.conditionIds.contains id then (t.conditions.get id).map fun c => ⟨id, c.generation⟩ else none

/-- The wait `deferAppTask` records for one input of its scope: the input keeps its own waits and
adds only the Conditions declared while handling it. -/
def deferredWait (t : Tree) (r : Resource) (generation : Nat) (continue_ : Bool) (declared : List String)
    (reviewAt : Option Int) (key : String) : InputWait :=
  let previous := ((r.status.inputWaits.get key).map InputWait.conditions).getD []
  { taskGeneration := generation
    pending := continue_
    conditions := linkedConditionRefs t r (previous.map ConditionRef.id ++ declared).eraseDups
    reviewAt := reviewAt }

def retainDeferredInputs (s : Store) (t : Tree) (generation : Nat) (continue_ : Bool) (declared : List String)
    (reviewAt : Option Int) (r : Resource) (keys : List String) : Resource :=
  keys.foldl (fun r key =>
    retainTaskInputWait s r key (deferredWait t r generation continue_ declared reviewAt key)) r

/-- The deadline a wait keeps when its result does not set one. -/
def retainedReviewAt (now : Int) (r : Resource) (keys : List String) : Option Int :=
  earliest ((r.status.reviewAt.toList ++ keys.filterMap fun key => (r.status.inputWaits.get key).bind InputWait.reviewAt).filter
    fun at_ => isSafeInteger at_ && decide (now < at_))

/-- The Task after `deferAppTask`. -/
def deferredResource (now : Int) (claim : Claim) (r : Resource) (runnable : Bool) (reviewAt : Option Int)
    (input : ResultInput) : Resource :=
  touchResource now r fun st => { st with
    phase := if runnable then .pending else .waiting
    observedGeneration := claim.generation
    observedAttemptId := some claim.attemptId
    currentAttemptId := none
    summary := some input.summary
    response := input.response
    result := input.result
    reviewAt := reviewAt
    facts := some (input.facts.getD []) }

/-- Applies events that arrived during the attempt to the waits of the snapshot, and tracks the
Tasks they wake. -/
def applyPendingEvents (ctx : Context) (lookup : AttemptLookup) (now : Int) :
    List TriggerEvent → Tree → MutationScope → Tree × MutationScope
  | [], t, scope => (t, scope)
  | entry :: events, t, scope =>
    let (t, wakes, _) := applyConditionEvent ctx lookup now t entry.event none
    applyPendingEvents ctx lookup now events t ((wakes.map Prod.fst).foldl (trackResourceMutationTask t) scope)

def deferReviewAt (now : Int) (taskId : String) (r : Resource) (keys : List String) (declared : Option Int) :
    Except TaskError (Option Int) :=
  let reviewAt := declared.or (retainedReviewAt now r keys)
  if reviewAt.any fun at_ => !isSafeInteger at_ || decide (at_ ≤ 0) then
    .error (.error ("Waiting result for " ++ taskId
      ++ " reviewAt must be a positive Unix timestamp in milliseconds"))
  else .ok reviewAt

/-- The declared Conditions may not retire what they declare again. -/
def checkRedeclared (actions : List TaskAction) (conditions : List ConditionDecl) : Except TaskError Unit :=
  let retired := actions.filterMap fun
    | .retireCondition conditionId _ _ => some conditionId
    | .unblockTask _ _ _ => none
  match conditions.find? fun c => retired.contains c.id with
  | some c => .error (.error ("Task result cannot retire and redeclare Condition " ++ c.id))
  | none => .ok ()

/-- `materializeWaitingConditions`, called only for a non-empty declaration. -/
def declareConditions (now : Int) (taskId : String) (t : Tree) (conditions : List ConditionDecl) :
    Except TaskError Tree :=
  if conditions.isEmpty then .ok t else materializeWaitingConditions now taskId t conditions

/-- A sleeping attempt needs some route on which it returns. -/
def checkReturnRoute (taskId : String) (continue_ : Bool) (reviewAt : Option Int) (openConditions hadSatisfied
    hasPending : Bool) : Except TaskError Unit :=
  if !continue_ && reviewAt.isNone && !openConditions && !hadSatisfied && !hasPending then
    .error (.error ("Waiting result for " ++ taskId ++ " requires at least one exact Condition"))
  else .ok ()

/-- What a deferral reads: its Task, the Tasks its actions name, and the Conditions it declares or
retires. -/
def DeferInput.scope (claim : Claim) (input : DeferInput) : Store.Scope where
  taskIds := claim.taskId :: taskActionContextIds input.actions
  conditionIds := taskActionConditionIds input.actions
    ++ (input.conditions.filter fun c => Text.nonEmpty c.id).map ConditionDecl.id

def deferAppTask (ctx : Context) (now : Int) (reads : Reads) (claim : Claim) (input : DeferInput) :
    Plan SettleResult :=
  let t := reads.snapshot.readTaskContext (input.scope claim)
  match matchingTaskAttempt t claim with
  | none => .done .stale
  | some (r, a) =>
    let trigger := t.taskTriggers.get claim.taskId
    Plan.check (inputOutcomeAdmissions reads.late r (some a) trigger claim.generation claim.attemptId input.result
      (if input.result.report then .progress else .retain)) fun (retained, keys, admissions) =>
    Plan.check (deferReviewAt now claim.taskId retained keys input.result.reviewAt) fun reviewAt =>
    let accepted := { acceptedAttemptResult trigger .waiting
        { input.result with reviewAt := reviewAt, inputKeys := some keys }
        (defaultTaskAcceptance claim (input.result.facts.getD [])) with
      report := input.result.report
      continue_ := input.continue_ }
    let trigger := consumeSettledTaskEvents trigger claim.agent accepted.acceptedLiveEventIds keys
    let pendingEvents := pendingTriggerEvents trigger
    let t := (t.setResource retained).setTrigger claim.taskId trigger
    Plan.check (validateActionFacts claim.taskId input.result.facts input.actions.length) fun _ =>
    let scope := beginResourceMutationScope t claim.taskId input.actions
    Plan.check (applyTaskActions ctx now claim.taskId t input.actions) fun (t, actionsApplied) =>
    Plan.check (validateConditions claim.taskId input.conditions) fun _ =>
    Plan.check (checkRedeclared input.actions input.conditions) fun _ =>
    let a' := { a with acceptedResult := some accepted }.finish .completed input.result.summary now
    let t := t.setResource ((t.claimed claim.taskId retained).release .completed)
    Plan.check (declareConditions now claim.taskId t input.conditions) fun t =>
    let hadSatisfied := hasSatisfiedTaskCondition t (t.claimed claim.taskId retained)
    let t := unlinkSatisfiedTaskConditions now t claim.taskId
    let r := t.claimed claim.taskId retained
    let openConditions := r.status.conditionIds.any fun id => (t.conditions.get id).any fun c => decide (c.state ≠ .met)
    Plan.check (checkReturnRoute claim.taskId input.continue_ reviewAt openConditions hadSatisfied
      (!pendingEvents.isEmpty)) fun _ =>
    let waiting := retainDeferredInputs reads.late t claim.generation input.continue_
      (input.conditions.map ConditionDecl.id) reviewAt r keys
    let runnable := !(continuedTaskInputKeys ctx now t waiting [] []).isEmpty || input.continue_
      || (hadSatisfied && !openConditions && reviewAt.isNone) || !pendingEvents.isEmpty
    let next := deferredResource now claim waiting runnable reviewAt input.result
    let t := (t.setResource next).setAttempt a'
    let (t, scope) := applyPendingEvents ctx (reads.late.attemptLookup ctx) now pendingEvents t scope
    .commit { finishResourceMutationScope now scope t with admissions := admissions }
      (.applied actionsApplied
        (unblockedTaskIds input.actions ++ if next.status.phase = .pending then [claim.taskId] else []).eraseDups false)

/-! ### Changes during the attempt -/

/-- The arguments of `applyRunningTaskChanges`. -/
structure ChangeInput where
  operationKey : String
  actionReceiptKeys : List String := []
  replayedActions : List String := []
  requests : List (String × String) := []
  communication : Option Value := none
  conditions : List ConditionDecl := []
  actions : List TaskAction := []
  facts : Option (List String) := none
  inputKeys : Option (List String) := none
  acceptedLiveEventIds : List Int := []

/-- The wait of an input that a running attempt keeps working on. -/
def changedWait (t : Tree) (r : Resource) (generation : Nat) (declared : List String) (key : String) : InputWait :=
  let previous := r.status.inputWaits.get key
  let ids := ((previous.map InputWait.conditions).getD []).map ConditionRef.id ++ declared
  { taskGeneration := generation
    pending := true
    conditions := linkedConditionRefs t r ids.eraseDups
    reviewAt := previous.bind InputWait.reviewAt }

def retainChangedInputs (s : Store) (t : Tree) (generation : Nat) (declared : List String) (r : Resource)
    (keys : List String) : Resource :=
  keys.foldl (fun r key => retainTaskInputWait s r key (changedWait t r generation declared key)) r

def recordChange (a : Attempt) (input : ChangeInput) (actionsApplied : List String) (receipt : ChangeReceipt) : Attempt :=
  let actionReceipts := (input.actionReceiptKeys.zip actionsApplied).foldl
    (fun receipts entry => receipts.put entry.1 { requests := [], conditionIds := [], actionsApplied := [entry.2] })
    a.changeReceipts
  { a with
    changeReceipts := actionReceipts.put input.operationKey receipt
    resourceVersion := a.resourceVersion + 1 }

def applyRunningTaskChanges (ctx : Context) (now : Int) (reads : Reads) (claim : Claim) (input : ChangeInput) :
    Plan ChangeReceipt :=
  let t := reads.snapshot.readTaskContext {
    taskIds := claim.taskId :: taskActionContextIds input.actions
    conditionIds := taskActionConditionIds input.actions ++ input.conditions.map ConditionDecl.id }
  match matchingTaskAttempt t claim with
  | none => .throw (.error "Task changes require a current running attempt")
  | some (r, a) =>
    Plan.check (resultInputKeys reads.late (some a) (t.taskTriggers.get claim.taskId) claim.taskId claim.generation
      input.acceptedLiveEventIds input.inputKeys) fun keys =>
    Plan.check (validateActionFacts claim.taskId input.facts input.actions.length) fun _ =>
    Plan.check (validateConditions claim.taskId input.conditions) fun _ =>
    let scope := beginResourceMutationScope t claim.taskId input.actions
    Plan.check (applyTaskActions ctx now claim.taskId t input.actions) fun (t, actionsApplied) =>
    Plan.check (declareConditions now claim.taskId t input.conditions) fun t =>
    let declared := input.conditions.map ConditionDecl.id
    let waiting := retainChangedInputs reads.late t claim.generation declared (t.claimed claim.taskId r) keys
    let receipt : ChangeReceipt := {
      requests := input.requests
      conditionIds := declared
      actionsApplied := input.replayedActions ++ actionsApplied
      communication := input.communication }
    let next := touchResource now waiting id
    let t := (t.setResource next).setAttempt (recordChange a input actionsApplied receipt)
    .commit (finishResourceMutationScope now scope t) receipt

end MayAgent
