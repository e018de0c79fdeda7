import MayAgent.Lib.Json
import MayAgent.Lib.Table

/-!
# Task records

The persisted records of the Task reconciler (`app-task-state.ts`, `app-task-store.ts` and the
SDK's `task.ts`). Times are milliseconds. A list or a record that the source may leave out is
empty where the source reads an absent one as empty, and an `Option` where it tells them apart.
-/

namespace MayAgent

/-! ### Desired state -/

inductive Phase where
  | pending | running | converged | waiting | attention
  deriving DecidableEq, Repr

inductive Lane where
  | human | normal
  deriving DecidableEq, Repr

inductive Priority where
  | p0 | p1 | p2 | p3
  deriving DecidableEq, Repr

/-- `ResourceCreator`: the context that may change a Task's requirements. -/
structure Creator where
  appId : String
  taskId : Option String
  deriving DecidableEq

/-- `TaskIntent`: a desired outcome handed to the reconciler. -/
structure Intent where
  id : String
  parentId : String
  outcome : String
  acceptance : List String
  agent : Option String := none
  owner : Option String := none
  workflow : Option String := none
  executor : Option String := none
  input : Option Event := none
  outputs : Option (List String) := none
  dependsOn : Option (List String) := none
  priority : Option Priority := none
  category : Option String := none
  deriving DecidableEq

/-- `AppTaskResource["spec"]`. -/
structure Spec where
  parentId : String
  outcome : String
  acceptance : List String
  owner : Option String := none
  workflow : Option String := none
  executor : Option String := none
  input : Option Event := none
  outputs : Option (List String) := none
  dependsOn : Option (List String) := none
  priority : Option Priority := none
  category : Option String := none
  deriving DecidableEq

/-- The fields `taskSpecHash` digests. A digest is represented by what it is taken of. -/
structure SpecHash where
  outcome : String
  acceptance : List String
  mode : Option String
  owner : Option String
  workflow : Option String
  executor : String
  input : Event
  outputs : List String
  dependsOn : List String
  deriving DecidableEq

/-! ### Task resources -/

structure ConditionRef where
  id : String
  generation : Nat
  deriving DecidableEq

/-- `AppTaskInputWait`: how an admitted, unanswered input returns to the agent. -/
structure InputWait where
  taskGeneration : Nat
  pending : Bool
  conditions : List ConditionRef
  reviewAt : Option Int
  deriving DecidableEq

/-- `AppTaskRetryExhaustion`. -/
structure RetryExhaustion where
  generation : Nat
  attemptId : String
  failures : Nat
  limit : Nat
  exhaustedAt : Int
  deriving DecidableEq

/-- `AppTaskResource["metadata"]`. -/
structure Metadata where
  id : String
  creator : Option Creator
  generation : Nat
  resourceVersion : Nat
  reopenedAfterEventId : Option Int
  deriving DecidableEq

/-- `AppTaskResource["status"]`. The two failure counters are read as zero when absent. Rows that
predate `executionFailureAttemptId` are outside the model, so the field is an id or `null`. -/
structure Status where
  observedGeneration : Nat
  phase : Phase
  lane : Option Lane := none
  currentAttemptId : Option String := none
  observedAttemptId : Option String := none
  workspaceAttemptId : Option String := none
  executionFailures : Nat := 0
  executionFailureAttemptId : Option String := none
  admissionFailures : Nat := 0
  retryExhausted : Option RetryExhaustion := none
  executionRetryAt : Option Int := none
  reviewAt : Option Int := none
  freshHumanInput : Bool := false
  summary : Option String := none
  response : Option String := none
  result : Option Event := none
  facts : Option (List String) := none
  conditionIds : List String := []
  inputWaits : Table String InputWait := ∅
  updatedAt : Int
  deriving DecidableEq

/-- `AppTaskResource`. -/
structure Resource where
  metadata : Metadata
  spec : Spec
  status : Status
  deriving DecidableEq

/-! ### Events and attempts -/

/-- `AppTaskTriggerEvent`. -/
structure TriggerEvent where
  event : Event
  observedAt : Int
  deriving DecidableEq

/-- `AppTaskTrigger`: the input not yet claimed by an attempt. -/
structure Trigger where
  taskId : String
  taskGeneration : Nat
  resourceVersion : Nat
  events : List TriggerEvent
  event : Event
  observedAt : Int
  deriving DecidableEq

inductive AttemptState where
  | running | completed | failed | interrupted
  deriving DecidableEq, Repr

inductive ResultState where
  | converged | waiting | incomplete
  deriving DecidableEq, Repr

inductive AcceptanceMethod where
  | deterministic | workflowContract | agentJudgment
  deriving DecidableEq, Repr

/-- `TaskAcceptanceBasis`. -/
structure AcceptanceBasis where
  method : AcceptanceMethod
  verifier : Option String := none
  facts : List String
  deriving DecidableEq

/-- `AppTaskAttempt["acceptedResult"]`. -/
structure AcceptedResult where
  state : ResultState
  reviewAt : Option Int := none
  continue_ : Bool := false
  report : Bool := false
  summary : String
  response : Option String := none
  result : Option Event := none
  facts : List String
  acceptanceBasis : Option AcceptanceBasis := none
  acceptedLiveEventIds : List Int := []
  inputKeys : Option (List String) := none
  deriving DecidableEq

/-- `AppTaskAttemptLease`. -/
structure Lease where
  id : String
  version : Nat
  lastActivityAt : Int
  expiresAt : Int
  runtimeId : String
  sessionId : Option String
  deriving DecidableEq

inductive WorkspaceDisposition where
  | active | retainedForRecovery | branchRetained | removed
  deriving DecidableEq, Repr

/-- `AppTaskWorkspace`. -/
structure Workspace where
  path : String
  baseRef : String
  baseCommit : String
  branch : String
  headCommit : String
  released : Bool
  disposition : WorkspaceDisposition
  cleanupError : Option String
  deriving DecidableEq

/-- `TaskChangeReceipt`, with its communication receipts as one value. -/
structure ChangeReceipt where
  requests : List (String × String)
  conditionIds : List String
  actionsApplied : List String
  communication : Option Value := none
  deriving DecidableEq

/-- `AppTaskAttempt`. -/
structure Attempt where
  id : String
  resourceVersion : Nat
  taskId : String
  taskGeneration : Nat
  specHash : SpecHash
  owner : String
  handler : String
  runtimeId : String
  state : AttemptState
  reason : String
  changeReceipts : Table String ChangeReceipt := ∅
  events : List TriggerEvent := []
  eventsTruncated : Bool := false
  continuedInputKeys : List String := []
  acceptedResult : Option AcceptedResult := none
  trigger : Option Event := none
  startedAt : Int
  finishedAt : Option Int := none
  summary : Option String := none
  failureReason : Option String := none
  retryExhausted : Option RetryExhaustion := none
  unacceptedResult : Option Value := none
  sessionId : Option String := none
  lease : Option Lease := none
  workspace : Option Workspace := none
  deriving DecidableEq

/-! ### Conditions -/

/-- `Condition["progress"]`. -/
inductive ProgressInterest where
  | immediate | nextWake
  deriving DecidableEq, Repr

/-- `AppTaskCondition["spec"]`. -/
structure ConditionSpec where
  type : String
  subject : String
  expected : Value
  requestedAction : Option String := none
  owner : Option String := none
  reviewAfterMs : Option Int := none
  progress : Option ProgressInterest := none
  deriving DecidableEq

inductive ConditionState where
  | unknown | unmet | met
  deriving DecidableEq, Repr

inductive ReportKind where
  | progress | failure | unknown
  deriving DecidableEq, Repr

/-- `AppTaskCondition`. The states `"false"` and `"true"` are `unmet` and `met`. -/
structure Condition where
  id : String
  generation : Nat
  resourceVersion : Nat
  spec : ConditionSpec
  observedGeneration : Nat
  state : ConditionState
  createdAt : Option Int := none
  observed : Option Value := none
  reports : Table ReportKind Event := ∅
  observedAt : Option Int := none
  facts : Option (List String) := none
  deriving DecidableEq

/-! ### Admissions, closures and control receipts -/

/-- One selected report of an admission's `feedback`. -/
structure Selection where
  attemptId : String
  revision : Nat
  legacyBlocked : Bool := false
  deriving DecidableEq

/-- `AppTaskAdmission`. -/
structure Admission where
  taskId : String
  taskGeneration : Nat
  specHash : SpecHash
  admittedAt : Int
  inputEvent : Option Event := none
  resultAttemptId : Option String := none
  progress : Option Selection := none
  failure : Option Selection := none
  reportAttemptId : Option String := none
  reportRevision : Option Nat := none
  deriving DecidableEq

/-- `appId.replace(/\.app$/, "")`. -/
def stripAppSuffix (appId : String) : String :=
  if Text.endsWith appId ".app" then String.ofList (appId.toList.take (appId.length - 4)) else appId

inductive ClosureKind where
  | closed | cancelled
  deriving DecidableEq, Repr

inductive Decider where
  | human
  | app (agent attemptId : String)
  | appPolicy
  | creator (creator : Creator)
  deriving DecidableEq

/-- `AppTaskCancellation`. -/
structure Cancellation where
  kind : Option ClosureKind
  acceptedResultAttemptId : Option String
  appId : String
  taskId : String
  generation : Nat
  resourceVersion : Nat
  outcome : String
  reason : String
  summary : String
  cancelledAt : Int
  decidedBy : Option Decider
  response : Option String
  result : Option Event
  facts : Option (List String)
  deriving DecidableEq

/-- `AppTaskRetryReceipt`; its constant `action` and `disposition` are left out. -/
structure RetryReceipt where
  receiptId : String
  appId : String
  taskId : String
  generation : Nat
  previousResourceVersion : Nat
  resourceVersion : Nat
  previousAttemptId : String
  acceptedAt : Int
  deriving DecidableEq

/-- The result of `reopenAppTask`. -/
structure ReopenReceipt where
  taskId : String
  generation : Nat
  resourceVersion : Nat
  closure : Cancellation
  reason : String
  input : Option Value
  admissionKey : Option String
  deriving DecidableEq

inductive ControlAction where
  | retry | cancel | reopen
  deriving DecidableEq, Repr

inductive ControlResult where
  | retry (receipt : RetryReceipt)
  | reopen (receipt : ReopenReceipt)
  deriving DecidableEq

/-- `AppTaskControlReceipt`. -/
structure ControlReceipt where
  controlKey : String
  appId : String
  taskId : String
  action : ControlAction
  expectedGeneration : Nat
  expectedResourceVersion : Nat
  appliedResourceVersion : Nat
  appliedAt : Int
  result : Option ControlResult
  deriving DecidableEq

/-- `TaskGroup`: a structural container without lifecycle. -/
structure Group where
  id : String
  parentId : Option String
  owner : Option String
  deriving DecidableEq

/-! ### Configuration -/

/-- `AppTaskPolicy["maxConsecutiveFailures"]`. -/
inductive FailureLimit where
  | unlimited
  | count (n : Nat)
  deriving DecidableEq

/-- `AppTaskContext` of one process: the App's configuration, the identity of the running
reconciler, and the parts of the host it consults (the date parser of the platform and the
attempts of the host's other Apps). -/
structure Context where
  appId : String
  agent : String
  projectId : String
  project : String
  runtimeId : String
  maxConsecutiveFailures : Option FailureLimit
  dateParse : String → Option Int
  foreignAttempt : String → String → Option Attempt

/-! ### Errors -/

/-- What a reconciler operation throws. -/
inductive TaskError where
  | error (message : String)
  | admission (message : String)
  | actionStale (taskId : String) (expectedGeneration currentGeneration : Nat)
      (currentPhase : Option Phase) (reason : Option String)
  | mutationStale
  deriving DecidableEq

def Phase.text : Phase → String
  | .pending => "pending"
  | .running => "running"
  | .converged => "converged"
  | .waiting => "waiting"
  | .attention => "attention"

/-- The message of an error, as its constructor builds it. -/
def TaskError.message : TaskError → String
  | .error m => m
  | .admission m => m
  | .actionStale taskId expected current phase reason =>
    match reason with
    | some reason => "Handler effect for " ++ taskId ++ " is stale: " ++ reason
    | none =>
      match phase with
      | some phase => "Handler action for " ++ taskId ++ " is stale: target phase is now " ++ phase.text
      | none =>
        "Handler action for " ++ taskId ++ " is stale: expected generation " ++ toString expected
          ++ ", current " ++ toString current
  | .mutationStale => "Resource-backed task mutation was rejected by a stale fence"

end MayAgent
