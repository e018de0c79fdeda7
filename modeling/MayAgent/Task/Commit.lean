import Mathlib.Algebra.Group.Int.Defs
import MayAgent.Task.Store

/-!
# The fenced transaction

`commit` checks every fence of a mutation against the stored rows and applies all of its writes,
or none. The recovery columns are derived again for each written row (`putTask`).
-/

namespace MayAgent

/-! ### Retry state of a Task -/

/-- `taskExecutionRetryExhausted`: a fresh human input permits one claim in spite of exhaustion. -/
def taskExecutionRetryExhausted (r : Resource) : Bool :=
  r.status.retryExhausted.isSome && !r.status.freshHumanInput

def pendingTaskExecutionRetryAt (r : Resource) (now : Int) : Option Int :=
  r.status.executionRetryAt.filter fun at_ => decide (now < at_)

def taskAdmissionRetryDelay (failures : Nat) : Int := min (60 * 60000) (250 * 2 ^ min 14 (failures - 1))

def taskExecutionRetryDelay (failures : Nat) : Int := min (60 * 60000) (30000 * 2 ^ min 7 (failures - 1))

def taskEventPredatesReopening (r : Resource) (e : Event) : Bool :=
  match r.metadata.reopenedAfterEventId, e.field "eventId" with
  | some fence, some (.num id) => decide (id ≤ fence)
  | _, _ => false

/-! ### Mutations -/

/-- `TaskMutationFence`. An absent generation or attempt id is not checked. -/
structure Fence where
  taskId : String
  resourceVersion : Nat
  generation : Option Nat := none
  currentAttemptId : Option (Option String) := none
  deriving DecidableEq

def Resource.fence (r : Resource) : Fence where
  taskId := r.metadata.id
  resourceVersion := r.metadata.resourceVersion
  generation := some r.metadata.generation
  currentAttemptId := some r.status.currentAttemptId

/-- `TaskResourceWrite`. -/
structure TaskWrite where
  resource : Resource
  trigger : Option Trigger
  ready : Bool
  nextCheckAt : Option Int := none

/-- `AppTaskResourceMutation`, without the deletions no operation asks for. -/
structure Mutation where
  fences : List Fence
  requireUnpausedTask : Option String := none
  expectMissingTaskIds : List String := []
  tasks : List TaskWrite := []
  attempts : List Attempt := []
  conditions : List Condition := []
  deleteConditionIds : List String := []
  pruneConditionIds : List String := []
  admissions : List (String × Admission) := []
  cancellations : List Cancellation := []
  reopenTaskIds : List String := []
  controlReceipts : List ControlReceipt := []

namespace Store

/-! ### Row writes -/

def taskChanged (r : Resource) (trigger : Option Trigger) : Bool :=
  trigger.isSome || (decide (r.status.phase ≠ .running) && decide (r.status.observedGeneration < r.metadata.generation))

/-- The lease deadline of an attempt row. -/
def attemptLeaseUntil (attempts : Table String Attempt) (attemptId : Option String) : Option Int :=
  (attemptId.bind attempts.get).bind fun a => a.lease.map Lease.expiresAt

/-- The row `putTask` stores: a cooldown or an exhausted allowance withholds the ready hints. -/
def taskRow (now : Int) (attempts : Table String Attempt) (w : TaskWrite) : Row :=
  let retryAt := pendingTaskExecutionRetryAt w.resource now
  let exhausted := taskExecutionRetryExhausted w.resource
  { resource := w.resource
    trigger := w.trigger
    ready := retryAt.isNone && !exhausted && w.ready
    changed := retryAt.isNone && !exhausted && taskChanged w.resource w.trigger
    nextCheckAt := retryAt.or w.nextCheckAt
    leaseUntil := attemptLeaseUntil attempts w.resource.status.currentAttemptId }

/-- The journal ids of a trigger's events, kept after the trigger is consumed. -/
def triggerEventIds (taskId : String) (trigger : Option Trigger) : List (String × Int) :=
  (pendingTriggerEvents trigger).filterMap fun entry => (eventId? entry.event).map fun id => (taskId, id)

def putTask (now : Int) (s : Store) (w : TaskWrite) : Store :=
  { s with
    tasks := s.tasks.put w.resource.metadata.id (taskRow now s.attempts w)
    taskEvents := s.taskEvents ++ triggerEventIds w.resource.metadata.id w.trigger }

def putAttempt (s : Store) (a : Attempt) : Store :=
  { s with
    attempts := s.attempts.put a.id a
    tasks := match s.tasks.get a.taskId with
      | some row =>
        if a.state = .running ∧ row.resource.status.currentAttemptId = some a.id then
          s.tasks.put a.taskId { row with leaseUntil := a.lease.map Lease.expiresAt }
        else s.tasks
      | none => s.tasks }

def deleteCondition (s : Store) (conditionId : String) : Store :=
  { s with
    routes := s.routes.filter fun route => route.2 != conditionId
    conditions := s.conditions.drop conditionId }

def putCondition (s : Store) (c : Condition) : Store := { s with conditions := s.conditions.put c.id c }

/-- `putTaskConditionRoutes`: a Task is routed to the linked Conditions that are stored. -/
def putTaskConditionRoutes (s : Store) (r : Resource) : Store :=
  { s with
    routes := (s.routes.filter fun route => route.1 != r.metadata.id)
      ++ ((r.status.conditionIds.filter s.conditions.has).eraseDups.map fun id => (r.metadata.id, id)) }

def pruneCondition (s : Store) (conditionId : String) : Store :=
  if s.routes.any fun route => route.2 == conditionId then s
  else { s with conditions := s.conditions.drop conditionId }

/-! ### Checks -/

def fenceHolds (s : Store) (f : Fence) : Bool :=
  match s.tasks.get f.taskId with
  | none => false
  | some row =>
    decide (row.resource.metadata.resourceVersion = f.resourceVersion)
      && f.generation.all (fun g => decide (row.resource.metadata.generation = g))
      && f.currentAttemptId.all (fun a => decide (row.resource.status.currentAttemptId = a))

/-- A Task that would be stopped by its own App must not have an open child. -/
def stopsParent (s : Store) (c : Cancellation) : Bool :=
  (match c.decidedBy with
    | some (.app _ _) => true
    | _ => false)
    && s.tasks.entries.any fun e => Text.trim e.2.resource.spec.parentId == c.taskId && !s.isCancelled e.1

def attachesToClosed (s : Store) (w : TaskWrite) : Bool :=
  decide ((s.readTask w.resource.metadata.id).map (fun r => r.spec.parentId) ≠ some w.resource.spec.parentId)
    && s.isCancelled w.resource.spec.parentId

def changesCreator (s : Store) (w : TaskWrite) : Bool :=
  (s.readTask w.resource.metadata.id).any fun previous =>
    decide (previous.metadata.creator ≠ w.resource.metadata.creator)

/-- A reopening archives the exact closure under a receipt and starts the next generation. -/
def reopenAllowed (s : Store) (m : Mutation) (taskId : String) : Bool :=
  match s.readCancellation taskId,
      m.controlReceipts.find? (fun receipt => receipt.taskId == taskId && decide (receipt.action = .reopen)),
      m.tasks.find? (fun w => w.resource.metadata.id == taskId) with
  | some closure, some receipt, some next =>
    (match receipt.result with
      | some (.reopen result) => decide (result.closure = closure)
      | _ => false)
      && decide (receipt.expectedGeneration = closure.generation)
      && decide (receipt.expectedResourceVersion = closure.resourceVersion)
      && decide (next.resource.metadata.generation = closure.generation + 1)
      && m.fences.any (fun f => f.taskId == taskId && f.resourceVersion == closure.resourceVersion)
  | _, _, _ => false

/-- The checks of `commit`, in its order. -/
def commitGuard (ctx : Context) (s : Store) (m : Mutation) : Except TaskError Unit :=
  if m.fences.isEmpty && m.expectMissingTaskIds.isEmpty then
    .error (.error "Task resource mutation requires at least one existing or missing-task fence")
  else if !m.requireUnpausedTask.all s.allowsTaskExecution then .error .mutationStale
  else if !m.fences.all s.fenceHolds then .error .mutationStale
  else if m.expectMissingTaskIds.any s.tasks.has then .error .mutationStale
  else if m.cancellations.any s.stopsParent then .error .mutationStale
  else if m.tasks.any s.changesCreator then .error (.error "Task creator is immutable")
  else if m.tasks.any s.attachesToClosed then .error .mutationStale
  else if !m.reopenTaskIds.all (s.reopenAllowed m) then
    .error (.error "Task reopening requires its exact closure, next generation and durable control receipt")
  else if m.cancellations.any (fun c => c.appId != ctx.appId) then
    .error (.error "Task cancellation belongs to another App")
  else if m.cancellations.any (fun c => s.isCancelled c.taskId && !m.reopenTaskIds.contains c.taskId) then
    .error (.error "UNIQUE constraint failed: app_task_cancellations.app_id, app_task_cancellations.task_id")
  else if m.controlReceipts.any (fun r => r.appId != ctx.appId) then
    .error (.error "Task control receipt belongs to another App")
  else if m.controlReceipts.any (fun r => s.controlReceipts.has r.controlKey) then
    .error (.error "UNIQUE constraint failed: app_task_control_receipts.control_key")
  else .ok ()

/-- The writes of `commit`, in its order. -/
def applyMutation (now : Int) (s : Store) (m : Mutation) : Store :=
  let s := { s with cancellations := s.cancellations.dropAll m.reopenTaskIds }
  let s := m.tasks.foldl (putTask now) s
  let s := m.attempts.foldl putAttempt s
  let s := m.deleteConditionIds.foldl deleteCondition s
  let s := m.conditions.foldl putCondition s
  let s := m.tasks.foldl (fun s w => s.putTaskConditionRoutes w.resource) s
  let s := m.pruneConditionIds.foldl pruneCondition s
  { s with
    admissions := m.admissions.foldl (fun t a => t.put a.1 a.2) s.admissions
    cancellations := s.cancellations.putAll Cancellation.taskId m.cancellations
    controlReceipts := s.controlReceipts.putAll ControlReceipt.controlKey m.controlReceipts
    revision := s.revision + 1 }

/-- `commit`. A rejected mutation leaves the store as it was. -/
def commit (ctx : Context) (now : Int) (s : Store) (m : Mutation) : Except TaskError Store :=
  match s.commitGuard ctx m with
  | .error e => .error e
  | .ok () => .ok (s.applyMutation now m)

/-! ### Writes outside `commit` -/

/-- `setRecoveryState`, as `acknowledgeIndexedRecoveryWait` calls it: the hints of a durably
blocked Task are cleared unless the store has changed since it was read. -/
def setRecoveryState (now : Int) (s : Store) (taskId : String) (nextCheckAt : Option Int)
    (expectedRevision : Nat) : Store :=
  match s.tasks.get taskId with
  | none => s
  | some row =>
    if s.revision ≠ expectedRevision ∨ s.isCancelled taskId = true then s
    else
      { s with tasks := s.tasks.put taskId { row with
          ready := false
          changed := false
          nextCheckAt := (pendingTaskExecutionRetryAt row.resource now).or nextCheckAt } }

/-- `persistExactTaskWake` of the event journal: the journal row `eventId` is written together with
the wake of the Task it targets. -/
def persistExactTaskWake (s : Store) (appId taskId : String) (e : Event) (eventId : Int) (observedAt : Int) :
    Except TaskError Store :=
  match s.tasks.get taskId with
  | none => .error (.error ("Task emission target does not exist: " ++ appId ++ "/" ++ taskId))
  | some row =>
    let canonical := e.assign "eventId" (.num eventId)
    let previousEvents := match row.trigger with
      | some t => if t.events.isEmpty then [⟨t.event, t.observedAt⟩] else t.events
      | none => []
    let trigger : Trigger := {
      taskId := taskId
      taskGeneration := row.resource.metadata.generation
      resourceVersion := (row.trigger.map Trigger.resourceVersion).getD 0 + 1
      events := previousEvents ++ [⟨canonical, observedAt⟩]
      event := canonical
      observedAt := observedAt }
    .ok { s with
      tasks := s.tasks.put taskId { row with
        resource := { row.resource with metadata := { row.resource.metadata with
          resourceVersion := row.resource.metadata.resourceVersion + 1 } }
        trigger := some trigger
        changed := true
        ready := true }
      taskEvents := s.taskEvents ++ [(taskId, eventId)]
      revision := s.revision + 1
      lastEventId := max s.lastEventId eventId }

end Store

end MayAgent
