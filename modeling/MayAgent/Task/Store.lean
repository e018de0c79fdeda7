import MayAgent.Lib.Closure
import MayAgent.Task.Conditions

/-!
# The Task resource store

The tables of one App (`app-task-resource-store.ts`), the bounded snapshot an operation reads
(`readTaskContext`) and the fenced transaction it writes with (`commit`). Relations between Tasks
are a function of the stored specifications, which every Task write refreshes, so they have no
table of their own.
-/

namespace MayAgent

/-- A row of `app_tasks`: the resource, its pending trigger and the columns of the recovery index. -/
structure Row where
  resource : Resource
  trigger : Option Trigger
  ready : Bool
  changed : Bool
  nextCheckAt : Option Int
  leaseUntil : Option Int
  deriving DecidableEq

inductive Lifecycle where
  | active | paused
  deriving DecidableEq, Repr

/-- The state of one App. `routes` pairs a Task with a Condition, `taskEvents` a Task with the
journal id of an event it received, `humanInput` lists the Tasks with a pending human Conversation
input, and `lastEventId` is the greatest id of the event journal. -/
structure Store where
  tasks : Table String Row
  attempts : Table String Attempt
  conditions : Table String Condition
  routes : List (String × String)
  admissions : Table String Admission
  cancellations : Table String Cancellation
  controlReceipts : Table String ControlReceipt
  taskEvents : List (String × Int)
  groups : Table String Group
  revision : Nat
  lifecycle : Lifecycle
  humanInput : List String
  lastEventId : Int

/-- `TaskTree`: the snapshot an operation works on. -/
structure Tree where
  resources : Table String Resource
  taskTriggers : Table String Trigger
  attempts : Table String Attempt
  conditions : Table String Condition
  cancellations : Table String Cancellation
  groups : Table String Group
  appTaskAdmissions : Table String Admission

namespace Tree

def setResource (t : Tree) (r : Resource) : Tree := { t with resources := t.resources.put r.metadata.id r }

def setTrigger (t : Tree) (taskId : String) (trigger : Option Trigger) : Tree :=
  { t with taskTriggers := t.taskTriggers.set taskId trigger }

def setAttempt (t : Tree) (a : Attempt) : Tree := { t with attempts := t.attempts.put a.id a }

end Tree

namespace Store

/-! ### Single reads -/

def readTask (s : Store) (taskId : String) : Option Resource := (s.tasks.get taskId).map Row.resource

def readAttempt (s : Store) (attemptId : String) : Option Attempt := s.attempts.get attemptId

def readCancellation (s : Store) (taskId : String) : Option Cancellation := s.cancellations.get taskId

def isCancelled (s : Store) (taskId : String) : Bool := s.cancellations.has taskId

def readControlReceipt (s : Store) (controlKey : String) : Option ControlReceipt := s.controlReceipts.get controlKey

/-- `allowsTaskExecution`: a paused App still serves a pending human input. -/
def allowsTaskExecution (s : Store) (taskId : String) : Bool :=
  decide (s.lifecycle = .active) || s.humanInput.contains taskId

def hasTaskEvent (s : Store) (taskId : String) (e : Event) : Bool :=
  match eventId? e with
  | some id => s.taskEvents.contains (taskId, id)
  | none => false

/-- `readPastCancellation`: the closure archived by the reopening at exactly this version. -/
def readPastCancellation (s : Store) (taskId : String) (generation resourceVersion : Nat) : Option Cancellation :=
  s.controlReceipts.values.findSome? fun receipt =>
    if receipt.taskId = taskId ∧ receipt.action = .reopen ∧ receipt.expectedGeneration = generation
        ∧ receipt.expectedResourceVersion = resourceVersion then
      match receipt.result with
      | some (.reopen result) => some result.closure
      | _ => none
    else none

/-- The attempts visible to `reportKind`: those of this App, and of the host's other Apps. -/
def attemptLookup (ctx : Context) (s : Store) : AttemptLookup := fun appId attemptId =>
  if appId = "" then none
  else if appId = ctx.appId then s.readAttempt attemptId
  else ctx.foreignAttempt appId attemptId

/-! ### The bounded snapshot -/

/-- The arguments of `readTaskContext`. Without `children` the child limit is zero. -/
structure Scope where
  taskIds : List String
  admissionIds : List String := []
  conditionIds : List String := []
  includeHistory : Bool := true
  children : Bool := true

def requestedIds (ids : List String) : List String := (ids.map Text.trim).filter (· != "")

def specRelations (spec : Spec) : List String := spec.parentId :: spec.dependsOn.getD []

/-- A stored relation of kind parent or dependency. -/
def relatesTo (spec : Spec) (target : String) : Bool :=
  ((specRelations spec).map Text.trim).any fun id => id != "" && id == target

/-- The Tasks in a snapshot: the requested ones with their parents and dependencies, the Tasks
directly below them, and every Task routed to a requested Condition. -/
def contextTaskIds (s : Store) (scope : Scope) : List String :=
  let requested := requestedIds scope.taskIds
  let next := fun id => (s.readTask id).map fun r => (specRelations r.spec).filter (· != "")
  let reached := closure next (s.tasks.entries.length + 1) requested []
  let children := if scope.children then
      (s.tasks.entries.filter fun e => requested.any (relatesTo e.2.resource.spec)).map Sigma.fst
    else []
  let conditionIds := requestedIds scope.conditionIds
  let linked := (s.routes.filter fun route => conditionIds.contains route.2).map Prod.fst
  reached ++ children ++ linked

def MAX_CONTEXT_ATTEMPTS_PER_TASK : Nat := 16

/-- The history order: referenced attempts first, then the most recently started. -/
def historyPrecedes (referenced : List String) (a b : Attempt) : Bool :=
  match referenced.contains a.id, referenced.contains b.id with
  | true, false => true
  | false, true => false
  | _, _ => decide (b.startedAt < a.startedAt) || (decide (a.startedAt = b.startedAt) && decide (b.id < a.id))

def historyRank (s : Store) (referenced : List String) (a : Attempt) : Nat :=
  (s.attempts.values.filter fun b => b.taskId == a.taskId && historyPrecedes referenced b a).length

def readTaskContext (s : Store) (scope : Scope) : Tree :=
  let ids := s.contextTaskIds scope
  let resources := s.tasks.filterMapVal fun id row => if ids.contains id then some row.resource else none
  let referenced := resources.values.flatMap fun r =>
    r.status.currentAttemptId.toList ++ r.status.observedAttemptId.toList
  let conditionIds := (resources.values.flatMap fun r => r.status.conditionIds) ++ scope.conditionIds
  let next := fun id => (s.groups.get id).map fun g =>
    g.parentId.toList.filter fun parent => parent != "" && !resources.has parent
  let rootGroups := ((requestedIds scope.taskIds).filter fun id => !resources.has id)
    ++ (resources.values.map fun r => r.spec.parentId).filter fun id => id != "" && !resources.has id
  let groupIds := closure next (s.groups.entries.length + 1) rootGroups []
  { resources := resources
    taskTriggers := s.tasks.filterMapVal fun id row => if ids.contains id then row.trigger else none
    attempts := if scope.includeHistory then
        s.attempts.filter fun _ a => resources.has a.taskId
          && decide (s.historyRank referenced a < MAX_CONTEXT_ATTEMPTS_PER_TASK)
      else ∅
    conditions := s.conditions.filter fun id _ => conditionIds.contains id
    cancellations := s.cancellations.filter fun id _ => resources.has id
    groups := s.groups.filter fun id _ => groupIds.contains id
    appTaskAdmissions := s.admissions.filter fun id _ => scope.admissionIds.contains id }

end Store

end MayAgent
