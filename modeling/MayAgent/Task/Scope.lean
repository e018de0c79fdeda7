import MayAgent.Task.Intent

/-!
# Shared steps of the reconciler

What the operations have in common: touching a resource, finishing an attempt, the recovery hints
of a written row, and the mutation scope that turns an edited snapshot into a fenced write set.
-/

namespace MayAgent

def CONDITION_RECOVERY_INTERVAL_MS : Int := 300000

/-! ### Editing a Task -/

/-- Releasing an interrupted claim does not renew an already exhausted allowance. -/
def Status.settlePhase (st : Status) : Status :=
  if st.retryExhausted.isSome ∧ st.phase = .pending ∧ st.currentAttemptId = none then
    { st with phase := .attention }
  else st

/-- `touchResource`: the next version, with the given changes of the status. -/
def touchResource (now : Int) (r : Resource) (change : Status → Status) : Resource :=
  { r with
    metadata := { r.metadata with resourceVersion := r.metadata.resourceVersion + 1 }
    status := Status.settlePhase { change r.status with updatedAt := now } }

/-- `finishAttempt`, on the attempt. -/
def Attempt.finish (a : Attempt) (state : AttemptState) (summary : String) (now : Int) : Attempt :=
  { a with
    resourceVersion := a.resourceVersion + 1
    state := state
    finishedAt := some now
    summary := some summary
    unacceptedResult := if state = .completed ∧ a.acceptedResult.isSome then none else a.unacceptedResult }

/-- `finishAttempt`, on the Task: completion ends the failure sequence. -/
def Resource.release (r : Resource) (state : AttemptState) : Resource :=
  { r with
    status := if state = .completed then
        { r.status with
          executionFailures := 0
          executionFailureAttemptId := none
          executionRetryAt := none
          retryExhausted := none
          currentAttemptId := none }
      else { r.status with currentAttemptId := none } }

/-- `currentResourceAttempt`: the running attempt a Task currently executes. The source throws when
the referenced attempt belongs to another Task. -/
def currentResourceAttempt (t : Tree) (r : Resource) : Option Attempt :=
  (r.status.currentAttemptId.bind t.attempts.get).filter fun a => decide (a.state = .running)

/-- The error of `currentResourceAttempt`. -/
def crossTaskAttempt (t : Tree) (r : Resource) : Option TaskError :=
  (r.status.currentAttemptId.bind t.attempts.get).bind fun a =>
    if a.taskId = r.metadata.id then none
    else some (.error ("Task " ++ r.metadata.id ++ " current attempt " ++ a.id ++ " belongs to " ++ a.taskId
      ++ "; refusing cross-Task recovery"))

def latestTaskAttempt (t : Tree) (taskId : String) (generation : Option Nat) : Option Attempt :=
  (t.attempts.values.filter fun a =>
      a.taskId == taskId && generation.all fun g => decide (a.taskGeneration = g)).foldl
    (fun best a => match best with
      | none => some a
      | some b => if b.startedAt < a.startedAt then some a else some b) none

def hasLegacyWorkflowHandoff (t : Tree) (r : Resource) : Bool :=
  decide (r.status.phase = .attention)
    && (latestTaskAttempt t r.metadata.id (some r.metadata.generation)).any fun a =>
      Text.startsWith a.handler "workflow:"
        && (decide (a.failureReason = some "needs-agent") || decide (a.failureReason = some "needs-owner"))

/-! ### Conditions of a Task -/

/-- `taskConditionEntries`: the stored Conditions a Task links. -/
def taskConditions (t : Tree) (r : Resource) : List Condition :=
  (t.conditions.entries.filter fun e => r.status.conditionIds.contains e.1).map Sigma.snd

def openTaskConditionIds (t : Tree) (r : Resource) : List String :=
  (t.conditions.entries.filter fun e =>
    r.status.conditionIds.contains e.1 && decide (e.2.state ≠ .met)).map Sigma.fst

def hasSatisfiedTaskCondition (t : Tree) (r : Resource) : Bool :=
  (taskConditions t r).any fun c => decide (c.state = .met)

/-- `pruneUnlinkedConditions`: keeps the Conditions some Task of the snapshot links. -/
def pruneUnlinkedConditions (t : Tree) : Tree :=
  { t with conditions := t.conditions.filter fun id _ =>
      t.resources.values.any fun r => r.status.conditionIds.contains id }

def unlinkExactTaskCondition (now : Int) (t : Tree) (taskId conditionId : String) : Tree :=
  match t.resources.get taskId with
  | none => t
  | some r =>
    if !r.status.conditionIds.contains conditionId then t
    else pruneUnlinkedConditions (t.setResource (touchResource now r fun st =>
      { st with conditionIds := st.conditionIds.filter (· != conditionId) }))

/-- The links a Task keeps when its satisfied Conditions are unlinked. -/
def unsatisfiedConditionIds (t : Tree) (r : Resource) : List String :=
  r.status.conditionIds.filter fun id => !(t.conditions.get id).any fun c => decide (c.state = .met)

def unlinkSatisfiedTaskConditions (now : Int) (t : Tree) (taskId : String) : Tree :=
  match t.resources.get taskId with
  | none => t
  | some r =>
    if (unsatisfiedConditionIds t r).length = r.status.conditionIds.length then t
    else pruneUnlinkedConditions (t.setResource (touchResource now r fun st =>
      { st with conditionIds := unsatisfiedConditionIds t r }))

/-! ### Recovery hints -/

def earliest (deadlines : List Int) : Option Int :=
  deadlines.foldl (fun best at_ => some (match best with
    | none => at_
    | some b => min b at_)) none

def validDeadline (at_ : Option Int) : Option Int :=
  at_.filter fun n => isSafeInteger n && decide (0 < n)

def acceptedTaskReviewAt (r : Resource) : Option Int :=
  if r.status.phase ≠ .waiting then none
  else earliest ((validDeadline r.status.reviewAt).toList
    ++ r.status.inputWaits.values.filterMap fun wait => validDeadline wait.reviewAt)

def nextTaskCheckAt (now : Int) (t : Tree) (r : Resource) : Option Int :=
  let recheck := if (r.status.phase = .waiting ∨ taskExecutionRetryExhausted r = true)
      ∧ (openTaskConditionIds t r).isEmpty = false then [now + CONDITION_RECOVERY_INTERVAL_MS] else []
  earliest (recheck ++ (acceptedTaskReviewAt r).toList)

def Resource.satisfies (r : Resource) : Bool :=
  decide (r.status.phase = .converged) && decide (r.status.observedGeneration = r.metadata.generation)

/-- The dependencies of a specification that have not converged in the snapshot. -/
def unmetDependencies (t : Tree) (spec : Spec) : List String :=
  (spec.dependsOn.getD []).filter fun id => !(t.resources.get id).any Resource.satisfies

def dependenciesSatisfied (t : Tree) (spec : Spec) : Bool := (unmetDependencies t spec).isEmpty

def isRunnableOnPassiveResync (now : Int) (t : Tree) (r : Resource) : Bool :=
  if t.cancellations.has r.metadata.id then false
  else if taskExecutionRetryExhausted r then false
  else if (pendingTaskExecutionRetryAt r now).isSome then false
  else if !dependenciesSatisfied t r.spec then false
  else if (currentResourceAttempt t r).isSome then false
  else if t.taskTriggers.has r.metadata.id then true
  else if r.status.observedGeneration < r.metadata.generation then true
  else match r.status.phase with
    | .pending => true
    | .waiting =>
      if hasSatisfiedTaskCondition t r then true
      else match acceptedTaskReviewAt r with
        | some reviewAt => decide (reviewAt ≤ now)
        | none => r.status.conditionIds.isEmpty
    | .attention => hasLegacyWorkflowHandoff t r
    | .running => true
    | .converged => false

def resourceWrite (now : Int) (t : Tree) (r : Resource) (ready : Bool) : TaskWrite where
  resource := r
  trigger := t.taskTriggers.get r.metadata.id
  ready := ready
  nextCheckAt := nextTaskCheckAt now t r

/-! ### Mutation scope -/

/-- `ResourceMutationScope`. -/
structure MutationScope where
  writeTaskIds : List String
  conditionIds : List String
  originalConditionVersions : Table String Nat
  originalAttemptVersions : Table String Nat
  fences : List Fence

def emptyResourceMutationScope (t : Tree) : MutationScope where
  writeTaskIds := []
  conditionIds := []
  originalConditionVersions := t.conditions.filterMapVal fun _ c => some c.resourceVersion
  originalAttemptVersions := t.attempts.filterMapVal fun _ a => some a.resourceVersion
  fences := []

def fenceResourceMutationTask (t : Tree) (scope : MutationScope) (taskId : String) : MutationScope :=
  match t.resources.get taskId with
  | none => scope
  | some r =>
    if scope.fences.any fun f => f.taskId == taskId then scope
    else { scope with fences := scope.fences ++ [{ r.fence with taskId := taskId }] }

def trackResourceMutationTask (t : Tree) (scope : MutationScope) (taskId : String) : MutationScope :=
  if taskId = "" then scope
  else
    let scope := { scope with writeTaskIds := if scope.writeTaskIds.contains taskId then scope.writeTaskIds
      else scope.writeTaskIds ++ [taskId] }
    let scope := fenceResourceMutationTask t scope taskId
    match t.resources.get taskId with
    | none => scope
    | some r => { scope with conditionIds := scope.conditionIds ++ r.status.conditionIds }

def beginResourceMutationScopeForTasks (t : Tree) (taskIds : List String) : MutationScope :=
  taskIds.foldl (trackResourceMutationTask t) (emptyResourceMutationScope t)

/-- `finishResourceMutationScope`: the write set of the edited snapshot. -/
def finishResourceMutationScope (now : Int) (scope : MutationScope) (t : Tree) : Mutation :=
  let scope := scope.writeTaskIds.foldl (trackResourceMutationTask t) scope
  { fences := scope.fences
    tasks := scope.writeTaskIds.filterMap fun taskId =>
      (t.resources.get taskId).map fun r => resourceWrite now t r (isRunnableOnPassiveResync now t r)
    attempts := t.attempts.values.filter fun a =>
      scope.writeTaskIds.contains a.taskId
        && decide (scope.originalAttemptVersions.get a.id ≠ some a.resourceVersion)
    conditions := scope.conditionIds.eraseDups.filterMap fun id =>
      (t.conditions.get id).filter fun c =>
        decide (scope.originalConditionVersions.get id ≠ some c.resourceVersion)
    deleteConditionIds := scope.conditionIds.eraseDups.filter fun id => !t.conditions.has id }

/-! ### Reads and outcomes of an operation -/

/-- The store as one operation sees it. Its reads happen one after the other, and other processes
may commit in between: `check` serves the checks made before the snapshot, `snapshot` the snapshot
itself and `late` the reads made afterwards. -/
structure Reads where
  check : Store
  snapshot : Store
  late : Store

/-- The reads of an operation that no other process interrupts. -/
def Reads.now (s : Store) : Reads := ⟨s, s, s⟩

/-- What an operation does with the store after its reads: nothing, one fenced mutation, or the
acknowledgement of an indexed wait. -/
inductive Plan (ρ : Type) where
  | done (result : ρ)
  | throw (e : TaskError)
  | commit (m : Mutation) (result : ρ)
  | acknowledge (taskId : String) (nextCheckAt : Option Int) (expectedRevision : Nat) (result : ρ)

def Plan.check {α ρ : Type} (x : Except TaskError α) (next : α → Plan ρ) : Plan ρ :=
  match x with
  | .error e => .throw e
  | .ok a => next a

end MayAgent
