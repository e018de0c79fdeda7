import MayAgent.Task.Intake

/-!
# Claiming a Task

`claimObservedAppTask` turns an observed Task into one running attempt, or tells why it cannot run
now. It also recovers the attempt of a previous runtime, adopts a lowered failure allowance and
backs off when the Task's outputs or agent are not admissible.
-/

namespace MayAgent

def MAX_TASK_EVENTS_PER_ATTEMPT : Nat := 32

def DEFAULT_MAX_CONSECUTIVE_FAILURES : Nat := 3

def APP_TASK_ATTEMPT_LEASE_DURATION_MS : Int := 15 * 60000

/-- The arguments of `claimObservedAppTask`: the host's answers about outputs, agents and retained
sessions, and the random ids the call draws. -/
structure ClaimInput where
  taskId : String
  appAgent : String
  handler : String
  reason : Option String := none
  resolveOutputPaths : List String → Except String (List String) := fun outputs => .ok outputs
  isAgentRunnable : String → Bool := fun _ => true
  recoverPreviousSession : Option (Attempt → Bool) := none
  recoverSessionHandoff : Option Attempt → Option Value := fun _ => none
  attemptUuid : String
  leaseUuid : String

/-- `AppTaskClaimResult`. After an adoption the source claims again from fresh reads. -/
inductive ClaimResult where
  | claimed (claim : Claim)
  | busy (attemptId : String)
  | waiting (conditionIds dependencyIds : List String) (retryAt : Option Int)
  | attention (generation : Nat) (summary : String)
  | completed (generation : Nat)
  | adopted

/-! ### The failure allowance -/

def Context.failureLimit (ctx : Context) : FailureLimit :=
  ctx.maxConsecutiveFailures.getD (.count DEFAULT_MAX_CONSECUTIVE_FAILURES)

def Attempt.unsuccessful (a : Attempt) : Bool :=
  decide (a.state = .failed)
    || (decide (a.state = .completed) && decide (a.acceptedResult.map AcceptedResult.state = some .incomplete))

/-- The exhaustion an attempt records when the sequence it ends reaches the limit. -/
def exhaustionOf (a : Attempt) (failures limit : Nat) (now : Int) : RetryExhaustion where
  generation := a.taskGeneration
  attemptId := a.id
  failures := failures
  limit := limit
  exhaustedAt := now

/-- The limit a Task without exhaustion has reached under the current policy. -/
def reachedLimit (ctx : Context) (r : Resource) : Option Nat :=
  if r.status.retryExhausted.isSome || r.status.currentAttemptId.isSome then none
  else match ctx.failureLimit with
    | .unlimited => none
    | .count limit => if r.status.executionFailures < limit then none else some limit

/-- `exhaustRetainedFailures`: adopts a lowered allowance without charging a new failure. -/
def exhaustRetainedFailures (now : Int) (late : Store) (t : Tree) (r : Resource) (limit : Nat) : Plan ClaimResult :=
  match (r.status.executionFailureAttemptId.bind late.readAttempt).filter fun a =>
      decide (a.taskId = r.metadata.id) && a.unsuccessful with
  | none => .throw (.error ("Task " ++ r.metadata.id ++ " has an invalid execution failure reference"))
  | some a =>
    let t := t.setAttempt a
    let scope := beginResourceMutationScopeForTasks t [r.metadata.id]
    let exhaustion := exhaustionOf a r.status.executionFailures limit now
    let a' := { a with retryExhausted := some exhaustion, resourceVersion := a.resourceVersion + 1 }
    Plan.check (inputOutcomeAdmissions late r (some a') (t.taskTriggers.get r.metadata.id) a.taskGeneration a.id
      { summary := "", inputKeys := a.acceptedResult.bind AcceptedResult.inputKeys, report := true } .failure)
      fun (r, _, admissions) =>
    let r := touchResource now r fun st => { st with
      phase := .attention
      retryExhausted := some exhaustion
      executionRetryAt := none
      summary := some ("Automatic retries exhausted under current policy; owner repair or explicit retry required. "
        ++ a.summary.getD "") }
    .commit { finishResourceMutationScope now scope ((t.setResource r).setAttempt a') with admissions := admissions }
      .adopted

/-! ### The claimed batch -/

/-- The batch offered to the next attempt: the input of an unsettled previous one, then the pending
trigger. -/
def offeredEvents (previousAttempt : Option Attempt) (pending : Option Trigger) : List TriggerEvent :=
  let previous := match previousAttempt with
    | some a => if a.state ≠ .completed ∧ a.failureReason ≠ some "owner-stopped" then attemptInput a else []
    | none => []
  appendTaskTriggerEvents previous (pendingTriggerEvents pending)

/-- Positions of the batch in the order of selection: human input first, otherwise as admitted. -/
def selectionOrder (events : List TriggerEvent) : List Nat :=
  let indexed := events.zipIdx
  ((indexed.filter fun e => decide (taskTriggerLane e.1.event = .human))
    ++ indexed.filter fun e => decide (taskTriggerLane e.1.event ≠ .human)).map Prod.snd

/-- The latest human request, which the one claim granted by a fresh human input must contain. -/
def correctionIndex (events : List TriggerEvent) : Option Nat :=
  (events.zipIdx.reverse.find? fun e =>
    e.1.event.field "type" == some (.str "app.task.requested")
      && decide (taskTriggerLane e.1.event = .human)).map Prod.snd

def selectedIndices (r : Resource) (events : List TriggerEvent) : List Nat :=
  let selected := (selectionOrder events).take MAX_TASK_EVENTS_PER_ATTEMPT
  let correction := if r.status.retryExhausted.isSome && r.status.freshHumanInput then correctionIndex events else none
  match correction with
  | none => selected
  | some i =>
    if selected.contains i then selected
    else (if MAX_TASK_EVENTS_PER_ATTEMPT ≤ selected.length then selected.dropLast else selected) ++ [i]

def claimedEvents (r : Resource) (events : List TriggerEvent) : List TriggerEvent :=
  let selected := selectedIndices r events
  (events.zipIdx.filter fun e => selected.contains e.2).map Prod.fst

def remainingEvents (r : Resource) (events : List TriggerEvent) : List TriggerEvent :=
  let selected := selectedIndices r events
  (events.zipIdx.filter fun e => !selected.contains e.2).map Prod.fst

/-- What stays pending when an attempt takes its batch. -/
def remainingTrigger (agent : String) (pending : Option Trigger) (remaining : List TriggerEvent) : Option Trigger :=
  match pending, remaining.getLast? with
  | some t, some last => some { t with
      event := preferredTriggerFromEvents remaining agent
      events := remaining
      observedAt := last.observedAt }
  | _, _ => none

/-! ### The new attempt -/

def syntheticAttemptTrigger (ctx : Context) (taskId : String) (reason : Option String) : Event :=
  let project := if ctx.projectId != "" then ctx.projectId else "unknown-app"
  let reason := (Text.trimmed? reason).getD "task-controller"
  [("data", .obj [("project", .str project), ("reason", .str reason),
      ("synthetic", .str "controller-recovery-trigger"), ("taskId", .str taskId), ("task_id", .str taskId)]),
    ("reason", .str reason),
    ("source", .str ("app-task:" ++ project ++ ":task-controller")),
    ("target", .obj [("project", .str project), ("taskId", .str taskId)]),
    ("type", .str "project.task.tick")]

def reviewAttemptTrigger (ctx : Context) (taskId : String) (reviewAt : Int) : Event :=
  let project := if ctx.projectId != "" then ctx.projectId else "unknown-app"
  ((syntheticAttemptTrigger ctx taskId (some "review-at-reached")).assign "type"
    (.str "project.task.review-at.reached")).assign "data" (.obj [("project", .str project),
      ("reason", .str "review-at-reached"), ("reviewAt", .num reviewAt),
      ("synthetic", .str "controller-review-trigger"), ("taskId", .str taskId), ("task_id", .str taskId)])

/-- `refreshAttemptLease`, with an activity time no later than the clock. -/
def refreshAttemptLease (a : Attempt) (leaseUuid : String) (sessionId : Option String) (now : Int) : Attempt :=
  { a with lease := some {
      id := (a.lease.map Lease.id).getD leaseUuid
      version := (a.lease.map Lease.version).getD 0 + 1
      lastActivityAt := max 0 now
      expiresAt := max 0 now + APP_TASK_ATTEMPT_LEASE_DURATION_MS
      runtimeId := a.runtimeId
      sessionId := sessionId } }

def claimHandler (handler : String) (intent : Intent) (agent : String) : String :=
  if handler = "auto" then
    match Text.trimmed? intent.workflow with
    | some workflow => "workflow:" ++ workflow
    | none =>
      match intent.executor with
      | some executor => if executor ≠ "agent" then "executor:" ++ executor else "agent:" ++ agent
      | none => "agent:" ++ agent
  else if handler = "agent" ∨ handler = "owner" then "agent:" ++ agent
  else handler

def supersedeAttempt (a : Attempt) (summary : String) (now : Int) : Attempt :=
  { a.finish .interrupted summary now with failureReason := some "previous-runtime-attempt-requeued" }

def checkSession (recover : Option (Attempt → Bool)) (a : Attempt) : Except TaskError Unit :=
  if a.sessionId.isNone then .ok ()
  else match recover with
    | none => .error (.error
        "Task session recovery is unavailable; retained session ownership cannot be replaced safely")
    | some recover =>
      if recover a then .ok ()
      else .error (.error
        "Task session recovery was not confirmed; retained session ownership cannot be replaced safely")

/-! ### The claim -/

def missingAttemptSummary (r : Resource) : String :=
  match r.status.currentAttemptId with
  | some attemptId => "Running reconciliation " ++ r.metadata.id ++ " referenced missing or non-running attempt "
      ++ attemptId ++ "; retrying from current task facts"
  | none => "Running reconciliation " ++ r.metadata.id ++ " had no current attempt; retrying from current task facts"

def requeuedStaleAttempt (now : Int) (t : Tree) (r : Resource) : Option Attempt :=
  (r.status.currentAttemptId.bind t.attempts.get).map fun a => { a with
    resourceVersion := a.resourceVersion + 1
    failureReason := some "running-without-current-attempt-requeued"
    summary := some (missingAttemptSummary r)
    finishedAt := a.finishedAt.or (some now) }

/-- A running Task without a running attempt becomes pending again. -/
def requeueMissingAttempt (now : Int) (r : Resource) : Resource :=
  touchResource now r fun st => { st with
    phase := .pending
    currentAttemptId := none
    summary := some (missingAttemptSummary r) }

def Tree.setAttempts (t : Tree) (attempts : List Attempt) : Tree := attempts.foldl Tree.setAttempt t

def admitExecution (input : ClaimInput) (intent : Intent) (agent : String) : Except String (List String) :=
  match input.resolveOutputPaths (intent.outputs.getD []) with
  | .error message => .error ("Task output admission failed: " ++ message)
  | .ok paths =>
    if input.isAgentRunnable agent then .ok paths
    else .error ("Resolved agent " ++ agent ++ " is not a runnable agent")

/-- The previous attempt belongs to another runtime and may be taken over. -/
def canRecoverPreviousRuntime (ctx : Context) (input : ClaimInput) (previous : Option Attempt) : Bool :=
  previous.any fun a => decide (a.runtimeId ≠ ctx.runtimeId)
    && (decide (input.reason = some ("attempt-recovery:" ++ input.taskId)) || (attemptTrigger a).isSome)

/-- The Task after a failed admission: it is checked again after a backoff. -/
def backOffAdmission (now : Int) (summary : String) (r : Resource) : Resource :=
  touchResource now r fun st => { st with
    phase := .pending
    admissionFailures := st.admissionFailures + 1
    executionRetryAt := some (now + taskAdmissionRetryDelay (st.admissionFailures + 1))
    freshHumanInput := false
    observedGeneration := r.metadata.generation
    currentAttemptId := none
    summary := some summary }

/-- The branch of a claim whose outputs or agent are not admissible. -/
def claimInadmissible (ctx : Context) (now : Int) (input : ClaimInput) (scope : MutationScope) (t : Tree)
    (r : Resource) (previous : Option Attempt) (stale : Option Attempt) (summary : String) : Plan ClaimResult :=
  let finish (r : Resource) (attempts : List Attempt) : Plan ClaimResult :=
    let r := backOffAdmission now summary r
    .commit (finishResourceMutationScope now scope ((t.setResource r).setAttempts (stale.toList ++ attempts)))
      (.attention r.metadata.generation summary)
  match previous with
  | none => finish r []
  | some a =>
    if !canRecoverPreviousRuntime ctx input previous then .done (.busy a.id)
    else
      Plan.check (checkSession input.recoverPreviousSession a) fun _ =>
      finish (r.release .interrupted) [supersedeAttempt a summary now]

def claimTrigger (ctx : Context) (input : ClaimInput) (agent : String) (claimed : List TriggerEvent)
    (previous : Option Attempt) (reviewDue : Option Int) : Event :=
  if !claimed.isEmpty then preferredTriggerFromEvents claimed agent
  else match previous.bind attemptTrigger, reviewDue with
    | some e, _ => e
    | none, some reviewAt => reviewAttemptTrigger ctx input.taskId reviewAt
    | none, none => syntheticAttemptTrigger ctx input.taskId input.reason

def newAttempt (ctx : Context) (now : Int) (input : ClaimInput) (r : Resource) (agent : String)
    (prior : Option Attempt) (claimed remaining : List TriggerEvent) (continued : List String)
    (trigger : Event) : Attempt :=
  refreshAttemptLease {
    id := "r_" ++ toString r.metadata.generation ++ "_" ++ input.attemptUuid
    resourceVersion := 1
    taskId := input.taskId
    taskGeneration := r.metadata.generation
    specHash := appTaskSpecHash (resourceIntent r) agent
    owner := agent
    handler := claimHandler input.handler (resourceIntent r) agent
    runtimeId := ctx.runtimeId
    state := .running
    reason := input.reason.getD "event"
    unacceptedResult := prior.bind Attempt.unacceptedResult
    events := claimed
    eventsTruncated := !remaining.isEmpty
    continuedInputKeys := continued
    trigger := if claimed.isEmpty then some trigger else none
    startedAt := now } input.leaseUuid none now

def startRunning (now : Int) (attemptId : String) (r : Resource) : Resource :=
  touchResource now r fun st => { st with
    phase := .running
    currentAttemptId := some attemptId
    admissionFailures := 0
    executionRetryAt := none
    freshHumanInput := false }

/-- The write of a granted claim. `r` is the Task with a previous attempt already released. -/
def grantClaim (ctx : Context) (now : Int) (input : ClaimInput) (fence : Fence) (t : Tree) (r : Resource)
    (agent : String) (prior previous : Option Attempt) (changed : List Attempt) (claimed remaining : List TriggerEvent)
    (continued : List String) (reviewDue : Option Int) (paths : List String) : Plan ClaimResult :=
  let trigger := claimTrigger ctx input agent claimed previous reviewDue
  let attempt := newAttempt ctx now input r agent prior claimed remaining continued trigger
  let next := startRunning now attempt.id r
  let t := ((t.setResource next).setTrigger input.taskId
    (remainingTrigger agent (t.taskTriggers.get input.taskId) remaining)).setAttempts (changed ++ [attempt])
  let linked := r.status.conditionIds.eraseDups
  .commit {
      fences := [fence]
      requireUnpausedTask := some input.taskId
      tasks := [resourceWrite now t next false]
      attempts := changed ++ [attempt]
      conditions := linked.filterMap t.conditions.get
      deleteConditionIds := linked.filter fun id => !t.conditions.has id }
    (.claimed {
      taskId := input.taskId
      generation := r.metadata.generation
      resourceVersion := next.metadata.resourceVersion
      specHash := attempt.specHash
      attemptId := attempt.id
      agent := agent
      handler := attempt.handler
      intent := resourceIntent r
      events := claimed
      eventsTruncated := !remaining.isEmpty
      continuedInputKeys := continued
      previousAttempt := prior
      trigger := some trigger
      declaredOutputPaths := paths
      handoff := input.recoverSessionHandoff (if canRecoverPreviousRuntime ctx input previous then previous else prior) })

/-- A recovered attempt that kept no trigger at all. -/
def requeueUntriggered (now : Int) (r : Resource) : Resource :=
  touchResource now (r.release .interrupted) fun st => { st with
    phase := .pending
    currentAttemptId := none
    summary := some "Previous runtime attempt had no persisted trigger; retrying from current task facts" }

def recoveredAttempt (now : Int) (untriggered : Bool) (a : Attempt) : Attempt :=
  if untriggered then
    let a := supersedeAttempt a "Previous runtime attempt had no persisted trigger; retrying from current task facts" now
    { a with resourceVersion := a.resourceVersion + 1 }
  else supersedeAttempt a "Previous runtime attempt was superseded during recovery" now

/-- The last checks of a claim, and its grant. `r` is the Task, requeued when its previous attempt kept no
trigger. -/
def claimChecked (ctx : Context) (now : Int) (revision : Nat) (input : ClaimInput) (fence : Fence) (t : Tree)
    (r : Resource) (agent : String) (prior previous stale : Option Attempt) (untriggered : Bool)
    (claimed remaining : List TriggerEvent) (paths : List String) : Plan ClaimResult :=
  let pending := t.taskTriggers.get input.taskId
  let recover := canRecoverPreviousRuntime ctx input previous
  let unmet := unmetDependencies t r.spec
  let reviewAt := acceptedTaskReviewAt r
  let reviewDue := reviewAt.filter fun at_ => decide (at_ ≤ now)
  if r.status.phase = .running ∧ recover = false then
    .done (.busy ((previous.map Attempt.id).getD ""))
  else if r.status.phase = .converged ∧ r.metadata.generation ≤ r.status.observedGeneration ∧ pending = none then
    .done (.completed r.metadata.generation)
  else if r.status.phase = .attention ∧ r.metadata.generation ≤ r.status.observedGeneration ∧ pending = none
      ∧ hasLegacyWorkflowHandoff t r = false then
    .done (.attention r.metadata.generation
      (r.status.summary.getD "Task is waiting for agent/reviewer attention"))
  else if !unmet.isEmpty then .acknowledge input.taskId none revision (.waiting [] unmet none)
  else if r.status.phase = .waiting ∧ r.metadata.generation ≤ r.status.observedGeneration
      ∧ ((openTaskConditionIds t r).isEmpty = false ∨ reviewAt.isSome = true) ∧ pending = none
      ∧ hasSatisfiedTaskCondition t r = false ∧ reviewDue = none then
    .acknowledge input.taskId (nextTaskCheckAt now t r) revision (.waiting (openTaskConditionIds t r) [] none)
  else
    let satisfied := ((taskConditions t r).filter fun c => decide (c.state = .met)).map Condition.id
    let continued := continuedTaskInputKeys ctx now t r claimed satisfied
    match previous.filter fun _ => recover with
    | some a =>
      Plan.check (checkSession input.recoverPreviousSession a) fun _ =>
      grantClaim ctx now input fence t (r.release .interrupted) agent prior previous
        (stale.toList ++ [recoveredAttempt now untriggered a]) claimed remaining continued reviewDue paths
    | none =>
      grantClaim ctx now input fence t r agent prior previous stale.toList claimed remaining continued reviewDue paths

/-- The branch of a claim whose outputs and agent are admissible. -/
def claimAdmissible (ctx : Context) (now : Int) (revision : Nat) (input : ClaimInput) (fence : Fence) (t : Tree)
    (r : Resource) (agent : String) (prior previous stale : Option Attempt) (paths : List String) : Plan ClaimResult :=
  let pending := t.taskTriggers.get input.taskId
  let offered := offeredEvents previous pending
  let untriggered := canRecoverPreviousRuntime ctx input previous && pending.isNone
    && (previous.bind attemptTrigger).isNone
  let requeued := if untriggered then requeueUntriggered now r else r
  claimChecked ctx now revision input fence (t.setResource requeued) requeued agent prior previous stale untriggered
    (claimedEvents r offered) (remainingEvents r offered) paths

def claimObservedAppTask (ctx : Context) (now : Int) (reads : Reads) (input : ClaimInput) : Plan ClaimResult :=
  let t := reads.snapshot.readTaskContext { taskIds := [input.taskId] }
  let late := reads.late
  let revision := reads.check.revision
  match t.resources.get input.taskId with
  | none => .done (.completed 0)
  | some r =>
    if late.isCancelled input.taskId then .done (.completed r.metadata.generation)
    else match crossTaskAttempt { t with attempts := late.attempts } r with
      | some e => .throw e
      | none =>
        if !late.allowsTaskExecution input.taskId then .done (.waiting [] [] none)
        else match reachedLimit ctx r with
          | some limit => exhaustRetainedFailures now late t r limit
          | none =>
            if taskExecutionRetryExhausted r then
              match currentResourceAttempt t r with
              | some active => .done (.busy active.id)
              | none => .acknowledge input.taskId (nextTaskCheckAt now t r) revision
                  (.attention r.metadata.generation (r.status.summary.getD
                    "Automatic retries exhausted; owner repair or explicit retry required"))
            else match pendingTaskExecutionRetryAt r now with
              | some retryAt => .acknowledge input.taskId (some retryAt) revision (.waiting [] [] (some retryAt))
              | none =>
                let scope := beginResourceMutationScopeForTasks t [r.metadata.id]
                let intent := resourceIntent r
                let agent := resolvedAgent t intent input.appAgent
                let prior := (latestTaskAttempt t r.metadata.id (some r.metadata.generation)).or
                  (latestTaskAttempt t r.metadata.id none)
                let previous := currentResourceAttempt t r
                let missing := decide (r.status.phase = .running) && previous.isNone
                let stale := if missing then requeuedStaleAttempt now t r else none
                let next := if missing then requeueMissingAttempt now r else r
                let t := (t.setResource next).setAttempts stale.toList
                match admitExecution input intent agent with
                | .error summary => claimInadmissible ctx now input scope t next previous stale summary
                | .ok paths => claimAdmissible ctx now revision input r.fence t next agent prior previous stale paths

end MayAgent
