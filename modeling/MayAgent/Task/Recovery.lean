import MayAgent.Task.Settle

/-!
# Recovery of attempts

Operations that end an attempt without a result (the recovery releases, the owner's stop), repair a
Task from its current facts, or annotate its running attempt (lease, session, workspace).
-/

namespace MayAgent

/-- `AttemptSessionActivity`. -/
structure SessionActivity where
  sessionId : String
  lastActivityAt : Option Int

def leaseIsFresh (a : Attempt) (nowMs : Int) (activity : Option SessionActivity) : Bool :=
  match a.lease with
  | none => false
  | some lease =>
    if lease.runtimeId ≠ a.runtimeId ∨ lease.sessionId ≠ a.sessionId then false
    else if nowMs < lease.expiresAt then true
    else match a.sessionId, activity with
      | some sessionId, some activity =>
        decide (activity.sessionId = sessionId) && activity.lastActivityAt.any fun at_ =>
          decide (nowMs < max 0 (min at_ (nowMs + 1000)) + APP_TASK_ATTEMPT_LEASE_DURATION_MS)
      | _, _ => false

/-- `AppTaskAttemptRecovery`: the exact attempt a recovery was decided for. Without a lease the
attempt is expected to have none. -/
structure AttemptRecovery where
  taskId : String
  taskGeneration : Nat
  taskResourceVersion : Nat
  attemptId : String
  attemptResourceVersion : Nat
  lease : Option (String × Nat)

def AttemptRecovery.current (recovery : AttemptRecovery) (r : Resource) (a : Attempt) : Bool :=
  decide (r.metadata.generation = recovery.taskGeneration)
    && decide (r.metadata.resourceVersion = recovery.taskResourceVersion)
    && decide (r.status.currentAttemptId = some recovery.attemptId)
    && decide (a.id = recovery.attemptId)
    && decide (a.resourceVersion = recovery.attemptResourceVersion)
    && decide (a.lease.map (fun lease => (lease.id, lease.version)) = recovery.lease)

/-! ### Releases -/

def releasedAttempt (now : Int) (summary reason : String) (a : Attempt) : Attempt :=
  let a := a.finish .interrupted summary now
  { a with resourceVersion := a.resourceVersion + 1, failureReason := some reason }

def requeuedResource (now : Int) (summary : Option String) (r : Resource) : Resource :=
  touchResource now (r.release .interrupted) fun st => { st with
    phase := .pending
    currentAttemptId := none
    summary := summary.or st.summary }

def releaseTree (now : Int) (t : Tree) (taskId : String) (r : Resource) (a : Attempt) (attemptSummary reason : String)
    (summary : Option String) : Tree :=
  ((t.setResource (requeuedResource now summary r)).setTrigger taskId
    (restoreAttemptEvents r a (t.taskTriggers.get taskId) now)).setAttempt (releasedAttempt now attemptSummary reason a)

def runningAttempt (t : Tree) (taskId : String) : Option (Resource × Attempt) :=
  (t.resources.get taskId).bind fun r =>
    if r.status.phase = .running then (currentResourceAttempt t r).map fun a => (r, a) else none

/-- The write set of a release that tracks only its Task. -/
def releaseMutation (now : Int) (t : Tree) (taskId : String) (r : Resource) (a : Attempt)
    (attemptSummary reason : String) (summary : Option String) : Mutation :=
  finishResourceMutationScope now (beginResourceMutationScopeForTasks t [taskId])
    (releaseTree now t taskId r a attemptSummary reason summary)

def releaseInterruptedAppTaskAttempt (ctx : Context) (now : Int) (reads : Reads) (recovery : AttemptRecovery)
    (summary : String) : Plan Bool :=
  let t := reads.snapshot.readTaskContext { taskIds := [recovery.taskId] }
  match runningAttempt t recovery.taskId with
  | none => .done false
  | some (r, a) =>
    if a.runtimeId = ctx.runtimeId ∨ recovery.current r a = false then .done false
    else
      let recovered := summary ++ "; " ++ (if taskExecutionRetryExhausted r then
          "automatic retries remain exhausted; owner repair or explicit retry required"
        else "retrying from current task facts")
      .commit (releaseMutation now t recovery.taskId r a recovered "previous-runtime-attempt-requeued" none) true

inductive TerminalStatus where
  | done | error | interrupted
  deriving DecidableEq

def TerminalStatus.text : TerminalStatus → String
  | .done => "done"
  | .error => "error"
  | .interrupted => "interrupted"

/-- `isManagedAgentHandler` without an agent. -/
def isManagedAgentHandler (handler : String) : Bool :=
  Text.startsWith handler "agent:" || Text.startsWith handler "owner:"

def releaseTerminalSessionExpiredAppTaskAttempt (now : Int) (reads : Reads) (recovery : AttemptRecovery)
    (sessionId : String) (status : TerminalStatus) (summary : String) (nowMs : Int)
    (activity : Option SessionActivity) : Plan Bool :=
  let t := reads.snapshot.readTaskContext { taskIds := [recovery.taskId] }
  match runningAttempt t recovery.taskId with
  | none => .done false
  | some (r, a) =>
    if isManagedAgentHandler a.handler = false ∨ recovery.current r a = false ∨ recovery.lease = none
        ∨ a.sessionId ≠ some sessionId ∨ a.lease.bind Lease.sessionId ≠ some sessionId
        ∨ a.lease.map Lease.runtimeId ≠ some a.runtimeId ∨ leaseIsFresh a nowMs activity = true then .done false
    else
      let recovered := summary ++ "; terminal agent session " ++ sessionId ++ " (" ++ status.text
        ++ ") cannot return this expired attempt; retrying from current task facts"
      .commit (releaseMutation now t recovery.taskId r a recovered "terminal-agent-session-expired-lease-requeued"
        (some recovered)) true

def releaseLateTerminalWorkflowAppTaskAttempt (now : Int) (reads : Reads) (taskId : String) (generation : Nat)
    (sessionId summary : String) : Plan Bool :=
  let t := reads.snapshot.readTaskContext { taskIds := [taskId] }
  match runningAttempt t taskId with
  | none => .done false
  | some (r, a) =>
    if a.taskGeneration ≠ generation ∨ a.sessionId ≠ some sessionId then .done false
    else
      let recovered := summary ++ "; retrying the same task from current facts"
      .commit (releaseMutation now t taskId r a recovered "late-terminal-workflow-result-requeued" (some recovered)) true

inductive StaleRelease where
  | released | superseded | missing
  deriving DecidableEq

/-- `releaseStaleAppTaskResult`: fenced by the state it reads, not by the rejected claim. -/
def releaseStaleAppTaskResult (now : Int) (reads : Reads) (claim : Claim) (summary : String) : Plan StaleRelease :=
  let t := reads.snapshot.readTaskContext { taskIds := [claim.taskId] }
  match t.resources.get claim.taskId with
  | none => .done .missing
  | some r =>
    match t.attempts.get claim.attemptId with
    | none => .done .superseded
    | some a =>
      if r.status.currentAttemptId ≠ some claim.attemptId ∨ a.state ≠ .running ∨ a.taskId ≠ claim.taskId
          ∨ a.taskGeneration ≠ claim.generation then .done .superseded
      else
        let t := releaseTree now t claim.taskId r a summary "stale-reconciliation-result" none
        .commit {
          fences := [r.fence]
          tasks := [resourceWrite now t (requeuedResource now none r) true]
          attempts := [releasedAttempt now summary "stale-reconciliation-result" a] } .released

/-- The Task after its owner stopped an attempt and the input it was given. -/
def stoppedResource (now : Int) (generation : Nat) (reason : String) (keys : List String) (r : Resource) : Resource :=
  touchResource now (dropInputWaits (r.release .interrupted) keys) fun st => { st with
    phase := .attention
    observedGeneration := generation
    currentAttemptId := none
    executionRetryAt := none
    executionFailures := if st.retryExhausted.isSome then st.executionFailures else 0
    executionFailureAttemptId := if st.retryExhausted.isSome then st.executionFailureAttemptId else none
    summary := some reason }

/-- `stopAppTaskAttempt`; the result tells whether the attempt was stopped now. -/
def stopAppTaskAttempt (now : Int) (reads : Reads) (taskId attemptId : String) (expectedGeneration : Nat)
    (reason : String) : Plan (Bool × List String) :=
  let t := reads.snapshot.readTaskContext { taskIds := [taskId] }
  let stale : TaskError := .error "Attempt stop is stale or mismatched"
  match t.resources.get taskId, reads.late.readAttempt attemptId with
  | some r, some attempt =>
    let keys := taskInputAdmissionKeys attempt.events attempt.continuedInputKeys
    if attempt.taskId ≠ taskId ∨ attempt.taskGeneration ≠ expectedGeneration then .throw stale
    else if attempt.failureReason = some "owner-stopped" then .done (false, keys)
    else if r.status.currentAttemptId ≠ some attemptId ∨ attempt.state ≠ .running then .throw stale
    else
      match t.attempts.get attemptId with
      | none => .throw (.error "Cannot set properties of undefined")
      | some a =>
        let a' := { a.finish .interrupted reason now with failureReason := some "owner-stopped" }
        let scope := beginResourceMutationScopeForTasks t [taskId]
        .commit (finishResourceMutationScope now scope
          ((t.setResource (stoppedResource now expectedGeneration reason keys r)).setAttempt a')) (true, keys)
  | _, _ => .throw stale

/-! ### Repairs -/

/-- `AppTaskRecoveryRepair`; every repair requeues its Task. -/
structure RecoveryRepair where
  taskId : String
  summary : String
  deriving DecidableEq

def missingRequests (isAdmitted : String → Bool) (t : Tree) (r : Resource) : List (String × String) :=
  r.status.conditionIds.filterMap fun id =>
    match t.conditions.get id with
    | none => none
    | some c =>
      if c.state = .met ∨ c.spec.type ≠ "app.dependency.updated" ∨ Text.startsWith c.spec.subject "id:" = false then none
      else
        let requestId := Text.trim (Text.drop 3 c.spec.subject)
        if requestId ≠ "" ∧ isAdmitted requestId = false then some (id, requestId) else none

def unadmittedSummary (requests : List (String × String)) : String :=
  let one := requests.length = 1
  "App dependency request" ++ (if one then "" else "s") ++ " " ++ ", ".intercalate (requests.map Prod.snd) ++ " "
    ++ (if one then "was" else "were") ++ " not admitted; retrying the same Task from current facts"

/-- The waiting Task returned to the queue once its impossible waits are unlinked. -/
def requeueUnadmitted (now : Int) (summary : String) (r : Resource) : Resource :=
  touchResource now r fun st => { st with
    phase := .pending
    observedGeneration := r.metadata.generation - 1
    currentAttemptId := none
    summary := some summary }

structure RepairScan where
  tree : Tree
  scope : MutationScope
  repairs : List RecoveryRepair

/-- One Task of `repairUnadmittedAppDependencyWaits`. -/
def repairUnadmittedTask (isAdmitted : String → Bool) (now : Int) (scan : RepairScan) (taskId : String) : RepairScan :=
  match scan.tree.resources.get taskId with
  | none => scan
  | some r =>
    let requests := missingRequests isAdmitted scan.tree r
    if r.status.phase ≠ .waiting ∨ requests.isEmpty = true then scan
    else
      let t := requests.foldl (fun t request => unlinkExactTaskCondition now t taskId request.1) scan.tree
      let summary := unadmittedSummary requests
      { tree := t.setResource (requeueUnadmitted now summary (t.claimed taskId r))
        scope := trackResourceMutationTask scan.tree scan.scope taskId
        repairs := scan.repairs ++ [⟨taskId, summary⟩] }

def RepairScan.plan (now : Int) (scan : RepairScan) : Plan (List RecoveryRepair) :=
  if scan.repairs.isEmpty then .done []
  else .commit (finishResourceMutationScope now scan.scope scan.tree) scan.repairs

def repairUnadmittedAppDependencyWaits (now : Int) (reads : Reads) (isAdmitted : String → Bool)
    (candidates : List String) : Plan (List RecoveryRepair) :=
  if candidates.isEmpty then .done []
  else
    let t := reads.snapshot.readTaskContext { taskIds := candidates }
    ((t.resources.entries.map Sigma.fst).foldl (repairUnadmittedTask isAdmitted now)
      ⟨t, emptyResourceMutationScope t, []⟩).plan now

/-- One Task of `repairRunningAppTasksWithoutAttempt`. -/
def repairRunningTask (now : Int) (scan : RepairScan) (taskId : String) : RepairScan :=
  match scan.tree.resources.get taskId with
  | none => scan
  | some r =>
    if r.status.phase ≠ .running ∨ (currentResourceAttempt scan.tree r).isSome = true then scan
    else
      { tree := (scan.tree.setResource (requeueMissingAttempt now r)).setAttempts
          (requeuedStaleAttempt now scan.tree r).toList
        scope := trackResourceMutationTask scan.tree scan.scope taskId
        repairs := scan.repairs ++ [⟨taskId, missingAttemptSummary r⟩] }

def repairRunningAppTasksWithoutAttempt (now : Int) (reads : Reads) (candidates : List String) :
    Plan (List RecoveryRepair) :=
  if candidates.isEmpty then .done []
  else
    let t := reads.snapshot.readTaskContext { taskIds := candidates }
    ((t.resources.entries.map Sigma.fst).foldl (repairRunningTask now)
      ⟨t, emptyResourceMutationScope t, []⟩).plan now

/-! ### Annotations of an attempt -/

def recordAppTaskAttemptWorkspace (now : Int) (reads : Reads) (claim : Claim) (workspace : Workspace) : Plan Bool :=
  let t := reads.snapshot.readTaskContext { taskIds := [claim.taskId] }
  match matchingTaskAttempt t claim with
  | none => .done false
  | some (r, a) =>
    let scope := beginResourceMutationScopeForTasks t [claim.taskId]
    let next := touchResource now r fun st => { st with workspaceAttemptId := some claim.attemptId }
    let a' := { a with resourceVersion := a.resourceVersion + 1, workspace := some workspace }
    .commit (finishResourceMutationScope now scope ((t.setResource next).setAttempt a')) true

/-- `recordReleasedAppTaskWorkspace`, one transaction: cleanup is noted on its historical attempt. -/
def recordReleasedAppTaskWorkspace (reads : Reads) (claim : Claim) (workspace : Workspace) : Plan Unit :=
  let t := reads.snapshot.readTaskContext { taskIds := [claim.taskId], includeHistory := false, children := false }
  match t.resources.get claim.taskId, reads.late.readAttempt claim.attemptId with
  | some r, some a =>
    if a.taskId ≠ claim.taskId ∨ a.taskGeneration ≠ claim.generation
        ∨ (a.workspace.any fun w => w.released && w.path == workspace.path && w.branch == workspace.branch) = false then
      .done ()
    else
      .commit {
        fences := [{ taskId := claim.taskId, resourceVersion := r.metadata.resourceVersion }]
        attempts := [{ a with resourceVersion := a.resourceVersion + 1, workspace := some workspace }] } ()
  | _, _ => .done ()

def leasedAttempt (leaseUuid : String) (sessionId : Option String) (now : Int) (a : Attempt) : Attempt :=
  refreshAttemptLease { a with resourceVersion := a.resourceVersion + 1, sessionId := sessionId } leaseUuid sessionId now

/-- A write of one attempt under the fence of its Task. -/
def attemptMutation (r : Resource) (a : Attempt) : Mutation where
  fences := [r.fence]
  attempts := [a]

def renewAppTaskAttemptLease (reads : Reads) (claim : Claim) (nowMs : Int) (leaseUuid : String) : Plan Bool :=
  let t := reads.snapshot.readTaskContext { taskIds := [claim.taskId] }
  match claimedAttempt t claim with
  | none => .done false
  | some (r, a) => .commit (attemptMutation r (leasedAttempt leaseUuid a.sessionId nowMs a)) true

def recordAppTaskAttemptSession (now : Int) (reads : Reads) (claim : Claim) (sessionId leaseUuid : String) : Plan Bool :=
  let t := reads.snapshot.readTaskContext { taskIds := [claim.taskId] }
  match claimedAttempt t claim with
  | none => .done false
  | some (r, a) =>
    if a.sessionId = some sessionId ∧ a.lease.isSome = true then .done true
    else .commit (attemptMutation r (leasedAttempt leaseUuid (some sessionId) now a)) true

inductive SessionAssociation where
  | missing | superseded | recorded
  deriving DecidableEq, Repr

def associateAppTaskSession (now : Int) (reads : Reads) (taskId : String) (generation : Nat)
    (attemptId : Option String) (sessionId leaseUuid : String) : Plan SessionAssociation :=
  let t := reads.snapshot.readTaskContext { taskIds := [taskId] }
  match t.resources.get taskId with
  | none => .done .missing
  | some r =>
    match runningAttempt t taskId with
    | none => .done .superseded
    | some (_, a) =>
      if a.taskId ≠ taskId ∨ a.taskGeneration ≠ generation ∨ attemptId ≠ some a.id then .done .superseded
      else if a.sessionId = some sessionId ∧ a.lease.isSome = true then .done .recorded
      else .commit (attemptMutation r (leasedAttempt leaseUuid (some sessionId) now a)) .recorded

end MayAgent
