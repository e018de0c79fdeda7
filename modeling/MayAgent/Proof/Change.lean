import MayAgent.Proof.Scope

/-!
# What an operation makes of a Task

Every write of the reconciler to a stored Task is one of the changes listed here. The operations are
shown to make only these changes; the invariants then look at the changes and not at the operations
again.
-/

namespace MayAgent

def InputWait.shape (w : InputWait) : Nat × Bool × List String × Option Int :=
  (w.taskGeneration, w.pending, w.conditions.map ConditionRef.id, w.reviewAt)

/-- Two tables of waits that differ at most in the generations of their Conditions. -/
def SameWaits (waits waits' : Table String InputWait) : Prop :=
  ∀ key, (waits'.get key).map InputWait.shape = (waits.get key).map InputWait.shape

/-- A Task whose links to Conditions were edited. -/
structure Resource.Relinks (r r' : Resource) : Prop where
  version : r.metadata.resourceVersion ≤ r'.metadata.resourceVersion
  waits : SameWaits r.status.inputWaits r'.status.inputWaits
  rest : r' = { r with
    metadata := { r.metadata with resourceVersion := r'.metadata.resourceVersion }
    status := { r.status with
      conditionIds := r'.status.conditionIds
      inputWaits := r'.status.inputWaits
      updatedAt := r'.status.updatedAt } }

def wakeTriggers (r : Resource) (now : Int) (tr : Option Trigger) (wakes : List Event) : Option Trigger :=
  wakes.foldl (fun tr e => some (wakeTrigger r tr e now)) tr

structure Resource.WokenBy (r : Resource) (e : Event) : Prop where
  observes : r.observesConditions = true
  linked : r.status.conditionIds ≠ []
  recent : taskEventPredatesReopening r e = false

structure Attempt.RunsFor (a : Attempt) (reads : Reads) (r : Resource) : Prop where
  stored : reads.snapshot.attempts.get a.id = some a
  task : a.taskId = r.metadata.id
  state : a.state = .running
  current : r.status.currentAttemptId = some a.id

/-- A claim of the Task by its running attempt. -/
structure Claim.Holds (claim : Claim) (reads : Reads) (r : Resource) (a : Attempt) : Prop where
  own : r.metadata.id = claim.taskId
  attempt : claim.attemptId = a.id
  generation : a.taskGeneration = claim.generation
  runs : a.RunsFor reads r

/-- The attempt a claim finds running, if any. -/
def PreviousAttempt (reads : Reads) (r : Resource) (previous : Option Attempt) : Prop :=
  match previous with
  | none => r.status.currentAttemptId = none
  | some a => a.RunsFor reads r

def takeOver (now : Int) (untriggered : Bool) (previous : Option Attempt) (r : Resource) : Resource :=
  let r := if untriggered then requeueUntriggered now r else r
  if previous.isSome then r.release .interrupted else r

/-! ### Calls -/

/-- The calls that give up a running attempt for recovery. -/
def Call.releases : Call → Bool
  | .releaseInterrupted _ _ => true
  | .releaseTerminal _ _ _ _ _ _ => true
  | .releaseLate _ _ _ _ => true
  | .releaseStale _ _ => true
  | _ => false

def Call.closes : Call → Option String
  | .close input _ => some input.taskId
  | .cancel input => some input.taskId
  | _ => none

def Call.actions : Call → List TaskAction
  | .complete _ input => input.actions
  | .defer _ input => input.actions
  | .change _ input => input.actions
  | _ => []

def unblockReason (actions : List TaskAction) (k : String) : Option String :=
  actions.findSome? fun
    | .unblockTask taskId _ reason => if taskId = k then some reason else none
    | .retireCondition _ _ _ => none

/-- The calls that may leave every Task as it is. -/
def Call.taskless : Call → Bool
  | .track _ _ => true
  | .releasedWorkspace _ _ => true
  | .renewLease _ _ _ => true
  | .session _ _ _ => true
  | .associate _ _ _ _ _ => true
  | _ => false

structure ObserveInput.Admits (given input : ObserveInput) (key : Option String) : Prop where
  intent : normalizeTaskAgent given.intent = .ok input.intent
  rest : input = { given with intent := input.intent }
  key : key = given.admissionKey.map Text.trim

theorem normalizeTaskAgent_id {intent normalized : Intent} (h : normalizeTaskAgent intent = .ok normalized) :
    normalized.id = intent.id := by
  unfold normalizeTaskAgent at h
  simp only at h
  split_ifs at h
  split at h
  · split at h
    · cases h
    · cases h
      rfl
  all_goals
    cases h
    rfl

variable {given input : ObserveInput} {key : Option String}

theorem ObserveInput.Admits.trigger (h : given.Admits input key) :
    input.trigger = given.trigger := by rw [h.rest]

theorem ObserveInput.Admits.id (h : given.Admits input key) :
    input.intent.id = given.intent.id := normalizeTaskAgent_id h.intent

/-! ### Changes -/

/-- The attempt and the Task after a lowered limit was found to be reached. -/
def adoptedAttempt (now : Int) (limit : Nat) (r : Resource) (a : Attempt) : Attempt :=
  { a with
    retryExhausted := some (exhaustionOf a r.status.executionFailures limit now)
    resourceVersion := a.resourceVersion + 1 }

def adoptedResource (now : Int) (limit : Nat) (r retained : Resource) (a : Attempt) : Resource :=
  touchResource now retained fun st => { st with
    phase := .attention
    retryExhausted := some (exhaustionOf a r.status.executionFailures limit now)
    executionRetryAt := none
    summary := some ("Automatic retries exhausted under current policy; owner repair or explicit retry required. "
      ++ a.summary.getD "") }

section Change

variable (ctx : Context) (now : Int) (call : Call) (reads : Reads) (r : Resource) (tr : Option Trigger)

/-- The changes of one stored Task `r` with the pending trigger `tr`: its next state and trigger, the
attempts written with it and the admissions written by the same operation, with the call that makes
the change. -/
inductive Change : Resource → Option Trigger → List Attempt → List (String × Admission) → Prop
  | observe (given input : ObserveInput) (key : Option String) (agent : String) (same : Bool) (specHash : SpecHash)
      (hcall : call = .observe given) (hgiven : given.Admits input key)
      (hopen : reads.check.isCancelled r.metadata.id = false) (hid : input.intent.id = r.metadata.id)
      (hrecent : ∀ e, input.trigger = some e → taskEventPredatesReopening r e = false)
      (hkey : ∀ k, key = some k → reads.snapshot.admissions.get k = none) :
      Change (noteHumanRequest now input key (observedResource ctx now input (some r) same))
        (observedTrigger now agent (observedResource ctx now input (some r) same).metadata.generation
          r.metadata.generation r.metadata.id tr input.trigger) []
        (key.toList.map fun key => (key, {
          taskId := r.metadata.id
          taskGeneration := (observedResource ctx now input (some r) same).metadata.generation
          specHash := specHash
          admittedAt := now
          inputEvent := input.trigger }))
  | record (e : Event) (agent : String) (hcall : call = .record r.metadata.id e)
      (hopen : reads.late.isCancelled r.metadata.id = false)
      (hrecent : taskEventPredatesReopening r e = false) (hnew : reads.late.hasTaskEvent r.metadata.id e = false) :
      Change r.bump (some (recordedTrigger now agent r tr e)) [] []
  | wake (e : Event) (taskIds : List String) (hcall : call = .track e taskIds) (hwoken : r.WokenBy e)
      (hmem : r.metadata.id ∈ taskIds) :
      Change r.bump (some (wakeTrigger r tr e now)) [] []
  | grant (input : ClaimInput) (agent : String) (prior previous : Option Attempt) (untriggered : Bool)
      (continued : List String) (trigger : Event)
      (hcall : call = .claim input) (hprevious : PreviousAttempt reads r previous)
      (hopen : reads.late.isCancelled r.metadata.id = false)
      (hallowed : taskExecutionRetryExhausted r = false) (hlimit : reachedLimit ctx r = none)
      (hid : input.taskId = r.metadata.id)
      (huntriggered : untriggered = true → tr = none ∧ ∃ a, previous = some a ∧ attemptTrigger a = none)
      (htrigger : ∃ reviewDue, trigger =
        claimTrigger ctx input agent (claimedEvents r (offeredEvents previous tr)) previous reviewDue) :
      Change (startRunning now (input.attemptId r.metadata.generation) (takeOver now untriggered previous r))
        (remainingTrigger agent tr (remainingEvents r (offeredEvents previous tr)))
        ((previous.map (recoveredAttempt now untriggered)).toList ++
          [newAttempt ctx now input (takeOver now untriggered previous r) agent prior
            (claimedEvents r (offeredEvents previous tr)) (remainingEvents r (offeredEvents previous tr))
            continued trigger]) []
  | backOff (input : ClaimInput) (previous : Option Attempt) (summary : String) (hcall : call = .claim input)
      (hid : input.taskId = r.metadata.id) (hprevious : PreviousAttempt reads r previous)
      (hopen : reads.late.isCancelled r.metadata.id = false)
      (hallowed : taskExecutionRetryExhausted r = false) (hlimit : reachedLimit ctx r = none) :
      Change (backOffAdmission now summary (takeOver now false previous r)) tr
        (previous.map fun a => supersedeAttempt a summary now).toList []
  | adopt (input : ClaimInput) (limit : Nat) (a : Attempt) (retained : Resource) (keys : List String)
      (admissions : List (String × Admission)) (hcall : call = .claim input) (hid : input.taskId = r.metadata.id)
      (hopen : reads.late.isCancelled r.metadata.id = false)
      (hlimit : reachedLimit ctx r = some limit)
      (hstored : reads.late.attempts.get a.id = some a) (htask : a.taskId = r.metadata.id)
      (hfailed : a.unsuccessful = true) (hreferenced : r.status.executionFailureAttemptId = some a.id)
      (houtcome : inputOutcomeAdmissions reads.late r
        (some (adoptedAttempt now limit r a)) tr a.taskGeneration a.id
        { summary := "", inputKeys := a.acceptedResult.bind AcceptedResult.inputKeys, report := true } .failure
        = .ok (retained, keys, admissions)) :
      Change (adoptedResource now limit r retained a) tr [adoptedAttempt now limit r a] admissions
  | fail (claim : Claim) (a : Attempt) (failure summary : String) (details : FailureDetails) (report : Bool)
      (retained : Resource) (keys : List String) (admissions : List (String × Admission))
      (hcall : call = .fail claim failure details) (hclaim : claim.Holds reads r a)
      (houtcome : inputOutcomeAdmissions reads.late r (some a) tr claim.generation claim.attemptId
        { summary := failure, report := report } .failure = .ok (retained, keys, admissions)) :
      Change (failedResource ctx now claim r retained a summary details)
        (restoreAttemptEvents r a tr now) [failedAttempt ctx now r a failure details] admissions
  | report (claim : Claim) (a : Attempt) (summary : String) (input outcome : ResultInput)
      (retained : Resource) (keys : List String) (admissions : List (String × Admission)) (accepted : AcceptedResult)
      (hcall : call = .report claim input) (hclaim : claim.Holds reads r a)
      (hcurrent : r.metadata.generation = claim.generation)
      (houtcome : inputOutcomeAdmissions reads.late r (some a) tr claim.generation claim.attemptId outcome .failure
        = .ok (retained, keys, admissions))
      (haccepted : accepted = acceptedAttemptResult tr .incomplete { input with inputKeys := some keys }
        (defaultTaskAcceptance claim (input.facts.getD []))) :
      Change (reportedResource ctx now claim r (retainPendingInputs reads.late claim.generation retained keys) a summary input)
        (consumeSettledTaskEvents tr claim.agent accepted.acceptedLiveEventIds keys)
        [{ a.noteFailure ctx now r with acceptedResult := some accepted }.finish .completed summary now] admissions
  | complete (claim : Claim) (a : Attempt) (input : CompleteInput) (retained relinked : Resource) (t : Tree)
      (basis : AcceptanceBasis) (keys : List String) (admissions : List (String × Admission))
      (accepted : AcceptedResult) (next : Resource) (hcall : call = .complete claim input)
      (hclaim : claim.Holds reads r a)
      (hcurrent : r.metadata.generation = claim.generation)
      (houtcome : inputOutcomeAdmissions reads.late r (some a) tr claim.generation claim.attemptId input.result .answer
        = .ok (retained, keys, admissions))
      (hlinks : retained.Relinks relinked)
      (haccepted : accepted = acceptedAttemptResult tr .converged { input.result with inputKeys := some keys } basis)
      (htrigger : t.taskTriggers.get r.metadata.id =
        consumeSettledTaskEvents tr claim.agent accepted.acceptedLiveEventIds keys)
      (hnext : next = completedResource now claim (relinked.release .completed)
        (pendingWork ctx now t r.metadata.id (relinked.release .completed)) input.result) :
      Change next (consumeSettledTaskEvents tr claim.agent accepted.acceptedLiveEventIds keys)
        [settledWorkspace ({ a with acceptedResult := some accepted }.finish .completed input.result.summary now)
          input.workspace next] admissions
  | defer (claim : Claim) (a : Attempt) (input : DeferInput) (retained relinked : Resource) (t : Tree)
      (kind : OutcomeKind) (keys : List String) (admissions : List (String × Admission)) (accepted : AcceptedResult)
      (reviewAt : Option Int) (runnable : Bool) (wakes : List Event) (next : Resource)
      (hcall : call = .defer claim input) (hclaim : claim.Holds reads r a)
      (hcurrent : r.metadata.generation = claim.generation) (hkind : kind ≠ .answer)
      (houtcome : inputOutcomeAdmissions reads.late r (some a) tr claim.generation claim.attemptId input.result kind
        = .ok (retained, keys, admissions))
      (hreview : deferReviewAt now claim.taskId retained keys input.result.reviewAt = .ok reviewAt)
      (hlinks : (retained.release .completed).Relinks relinked)
      (haccepted : accepted.state = .waiting ∧ accepted.inputKeys = some keys ∧ accepted.acceptedLiveEventIds =
        incorporatedEventIds tr input.result.acceptedLiveEventIds keys)
      (hnext : next = deferredResource now claim (retainDeferredInputs reads.late t claim.generation input.continue_
        (input.conditions.map ConditionDecl.id) reviewAt relinked keys) runnable reviewAt input.result)
      (hwoken : ∀ e ∈ wakes, next.WokenBy e)
      (hpending : ∀ e ∈ wakes, ∃ entry ∈ pendingTriggerEvents
        (consumeSettledTaskEvents tr claim.agent accepted.acceptedLiveEventIds keys), entry.event = e) :
      Change next
        (wakeTriggers r now (consumeSettledTaskEvents tr claim.agent accepted.acceptedLiveEventIds keys) wakes)
        [{ a with acceptedResult := some accepted }.finish .completed input.result.summary now] admissions
  | change (claim : Claim) (a : Attempt) (input : ChangeInput) (relinked : Resource) (t : Tree) (keys : List String)
      (actionsApplied : List String) (receipt : ChangeReceipt) (hcall : call = .change claim input)
      (hclaim : claim.Holds reads r a)
      (hcurrent : r.metadata.generation = claim.generation) (hlinks : r.Relinks relinked)
      (hkeys : resultInputKeys reads.late (some a) tr claim.taskId claim.generation input.acceptedLiveEventIds
        input.inputKeys = .ok keys) :
      Change (touchResource now (retainChangedInputs reads.late t claim.generation
        (input.conditions.map ConditionDecl.id) relinked keys) id) tr
        [recordChange a input actionsApplied receipt] []
  | release (a : Attempt) (attemptSummary reason : String) (summary : Option String) (hcall : call.releases = true)
      (hruns : a.RunsFor reads r) (hreason : reason ≠ "owner-stopped") :
      Change (requeuedResource now summary r) (restoreAttemptEvents r a tr now)
        [releasedAttempt now attemptSummary reason a] []
  | stop (a : Attempt) (generation : Nat) (reason : String) (keys : List String)
      (hcall : call = .stop r.metadata.id a.id generation reason) (hruns : a.RunsFor reads r)
      (hinput : reads.late = reads.snapshot → generation = a.taskGeneration ∧
        keys = taskInputAdmissionKeys a.events a.continuedInputKeys) :
      Change (stoppedResource now generation reason keys r) tr
        [{ a.finish .interrupted reason now with failureReason := some "owner-stopped" }] []
  | unadmit (relinked : Resource) (summary : String) (isAdmitted : String → Bool) (candidates : List String)
      (hcall : call = .repairUnadmitted isAdmitted candidates) (hwaiting : r.status.phase = .waiting)
      (hlinks : r.Relinks relinked) :
      Change (requeueUnadmitted now summary relinked) tr [] []
  | workspace (claim : Claim) (a : Attempt) (workspace : Workspace) (hcall : call = .workspace claim workspace)
      (hruns : a.RunsFor reads r) :
      Change (touchResource now r fun st => { st with workspaceAttemptId := some a.id }) tr
        [{ a with resourceVersion := a.resourceVersion + 1, workspace := some workspace }] []
  | retry (input : RetryInput) (a : Attempt) (hcall : call = .retry input) (hid : input.taskId = r.metadata.id)
      (hopen : reads.check.isCancelled r.metadata.id = false)
      (hidle : r.status.currentAttemptId = none) (hphase : r.status.phase = .attention ∨ r.status.phase = .pending)
      (hfailed : a.unsuccessful = true)
      (hstored : reads.late.attempts.get a.id = some a ∨ reads.snapshot.attempts.get a.id = some a)
      (hattempt : (∃ e, r.status.retryExhausted = some e ∧ a.id = e.attemptId) ∨
        (a.taskId = r.metadata.id ∧ a.taskGeneration = r.metadata.generation))
      (hfound : retriedAttempt reads.late (reads.snapshot.readTaskContext { taskIds := [input.taskId] }) r input.taskId
        r.metadata.generation = some a) :
      Change (retriedResource now r)
        (if a.state = .failed then restoreAttemptEvents r a tr now else tr) [] []
  | cancel (input : CloseInput) (previous : Option Attempt) (hcall : call.closes = some input.taskId)
      (hprevious : PreviousAttempt reads r previous) (hid : input.taskId = r.metadata.id) :
      Change (closedResource now input (takeOver now false previous r)) none
        (previous.map (cancelledAttempt now input.summary)).toList []
  | reopen (input : ReopenInput) (spec : Spec) (closure : Cancellation) (hcall : call = .reopen input)
      (hid : input.taskId = r.metadata.id)
      (hgeneration : input.expectedGeneration = r.metadata.generation)
      (hclosed : reads.snapshot.cancellations.get r.metadata.id = some closure) :
      Change (reopenedResource now input reads.late.lastEventId spec r)
        (if input.input.isNone then some (reopenTrigger now input (r.metadata.generation + 1)) else tr) [] []

end Change

/-- A deferral forwards to the other Tasks it reads the events that are pending on its own. -/
def Call.Forwards (call : Call) (reads : Reads) (k : String) (e : Event) : Prop :=
  ∃ claim input r tr, call = .defer claim input ∧ claim.taskId ≠ k ∧
    k ∈ reads.snapshot.contextTaskIds (input.scope claim) ∧ reads.snapshot.task claim.taskId = some (r, tr) ∧
    ∃ entry ∈ pendingTriggerEvents tr, entry.event = e

/-- The changes a settlement makes of a Task beside its own: unblocking it, waking it, or writing it
again as it was. -/
inductive Aside (now : Int) (call : Call) (reads : Reads) (r : Resource) (tr : Option Trigger) : Resource → Option Trigger → Prop
  | aside (unblock : Option String) (wakes : List Event)
      (hcall : unblock = unblockReason call.actions r.metadata.id)
      (hwakes : ∀ e ∈ wakes, call.Forwards reads r.metadata.id e)
      (hunblock : unblock.isSome = true → (r.status.phase = .waiting ∨ r.status.phase = .attention) ∧
        (Text.trim r.metadata.id = r.metadata.id → reads.snapshot.isCancelled r.metadata.id = false))
      (hwoken : ∀ e ∈ wakes, ((unblock.map fun reason => unblockResource now reason r).getD r).WokenBy e) :
      Aside now call reads r tr ((unblock.map fun reason => unblockResource now reason r).getD r)
        (wakeTriggers r now tr wakes)

inductive Created (ctx : Context) (now : Int) (call : Call) (reads : Reads) :
    Resource → Option Trigger → List (String × Admission) → Prop
  | observe (given input : ObserveInput) (key : Option String) (agent : String) (same : Bool) (specHash : SpecHash)
      (hcall : call = .observe given) (hgiven : given.Admits input key) (hid : Text.nonEmpty input.intent.id = true)
      (hkey : ∀ k a, key = some k → reads.snapshot.admissions.get k = some a → a.taskId = input.intent.id) :
      Created ctx now call reads (noteHumanRequest now input key (observedResource ctx now input none same))
        (observedTrigger now agent 1 0 input.intent.id none input.trigger)
        (key.toList.map fun key => (key, {
          taskId := input.intent.id
          taskGeneration := 1
          specHash := specHash
          admittedAt := now
          inputEvent := input.trigger }))

/-- A later version of an attempt with another lease, session or workspace. -/
structure Attempt.Annotates (a a' : Attempt) : Prop where
  rest : a' = { a with
    resourceVersion := a'.resourceVersion
    sessionId := a'.sessionId
    lease := a'.lease
    workspace := a'.workspace }

/-- What a mutation says about closures: nothing, the closure of its Task, or the reopening of it. -/
inductive Mutation.Controls (now : Int) (call : Call) (reads : Reads) (m : Mutation) : Prop
  | plain (hclose : m.cancellations = []) (hreopen : m.reopenTaskIds = [])
      (hreceipts : ∀ c ∈ m.controlReceipts, c.action ≠ .reopen)
  | close (input : CloseInput) (r : Resource) (tr : Option Trigger) (previous : Option Attempt) (w : TaskWrite)
      (htask : reads.snapshot.task input.taskId = some (r, tr)) (htasks : m.tasks = [w])
      (hw : w.resource = closedResource now input (takeOver now false previous r))
      (hclose : m.cancellations = [closureOf now input w.resource]) (hreopen : m.reopenTaskIds = [])
      (hreceipts : ∀ c ∈ m.controlReceipts, c.action ≠ .reopen)
  | reopen (input : ReopenInput) (r : Resource) (tr : Option Trigger) (spec : Spec) (closure : Cancellation)
      (w : TaskWrite) (c : ControlReceipt) (receipt : ReopenReceipt)
      (htask : reads.snapshot.task input.taskId = some (r, tr)) (htasks : m.tasks = [w])
      (hw : w.resource = reopenedResource now input reads.late.lastEventId spec r)
      (hclosed : reads.snapshot.cancellations.get input.taskId = some closure)
      (hclose : m.cancellations = []) (hreopen : m.reopenTaskIds = [input.taskId])
      (hreceipts : m.controlReceipts = [c]) (hc : c.taskId = input.taskId ∧ c.action = .reopen ∧
        c.expectedGeneration = r.metadata.generation ∧ c.expectedResourceVersion = r.metadata.resourceVersion ∧
        c.result = some (.reopen receipt)) (hreceipt : receipt.closure = closure) (hcall : call = .reopen input)
      (hexecutor : r.spec.executor ≠ some "conversation")

/-- The mutations of the reconciler: every written Task is created, or changed in one of the listed ways
under a fence of the version it was computed from; an attempt is written together with its Task or
merely annotated; some Task is changed and not only written aside, for which admissions are written.
-/
structure Mutation.Lawful (ctx : Context) (now : Int) (call : Call) (reads : Reads) (m : Mutation) : Prop where
  nodup : (m.tasks.map fun w => w.resource.metadata.id).Nodup
  task : ∀ w ∈ m.tasks,
    (∃ r tr, reads.snapshot.task w.resource.metadata.id = some (r, tr) ∧ r.fence ∈ m.fences ∧
      (Change ctx now call reads r tr w.resource w.trigger
        (m.attempts.filter fun a => a.taskId == w.resource.metadata.id) m.admissions ∨
      (m.attempts.filter fun a => a.taskId == w.resource.metadata.id) = [] ∧
        Aside now call reads r tr w.resource w.trigger)) ∨
    (w.resource.metadata.id ∈ m.expectMissingTaskIds ∧ m.attempts = [] ∧
      Created ctx now call reads w.resource w.trigger m.admissions)
  attempt : ∀ a' ∈ m.attempts, (∃ w ∈ m.tasks, w.resource.metadata.id = a'.taskId) ∨
    (m.tasks = [] ∧ m.attempts = [a'] ∧ ∃ a r tr, reads.snapshot.task a'.taskId = some (r, tr) ∧
      (∃ f ∈ m.fences, f.taskId = a'.taskId ∧ f.resourceVersion = r.metadata.resourceVersion) ∧
      (a.RunsFor reads r ∨ reads.late.attempts.get a.id = some a ∧ reads.late = reads.snapshot) ∧ a.Annotates a')
  acts : m.tasks ≠ [] ∨ m.admissions ≠ [] → ∃ w ∈ m.tasks,
    w.resource.metadata.id ∈ m.expectMissingTaskIds ∧ Created ctx now call reads w.resource w.trigger m.admissions ∨
    ∃ r tr, reads.snapshot.task w.resource.metadata.id = some (r, tr) ∧
      Change ctx now call reads r tr w.resource w.trigger
        (m.attempts.filter fun a => a.taskId == w.resource.metadata.id) m.admissions
  writes : m.tasks = [] → call.taskless = true
  controls : m.Controls now call reads

end MayAgent
