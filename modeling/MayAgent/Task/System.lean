import MayAgent.Lib.History
import MayAgent.Task.Control

/-!
# The system

All operations of the reconciler and the writers beside it, as one transition system over the store
of an App. Any number of processes call operations; each call reads the store at up to three
earlier moments and lands its write at the current one. SQLite transactions are serializable, so a
landing is one step.
-/

namespace MayAgent

inductive Call where
  | observe (input : ObserveInput)
  | record (taskId : String) (e : Event)
  | track (e : Event) (taskIds : List String)
  | claim (input : ClaimInput)
  | fail (claim : Claim) (failure : String) (details : FailureDetails)
  | report (claim : Claim) (input : ResultInput)
  | complete (claim : Claim) (input : CompleteInput)
  | defer (claim : Claim) (input : DeferInput)
  | change (claim : Claim) (input : ChangeInput)
  | releaseInterrupted (recovery : AttemptRecovery) (summary : String)
  | releaseTerminal (recovery : AttemptRecovery) (sessionId : String) (status : TerminalStatus) (summary : String)
      (nowMs : Int) (activity : Option SessionActivity)
  | releaseLate (taskId : String) (generation : Nat) (sessionId summary : String)
  | releaseStale (claim : Claim) (summary : String)
  | stop (taskId attemptId : String) (expectedGeneration : Nat) (reason : String)
  | repairUnadmitted (isAdmitted : String → Bool) (candidates : List String)
  | repairRunning (candidates : List String)
  | workspace (claim : Claim) (workspace : Workspace)
  | releasedWorkspace (claim : Claim) (workspace : Workspace)
  | renewLease (claim : Claim) (nowMs : Int) (leaseUuid : String)
  | session (claim : Claim) (sessionId leaseUuid : String)
  | associate (taskId : String) (generation : Nat) (attemptId : Option String) (sessionId leaseUuid : String)
  | retry (input : RetryInput)
  | close (input : CloseInput) (afterResult : String)
  | cancel (input : CloseInput)
  | reopen (input : ReopenInput)

inductive Effect where
  | none
  | commit (m : Mutation)
  | acknowledge (taskId : String) (nextCheckAt : Option Int) (expectedRevision : Nat)

def Plan.effect {ρ : Type} : Plan ρ → Effect
  | .done _ => .none
  | .throw _ => .none
  | .commit m _ => .commit m
  | .acknowledge taskId nextCheckAt revision _ => .acknowledge taskId nextCheckAt revision

/-- The write a call plans from its reads at the clock `now`. -/
def Call.effect (ctx : Context) (now : Int) (reads : Reads) : Call → Effect
  | .observe input => (observeAppTaskIntent ctx now reads input).effect
  | .record taskId e => (recordAppTaskTrigger ctx now reads taskId e).effect
  | .track e taskIds => (trackAppTaskConditionEventForTasks ctx now reads e taskIds).effect
  | .claim input => (claimObservedAppTask ctx now reads input).effect
  | .fail c failure details => (failAppTaskAttempt ctx now reads c failure details).effect
  | .report c input => (reportAppTaskFailure ctx now reads c input).effect
  | .complete c input => (completeAppTask ctx now reads c input).effect
  | .defer c input => (deferAppTask ctx now reads c input).effect
  | .change c input => (applyRunningTaskChanges ctx now reads c input).effect
  | .releaseInterrupted recovery summary => (releaseInterruptedAppTaskAttempt ctx now reads recovery summary).effect
  | .releaseTerminal recovery sessionId status summary nowMs activity =>
    (releaseTerminalSessionExpiredAppTaskAttempt now reads recovery sessionId status summary nowMs activity).effect
  | .releaseLate taskId generation sessionId summary =>
    (releaseLateTerminalWorkflowAppTaskAttempt now reads taskId generation sessionId summary).effect
  | .releaseStale c summary => (releaseStaleAppTaskResult now reads c summary).effect
  | .stop taskId attemptId expectedGeneration reason =>
    (stopAppTaskAttempt now reads taskId attemptId expectedGeneration reason).effect
  | .repairUnadmitted isAdmitted candidates =>
    (repairUnadmittedAppDependencyWaits now reads isAdmitted candidates).effect
  | .repairRunning candidates => (repairRunningAppTasksWithoutAttempt now reads candidates).effect
  | .workspace c w => (recordAppTaskAttemptWorkspace now reads c w).effect
  | .releasedWorkspace c w => (recordReleasedAppTaskWorkspace reads c w).effect
  | .renewLease c nowMs leaseUuid => (renewAppTaskAttemptLease reads c nowMs leaseUuid).effect
  | .session c sessionId leaseUuid => (recordAppTaskAttemptSession now reads c sessionId leaseUuid).effect
  | .associate taskId generation attemptId sessionId leaseUuid =>
    (associateAppTaskSession now reads taskId generation attemptId sessionId leaseUuid).effect
  | .retry input => (retryFailedAppTask now reads input).effect
  | .close input afterResult => (closeAppTask ctx now reads input afterResult).effect
  | .cancel input => (cancelAppTask ctx now reads input).effect
  | .reopen input => (reopenAppTask ctx now reads input).effect

/-- The store after a write lands; a rejected mutation changes nothing. -/
def Effect.land (ctx : Context) (now : Int) (s : Store) : Effect → Store
  | .none => s
  | .commit m =>
    match s.commit ctx now m with
    | .ok s' => s'
    | .error _ => s
  | .acknowledge taskId nextCheckAt revision => s.setRecoveryState now taskId nextCheckAt revision

/-- A call with the process that makes it: its configuration, its clock when it plans and when it
lands, and what it read. -/
structure Landing where
  ctx : Context
  now : Int
  landedAt : Int
  reads : Reads
  call : Call

inductive Action where
  | call (landing : Landing)
  | wake (appId taskId : String) (e : Event) (eventId : Int) (observedAt : Int)
  | journal (eventId : Int)
  | lifecycle (state : Lifecycle)
  | humanInput (taskIds : List String)

def Landing.effect (landing : Landing) : Effect := landing.call.effect landing.ctx landing.now landing.reads

def Landing.next (landing : Landing) (s : Store) : Store := landing.effect.land landing.ctx landing.landedAt s

def Action.next (s : Store) : Action → Store
  | .call landing => landing.next s
  | .wake appId taskId e eventId observedAt =>
    match s.persistExactTaskWake appId taskId e eventId observedAt with
    | .ok s' => s'
    | .error _ => s
  | .journal eventId => { s with lastEventId := eventId }
  | .lifecycle state => { s with lifecycle := state }
  | .humanInput taskIds => { s with humanInput := taskIds }

/-- The operations that read and write in one transaction. -/
def Call.atomic : Call → Bool
  | .reopen _ => true
  | .releasedWorkspace _ _ => true
  | _ => false

/-- The id of the attempt a claim starts at generation `n`. -/
def ClaimInput.attemptId (input : ClaimInput) (n : Nat) : String := "r_" ++ toString n ++ "_" ++ input.attemptUuid

/-- The random id a claim draws is new. -/
def Call.Fresh (s : Store) : Call → Prop
  | .claim input => ∀ n, s.attempts.get (input.attemptId n) = none
  | _ => True

/-- The reads of a call happened one after the other. -/
def Reads.Within (h : List Store) (reads : Reads) : Prop :=
  ∃ older old recent, reads.late :: recent <:+ h ∧ reads.snapshot :: old <:+ reads.late :: recent ∧
    reads.check :: older <:+ reads.snapshot :: old

/-- The steps the environment allows: random ids are new and journal ids increase. -/
def Action.Admissible (s : Store) : Action → Prop
  | .call landing => landing.call.Fresh s ∧ (landing.call.atomic = true → landing.reads = Reads.now s)
  | .wake _ _ _ eventId _ => s.lastEventId < eventId
  | .journal eventId => s.lastEventId < eventId
  | .lifecycle _ => True
  | .humanInput _ => True

/-- The reads of a step lie in the history. -/
def Action.ReadsWithin (h : List Store) : Action → Prop
  | .call landing => landing.reads.Within h
  | _ => True

structure Store.Initial (s : Store) : Prop where
  tasks : s.tasks = ∅
  attempts : s.attempts = ∅
  conditions : s.conditions = ∅
  routes : s.routes = []
  admissions : s.admissions = ∅
  cancellations : s.cancellations = ∅
  controlReceipts : s.controlReceipts = ∅
  taskEvents : s.taskEvents = []

/-- A step of several processes, each acting on its own earlier reads, in which every action meets
`ok` at the store it lands on. -/
def Interleaved (ok : Store → Action → Prop) (h : List Store) (s' : Store) : Prop :=
  ∃ s past action, h = s :: past ∧ action.Admissible s ∧ action.ReadsWithin h ∧ ok s action ∧ s' = action.next s

/-- The histories of an App under any number of processes. -/
abbrev History (ok : Store → Action → Prop) : List Store → Prop := Run Store.Initial (Interleaved ok)

/-- A call that no other process interrupts. -/
def Action.Alone (s : Store) : Action → Prop
  | .call landing => landing.reads = Reads.now s
  | _ => True

/-- A step of a run in which operations follow one after the other. -/
def Sequential (ok : Store → Action → Prop) (s s' : Store) : Prop :=
  ∃ action : Action, action.Admissible s ∧ action.Alone s ∧ ok s action ∧ s' = action.next s

/-- The stores that operations following one after the other can reach. -/
def Reachable (ok : Store → Action → Prop) (s : Store) : Prop :=
  ∃ s₀, s₀.Initial ∧ Relation.ReflTransGen (Sequential ok) s₀ s

theorem Reachable.history {ok : Store → Action → Prop} {s : Store} (hreach : Reachable ok s) :
    ∃ past, History ok (s :: past) := by
  obtain ⟨_, hinit, hsteps⟩ := hreach
  induction hsteps with
  | refl => exact ⟨[], .start hinit⟩
  | @tail s _ _ hstep ih =>
    obtain ⟨past, hrun⟩ := ih
    obtain ⟨action, hadm, halone, hok, rfl⟩ := hstep
    refine ⟨s :: past, .next hrun ⟨s, past, action, rfl, hadm, ?_, hok, rfl⟩⟩
    cases action with
    | call landing =>
      have hreads : landing.reads = Reads.now s := halone
      show landing.reads.Within (s :: past)
      rw [hreads]
      exact ⟨past, past, past, List.suffix_refl _, List.suffix_refl _, List.suffix_refl _⟩
    | _ => trivial

end MayAgent
