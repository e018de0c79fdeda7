import MayAgent.Task.Tracker

/-!
# Intake

How desired state and input reach a Task: `observeAppTaskIntent` admits an intent with an optional
input event and admission key, and `recordAppTaskTrigger` adds a wake to an existing Task.
-/

namespace MayAgent

/-- The arguments of `observeAppTaskIntent`. -/
structure ObserveInput where
  intent : Intent
  appAgent : String
  trigger : Option Event := none
  admissionKey : Option String := none
  creator : Option Creator := none
  creatorRevision : Bool := false

/-- `AppTaskObservationResult`. -/
structure Observation where
  taskId : String
  generation : Nat
  changed : Bool
  deriving DecidableEq

/-- The requirements of a specification, without the selection of its executor. -/
def Spec.requirements (spec : Spec) : Spec := { spec with owner := none, workflow := none, executor := none }

def Spec.selection (spec : Spec) : Option String × Option String × Option String :=
  (spec.owner, spec.workflow, spec.executor)

def isHumanRequest (e : Event) : Bool :=
  e.field "type" == some (.str "app.task.requested")
    && (((e.record? "data").bind fun data => Event.record? data "request").bind
      fun request => Event.record? request "source").any fun source => Event.field source "kind" == some (.str "human")

/-- Only the creator revises requirements, and only the responsible App selects the executor. -/
def checkRevision (ctx : Context) (input : ObserveInput) (existing : Resource) (next : Spec) : Except TaskError Unit :=
  if existing.spec = next then .ok ()
  else
    match (if existing.spec.requirements = next.requirements then .ok ()
      else assertResourceCreator existing.metadata.creator (input.creator.getD ⟨ctx.appId, none⟩)) with
    | .error e => .error e
    | .ok () =>
      if existing.spec.selection ≠ next.selection ∧ (input.creator.bind Creator.taskId).isSome = true
          ∧ input.creatorRevision = false then
        .error (.error "Execution selection belongs to the responsible App")
      else .ok ()

/-- Whether the observed intent has the requirements the Task already has. -/
def sameSpec (t : Tree) (existing : Resource) (appAgent : String) (specHash : SpecHash) : Bool :=
  let intent := resourceIntent existing
  decide (appTaskSpecHash intent (resolvedAgent t intent appAgent) = specHash)

/-- The Task as `observeAppTaskIntent` stores it, before a human request is noted. -/
def observedResource (ctx : Context) (now : Int) (input : ObserveInput) (existing : Option Resource)
    (same : Bool) : Resource :=
  let lane := (input.trigger.map taskTriggerLane).getD .normal
  let next := resourceSpec input.intent
  match existing with
  | none =>
    { metadata := {
        id := input.intent.id
        creator := some (input.creator.getD ⟨ctx.appId, none⟩)
        generation := 1
        resourceVersion := 1
        reopenedAfterEventId := none }
      spec := next
      status := {
        observedGeneration := 0
        phase := .pending
        lane := if lane = .human then some .human else none
        updatedAt := now } }
  | some r =>
    let laneChanged := lane = .human ∧ r.status.lane ≠ some .human
    if same then
      -- Pending input shares the Task's write fence, even when its specification is unchanged.
      if r.spec ≠ next ∨ laneChanged ∨ input.trigger.isSome = true then
        { r with
          metadata := { r.metadata with resourceVersion := r.metadata.resourceVersion + 1 }
          spec := next
          status := { r.status with lane := if laneChanged then some .human else r.status.lane, updatedAt := now } }
      else r
    else
      { metadata := { r.metadata with
          creator := some (r.metadata.creator.getD (input.creator.getD ⟨ctx.appId, none⟩))
          generation := max 1 (r.metadata.generation + 1)
          resourceVersion := r.metadata.resourceVersion + 1 }
        spec := next
        status := { r.status with lane := if laneChanged then some .human else r.status.lane } }

def observedTrigger (now : Int) (agent : String) (generation previousGeneration : Nat) (taskId : String)
    (previous : Option Trigger) (trigger : Option Event) : Option Trigger :=
  match trigger with
  | none => previous.map fun t => if previousGeneration < generation then { t with taskGeneration := generation } else t
  | some e =>
    let events := appendTaskTriggerEvent (pendingTriggerEvents previous) e now
    some {
      taskId := taskId
      taskGeneration := generation
      resourceVersion := (previous.map Trigger.resourceVersion).getD 0 + 1
      events := events
      event := preferredTriggerFromEvents events agent
      observedAt := now }

/-- A fresh human request waives pacing and permits one claim. -/
def noteHumanRequest (now : Int) (input : ObserveInput) (admissionKey : Option String) (r : Resource) : Resource :=
  if admissionKey.isSome = true ∧ input.trigger.any isHumanRequest = true then
    touchResource now r fun st => { st with executionRetryAt := none, freshHumanInput := true }
  else r

/-- The write of an observation that is neither rejected nor a replay. -/
def observePlan (ctx : Context) (now : Int) (input : ObserveInput) (admissionKey : Option String) (t : Tree) :
    Plan Observation :=
  let agent := resolvedAgent t input.intent input.appAgent
  let specHash := appTaskSpecHash input.intent agent
  let existing := t.resources.get input.intent.id
  let same := existing.any fun r => sameSpec t r input.appAgent specHash
  let previousGeneration := (existing.map fun r => r.metadata.generation).getD 0
  let next := resourceSpec input.intent
  Plan.check (match existing with
    | some r => checkRevision ctx input r next
    | none => .ok ()) fun _ =>
  let observed := observedResource ctx now input existing same
  let generation := observed.metadata.generation
  let trigger := observedTrigger now agent generation previousGeneration input.intent.id
    (t.taskTriggers.get input.intent.id) input.trigger
  let r := noteHumanRequest now input admissionKey observed
  let t := (t.setResource r).setTrigger input.intent.id trigger
  let linked := (((existing.map fun r => r.status.conditionIds).getD []) ++ r.status.conditionIds).eraseDups
  .commit {
      fences := (existing.map Resource.fence).toList
      expectMissingTaskIds := if existing.isNone then [input.intent.id] else []
      tasks := [resourceWrite now t r (isRunnableOnPassiveResync now t r)]
      conditions := linked.filterMap t.conditions.get
      deleteConditionIds := linked.filter fun id => !t.conditions.has id
      admissions := admissionKey.toList.map fun key => (key, {
        taskId := input.intent.id
        taskGeneration := generation
        specHash := specHash
        admittedAt := now
        inputEvent := input.trigger }) }
    { taskId := input.intent.id
      generation := generation
      changed := existing.isNone || decide (generation ≠ previousGeneration)
        || decide (existing.map Resource.spec ≠ some next)
        || (decide ((input.trigger.map taskTriggerLane).getD .normal = .human)
          && decide ((existing.bind fun r => r.status.lane) ≠ some .human)) }

def observeAppTaskIntent (ctx : Context) (now : Int) (reads : Reads) (input : ObserveInput) : Plan Observation :=
  Plan.check (normalizeTaskAgent input.intent) fun intent =>
  let input := { input with intent := intent }
  Plan.check (validateIntent intent) fun _ =>
  if reads.check.isCancelled intent.id then
    .throw (.admission ("Cannot admit input for closed or cancelled task " ++ intent.id
      ++ "; explicit reopening is required"))
  else if input.admissionKey.any fun key => !Text.nonEmpty key then
    .throw (.error "Task admission key must be non-empty when provided")
  else
    let admissionKey := input.admissionKey.map Text.trim
    let t := reads.snapshot.readTaskContext {
      taskIds := intent.id :: intent.parentId :: intent.dependsOn.getD []
      admissionIds := admissionKey.toList }
    match t.resources.get intent.id, input.trigger with
    | some r, some e =>
      if taskEventPredatesReopening r e then
        .done { taskId := intent.id, generation := r.metadata.generation, changed := false }
      else observeAdmitted t admissionKey input
    | _, _ => observeAdmitted t admissionKey input
where
  /-- The observation after the check against a reopening. -/
  observeAdmitted (t : Tree) (admissionKey : Option String) (input : ObserveInput) : Plan Observation :=
    Plan.check (validateParentReference t input.intent.id input.intent.parentId) fun _ =>
    match admissionKey.bind fun key => (t.appTaskAdmissions.get key).map fun a => (key, a) with
    | none => observePlan ctx now input admissionKey t
    | some (key, admission) =>
      if admission.taskId ≠ input.intent.id
          ∨ matchesAppTaskSpecHash input.intent (resolvedAgent t input.intent input.appAgent) admission.specHash = false then
        .throw (.error ("Task admission key " ++ key ++ " was already used for different desired work"))
      else
        match t.resources.get admission.taskId with
        | some current =>
          .done { taskId := current.metadata.id, generation := current.metadata.generation, changed := false }
        | none => observePlan ctx now input admissionKey t

inductive RecordResult where
  | recorded | duplicate | missing | closed
  deriving DecidableEq, Repr

/-- The next version of a Task, otherwise unchanged. -/
def Resource.bump (r : Resource) : Resource :=
  { r with metadata := { r.metadata with resourceVersion := r.metadata.resourceVersion + 1 } }

/-- The pending trigger after `recordAppTaskTrigger`. -/
def recordedTrigger (now : Int) (agent : String) (r : Resource) (previous : Option Trigger) (e : Event) : Trigger :=
  let events := appendTaskTriggerEvent (pendingTriggerEvents previous) e now
  { taskId := r.metadata.id
    taskGeneration := r.metadata.generation
    resourceVersion := (previous.map Trigger.resourceVersion).getD 0 + 1
    events := events
    event := preferredTriggerFromEvents events agent
    observedAt := now }

def recordAppTaskTrigger (ctx : Context) (now : Int) (reads : Reads) (taskId : String) (e : Event) :
    Plan RecordResult :=
  let t := reads.snapshot.readTaskContext { taskIds := [taskId], includeHistory := false, children := false }
  match t.resources.get taskId with
  | none => .done .missing
  | some r =>
    let previous := t.taskTriggers.get taskId
    if reads.late.isCancelled taskId then .done .closed
    else if taskEventPredatesReopening r e then .done .duplicate
    else if reads.late.hasTaskEvent taskId e then
      if (pendingTriggerEvents previous).any fun entry => taskEventIdentity entry.event == taskEventIdentity e then
        .done .recorded
      else .done .duplicate
    else
      let trigger := recordedTrigger now (resolvedAgent t (resourceIntent r) ctx.agent) r previous e
      if previous.any fun p => !p.events.isEmpty && decide (trigger.events = p.events) then .done .recorded
      else
        let t := (t.setResource r.bump).setTrigger taskId (some trigger)
        .commit { fences := [r.fence], tasks := [resourceWrite now t r.bump true] } .recorded

end MayAgent
