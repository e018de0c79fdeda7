import MayAgent.Task.Tracker

/-!
# Routing an event to waiting Tasks

`app-task-runtime.ts` turns an event of the bus into the fact the Condition matcher reads and finds
the Tasks that wait for it: App by App (`matchingAppTaskConditionTaskIds`), or for all loaded Apps at
once through an index on the type and the subject of a Condition
(`previewLoadedCanonicalAppTaskEventRoutes`). All Apps of a Host share one database.
-/

namespace MayAgent

structure AgentEvent where
  type : String
  envelope : Event
  rowId : Option Int
  typed : envelope.field "type" = some (.str type)

def AgentEvent.eventId (event : AgentEvent) : Option Value := (event.rowId.filter fun id => decide (0 < id)).map .num

/-- `urgency` of the canonical event. -/
def canonicalUrgency (urgency : Option Value) : String :=
  match urgency with
  | some (.str "low") => "low"
  | some (.str "high") => "high"
  | some (.str "immediate") => "immediate"
  | _ => "normal"

/-- The optional fields of `canonicalAppEvent`. -/
def canonicalTarget (envelope : Event) : Option Value :=
  let target := (envelope.record? "target").getD []
  if target.isEmpty then none else some (.obj target)

def canonicalTimestamp (envelope : Event) : Option Value :=
  match envelope.field "timestamp" with
  | some (.num n) => some (.num n)
  | some (.str s) => if Text.nonEmpty s then some (.str (Text.trim s)) else none
  | _ => none

/-- `canonicalTaskEvent`, with `canonicalAppEvent` written out. -/
def canonicalTaskEvent (event : AgentEvent) : Event :=
  Event.ofFields [
    ("action", (Text.trimmed? (event.envelope.string? "action")).map .str),
    ("data", some (.obj (eventData event.envelope))),
    ("eventId", event.eventId),
    ("owner", (event.envelope.string? "owner").map .str),
    ("source", (event.envelope.string? "source").map .str),
    ("target", canonicalTarget event.envelope),
    ("timestamp", canonicalTimestamp event.envelope),
    ("type", some (.str event.type)),
    ("urgency", some (.str (canonicalUrgency (event.envelope.field "urgency"))))]

/-! ### The subject index -/

def indexText : Value → Option String
  | .str s => if Text.nonEmpty s then some (Text.trim s) else none
  | .num n => some (Value.text (.num n))
  | .bool b => some (Value.text (.bool b))
  | _ => none

def eventContainers (e : Event) : List Event := [e, (e.record? "target").getD [], (e.record? "data").getD []]

/-- One entry of a container enters the map of values. -/
def recordValue (values : Table String String) (entry : String × Value) : Table String String :=
  match indexText entry.2 with
  | some text => values.put entry.1 text
  | none => values

/-- The values of an event by field name; a later container replaces what an earlier one had. -/
def subjectValues (e : Event) : Table String String :=
  (eventContainers e).foldl (fun values container => container.foldl recordValue values) ∅

/-- The subject kinds with several spellings of their field. -/
def typedKinds : List (String × List String) := [
  ("task", ["taskId", "task_id"]),
  ("session", ["sessionId", "session_id"]),
  ("workflow-run", ["workflowRunId", "workflow_run_id", "runId"]),
  ("metric", ["metricId", "metric_id"]),
  ("alert", ["alertId", "alert_id"]),
  ("project", ["project", "projectId", "project_id"]),
  ("pipeline-run", ["pipelineRunId", "pipeline_run_id", "runId", "run_id"]),
  ("pull-request", ["pullRequestId", "pull_request_id", "prId", "pr_id"])]

def conditionSubjectCandidates (e : Event) : List String :=
  let values := subjectValues e
  values.entries.map (fun entry => entry.1 ++ ":" ++ entry.2)
    ++ typedKinds.filterMap fun typed =>
      (typed.2.findSome? fun name => (values.get name).filter (· != "")).map fun text => typed.1 ++ ":" ++ text

/-! ### The routes of stored Conditions -/

/-- A Task that is stored and may still admit evidence. -/
def Store.awaits (s : Store) (taskId : String) : Bool := (s.readTask taskId).any Resource.observesConditions

def Store.routedTasks (s : Store) (allowed : Option (List String)) (conditionId : String) : List String :=
  (s.routes.filter fun route => route.2 == conditionId && s.awaits route.1
    && allowed.all fun ids => ids.contains route.1).map Prod.fst

/-- `readConditionRoutes`: the open Conditions of a type with the Tasks that wait for them. -/
def Store.readConditionRoutes (s : Store) (eventType : String) (allowed : Option (List String)) :
    List (Condition × List String) :=
  s.conditions.entries.filterMap fun entry =>
    if entry.2.spec.type = eventType ∧ entry.2.state ≠ .met ∧ (s.routedTasks allowed entry.1).isEmpty = false then
      some (entry.2, s.routedTasks allowed entry.1)
    else none

/-- `[...ids].sort()` of a set. -/
def sortedIds (ids : List String) : List String := ids.eraseDups.mergeSort fun a b => decide (a ≤ b)

/-- The approval half of the preflight. -/
def Store.approvalTargets (s : Store) (appId taskId : String) (c : Condition) (e : Event) : Bool :=
  !c.isApproval || (s.readTask taskId).any fun r => approvalTargetsTask appId taskId r.metadata.generation c e

def matchingAppTaskConditionTaskIds (ctx : Context) (lookup : AttemptLookup) (appId : String) (s : Store) (e : Event)
    (allowed : Option (List String)) : List String :=
  let routes := s.readConditionRoutes ((e.string? "type").getD "") allowed
  sortedIds (routes.flatMap fun route =>
    if matchesAppTaskCondition ctx lookup route.1 e then
      route.2.filter fun taskId => s.approvalTargets appId taskId route.1 e
    else [])

/-! ### A Host with several Apps -/

/-- An App with Task state in the database; `loaded` when its descriptor is loaded and has Tasks. -/
structure HostApp where
  loaded : Bool
  store : Store

abbrev Host := Table String HostApp

namespace Host

def attemptLookup (host : Host) : AttemptLookup := fun appId attemptId =>
  if appId = "" then none else (host.get appId).bind fun app => app.store.readAttempt attemptId

/-- A row of `readConditionRoutesForAllApps`. -/
structure Route where
  appId : String
  condition : Condition
  taskIds : List String

def readConditionRoutesForAllApps (host : Host) (eventType : String) (subjects : List String) : List Route :=
  let exactSubjects := (subjects.map Text.trim).filter (· != "")
  host.entries.flatMap fun app =>
    ((app.2.store.readConditionRoutes eventType none).filter fun route =>
      exactSubjects.contains route.1.spec.subject).map fun route => ⟨app.1, route.1, route.2⟩

def previewLoadedCanonicalAppTaskEvent (ctx : Context) (host : Host) (appId : String) (event : AgentEvent)
    (targetedTaskId : Option String) : List String :=
  match host.get appId with
  | none => []
  | some app =>
    if !app.loaded then []
    else matchingAppTaskConditionTaskIds ctx host.attemptLookup appId app.store (canonicalTaskEvent event)
      ((targetedTaskId.filter (· != "")).map fun taskId => [taskId])

def previewLoadedCanonicalAppTaskEventRoutes (ctx : Context) (host : Host) (event : AgentEvent) :
    List (String × List String) :=
  let loadedApps := (host.entries.filter fun app => app.2.loaded).map Sigma.fst
  if loadedApps.isEmpty then []
  else
    let e := canonicalTaskEvent event
    let routes := (host.readConditionRoutesForAllApps ((e.string? "type").getD "") (conditionSubjectCandidates e)).filter
      fun route => loadedApps.contains route.appId && matchesAppTaskCondition ctx host.attemptLookup route.condition e
    (sortedIds (routes.map Route.appId)).map fun appId =>
      (appId, sortedIds ((routes.filter fun route => route.appId == appId).flatMap Route.taskIds))

end Host

end MayAgent
