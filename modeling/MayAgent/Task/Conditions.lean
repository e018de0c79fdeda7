import MayAgent.Task.Events

/-!
# Condition matching

Which events satisfy a Condition (`app-task-condition-tracker.ts`): typed subjects and field
aliases, expected records and comparators, verified human approvals, fresh level observations and
the reports of another App on a request.
-/

namespace MayAgent

/-- `eventField`: the first of several spellings in the envelope, then its target, then its data. -/
def eventField (e : Event) (names : List String) : Option Value :=
  let target := (e.record? "target").getD []
  let data := (e.record? "data").getD []
  ((names.findSome? e.field).or (names.findSome? target.field)).or (names.findSome? data.field)

def isHumanActionOwner (owner : Option String) : Bool :=
  match owner.map Text.trim with
  | some owner => owner == "human" || (Text.startsWith owner "human:" && decide (6 < owner.length)) || owner == "Hao"
  | none => false

def Condition.isApproval (c : Condition) : Bool :=
  c.spec.type == "project.approval.submitted" && isHumanActionOwner c.spec.owner

def approvalTargetsTask (appId taskId : String) (taskGeneration : Nat) (c : Condition) (e : Event) : Bool :=
  if !c.isApproval then true
  else
    let proposal := ((e.record? "data").bind fun data => Event.record? data "proposal").getD []
    eventField e ["appId"] == some (.str appId)
      && eventField e ["taskId"] == some (.str taskId)
      && proposal.field "taskGeneration" == some (.num taskGeneration)

/-! ### Comparisons -/

def normalizedState (v : Option Value) : String :=
  let state := ((v.bind Value.string?).map fun s => Text.lower (Text.trim s)).getD ""
  if ["converged", "complete", "completed", "success", "succeeded"].contains state then "done" else state

def comparableNumber? : Value → Option Int
  | .num n => some n
  | .str s => Text.number? s
  | _ => none

/-- `orderedComparablePair`, as the order of the two sides. -/
def orderedComparison (left right : Value) : Option Ordering :=
  match comparableNumber? left, comparableNumber? right with
  | some l, some r => some (compare l r)
  | _, _ =>
    match left, right with
    | .str l, .str r => some (compare l r)
    | _, _ => none

def comparatorHolds (operator : String) (o : Ordering) : Bool :=
  match operator with
  | "gt" => o == .gt
  | "gte" => o != .lt
  | "lt" => o == .lt
  | "lte" => o != .gt
  | _ => false

def comparatorNames : List String := ["gt", "gte", "lt", "lte"]

def matchesComparator (actual : Option Value) (expected : Value) : Bool :=
  match expected.record? with
  | none => false
  | some expected =>
    let operators := comparatorNames.filter fun key => (expected.field key).isSome
    !operators.isEmpty && operators.all fun operator =>
      match actual, expected.field operator with
      | some actual, some bound => (orderedComparison actual bound).any (comparatorHolds operator)
      | _, _ => false

/-! ### Subjects -/

/-- `/^[A-Za-z][A-Za-z0-9_.-]*$/`. -/
def isSubjectKind (kind : List Char) : Bool :=
  match kind with
  | [] => false
  | c :: cs => c.isAlpha && cs.all fun c => c.isAlphanum || c == '_' || c == '.' || c == '-'

/-- The event field a subject kind names. -/
def subjectField (kind : List Char) : Option String :=
  match String.ofList kind with
  | "task" => some "taskId"
  | "session" => some "sessionId"
  | "workflow-run" => some "workflowRunId"
  | "metric" => some "metricId"
  | "alert" => some "alertId"
  | "project" => some "project"
  | "pipeline-run" => some "pipelineRunId"
  | "pull-request" => some "pullRequestId"
  | name => if isSubjectKind kind then some name else none

/-- `typedSubject`: the event field and value of a subject `kind:value`. -/
def typedSubject (subject : String) : Option (String × String) :=
  let kind := subject.toList.takeWhile (· != ':')
  let rest := subject.toList.dropWhile (· != ':')
  match rest with
  | ':' :: value =>
    if kind.isEmpty || value.isEmpty then none
    else (subjectField kind).map fun field => (field, String.ofList value)
  | _ => none

def fieldAliases (field : String) : List String :=
  match field with
  | "taskId" => ["taskId", "task_id"]
  | "sessionId" => ["sessionId", "session_id"]
  | "workflowRunId" => ["workflowRunId", "workflow_run_id", "runId"]
  | "metricId" => ["metricId", "metric_id"]
  | "alertId" => ["alertId", "alert_id"]
  | "project" => ["project", "projectId", "project_id"]
  | "pipelineRunId" => ["pipelineRunId", "pipeline_run_id", "runId", "run_id"]
  | "pullRequestId" => ["pullRequestId", "pull_request_id", "prId", "pr_id"]
  | name => [name]

/-! ### Expected facts -/

/-- The types whose events show a level, not a change. -/
def isLevelType (type : String) : Bool :=
  type == "aks.repo-ref.observed" || Text.endsWith type ".state" || Text.endsWith type ".check"
    || Text.endsWith type ".pulse" || Text.endsWith type "-pulse"

def observationTime (ctx : Context) (e : Event) : Option Int :=
  match e.field "timestamp" with
  | some (.num n) => some n
  | some (.str s) => if Text.nonEmpty s then ctx.dateParse s else none
  | _ => none

/-- `isFreshLevelObservation`: a level is proved only by an observation made after the wait began. -/
def isFreshLevelObservation (ctx : Context) (c : Condition) (e : Event) : Bool :=
  if !isLevelType c.spec.type then true
  else match c.observedAt, observationTime ctx e with
    | some established, some observed => decide (established ≤ observed)
    | _, _ => true

def matchesExpectedField (expected : Event) (e : Event) : Bool :=
  match expected.string? "field" with
  | none => true
  | some name =>
    if !Text.nonEmpty name then true
    else
      let actual := eventField e (fieldAliases name)
      match (expected.field "anyOf").bind Value.array? with
      | some anyOf => anyOf.any fun candidate => some candidate == actual
      | none =>
        match expected.field "equals" with
        | some wanted => some wanted == actual
        | none =>
          match expected.field "notEquals" with
          | some unwanted => actual.isSome && some unwanted != actual
          | none => matchesComparator actual (.obj expected)

/-- The keys of an expected record that constrain its `field` and not a field of their own. -/
def expectedFieldKeywords : List String := ["field", "anyOf", "equals", "notEquals"] ++ comparatorNames

def matchesExpectedRecord (expected : Event) (e : Event) : Bool :=
  matchesExpectedField expected e && expected.all fun (field, value) =>
    if expectedFieldKeywords.contains field then true
    else match field == "allowedDecisions" || field == "acceptedDecisions", value.array? with
      | true, some choices => choices.any fun candidate => some candidate == eventField e ["decision"]
      | _, _ =>
        let actual := eventField e (fieldAliases field)
        matchesComparator actual value || actual == some value

/-! ### Human approvals -/

def nonEmptyText (v : Option Value) : Bool := (v.bind Value.string?).any Text.nonEmpty

def positiveSafeInteger (v : Option Value) : Bool :=
  match v with
  | some (.num n) => isSafeInteger n && decide (1 ≤ n)
  | _ => false

/-- `readVerifiedApprovalDecision`: the decision and the reviewed proposal of a stamped approval. -/
def readVerifiedApprovalDecision (source : Option String) (data : Event) : Option (String × Event) :=
  match source, data.record? "hostApproval", data.record? "proposal" with
  | some source, some stamp, some proposal =>
    let actor := stamp.record? "actor"
    let authorization := stamp.record? "authorization"
    if (source == "telegram" || source == "control-socket")
        && stamp.field "version" == some (.num 1)
        && stamp.field "ingressSource" == some (.str source)
        && actor.any (fun a => nonEmptyText (Event.field a "id")
          && Event.field a "kind" == some (.str (if source == "telegram" then "human" else "operator")))
        && authorization.any (fun a => nonEmptyText (Event.field a "reference") && (Event.record? a "evidence").isSome)
        && nonEmptyText (data.field "decision")
        && positiveSafeInteger (proposal.field "taskGeneration")
        && nonEmptyText (proposal.field "conditionId")
        && positiveSafeInteger (proposal.field "conditionGeneration")
        && nonEmptyText (proposal.field "subject")
        && nonEmptyText (proposal.field "requestedAction")
        && (proposal.field "expected").isSome
    then (data.string? "decision").map fun decision => (decision, proposal)
    else none
  | _, _, _ => none

/-- The exact reviewed proposal, and an allowed decision on it. -/
def Condition.accepts (c : Condition) (decision : String) (proposal : Event) : Bool :=
  match c.spec.expected.record? with
  | some expected =>
    let allowed := ["anyOf", "allowedDecisions", "acceptedDecisions"].filterMap fun key =>
      (expected.field key).bind Value.array?
    proposal.field "conditionId" == some (.str c.id)
      && proposal.field "conditionGeneration" == some (.num c.generation)
      && proposal.field "subject" == some (.str c.spec.subject)
      && proposal.string? "requestedAction" == c.spec.requestedAction.map Text.trim
      && proposal.field "expected" == some c.spec.expected
      && !allowed.isEmpty
      && allowed.all (fun choices => choices.contains (.str decision))
      && matchesExpectedRecord expected [("data", .obj (expected.assign "decision" (.str decision)))]
  | none => false

/-- The approval branch of `matches`. -/
def matchesApproval (c : Condition) (e : Event) : Bool :=
  (readVerifiedApprovalDecision (e.string? "source") ((e.record? "data").getD e)).any fun verified =>
    c.accepts verified.1 verified.2

def Condition.matches (ctx : Context) (c : Condition) (e : Event) : Bool :=
  if e.field "type" != some (.str c.spec.type) then false
  else if c.isApproval then matchesApproval c e
  else if !isFreshLevelObservation ctx c e then false
  else match typedSubject c.spec.subject with
    | none => false
    | some (field, value) =>
      if ((present (eventField e (fieldAliases field))).map Value.text).getD "" != value then false
      else
        let actual := eventField e ["state", "status", "disposition", "result", "outcome"]
        match c.spec.expected with
        | .obj expected => matchesExpectedRecord expected e
        | .str expected => normalizedState actual == normalizedState (some (.str expected))
        | expected => actual == some expected

/-! ### Reports of another App on a request -/

/-- The lookup of an attempt by App and id, as `AppTaskResourceStore.inspectFromDb` offers it. -/
abbrev AttemptLookup := String → String → Option Attempt

/-- The expectation of an App request: `{ field: "status", equals: "done" }`. -/
def appRequestExpected : Value := .obj [("equals", .str "done"), ("field", .str "status")]

def isAppInputReport (c : Condition) (e : Event) : Bool :=
  c.spec.type == "app.dependency.updated"
    && e.field "type" == some (.str c.spec.type)
    && Text.startsWith c.id "app-request:"
    && c.spec.subject == "id:" ++ ((present (eventField e ["id"])).map Value.text).getD ""
    && eventField e ["kind"] == some (.str "app")
    && (eventField e ["status"]).any (fun status => status.text == "blocked" || status.text == "progress")
    && decide (c.spec.expected = appRequestExpected)

/-- `reportKind`: the wire status `blocked` covers progress and failure; the source attempt tells. -/
def reportKind (lookup : AttemptLookup) (e : Event) : ReportKind :=
  match eventField e ["reportKind"] with
  | some (.str "progress") => .progress
  | some (.str "failure") => .failure
  | _ =>
    if eventField e ["state", "status"] == some (.str "progress") then .progress
    else
      match eventField e ["source"], eventField e ["reportAttemptId"] with
      | some (.str source), some (.str attemptId) =>
        if !Text.startsWith source "app-inbox:" then .failure
        else
          match lookup (Text.drop 10 source) attemptId with
          | none => .unknown
          | some a =>
            if eventField e ["taskId"] != some (.str a.taskId) then .unknown
            else match a.acceptedResult.map AcceptedResult.state with
              | some .waiting => .progress
              | some .incomplete => .failure
              | _ => if a.state = .failed then .failure else .unknown
      | _, _ => .failure

/-- `observedReports`: the recorded reports, with the last observation filed under its kind. -/
def observedReports (lookup : AttemptLookup) (c : Condition) : Table ReportKind Event :=
  match c.observed.bind Value.record? with
  | none => c.reports
  | some observed =>
    if !((observed.field "state").any fun s => s.text == "progress" || s.text == "blocked") then c.reports
    else
      let kind := reportKind lookup observed
      if c.reports.has kind then c.reports
      else c.reports.put kind (if kind = .progress then observed.assign "state" (.str "progress") else observed)

/-- `Number(report.reportRevision ?? 1)`. -/
def reportRevision? (v : Option Value) : Option Int :=
  match present v with
  | some v => v.number?
  | none => some 1

/-- A report that a Condition has not taken into account yet. -/
def isNewReport (lookup : AttemptLookup) (c : Condition) (e : Event) : Bool :=
  let reports := observedReports lookup c
  let revision := reportRevision? (eventField e ["reportRevision"])
  let superseded := match reports.get .unknown with
    | some unknown =>
      eventField e ["status"] == some (.str "blocked")
        && !(eventField e ["reportKind"]).any Value.truthy
        && (match revision, reportRevision? (unknown.field "reportRevision") with
          | some n, some m => decide (n ≤ m)
          | _, _ => false)
    | none => false
  let repeated := reports.values.any fun report =>
    (report.field "reportAttemptId").any Value.truthy
      && report.field "reportAttemptId" == eventField e ["reportAttemptId"]
      && (match reportRevision? (report.field "reportRevision"), revision with
        | some n, some m => decide (n = m)
        | _, _ => false)
  let newer := match reports.get (reportKind lookup e) with
    | none => true
    | some previous =>
      match eventField e ["reportRevision"], reportRevision? (previous.field "reportRevision") with
      | some (.num n), some m => isSafeInteger n && decide (m < n)
      | _, _ => false
  !superseded && !repeated && newer

/-- `matchesAppTaskCondition`: the event is evidence the Condition still needs. -/
def matchesAppTaskCondition (ctx : Context) (lookup : AttemptLookup) (c : Condition) (e : Event) : Bool :=
  if c.state = .met then false
  else if c.matches ctx e then true
  else isAppInputReport c e && isNewReport lookup c e

/-- `matchesAppTaskConditionFacts`: the event belongs to the wait, also when already observed. -/
def matchesAppTaskConditionFacts (ctx : Context) (c : Condition) (e : Event) : Bool :=
  c.matches ctx e || isAppInputReport c e

/-- `observation`: what a Condition keeps of the event that changed it. -/
def observation (e : Event) : Event :=
  let report := e.field "type" == some (.str "app.dependency.updated")
    && (eventField e ["status"]).any (fun status => status.text == "blocked" || status.text == "progress")
  let reported (name : String) : Option Value := if report then eventField e [name] else none
  Event.ofFields [
    ("eventType", e.field "type"),
    ("facts", reported "facts"),
    ("pipelineRunId", eventField e ["pipelineRunId", "pipeline_run_id", "runId", "run_id"]),
    ("pullRequestId", eventField e ["pullRequestId", "pull_request_id", "prId", "pr_id"]),
    ("reportAttemptId", reported "reportAttemptId"),
    ("reportKind", reported "reportKind"),
    ("reportRevision", reported "reportRevision"),
    ("response", reported "response"),
    ("result", reported "result"),
    ("sessionId", eventField e ["sessionId", "session_id"]),
    ("source", e.field "source"),
    ("sourceCommit", eventField e ["sourceCommit", "source_commit"]),
    ("state", eventField e ["state", "status", "disposition", "result", "outcome"]),
    ("summary", reported "summary"),
    ("taskId", eventField e ["taskId", "task_id"]),
    ("timestamp", e.field "timestamp"),
    ("workflowRunId", eventField e ["workflowRunId", "workflow_run_id", "runId"])]

/-- The Condition after observing an event: satisfied, or still open with a further report. -/
def Condition.observe (lookup : AttemptLookup) (c : Condition) (e : Event) (now : Int) : Condition :=
  let report := isAppInputReport c e
  let kind := reportKind lookup e
  let observed := if report && decide (kind = .progress) then (observation e).assign "state" (.str "progress")
    else observation e
  { c with
    resourceVersion := c.resourceVersion + 1
    observedGeneration := c.generation
    state := if report then .unmet else .met
    observed := some (.obj observed)
    reports := if report then (observedReports lookup c).put kind observed else c.reports
    observedAt := some now
    facts := some (("event:" ++ ((e.field "type").map Value.text).getD "undefined")
      :: (match e.field "source" with
        | some source => if source.truthy then ["source:" ++ source.text] else []
        | none => [])) }

end MayAgent
