import MayAgent.Host.Journal
import MayAgent.Lib.Reach

/-!
# Keyed publication

`DbWriter` with what it does beside the columns that a replay reads: it completes some events from the
state of the database, finds an earlier row of the same key, checks that an emission comes from the
current attempt, wakes the Task an emission is addressed to, and opens and closes lifecycle pairs. A
digest is represented by the value it is taken of.
-/

namespace MayAgent

/-- `EventTaskEmissionFence`. -/
structure EmissionFence where
  appId : String
  taskId : String
  taskGeneration : Nat
  attemptId : String
  localKey : String
  deriving DecidableEq

/-- An event on its way to the writer, with the marks that are not part of its record. -/
structure Publication where
  event : AgentEvent
  interfaceInput : Bool := false
  ingressSource : Option String := none
  recordOnly : Bool := false
  fence : Option EmissionFence := none

/-- A row of `events` with the columns the writer reads back. -/
structure LedgerRow where
  id : Nat
  eventType : String
  source : Option String
  owner : Option String
  data : Event
  sessionId : Option String
  workflowRunId : Option String
  projectId : Option String
  taskId : Option String
  escalationId : Option String
  timestamp : Int
  idempotencyKey : Option String
  idempotencyScope : String
  idempotencyHash : Option Event
  ingressSource : String
  recordOnly : Bool
  deriving DecidableEq

inductive PairStatus where
  | opened | closed | orphan
  deriving DecidableEq

/-- A row of `event_pair_runs`. -/
structure PairRun where
  pairName : String
  correlationKey : String
  openEventId : Nat
  owner : Option String
  status : PairStatus
  openedAt : Int
  expectedCloseAt : Int
  closeEventId : Option Nat
  closedAt : Option Int
  note : Option String
  deriving DecidableEq

structure SessionRow where
  sessionId : String
  appId : Option String
  taskId : Option String
  deriving DecidableEq

/-- What the writer reads of a Task and of its current attempt, and the events it was woken by. -/
structure OwnedTask where
  appId : String
  taskId : String
  generation : Nat
  currentAttemptId : Option String
  attemptGeneration : Nat
  attemptState : AttemptState
  leaseUntil : Option Int
  triggers : List Nat
  deriving DecidableEq

/-- The tables of the writer. `resourceApps` are the Apps whose Task store has the resources as its authority. -/
structure Ledger where
  rows : List LedgerRow
  pairs : List PairRun
  sessions : List SessionRow
  tasks : List OwnedTask
  resourceApps : List String
  deriving DecidableEq

/-! ### Escalations -/

def textValue (value : Option Value) : Option String := Text.trimmed? (value.bind Value.string?)

def firstEscalationResumeCondition (payload : Event) : Option String :=
  let resume := (payload.record? "resume").getD []
  let facts := (((present (payload.field "facts")).or (payload.field "evidence")).bind Value.record?).getD []
  let finishParams := (Event.record? facts "finishParams").getD []
  let blockers := ((Event.field finishParams "blockers").bind Value.array?).getD []
  let firstBlocker := (blockers.head?.bind Value.record?).getD []
  [Event.field payload "resumeCondition", Event.field payload "resume_condition", Event.field resume "condition",
    Event.field resume "resumeCondition", Event.field finishParams "resumeCondition",
    Event.field finishParams "resume_condition", Event.field finishParams "next_steps",
    Event.field finishParams "nextSteps", Event.field firstBlocker "context", Event.field firstBlocker "reason",
    Event.field payload "blockedOn", Event.field payload "requestedAction"].findSome? textValue

def normalizePersistedEscalationPayload (type : String) (payload : Event) : Event :=
  if type = "escalation.created" then
    match firstEscalationResumeCondition payload with
    | none => payload
    | some condition =>
      let payload := payload.assign "resumeCondition" (.str condition)
      match payload.record? "resume", textValue (payload.field "sourceSessionId") with
      | some resume, _ =>
        if (textValue (Event.field resume "condition")).isSome || (textValue (Event.field resume "resumeCondition")).isSome
        then payload
        else payload.assign "resume" (.obj (Event.assign "condition" (.str condition) resume))
      | none, some sessionId =>
        payload.assign "resume"
          (.obj [("condition", .str condition), ("kind", .str "session"), ("sessionId", .str sessionId)])
      | none, none => payload
  else payload

def readTaskEventTarget (target : Option Value) : Option (Option String × String) :=
  match target.bind Value.record? with
  | none => none
  | some target =>
    match textValue (Event.field target "taskId") with
    | none => none
    | some taskId =>
      let appId := ([Event.field target "appId", Event.field target "project"].findSome? textValue).map stripAppSuffix
      some (appId.filter (· ≠ ""), taskId)

/-- The `read` of `escalationFeedbackTarget`: the latest escalation with the row id or the escalation id. -/
def readEscalation (db : Ledger) (id key : Option Value) : Option LedgerRow :=
  let key := (key.bind Value.string?).getD ""
  match (id.bind Value.number?).filter (fun n => isSafeInteger n && decide (0 < n)) with
  | some n => db.rows.reverse.find? fun row => row.eventType == "escalation.created" && (row.id : Int) == n
  | none => db.rows.reverse.find? fun row => row.eventType == "escalation.created" && row.escalationId == some key

/-- `escalationFeedbackTarget`: the App and the Task. -/
def escalationFeedbackTarget (db : Ledger) (data : Event) : Option (String × String) :=
  let origin := readEscalation db ((present (data.field "openEventId")).or (data.field "open_event_id"))
    (data.field "escalationId")
  let origin := match origin.bind fun row => (row.data.field "parentEscalationId").filter Value.truthy with
    | some parent => readEscalation db none (some parent)
    | none => origin
  match origin with
  | none => none
  | some row =>
    match row.projectId.filter (· ≠ ""), row.taskId.filter (· ≠ "") with
    | some appId, some taskId => some (appId, taskId)
    | _, _ =>
      let resume := (row.data.record? "resume").getD []
      let sessionId := row.sessionId.or
        (if Event.field resume "kind" = some (.str "session") then Event.string? resume "sessionId" else none)
      match sessionId.bind fun sessionId => db.sessions.find? fun session => session.sessionId == sessionId with
      | some ⟨_, some appId, some taskId⟩ => if appId = "" ∨ taskId = "" then none else some (appId, taskId)
      | _ => none

def isEscalationFeedback (type : String) : Bool := type == "escalation.resolved" || type == "escalation.dismissed"

/-- The Task an answer is for: the one it is addressed to, or the one the escalation came from. -/
def feedbackTarget (db : Ledger) (event : AgentEvent) : Option (String × String) :=
  match readTaskEventTarget (event.envelope.field "target") with
  | some (some appId, taskId) => some (appId, taskId)
  | _ => escalationFeedbackTarget db (eventPayload event.envelope)

def targetValue (target : String × String) : Value := .obj [("appId", .str target.1), ("taskId", .str target.2)]

theorem AgentEvent.typed_assign (event : AgentEvent) {name : String} (hname : "type" ≠ name) (value : Value) :
    (event.envelope.assign name value).field "type" = some (.str event.type) := by
  rw [Event.field_assign, if_neg hname, event.typed]

/-- An assignment to a field of an event other than its type. -/
def AgentEvent.assign (event : AgentEvent) (name : String) (hname : "type" ≠ name) (value : Value) : AgentEvent where
  type := event.type
  envelope := event.envelope.assign name value
  rowId := event.rowId
  typed := event.typed_assign hname value

/-- An answer with its target and its route, as the handler rewrites it. -/
def addressFeedback (event : AgentEvent) (target : Option (String × String)) : AgentEvent :=
  let payload := eventPayload event.envelope
  let event := match target with
    | some target => event.assign "target" (by decide) (targetValue target)
    | none => event
  event.assign "data" (by decide)
    (.obj (payload.assign "feedbackRoute" (.str (if target.isSome then "task" else "unresolved"))))

def completeEvent (db : Ledger) (event : AgentEvent) : AgentEvent :=
  if isEscalationFeedback event.type then addressFeedback event (feedbackTarget db event) else event

/-! ### Identity -/

def DURABLE_COMMAND_EVENTS : List String :=
  ["fork", "input", "steer", "cancel", "cancel_all", "resume", "reload", "restart", "shutdown"]

/-- The events that `handler` inserts a row for. -/
def isPersisted (event : AgentEvent) : Bool :=
  event.type == "metric.threshold_changed" || event.type == "metric.alert_resolved" ||
    isEscalationFeedback event.type || DURABLE_COMMAND_EVENTS.contains event.type ||
    Text.startsWith event.type "trigger." ||
    (Text.contains event.type '.' && isCanonicalEventEnvelope event.envelope)

def persistedPayload (event : AgentEvent) : Event := normalizePersistedEscalationPayload event.type (journalPayload event)

def correlated (event : AgentEvent) : Event := correlatedWith event (persistedPayload event)

/-- The fields of an envelope that its digest covers. -/
def isHashed (interfaceInput : Bool) (name : String) : Bool :=
  name != "data" && name != "timestamp" && name != "trace" &&
    (!interfaceInput || (name != "source" && name != "owner"))

/-- The value that the digest of an event with the payload is taken of. -/
def hashOf (event : AgentEvent) (payload : Event) (interfaceInput : Bool) : Event :=
  if isCanonicalEventEnvelope event.envelope then
    Event.assign "data" (.obj payload) (event.envelope.filter fun entry => isHashed interfaceInput entry.1)
  else [("data", .obj (payload.filter fun entry => entry.1 != "timestamp")), ("type", .str event.type)]

/-- The value `idempotencyHash` takes the digest of. -/
def idempotencyHash (event : AgentEvent) (interfaceInput : Bool) : Event :=
  hashOf event (persistedPayload event) interfaceInput

namespace Publication

def complete (db : Ledger) (p : Publication) : Publication := { p with event := completeEvent db p.event }

def source (p : Publication) : Option String := eventSource p.event.envelope (journalFallback p.event)

def owner (p : Publication) : Option String := eventOwner p.event.envelope (journalFallback p.event)

def key (p : Publication) : String := Text.trim ((Event.string? (persistedPayload p.event) "idempotencyKey").getD "")

/-- `ingressSource`. -/
def ingress (p : Publication) : String :=
  if p.interfaceInput then "event-interface"
  else match Text.trimmed? p.ingressSource with
    | some trusted => trusted
    | none => p.source.getD "internal"

def sessionId (p : Publication) : Option String :=
  stringField (correlated p.event) ["sessionId", "session_id", "sourceSessionId"]

def workflowRunId (p : Publication) : Option String :=
  stringField (correlated p.event) ["workflowRunId", "workflow_run_id"]

def projectId (p : Publication) : Option String :=
  match p.fence with
  | some fence => some fence.appId
  | none => stringField (correlated p.event) ["projectId", "project_id", "project"]

def taskId (p : Publication) : Option String :=
  match p.fence with
  | some fence => some fence.taskId
  | none => stringField (correlated p.event) ["taskId", "task_id"]

/-- `idempotencyScope`. -/
def scope (p : Publication) : String :=
  ((((p.projectId.or p.taskId).or p.workflowRunId).or p.sessionId).or p.owner).getD "global"

def hash (p : Publication) : Event := idempotencyHash p.event p.interfaceInput

end Publication

/-- The columns of the unique index on keyed events. -/
structure EventIdentityKey where
  eventType : String
  ingressSource : String
  scope : String
  key : String
  deriving DecidableEq

def Publication.identity (p : Publication) : EventIdentityKey := ⟨p.event.type, p.ingress, p.scope, p.key⟩

def LedgerRow.identity (row : LedgerRow) : Option EventIdentityKey :=
  row.idempotencyKey.map fun key => ⟨row.eventType, row.ingressSource, row.idempotencyScope, key⟩

def Ledger.findKeyed (db : Ledger) (identity : EventIdentityKey) : Option LedgerRow :=
  db.rows.find? fun row => row.identity == some identity

/-! ### Confirmation -/

namespace Publication

def authoredHash (p : Publication) : Event := hashOf p.event (eventPayload p.event.envelope) p.interfaceInput

def authoredIdentity (p : Publication) : EventIdentityKey :=
  let payload := eventPayload p.event.envelope
  let correlated := correlatedWith p.event payload
  { eventType := p.event.type
    ingressSource :=
      if p.interfaceInput then "event-interface"
      else match Text.trimmed? p.ingressSource with
        | some trusted => trusted
        | none => (eventSource p.event.envelope none).getD "internal"
    scope := (((((stringField correlated ["projectId", "project_id", "project"]).or
      (stringField correlated ["taskId", "task_id"])).or
      (stringField correlated ["workflowRunId", "workflow_run_id"])).or
      (stringField correlated ["sessionId", "session_id", "sourceSessionId"])).or
      (eventOwner p.event.envelope none)).getD "global"
    key := Text.trim ((Event.string? payload "idempotencyKey").getD "") }

end Publication

def findPersistedEventId (db : Ledger) (p : Publication) : Option Nat :=
  if p.authoredIdentity.key = "" then none
  else (db.rows.find? fun row =>
    row.identity == some p.authoredIdentity && row.idempotencyHash == some p.authoredHash).map LedgerRow.id

/-! ### Lifecycle pairs -/

def keyPart (value : Option Value) : Option String :=
  match value with
  | some (.str s) => if Text.nonEmpty s then some (Text.trim s) else none
  | some (.num n) => some (toString n)
  | _ => none

/-- `PairContract`; `column` is `pairCorrelationColumn`. -/
structure PairContract where
  name : String
  opens : String
  closes : List String
  timeoutMs : Int
  key : Event → Option String
  column : Option (LedgerRow → Option String)

def sessionKey (payload : Event) : Option String := keyPart (payload.field "sessionId")

def workflowKey (payload : Event) : Option String := keyPart (payload.field "workflowRunId")

def handlerKey (payload : Event) : Option String :=
  ((keyPart (payload.field "handlerRunId")).or (keyPart (payload.field "workflowRunId"))).or
    (keyPart (payload.field "handler"))

def escalationKey (payload : Event) : Option String := keyPart (payload.field "escalationId")

def cliTaskKey (payload : Event) : Option String := keyPart (payload.field "taskId")

def DEFAULT_PAIR_TTL_MS : Int := 45 * 60 * 1000

def PAIR_CONTRACTS : List PairContract := [
  ⟨"session", "session.start", ["session.idle", "session.end"], 60 * 60 * 1000, sessionKey, some LedgerRow.sessionId⟩,
  ⟨"handler", "handler.started", ["handler.completed", "handler.failed"], DEFAULT_PAIR_TTL_MS, handlerKey, none⟩,
  ⟨"workflow", "workflow.started", ["workflow.completed", "workflow.failed", "workflow.blocked",
    "workflow.interrupted"], DEFAULT_PAIR_TTL_MS, workflowKey, some LedgerRow.workflowRunId⟩,
  ⟨"escalation", "escalation.created", ["escalation.resolved", "escalation.dismissed"], 24 * 60 * 60 * 1000,
    escalationKey, some LedgerRow.escalationId⟩,
  ⟨"cli.task.request", "cli.task.requested", ["cli.task.started", "cli.task.failed"], 60 * 60 * 1000, cliTaskKey,
    some LedgerRow.taskId⟩,
  ⟨"cli.task", "cli.task.started", ["cli.task.completed", "cli.task.failed", "cli.task.orphaned"],
    DEFAULT_PAIR_TTL_MS, cliTaskKey, some LedgerRow.taskId⟩]

def PairRun.isOpen (run : PairRun) : Bool := run.status == .opened || run.status == .orphan

def PairRun.close (run : PairRun) (closeEventId : Nat) (closedAt : Int) (note : Option String) : PairRun :=
  { run with status := .closed, closeEventId := some closeEventId, closedAt := some closedAt, note := note }

def closePairForFollowup (payload : Event) (closeEventId : Nat) (closedAt : Int) (pairs : List PairRun) : List PairRun :=
  match (((present (payload.field "openEventId")).or (payload.field "open_event_id")).bind Value.number?) with
  | some openEventId => pairs.map fun run =>
      if 0 < openEventId ∧ (run.openEventId : Int) = openEventId ∧ run.isOpen then
        run.close closeEventId closedAt (run.note.or (some "closed by follow-up event"))
      else run
  | none => pairs

def closeConventionPairs (type : String) (payload : Event) (closeEventId : Nat) (closedAt : Int)
    (pairs : List PairRun) : List PairRun :=
  (PAIR_CONTRACTS.filter fun pair => pair.closes.contains type).foldl (fun pairs pair =>
    match pair.key payload with
    | some key => pairs.map fun run =>
        if run.isOpen ∧ run.pairName = pair.name ∧ run.correlationKey = key then
          run.close closeEventId closedAt (run.note.or (some ("closed by " ++ type)))
        else run
    | none => pairs) pairs

/-- The row that `closeConventionPairFromEarlierEvent` closes a new run with. -/
def PairContract.earlierClose (pair : PairContract) (rows : List LedgerRow) (key : String) (openEventId : Nat) :
    Option LedgerRow :=
  let closing := rows.reverse.filter fun row => pair.closes.contains row.eventType && row.id != openEventId
  match pair.column with
  | some column => closing.find? fun row => column row == some key
  | none => (closing.take 200).find? fun row => pair.key row.data == some key

/-- `openConventionPair`, with `rows` as they are after the insertion. -/
def openConventionPair (type : String) (payload : Event) (openEventId : Nat) (owner : Option String) (openedAt : Int)
    (rows : List LedgerRow) (pairs : List PairRun) : List PairRun :=
  match PAIR_CONTRACTS.find? fun pair => pair.opens == type with
  | none => pairs
  | some pair =>
    match pair.key payload with
    | none => pairs
    | some key =>
      let run : PairRun := ⟨pair.name, key, openEventId, owner, .opened, openedAt, openedAt + pair.timeoutMs, none, none,
        some ("opened by " ++ type)⟩
      match pair.earlierClose rows key openEventId with
      | none => pairs ++ [run]
      | some row => pairs ++ [run.close row.id (max openedAt row.timestamp) (some ("closed by earlier " ++ row.eventType))]

/-! ### The row -/

def ownsEmission (db : Ledger) (fence : EmissionFence) (now : Int) : Bool :=
  db.resourceApps.contains fence.appId &&
    db.tasks.any fun task =>
      task.appId == fence.appId && task.taskId == fence.taskId && task.generation == fence.taskGeneration &&
        task.attemptGeneration == fence.taskGeneration && task.currentAttemptId == some fence.attemptId &&
        task.attemptState == .running && task.leaseUntil.any fun leaseUntil => decide (now < leaseUntil)

def persistExactTaskWake (db : Ledger) (target : Option Value) (eventId : Nat) : Except String Ledger :=
  match readTaskEventTarget target with
  | some (some appId, taskId) =>
    if db.resourceApps.contains appId then
      if db.tasks.any fun task => task.appId == appId && task.taskId == taskId then
        .ok { db with
          tasks := db.tasks.map fun task =>
            if task.appId = appId ∧ task.taskId = taskId then { task with triggers := task.triggers ++ [eventId] } else task }
      else .error ("Task emission target does not exist: " ++ appId ++ "/" ++ taskId)
    else .ok db
  | _ => .ok db

def Ledger.nextId (db : Ledger) : Nat := (db.rows.map LedgerRow.id).foldl max 0 + 1

def Publication.row (p : Publication) (id : Nat) (now : Int) : LedgerRow where
  id := id
  eventType := p.event.type
  source := p.source
  owner := p.owner
  data := persistedPayload p.event
  sessionId := p.sessionId
  workflowRunId := p.workflowRunId
  projectId := p.projectId
  taskId := p.taskId
  escalationId := stringField (correlated p.event) ["escalationId", "escalation_id"]
  timestamp := now
  idempotencyKey := if p.key = "" then none else some p.key
  idempotencyScope := p.scope
  idempotencyHash := if p.key = "" then none else some p.hash
  ingressSource := p.ingress
  recordOnly := p.recordOnly

/-- What a publication returns: the row, and whether it was there. -/
structure Receipt where
  eventId : Nat
  deduplicated : Bool
  deriving DecidableEq

def Publication.pairs (p : Publication) (rows : List LedgerRow) (id : Nat) (now : Int) (pairs : List PairRun) :
    List PairRun :=
  let payload := journalPayload p.event
  openConventionPair p.event.type payload id (eventOwner p.event.envelope none) now rows
    (closeConventionPairs p.event.type payload id now (closePairForFollowup payload id now pairs))

def fenceError (db : Ledger) (p : Publication) (now : Int) : Option String :=
  match p.fence with
  | none => none
  | some fence =>
    if ownsEmission db fence now then none
    else some ("Task emission fence rejected stale attempt " ++ fence.attemptId ++ " for " ++ fence.appId ++ "/" ++
      fence.taskId ++ "@" ++ toString fence.taskGeneration)

/-- The insertion of a complete publication. `projection` is the error of the caller's own projection. -/
def insertPublication (db : Ledger) (p : Publication) (now : Int) (projection : Option String) :
    Except String (Ledger × Receipt) :=
  match fenceError db p now with
  | some error => .error error
  | none =>
    let id := db.nextId
    let inserted := { db with rows := db.rows ++ [p.row id now] }
    let woken := if p.fence.isSome || isEscalationFeedback p.event.type then
        persistExactTaskWake inserted (p.event.envelope.field "target") id
      else .ok inserted
    match woken, projection with
    | .error error, _ => .error error
    | .ok _, some error => .error error
    | .ok woken, none => .ok ({ woken with pairs := p.pairs woken.rows id now woken.pairs }, ⟨id, false⟩)

/-- `insertEventRow` of a complete publication. -/
def insertKeyed (db : Ledger) (p : Publication) (now : Int) (projection : Option String) :
    Except String (Ledger × Receipt) :=
  if p.key = "" then insertPublication db p now projection
  else match db.findKeyed p.identity with
    | some row =>
      if row.idempotencyHash = some p.hash then .ok (db, ⟨row.id, true⟩)
      else .error ("Idempotency key " ++ p.key ++ " was already used with different event input")
    | none => insertPublication db p now projection

/-- `DbWriter.handler`: no receipt for an event that is not persisted. -/
def publish (db : Ledger) (p : Publication) (now : Int) (projection : Option String) :
    Except String (Ledger × Option Receipt) :=
  if isPersisted p.event then (insertKeyed db (p.complete db) now projection).map fun r => (r.1, some r.2)
  else .ok (db, none)

/-- The runs that `sweepStalePairs` gives up on. -/
def sweepStalePairs (now : Int) (pairs : List PairRun) : List PairRun :=
  pairs.map fun run =>
    if run.status = .opened ∧ run.expectedCloseAt < now then
      { run with
        status := .orphan
        note := run.note.or (some "expected closing event did not arrive before timeout") }
    else run

/-- What happens to the tables: a publication, a change of the sessions and the Tasks by their owners, and the
sweep of stale pairs. -/
inductive LedgerAction where
  | publish (p : Publication) (now : Int) (projection : Option String)
  | record (sessions : List SessionRow) (tasks : List OwnedTask) (resourceApps : List String)
  | sweepPairs (now : Int)

/-- A publication that throws is rolled back. -/
def Ledger.next (db : Ledger) : LedgerAction → Ledger
  | .publish p now projection =>
    match MayAgent.publish db p now projection with
    | .ok (db', _) => db'
    | .error _ => db
  | .record sessions tasks resourceApps =>
    { db with sessions := sessions, tasks := tasks, resourceApps := resourceApps }
  | .sweepPairs now => { db with pairs := sweepStalePairs now db.pairs }

def Ledger.empty : Ledger := ⟨[], [], [], [], []⟩

/-- The tables reached by actions that meet `ok`. -/
def Ledger.Reachable (ok : Ledger → LedgerAction → Prop) (db : Ledger) : Prop :=
  Reaches (· = Ledger.empty) Ledger.next ok db

/-- The tables reached from `db` by any actions. -/
def Ledger.Later (db db' : Ledger) : Prop := Relation.ReflTransGen (Takes Ledger.next fun _ _ => True) db db'

end MayAgent
