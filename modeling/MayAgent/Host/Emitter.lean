import MayAgent.Host.Writer

/-!
# Publications of a Task

`createAppTaskEmitter`: a claimed attempt publishes facts under keys of its own. The key that reaches the
writer is scoped to the generation of the Task, so that a replacement attempt gets the receipt of the first
one; the fence lets only the current attempt append.
-/

namespace MayAgent

structure AppTaskEmission where
  type : String
  data : Event := []
  target : Option Event := none
  owner : Option String := none
  action : Option String := none
  urgency : Option String := none
  ttlMs : Option Int := none
  deriving DecidableEq

structure EmissionClaim where
  taskId : String
  generation : Nat
  attemptId : String
  agent : String
  deriving DecidableEq

structure TaskEmissionScope where
  appId : String
  taskId : String
  generation : Nat
  deriving DecidableEq

/-- A character as `JSON.stringify` writes it. -/
def jsonChar (c : Char) : String :=
  match c with
  | '"' => "\\\""
  | '\\' => "\\\\"
  | '\n' => "\\n"
  | '\r' => "\\r"
  | '\t' => "\\t"
  | c => c.toString

def jsonString (s : String) : String := "\"" ++ String.join (s.toList.map jsonChar) ++ "\""

/-- `taskEmissionIdentity` of a trimmed key. -/
def taskEmissionIdentity (scope : TaskEmissionScope) (key : String) : String :=
  "task-emission:[" ++ jsonString scope.appId ++ "," ++ jsonString scope.taskId ++ "," ++ toString scope.generation ++
    "," ++ jsonString key ++ "]"

/-- The key of older publications. -/
def legacyEmissionKey (scope : TaskEmissionScope) (key : String) : String :=
  "task:" ++ scope.appId ++ ":" ++ scope.taskId ++ ":" ++ toString scope.generation ++ ":emit:" ++ key

/-- The rows that `findTaskEmission` selects. -/
def LedgerRow.isEmission (row : LedgerRow) (scope : TaskEmissionScope) (type key : String) : Bool :=
  row.eventType == type && row.ingressSource == "app-task:" ++ scope.appId && row.idempotencyScope == scope.appId &&
    row.idempotencyKey == some key && key != "" && row.projectId == some scope.appId && row.taskId == some scope.taskId

/-- `findTaskEmission`: the key of the row, the present form first. -/
def findTaskEmission (db : Ledger) (scope : TaskEmissionScope) (type key : String) : Option String :=
  let keyed (candidate : String) := db.rows.any fun row => row.isEmission scope type candidate
  if keyed (taskEmissionIdentity scope key) then some (taskEmissionIdentity scope key)
  else if keyed (legacyEmissionKey scope key) then some (legacyEmissionKey scope key)
  else none

def emissionEnvelope (scope : TaskEmissionScope) (agent key idempotencyKey : String) (emitted : AppTaskEmission) : Event :=
  Event.ofFields [
    ("action", (emitted.action.filter (· ≠ "")).map .str),
    ("data", some (.obj ((emitted.data.assign "idempotencyKey" (.str idempotencyKey)).assign "emission" (.obj [
      ("appId", .str scope.appId), ("generation", .num scope.generation), ("localKey", .str key),
      ("taskId", .str scope.taskId)])))),
    ("owner", some (.str (emitted.owner.getD ("agent:" ++ agent)))),
    ("source", some (.str ("app-task:" ++ scope.appId))),
    ("target", emitted.target.map .obj),
    ("ttl_ms", emitted.ttlMs.map .num),
    ("type", some (.str emitted.type)),
    ("urgency", (emitted.urgency.filter (· ≠ "")).map .str)]

def emissionEvent (scope : TaskEmissionScope) (agent key idempotencyKey : String) (emitted : AppTaskEmission) :
    AgentEvent where
  type := emitted.type
  envelope := emissionEnvelope scope agent key idempotencyKey emitted
  rowId := none
  typed := by simp [emissionEnvelope, Event.field_ofFields]

/-- The checks of `emit` before it builds the event. -/
def emissionError (communication : Bool) (key : String) (emitted : AppTaskEmission) : Option String :=
  if key = "" ∨ 256 < key.length then some "Task emit localKey must contain 1-256 characters"
  else if !Text.contains emitted.type '.' then some "Task emit requires a canonical dot-separated event type"
  else if emitted.type = "project.approval.submitted" then
    some "Formal human approval must use a Host-verified human ingress"
  else if (emitted.type = "conversation.message.created" ∨ emitted.type = "app.task.communication.updated") ∧
      communication = false then
    some "Use Task communication changes to publish through saved reply context"
  else if emitted.type = "app.input.requested" then
    some "Cross-App result work must use a typed Task dependency, not events.emit"
  else none

structure EmissionCall where
  appId : String
  claim : EmissionClaim
  communication : Bool
  localKey : String
  emitted : AppTaskEmission

namespace EmissionCall

def scope (call : EmissionCall) : TaskEmissionScope :=
  ⟨stripAppSuffix (Text.trim call.appId), call.claim.taskId, call.claim.generation⟩

def key (call : EmissionCall) : String := Text.trim call.localKey

def fence (call : EmissionCall) : EmissionFence :=
  ⟨call.scope.appId, call.claim.taskId, call.claim.generation, call.claim.attemptId, call.key⟩

/-- The key under which the event goes to the writer. -/
def idempotencyKey (call : EmissionCall) (db : Ledger) : String :=
  (findTaskEmission db call.scope call.emitted.type call.key).getD (taskEmissionIdentity call.scope call.key)

def publication (call : EmissionCall) (db : Ledger) : Publication where
  event := emissionEvent call.scope call.claim.agent call.key (call.idempotencyKey db) call.emitted
  fence := some call.fence

def emit (call : EmissionCall) (db : Ledger) (now : Int) (projection : Option String) : Except String (Ledger × Receipt) :=
  match emissionError call.communication call.key call.emitted with
  | some error => .error error
  | none =>
    match publish db (call.publication db) now projection with
    | .error error => .error error
    | .ok (_, none) => .error ("Task emission " ++ call.key ++ " did not receive a durable event identity")
    | .ok (db', some receipt) => .ok (db', receipt)

end EmissionCall

/-! ### Runs -/

/-- The ledger and, beside it, the rows that emissions appended: the App, Task and generation, the type, the local key
and the row. -/
structure EmissionLog where
  db : Ledger
  published : List (TaskEmissionScope × String × String × Nat)

/-- A call of some attempt's emitter, or anything else that happens to the tables. -/
inductive EmissionAction where
  | emit (call : EmissionCall) (now : Int) (projection : Option String)
  | other (action : LedgerAction)

def EmissionLog.next (s : EmissionLog) : EmissionAction → EmissionLog
  | .emit call now projection =>
    match call.emit s.db now projection with
    | .error _ => s
    | .ok (db, receipt) =>
      { db := db
        published := if receipt.deduplicated then s.published
          else s.published ++ [(call.scope, call.emitted.type, call.key, receipt.eventId)] }
  | .other action => { s with db := s.db.next action }

def EmissionLog.Reachable (ok : EmissionLog → EmissionAction → Prop) (s : EmissionLog) : Prop :=
  Reaches (· = ⟨Ledger.empty, []⟩) EmissionLog.next ok s

end MayAgent
