import Mathlib.Data.List.MinMax
import Mathlib.Data.List.Sort
import Mathlib.Data.Prod.Lex
import Mathlib.Data.String.Basic
import MayAgent.Task.Data

/-!
# Lists and details of Tasks

`HumanTaskService`: `listTasks` unites the live rows, the completion receipts and the closures of Tasks and reads them
page by page behind a cursor; `getTask` picks the row of one Task. Reads for human action, the reference by which a Task is
found, and the other columns of a view are left out. A payload is represented by what is projected from it. Task ids are
stored as they are given, if they are not blank.
-/

namespace MayAgent

namespace TaskList

abbrev Identity := String × String

/-- A row of `app_tasks`. -/
structure LiveTask where
  appId : String
  taskId : String
  generation : Nat
  resourceVersion : Nat
  observedGeneration : Nat
  phase : Phase
  changed : Bool
  ready : Bool
  updatedAt : Int
  dependsOn : List String
  deriving DecidableEq

/-- A row of `app_task_receipts`. -/
structure StoredReceipt where
  appId : String
  receiptId : String
  generation : Nat
  resourceVersion : Nat
  completedAt : Int
  deriving DecidableEq

/-- A row of `app_task_cancellations`. -/
structure StoredClosure where
  appId : String
  taskId : String
  kind : Option ClosureKind
  generation : Nat
  resourceVersion : Nat
  requestedAt : Int
  deriving DecidableEq

def LiveTask.identity (task : LiveTask) : Identity := (task.appId, task.taskId)
def StoredReceipt.identity (receipt : StoredReceipt) : Identity := (receipt.appId, receipt.receiptId)
def StoredClosure.identity (closure : StoredClosure) : Identity := (closure.appId, closure.taskId)

/-- The tables, each with the App and the Task as its primary key. Their ids are not blank. -/
structure Store where
  live : List LiveTask
  receipts : List StoredReceipt
  closures : List StoredClosure
  liveKey : (live.map LiveTask.identity).Nodup
  receiptKey : (receipts.map StoredReceipt.identity).Nodup
  closureKey : (closures.map StoredClosure.identity).Nodup
  named : ∀ id ∈ live.map LiveTask.identity ++ receipts.map StoredReceipt.identity ++ closures.map StoredClosure.identity,
    stripAppSuffix (Text.trim id.1) ≠ "" ∧ Text.trim id.2 ≠ ""

/-! ### Rows -/

/-- What a row of the union was read from, with the phase of a live row as it is shown. -/
inductive Payload where
  | live (phase : Phase) (generation resourceVersion : Nat)
  | receipt (generation resourceVersion : Nat)
  | closure (kind : Option ClosureKind) (generation resourceVersion : Nat)
  deriving DecidableEq

def Payload.terminal : Payload → Nat
  | .live _ _ _ => 0
  | .receipt _ _ => 1
  | .closure _ _ _ => 2

def Payload.generation : Payload → Nat
  | .live _ generation _ => generation
  | .receipt generation _ => generation
  | .closure _ generation _ => generation

structure TaskRow where
  appId : String
  taskId : String
  updatedAt : Int
  payload : Payload
  deriving DecidableEq

def TaskRow.identity (row : TaskRow) : Identity := (row.appId, row.taskId)

namespace Store

/-- A dependency that no longer holds its Task back. -/
def isConverged (store : Store) (appId taskId : String) : Bool :=
  store.live.any fun required => required.appId == appId && required.taskId == taskId && required.phase == .converged &&
    required.observedGeneration == required.generation

/-- `taskViewPhaseSql`. -/
def viewPhase (store : Store) (task : LiveTask) : Phase :=
  if task.phase = .converged ∧ (task.ready ∨ task.changed) then .pending
  else if task.phase = .waiting ∧ task.ready ∧ task.dependsOn.all (store.isConverged task.appId) then .pending
  else task.phase

def liveRow (store : Store) (task : LiveTask) : TaskRow :=
  ⟨task.appId, task.taskId, task.updatedAt, .live (store.viewPhase task) task.generation task.resourceVersion⟩

end Store

def StoredReceipt.row (receipt : StoredReceipt) : TaskRow :=
  ⟨receipt.appId, receipt.receiptId, receipt.completedAt, .receipt receipt.generation receipt.resourceVersion⟩

def StoredClosure.row (closure : StoredClosure) : TaskRow :=
  ⟨closure.appId, closure.taskId, closure.requestedAt, .closure closure.kind closure.generation closure.resourceVersion⟩

/-! ### Views -/

inductive HumanTaskStatus where
  | pending | running | waiting | attention | upToDate | done | closed | cancelled
  deriving DecidableEq

structure HumanTaskView where
  appId : String
  taskId : String
  status : HumanTaskStatus
  generation : Nat
  resourceVersion : Nat
  updatedAt : Int
  deriving DecidableEq

def HumanTaskView.identity (view : HumanTaskView) : Identity := (view.appId, view.taskId)

/-- `taskStatus` of a live row. -/
def taskStatus : Phase → HumanTaskStatus
  | .pending => .pending
  | .running => .running
  | .waiting => .waiting
  | .attention => .attention
  | .converged => .upToDate

def projectTask (row : TaskRow) : HumanTaskView :=
  match row.payload with
  | .live phase generation resourceVersion =>
    ⟨row.appId, row.taskId, taskStatus phase, generation, resourceVersion, row.updatedAt⟩
  | .receipt generation resourceVersion => ⟨row.appId, row.taskId, .done, generation, resourceVersion, row.updatedAt⟩
  | .closure kind generation resourceVersion =>
    ⟨row.appId, row.taskId, if kind = some .closed then .closed else .cancelled, generation, resourceVersion, row.updatedAt⟩

/-! ### Lists -/

structure TaskCursor where
  updatedAt : Int
  appId : String
  taskId : String
  terminal : Nat
  deriving DecidableEq

def TaskRow.cursor (row : TaskRow) : TaskCursor := ⟨row.updatedAt, row.appId, row.taskId, row.payload.terminal⟩

def TaskCursor.isBefore (cursor : TaskCursor) (row : TaskRow) : Bool :=
  row.updatedAt < cursor.updatedAt ||
    (row.updatedAt = cursor.updatedAt && cursor.appId < row.appId) ||
    (row.updatedAt = cursor.updatedAt && row.appId = cursor.appId && cursor.taskId < row.taskId) ||
    (row.updatedAt = cursor.updatedAt && row.appId = cursor.appId && row.taskId = cursor.taskId &&
      cursor.terminal < row.payload.terminal)

/-- `ORDER BY updated_at DESC, app_id, task_id, terminal`. -/
def TaskCursor.key (cursor : TaskCursor) : ℤ ×ₗ String ×ₗ String ×ₗ ℕ :=
  toLex (-cursor.updatedAt, toLex (cursor.appId, toLex (cursor.taskId, cursor.terminal)))

def TaskRow.key (row : TaskRow) : ℤ ×ₗ String ×ₗ String ×ₗ ℕ := row.cursor.key

/-- The input of `listTasks`, with a normalized App. -/
structure ListInput where
  appId : Option String := none
  includeDone : Bool := false
  status : Option (List HumanTaskStatus) := none
  limit : Nat := 30
  deriving DecidableEq

namespace ListInput

def isTerminal (status : HumanTaskStatus) : Bool := [.done, .closed, .cancelled].contains status

def includeLive (input : ListInput) : Bool :=
  match input.status with
  | none => true
  | some statuses => statuses.any fun status => !isTerminal status

/-- `includeDone`, `includeCancelled` and `includeClosed`. -/
def includes (input : ListInput) (status : HumanTaskStatus) : Bool :=
  match input.status with
  | none => input.includeDone
  | some statuses => statuses.contains status

def livePhase : HumanTaskStatus → Option Phase
  | .pending => some .pending
  | .running => some .running
  | .waiting => some .waiting
  | .attention => some .attention
  | .upToDate => some .converged
  | _ => none

def livePhases (input : ListInput) : List Phase :=
  match input.status with
  | none => [.pending, .running, .waiting, .attention, .converged]
  | some statuses => statuses.filterMap livePhase

/-- The phases of the indexed search. -/
def storedPhases (input : ListInput) : List Phase :=
  if input.livePhases.contains .pending then input.livePhases ++ [.converged, .waiting] else input.livePhases

def covers (input : ListInput) (appId : String) : Bool := input.appId.all (· == appId)

end ListInput

namespace Store

def listsLive (store : Store) (input : ListInput) (task : LiveTask) : Bool :=
  input.storedPhases.contains task.phase && input.livePhases.contains (store.viewPhase task) &&
    !(store.receipts.any fun receipt => receipt.identity == task.identity && task.generation ≤ receipt.generation) &&
    !(store.closures.any fun closure => closure.identity == task.identity) && input.covers task.appId

def listsReceipt (store : Store) (input : ListInput) (receipt : StoredReceipt) : Bool :=
  !(store.closures.any fun closure => closure.identity == receipt.identity) &&
    !(store.live.any fun task => task.identity == receipt.identity && receipt.generation < task.generation) &&
    input.covers receipt.appId

def listsClosure (input : ListInput) (closure : StoredClosure) : Bool :=
  input.includes (if closure.kind.getD .cancelled = .closed then .closed else .cancelled) && input.covers closure.appId

/-- The union. -/
def listedRows (store : Store) (input : ListInput) : List TaskRow :=
  (if input.includeLive then (store.live.filter (store.listsLive input)).map store.liveRow else []) ++
    (if input.includes .done then (store.receipts.filter (store.listsReceipt input)).map StoredReceipt.row else []) ++
    (store.closures.filter (listsClosure input)).map StoredClosure.row

def sortedRows (store : Store) (input : ListInput) : List TaskRow :=
  (store.listedRows input).insertionSort fun a b => a.key ≤ b.key

end Store

structure TaskPage where
  items : List HumanTaskView
  nextCursor : Option TaskCursor
  deriving DecidableEq

def listTasks (store : Store) (input : ListInput) (cursor : Option TaskCursor) : Except String TaskPage :=
  if input.limit < 1 ∨ 100 < input.limit then .error "Task list limit must be an integer between 1 and 100"
  else
    let rows := ((store.sortedRows input).filter fun row => cursor.all fun c => c.isBefore row).take (input.limit + 1)
    let pageRows := rows.take input.limit
    .ok ⟨pageRows.map projectTask, if input.limit < rows.length then pageRows.getLast?.map TaskRow.cursor else none⟩

/-- The pages of a list one after the other; `fuel` bounds their number. -/
def followCursor (store : Store) (input : ListInput) : Nat → Option TaskCursor → Option (List HumanTaskView)
  | 0, _ => none
  | fuel + 1, cursor =>
    match listTasks store input cursor with
    | .error _ => none
    | .ok ⟨items, none⟩ => some items
    | .ok ⟨items, some next⟩ => (followCursor store input fuel (some next)).map (items ++ ·)

/-! ### Details -/

/-- `ORDER BY (terminal = 2) DESC, current_generation DESC, terminal DESC`. -/
def TaskRow.precedence (row : TaskRow) : ℕ ×ₗ ℕ ×ₗ ℕ :=
  toLex (if row.payload.terminal = 2 then 1 else 0, toLex (row.payload.generation, row.payload.terminal))

namespace Store

def rowsOf (store : Store) (id : Identity) : List TaskRow :=
  (store.live.filter fun task => task.identity = id).map store.liveRow ++
    (store.receipts.filter fun receipt => receipt.identity = id).map StoredReceipt.row ++
    (store.closures.filter fun closure => closure.identity = id).map StoredClosure.row

def readTaskRow (store : Store) (id : Identity) : Option TaskRow := (store.rowsOf id).argmax TaskRow.precedence

end Store

def normalizeAppId (value : String) : Option String :=
  let normalized := stripAppSuffix (Text.trim value)
  if normalized = "" then none else some normalized

/-- `getTask` of an App and a Task. -/
def getTask (store : Store) (id : Identity) : Except String (Option HumanTaskView) :=
  match normalizeAppId id.1 with
  | none => .error "Task read requires ref or App and Task ids"
  | some appId =>
    if Text.trim id.2 = "" then .error "Task read requires ref or App and Task ids"
    else .ok ((store.readTaskRow (appId, Text.trim id.2)).map projectTask)

end TaskList

end MayAgent
