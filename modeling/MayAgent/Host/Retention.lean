import MayAgent.Host.Writer
import MayAgent.Lib.Passes

/-!
# Retention

`runDbMaintenancePass`: in one pass lifecycle pairs are given up, retired and removed, then expired links, events and
what they leave behind, then sessions, each in a bounded batch of the oldest rows. An event stays while something refers to
it; the trigger on `events` checks the same references as the statement that deletes. The tables that a pass only cuts by
age are left out. Of admission plans and inbox items the events of the pending ones are kept, of the session directories
those with a mark of activity.
-/

namespace MayAgent

namespace Retention

structure StoredEvent where
  id : Nat
  eventType : String
  sessionId : Option String
  timestamp : Int
  appAdmissionPending : Bool
  deriving DecidableEq

structure TraceRow where
  eventId : Nat
  parentEventId : Option Nat
  deriving DecidableEq

structure TraceLink where
  id : Nat
  fromEventId : Nat
  toEventId : Nat
  createdAt : Int
  deriving DecidableEq

inductive SessionStatus where
  | running | idle | done | error | interrupted
  deriving DecidableEq

def SessionStatus.isLive (status : SessionStatus) : Bool := status == .running || status == .idle

structure StoredSession where
  sessionId : String
  status : SessionStatus
  startedAt : Int
  deriving DecidableEq

/-- What refers to events, and the sessions. -/
structure References where
  traces : List TraceRow
  links : List TraceLink
  sessions : List StoredSession
  pendingPlans : List Nat
  openInputs : List Nat
  activeDirectories : List String
  deriving DecidableEq

structure Tables extends References where
  events : List StoredEvent
  pairs : List PairRun
  deriving DecidableEq

def dayMs : Int := 86400000

/-- `ORPHAN_ACTIONABLE_MS`. -/
def orphanActionableMs : Int := 4 * 60 * 60 * 1000

/-- `PAIR_DELETION_BATCH_SIZE`. -/
def pairDeletionBatchSize : Nat := 25000

section Rows

variable {α : Type} [DecidableEq α]

def removeEligibleRows (eligible : α → Bool) (orderBy : α → Int) (batchSize : Nat) (rows : List α) : List α :=
  rows.filter fun row => !((oldest orderBy batchSize (rows.filter eligible)).contains row && eligible row)

def updateEligibleRows (eligible : α → Bool) (orderBy : α → Int) (batchSize : Nat) (f : α → α) (rows : List α) : List α :=
  rows.map fun row => if (oldest orderBy batchSize (rows.filter eligible)).contains row then f row else row

end Rows

/-! ### Lifecycle pairs -/

/-- A pair that is not settled keeps its opening event. -/
def isUnsettled (run : PairRun) : Bool := run.status != .closed

def orphaned (run : PairRun) : PairRun :=
  { run with
    status := .orphan
    note := run.note.or (some "expected closing event did not arrive before timeout") }

def orphanPairs (now : Int) (batchSize : Nat) (t : Tables) : Tables :=
  { t with
    pairs := updateEligibleRows (fun run => run.status == .opened && run.expectedCloseAt < now) PairRun.expectedCloseAt
      batchSize orphaned t.pairs }

def retired (now : Int) (run : PairRun) : PairRun :=
  { run with
    status := .closed
    closedAt := some now
    note := some ((run.note.map (· ++ "; ")).getD "" ++ "retired stale orphan") }

def retireOrphans (now : Int) (batchSize : Nat) (t : Tables) : Tables :=
  { t with
    pairs := updateEligibleRows
      (fun run => run.status == .orphan && run.closedAt.isNone && run.expectedCloseAt < now - orphanActionableMs)
      PairRun.expectedCloseAt batchSize (retired now) t.pairs }

def removePairs (now : Int) (t : Tables) : Tables :=
  { t with
    pairs := removeEligibleRows (fun run => run.status != .opened && run.openedAt < now - 3 * dayMs) PairRun.openedAt
      pairDeletionBatchSize t.pairs }

/-! ### Events -/

def Tables.hasPair (t : Tables) (id : Nat) : Bool := t.pairs.any fun run => run.openEventId == id && isUnsettled run

def Tables.isExpired (t : Tables) (cutoff : Int) (id : Nat) : Bool :=
  t.events.any fun event => event.id == id && event.timestamp < cutoff

def removeExpiredLinks (now : Int) (batchSize : Nat) (t : Tables) : Tables :=
  { t with
    links := removeEligibleRows
      (fun link => link.createdAt < now - 5 * dayMs && t.isExpired (now - 5 * dayMs) link.fromEventId &&
        t.isExpired (now - 5 * dayMs) link.toEventId && !(t.hasPair link.fromEventId || t.hasPair link.toEventId))
      TraceLink.createdAt batchSize t.links }

/-- What `trg_events_referential_retention` checks. -/
def Tables.isReferenced (t : Tables) (event : StoredEvent) : Bool :=
  t.hasPair event.id
    || t.traces.any (fun trace => trace.parentEventId == some event.id && trace.eventId != event.id)
    || t.links.any (fun link => link.fromEventId == event.id || link.toEventId == event.id)
    || t.sessions.any (fun session => session.status.isLive && event.sessionId == some session.sessionId)
    || t.pendingPlans.contains event.id
    || t.openInputs.contains event.id
    || event.appAdmissionPending

def StoredEvent.isApproval (event : StoredEvent) : Bool :=
  ["project.approval.submitted", "project.approval.resolved"].contains event.eventType

def removeEvents (now : Int) (batchSize : Nat) (t : Tables) : Tables :=
  { t with
    events := removeEligibleRows
      (fun event => event.timestamp < now - 5 * dayMs && !event.isApproval && !t.isReferenced event)
      StoredEvent.timestamp batchSize t.events }

def Tables.hasEvent (t : Tables) (id : Nat) : Bool := t.events.any fun event => event.id == id

def removeTraces (batchSize : Nat) (t : Tables) : Tables :=
  { t with
    traces := removeEligibleRows (fun trace => !t.hasEvent trace.eventId) (fun trace => (trace.eventId : Int)) batchSize
      t.traces }

def removeOrphanedLinks (batchSize : Nat) (t : Tables) : Tables :=
  { t with
    links := removeEligibleRows (fun link => !t.hasEvent link.fromEventId || !t.hasEvent link.toEventId)
      (fun link => (link.id : Int)) batchSize t.links }

/-! ### Sessions -/

/-- `sessionDirectoryIsActive`; a name that is no base name counts as active. -/
def References.sessionDirectoryIsActive (t : References) (sessionId : String) : Bool :=
  sessionId == "" || Text.contains sessionId '/' || t.activeDirectories.contains sessionId

def StoredSession.isRetired (cutoff : Int) (session : StoredSession) : Bool :=
  session.startedAt < cutoff && !session.status.isLive

/-- `removeRetiredSessions`: the directories are looked at after the batch is cut. -/
def removeRetiredSessions (now : Int) (batchSize : Nat) (t : Tables) : Tables :=
  let isRetired := StoredSession.isRetired (now - 14 * dayMs)
  let candidates := oldest StoredSession.startedAt batchSize (t.sessions.filter isRetired)
  let sessionIds := (candidates.filter fun session => !t.sessionDirectoryIsActive session.sessionId).map
    StoredSession.sessionId
  { t with sessions := t.sessions.filter fun session => !(sessionIds.contains session.sessionId && isRetired session) }

/-! ### Passes -/

def effectiveBatchSize (batchSize : Nat) : Nat := max 1 (min batchSize 5000)

def passSteps (now : Int) (n : Nat) : List (Tables → Tables) :=
  [orphanPairs now n, retireOrphans now n, removePairs now, removeExpiredLinks now n, removeEvents now n, removeTraces n,
    removeOrphanedLinks n, removeRetiredSessions now n]

def runDbMaintenancePass (now : Int) (batchSize : Nat) : Tables → Tables :=
  runSteps (passSteps now (effectiveBatchSize batchSize))

end Retention

/-! ### The journal -/

/-- What is left of a deleted row: its id, which `AUTOINCREMENT` does not give out again. No query finds the row. -/
def LedgerRow.erased (row : LedgerRow) : LedgerRow where
  id := row.id
  eventType := ""
  source := none
  owner := none
  data := []
  sessionId := none
  workflowRunId := none
  projectId := none
  taskId := none
  escalationId := none
  timestamp := 0
  idempotencyKey := none
  idempotencyScope := ""
  idempotencyHash := none
  ingressSource := ""
  recordOnly := true

open Retention

def LedgerRow.stored (row : LedgerRow) (pending : List Nat) : StoredEvent :=
  ⟨row.id, row.eventType, row.sessionId, row.timestamp, pending.contains row.id⟩

/-- The tables of a pass: the journal with its pairs, beside whatever else refers to its rows. -/
def Ledger.tables (db : Ledger) (refs : References) (pending : List Nat) : Tables :=
  { refs with
    events := (db.rows.filter fun row => row ≠ row.erased).map fun row => row.stored pending
    pairs := db.pairs }

def Ledger.maintain (db : Ledger) (now : Int) (batchSize : Nat) (refs : References) (pending : List Nat) : Ledger :=
  let after := runDbMaintenancePass now batchSize (db.tables refs pending)
  { db with
    rows := db.rows.map fun row => if after.hasEvent row.id then row else row.erased
    pairs := after.pairs }

/-- What happens to the journal: an action on it, or a pass. -/
inductive RetainedAction where
  | act (action : LedgerAction)
  | maintain (now : Int) (batchSize : Nat) (refs : References) (pending : List Nat)

def Ledger.nextRetained (db : Ledger) : RetainedAction → Ledger
  | .act action => db.next action
  | .maintain now batchSize refs pending => db.maintain now batchSize refs pending

end MayAgent
