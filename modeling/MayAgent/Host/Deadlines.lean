import Mathlib.Data.Prod.Lex
import Mathlib.Data.String.Basic
import MayAgent.Lib.Keyset
import MayAgent.Lib.Table
import MayAgent.Task.Data

/-!
# Recovery of Tasks at their deadlines

`AppTaskRecoveryScheduler`: one timer for the nearest deadline of an App's Tasks, and a safety scan at long intervals.
Both query the index of the Tasks and enqueue what they find. A deadline that a query has already seen does not arm the
timer again.
-/

namespace MayAgent

/-! ### The index -/

/-- The columns of `app_tasks` that a recovery selects by; `cancelled` is a row of `app_task_cancellations`. -/
structure TaskIndexRow where
  lane : Lane
  ready : Bool := false
  changed : Bool := false
  nextCheckAt : Option Int := none
  leaseUntil : Option Int := none
  updatedAt : Int := 0
  cancelled : Bool := false
  deriving DecidableEq

abbrev TaskIndex := Table String TaskIndexRow

/-- `IndexedTaskRecoveryCursor`: the rank of the lane, `updatedAt` and the id, in the order of the query. -/
abbrev RecoveryCursor := Nat ×ₗ Int ×ₗ String

namespace TaskIndexRow

def isCandidate (row : TaskIndexRow) (now : Int) : Bool :=
  !row.cancelled && (row.ready || row.changed || (row.nextCheckAt.any fun t => decide (t ≤ now)) ||
    row.leaseUntil.any fun t => decide (t ≤ now))

def cursor (taskId : String) (row : TaskIndexRow) : RecoveryCursor :=
  toLex (if row.lane = .human then 0 else 1, toLex (row.updatedAt, taskId))

end TaskIndexRow

namespace TaskIndex

def candidates (rows : TaskIndex) (now : Int) : Finset RecoveryCursor :=
  ((rows.filter fun _ row => row.isCandidate now).entries.map fun e => e.2.cursor e.1).toFinset

def listRecoveryCandidates (rows : TaskIndex) (now : Int) (limit : Nat) (after : Option RecoveryCursor) :
    List RecoveryCursor × Option RecoveryCursor :=
  let page := Keyset.page (rows.candidates now) after limit
  (page, if page.length = limit then page.getLast? else none)

def deadlines (rows : TaskIndex) : List Int :=
  rows.entries.filterMap fun e => if e.2.cancelled then none else e.2.nextCheckAt

def nextDueAt (rows : TaskIndex) : Option Int := rows.deadlines.min?

end TaskIndex

/-! ### The scheduler -/

def MAX_TIMER_DELAY_MS : Int := 2147483647

/-- The page size that the constructor and the query take. -/
def recoveryPageSize (pageSize : Option Nat) : Nat := max 1 (min 10000 (pageSize.getD 256))

/-- A call of `enqueue` by the recovery at the time. -/
structure TaskEnqueue where
  taskId : String
  lane : Lane
  recoveryAt : Int
  deriving DecidableEq

/-- The index, the clock, and the fields of a scheduler; `dueTimer` is the time its timer fires at. -/
structure RecoveryScheduler where
  rows : TaskIndex
  now : Int
  dueTimer : Option Int := none
  dueAt : Option Int := none
  lastRecoveryAt : Option Int := none
  recoveryCursor : Option RecoveryCursor := none
  closed : Bool := false
  enqueued : List TaskEnqueue := []

namespace RecoveryScheduler

def tick (elapsed : Nat) (s : RecoveryScheduler) : RecoveryScheduler := { s with now := s.now + elapsed }

def recover (limit : Nat) (s : RecoveryScheduler) : RecoveryScheduler :=
  if s.closed then s
  else
    let page := s.rows.listRecoveryCandidates s.now limit s.recoveryCursor
    { s with
      lastRecoveryAt := some s.now
      recoveryCursor := page.2
      enqueued := s.enqueued ++ page.1.map fun item =>
        { taskId := item.2.2, lane := if item.1 = 0 then .human else .normal, recoveryAt := s.now } }

def armNearestDue (force : Bool) (s : RecoveryScheduler) : RecoveryScheduler :=
  match s.rows.nextDueAt with
  | none => { s with dueTimer := none, dueAt := none }
  | some next =>
    if next ≤ s.now && !force && s.lastRecoveryAt.any fun t => decide (next ≤ t) then s
    else if !force && s.dueTimer.isSome && s.dueAt == some next then s
    else { s with dueAt := some next, dueTimer := some (s.now + min MAX_TIMER_DELAY_MS (max 1 (next - s.now))) }

def stateChanged (s : RecoveryScheduler) : RecoveryScheduler := if s.closed then s else s.armNearestDue true

def close (s : RecoveryScheduler) : RecoveryScheduler := { s with closed := true, dueTimer := none, dueAt := none }

/-- A recovery, and the timer armed `drift` milliseconds after its query. -/
def recoverAndArm (limit drift : Nat) (s : RecoveryScheduler) : RecoveryScheduler :=
  ((s.recover limit).tick drift).armNearestDue false

def fireDue (limit drift : Nat) (s : RecoveryScheduler) : RecoveryScheduler :=
  if s.dueTimer.isNone then s else { s with dueTimer := none, dueAt := none }.recoverAndArm limit drift

def fireSafety (limit drift : Nat) (s : RecoveryScheduler) : RecoveryScheduler :=
  if s.closed then s else s.recoverAndArm limit drift

/-- `start` of a new scheduler. -/
def started (limit drift : Nat) (rows : TaskIndex) (now : Int) : RecoveryScheduler :=
  recoverAndArm limit drift { rows := rows, now := now }

/-- `change` is a change of the rows with its call of `stateChanged`. -/
inductive Action where
  | change (rows : TaskIndex)
  | stateChanged
  | recover
  | timer (drift : Nat)
  | safety (drift : Nat)
  | advance (elapsed : Nat)
  | close

def next (limit : Nat) (s : RecoveryScheduler) : Action → RecoveryScheduler
  | .change rows => stateChanged { s with rows := rows }
  | .stateChanged => s.stateChanged
  | .recover => s.recover limit
  | .timer drift => s.fireDue limit drift
  | .safety drift => s.fireSafety limit drift
  | .advance elapsed => s.tick elapsed
  | .close => s.close

end RecoveryScheduler

end MayAgent
