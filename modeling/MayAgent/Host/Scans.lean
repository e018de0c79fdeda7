import Mathlib.Order.Lattice.Nat
import Mathlib.Data.Prod.Lex
import Mathlib.Data.String.Basic
import MayAgent.Lib.Keyset
import MayAgent.Lib.Table

/-!
# Recovery scans

The three scans in the background of a host: `recoverInputs` over the events that no App has admitted,
`recoverAdmissions` over the inputs that are not attached to a Task, or whose rejection is not reported, and
`recoverTaskResults` over the inputs that wait for a Task. Each of them reads one page in a pass and keeps a cursor
in memory. What happens to the rows between two passes is left open.
-/

namespace MayAgent

/-! ### Events without an admission -/

def APP_ADMISSION_RECOVERY_SCAN_SIZE : Nat := 64

def APP_ADMISSION_RECOVERY_BATCH_SIZE : Nat := 16

/-- What becomes of an event in a pass. -/
inductive Redelivery where
  | redelivered | unavailable | throws
  deriving DecidableEq

/-- The ids of the events with `app_admission_pending = 1`, the next id of the table, and the variables of
`recoverInputs`. -/
structure InputScan where
  pending : Finset Nat
  nextId : Nat
  cursor : Nat
  cycleMaxId : Nat

namespace InputScan

/-- The high-water mark of the cycle, frozen when the cycle starts. -/
def maxId (s : InputScan) : Nat := if s.cycleMaxId = 0 then s.pending.sup id else s.cycleMaxId

def rows (s : InputScan) : List Nat :=
  ((s.pending.filter fun id => s.cursor < id ∧ id ≤ s.maxId).sort (· ≤ ·)).take APP_ADMISSION_RECOVERY_SCAN_SIZE

/-- The rows that the loop reaches after `recovered` redeliveries. -/
def reached (outcome : Nat → Redelivery) : Nat → List Nat → List Nat
  | _, [] => []
  | recovered, id :: rest =>
    match outcome id with
    | .throws => [id]
    | .unavailable => id :: reached outcome recovered rest
    | .redelivered =>
      if recovered + 1 = APP_ADMISSION_RECOVERY_BATCH_SIZE then [id] else id :: reached outcome (recovered + 1) rest

def recoverInputs (s : InputScan) (outcome : Nat → Redelivery) : InputScan :=
  match s.rows with
  | [] => { s with cursor := 0, cycleMaxId := 0 }
  | rows => { s with cursor := ((reached outcome 0 rows).getLast?).getD s.cursor, cycleMaxId := s.maxId }

/-- A new event, markers that are cleared, and a pass. -/
inductive Action where
  | insert
  | settle (ids : Finset Nat)
  | pass (outcome : Nat → Redelivery)

def next (s : InputScan) : Action → InputScan
  | .insert => { s with pending := insert s.nextId s.pending, nextId := s.nextId + 1 }
  | .settle ids => { s with pending := s.pending \ ids }
  | .pass outcome => s.recoverInputs outcome

def scanner : Scanner InputScan Action Nat where
  next := next
  due := pending
  visited s
    | .pass outcome => reached outcome 0 s.rows
    | _ => []
  isPass
    | .pass _ => true
    | _ => false

def Initial (s : InputScan) : Prop :=
  s.cursor = 0 ∧ s.cycleMaxId = 0 ∧ 0 < s.nextId ∧ ∀ id ∈ s.pending, 0 < id ∧ id < s.nextId

end InputScan

/-! ### Inputs -/

inductive InboxStatus where
  | pending | handling | done
  deriving DecidableEq, Repr

inductive WaitKind where
  | app | task | session | analysis
  deriving DecidableEq, Repr

/-- The columns of `app_inbox_items` that the scans select by; `failed` is the phase of the handling, and the
last two are of the evidence of the admission's failure. -/
structure InboxColumns where
  appId : String
  status : InboxStatus
  executionTaskId : Option String
  waitingOnKind : Option WaitKind
  waitingOnId : Option String
  leaseOwner : Option String
  leaseExpiresAt : Option Int
  availableAt : Option Int
  reviewAt : Option Int
  failed : Bool
  fingerprint : Option String
  reportedAt : Option Int
  deriving DecidableEq

namespace InboxColumns

def unadmitted (row : InboxColumns) (now : Int) : Bool :=
  row.status != .done && row.executionTaskId.isNone && (row.waitingOnKind != some .task || row.leaseOwner.isSome) &&
    (row.leaseExpiresAt.all fun t => decide (t ≤ now)) && row.availableAt.all fun t => decide (t ≤ now)

def unreported (row : InboxColumns) (now : Int) : Bool :=
  row.executionTaskId.isNone && row.status == .done && row.waitingOnKind.isNone && row.failed && row.fingerprint.isSome &&
    row.reportedAt.isNone && row.reviewAt.all fun t => decide (t ≤ now)

def awaitsResult (row : InboxColumns) (now : Int) : Bool :=
  row.status == .handling && row.leaseOwner.isNone && row.waitingOnKind == some .task && row.waitingOnId.isSome &&
    row.reviewAt.all fun t => decide (t ≤ now)

end InboxColumns

abbrev InboxTable := Table String InboxColumns

/-- The App, the Task and the input, in the order of the index. -/
abbrev DependencyKey := String ×ₗ String ×ₗ String

/-- The inputs that `recoverAdmissions` selects. -/
def admissionKeys (items : InboxTable) (now : Int) : Finset String :=
  ((items.filter fun _ row => row.unadmitted now || row.unreported now).entries.map Sigma.fst).toFinset

/-- The inputs that `listAppInboxTaskDependencyKeys` selects. -/
def dependencyKeys (items : InboxTable) (now : Int) : Finset DependencyKey :=
  ((items.filter fun _ row => row.awaitsResult now).entries.map fun e =>
    toLex (e.2.appId, toLex (e.2.waitingOnId.getD "", e.1))).toFinset

structure PagedScan (κ : Type) where
  keys : InboxTable → Int → Finset κ
  pass : Finset κ → Option κ → List κ × Option κ

def recoverAdmissions : PagedScan String where
  keys := admissionKeys
  pass due cursor :=
    let first := Keyset.page due cursor 64
    let rows := if first.isEmpty && cursor.isSome then Keyset.page due none 64 else first
    (rows, if rows.length = 64 then rows.getLast? else none)

/-- `listAppInboxTaskDependencyKeys`: the page and the next cursor. -/
def listAppInboxTaskDependencyKeys (due : Finset DependencyKey) (after : Option DependencyKey) (limit : Nat) :
    List DependencyKey × Option DependencyKey :=
  let rows := Keyset.page due after (limit + 1)
  let items := rows.take limit
  (items, if limit < rows.length ∧ items ≠ [] then items.getLast? else none)

def recoverTaskResults : PagedScan DependencyKey where
  keys := dependencyKeys
  pass due cursor :=
    let first := listAppInboxTaskDependencyKeys due cursor 256
    if first.1.isEmpty && cursor.isSome then listAppInboxTaskDependencyKeys due none 256 else first

/-- The inbox, the time, and the cursor of a scan; `arrivals` counts the rows that became due since the last pass. -/
structure InboxScan (κ : Type) where
  items : InboxTable
  now : Int
  cursor : Option κ
  arrivals : Nat

namespace PagedScan

variable {κ : Type} [DecidableEq κ]

/-- What others do to the inbox, and a pass; `throws` are the rows whose handling ends the pass with an error. -/
inductive Action (κ : Type) where
  | change (items : InboxTable) (now : Int)
  | pass (throws : κ → Bool)

def reached (throws : κ → Bool) : List κ → List κ
  | [] => []
  | k :: rest => if throws k then [k] else k :: reached throws rest

def due (P : PagedScan κ) (s : InboxScan κ) : Finset κ := P.keys s.items s.now

def next (P : PagedScan κ) (s : InboxScan κ) : Action κ → InboxScan κ
  | .change items now => { s with items := items, now := now, arrivals := s.arrivals + (P.keys items now \ P.due s).card }
  | .pass _ => { s with cursor := (P.pass (P.due s) s.cursor).2, arrivals := 0 }

def scanner (P : PagedScan κ) : Scanner (InboxScan κ) (Action κ) κ where
  next := P.next
  due := P.due
  visited s
    | .pass throws => reached throws (P.pass (P.due s) s.cursor).1
    | .change _ _ => []
  isPass
    | .pass _ => true
    | .change _ _ => false

def Initial (s : InboxScan κ) : Prop := s.cursor = none ∧ s.arrivals = 0

end PagedScan

end MayAgent
