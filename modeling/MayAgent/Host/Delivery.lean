import MayAgent.Host.Routing
import MayAgent.Lib.Reach

/-!
# Delivery of a persisted event

`EventBus.dispatch` runs the durable routes and the subscribers of an event, and `DbWriter.recordDelivery`
keeps the receipt in its journal row. An event is delivered again by a producer that repeats its key, by
recovery (all routes, or those of one label), and by the fan-out of a worker; the sweep of unaccepted
events and an address that cannot be routed end the wait for a receipt. The routes are functions of the
application: each call of one throws, accepts or ignores as it likes.
-/

namespace MayAgent

inductive DeliveryRoute where
  | direct | noop
  deriving DecidableEq

structure DeliveryResult where
  by_ : String
  route : Option DeliveryRoute
  note : Option String
  appAdmission : Bool
  deriving DecidableEq

inductive SubscriberCall where
  | threw (error : String)
  | returned (result : Option DeliveryResult)
  deriving DecidableEq

def SubscriberCall.isThrown : SubscriberCall → Bool
  | .threw _ => true
  | .returned _ => false

inductive DeliveryOutcome where
  | accepted (result : DeliveryResult)
  | failed (note : String)
  deriving DecidableEq

def normalizeDeliveryResult (result : Option DeliveryResult) : Option DeliveryResult :=
  match result with
  | none => none
  | some result =>
    if Text.nonEmpty result.by_ then some { result with by_ := Text.trim result.by_, note := result.note.filter (· ≠ "") }
    else none

def SubscriberCall.delivery : SubscriberCall → Option DeliveryResult
  | .threw _ => none
  | .returned result => normalizeDeliveryResult result

def preferredDelivery (current candidate : Option DeliveryResult) : Option DeliveryResult :=
  match current with
  | none => candidate
  | some current =>
    let preferred : DeliveryResult := match candidate with
      | some candidate =>
        if current.route = some DeliveryRoute.noop ∧ candidate.route ≠ some DeliveryRoute.noop then candidate else current
      | none => current
    some { preferred with
      appAdmission := preferred.appAdmission || current.appAdmission || candidate.any DeliveryResult.appAdmission }

def isPairTrackedEvent (type : String) : Bool :=
  ["session.start", "session.end", "session.idle", "workflow.started", "workflow.completed", "workflow.failed",
    "workflow.blocked", "workflow.interrupted", "handler.started", "handler.completed", "handler.failed",
    "cli.task.requested", "cli.task.started", "cli.task.completed", "cli.task.failed",
    "cli.task.orphaned"].contains type

def hasKey (value : Option Value) : Bool :=
  match value with
  | some (.str s) => Text.nonEmpty s
  | some (.num _) => true
  | _ => false

def hasPairCorrelationKey (event : AgentEvent) : Bool :=
  let data := eventData event.envelope
  if Text.startsWith event.type "session." then hasKey (data.field "sessionId")
  else if Text.startsWith event.type "workflow." then hasKey (data.field "workflowRunId")
  else if Text.startsWith event.type "handler." then
    hasKey (data.field "handlerRunId") || hasKey (data.field "workflowRunId") || hasKey (data.field "handler")
  else if Text.startsWith event.type "cli.task." then hasKey (data.field "taskId")
  else false

def pairTrackerFallback (event : AgentEvent) : Option DeliveryResult :=
  if isPairTrackedEvent event.type && hasPairCorrelationKey event then
    some ⟨"event-pair-tracker", some .direct, some "lifecycle event accepted by pair tracker", false⟩
  else none

/-- The acceptance of an event that asks for nothing but its record. -/
def recordOnlyDelivery : DeliveryResult :=
  ⟨"event-interface:record", some .noop, some "record-only event persisted; no responsible consumer required", false⟩

/-! ### The receipt -/

inductive DeliveryStatus where
  | pending | accepted | unhandled
  deriving DecidableEq

/-- The delivery columns of a row of `events`. -/
structure DeliveryRow where
  status : DeliveryStatus
  acceptedBy : Option String
  acceptedAt : Option Int
  route : Option DeliveryRoute
  note : Option String
  recordOnly : Bool
  timestamp : Int
  ttlMs : Option Int
  appAdmissionPending : Option Bool
  appAdmissionAttempts : Nat
  appAdmissionError : Option String
  deriving DecidableEq

def DEFAULT_UNACCEPTED_TTL_MS : Int := 2 * 60 * 1000

def UNROUTABLE_ADDRESS_MAX_ATTEMPTS : Nat := 3

namespace DeliveryRow

/-- A consumer took the event, as against a receipt for its storage. -/
def AcceptedDirectly (row : DeliveryRow) : Prop := row.status = .accepted ∧ row.route ≠ some .noop

def AcceptedNoop (row : DeliveryRow) : Prop := row.status = .accepted ∧ row.route = some .noop

instance (row : DeliveryRow) : Decidable row.AcceptedDirectly := inferInstanceAs (Decidable (_ ∧ _))

instance (row : DeliveryRow) : Decidable row.AcceptedNoop := inferInstanceAs (Decidable (_ ∧ _))

def inserted (recordOnly : Bool) (timestamp : Int) (ttlMs : Option Int) : DeliveryRow where
  status := .pending
  acceptedBy := none
  acceptedAt := none
  route := none
  note := none
  recordOnly := recordOnly
  timestamp := timestamp
  ttlMs := ttlMs
  appAdmissionPending := some true
  appAdmissionAttempts := 0
  appAdmissionError := none

/-- The failure branch of `recordDelivery`. -/
def recordFailure (row : DeliveryRow) (note : String) : DeliveryRow :=
  if row.status = .pending ∨ row.status = .unhandled ∨ row.AcceptedNoop then
    { row with
      status := if row.status = .accepted then .pending else row.status
      acceptedBy := none
      acceptedAt := none
      route := some .direct
      note := some note }
  else row

def Accepts (row : DeliveryRow) (route : DeliveryRoute) : Prop :=
  route ≠ .noop ∨ (row.status = .pending ∧ row.route ≠ some .direct) ∨ row.AcceptedNoop ∨
    (row.status = .unhandled ∧ row.route = none ∧ row.recordOnly = true)

instance (row : DeliveryRow) (route : DeliveryRoute) : Decidable (row.Accepts route) :=
  inferInstanceAs (Decidable (_ ∨ _))

/-- The acceptance branch of `recordDelivery`. -/
def recordAcceptance (row : DeliveryRow) (result : DeliveryResult) (now : Int) : DeliveryRow :=
  let route := result.route.getD .direct
  let row := if row.Accepts route then
      { row with
        status := .accepted
        acceptedBy := some result.by_
        acceptedAt := some now
        route := some route
        note := result.note }
    else row
  if result.appAdmission then { row with appAdmissionPending := some false } else row

def recordDelivery (row : DeliveryRow) (outcome : DeliveryOutcome) (now : Int) : DeliveryRow :=
  match outcome with
  | .failed note => row.recordFailure note
  | .accepted result => row.recordAcceptance result now

/-- The event half of `sweepUnacceptedEvents`; `planPending` if a pending admission plan of the event exists. -/
def sweepUnaccepted (row : DeliveryRow) (planPending : Bool) (now : Int) : DeliveryRow :=
  if row.status = .pending ∧ row.timestamp + row.ttlMs.getD DEFAULT_UNACCEPTED_TTL_MS < now ∧
      (row.appAdmissionPending.isSome ∨ planPending = true) then
    { row with
      status := .unhandled
      note := row.note.or (some "no responsible consumer accepted event before timeout") }
  else row

def recordUnroutableAddressAttempt (row : DeliveryRow) (diagnostic : String) : DeliveryRow :=
  if row.appAdmissionPending = some true then
    let attempts := row.appAdmissionAttempts + 1
    let error := "terminal App admission after " ++ toString attempts ++ " unroutable address attempts: " ++ diagnostic
    if UNROUTABLE_ADDRESS_MAX_ATTEMPTS ≤ attempts then
      let row := { row with
        appAdmissionAttempts := attempts
        appAdmissionError := some error
        appAdmissionPending := some false }
      if row.AcceptedDirectly then row else { row with status := .unhandled, note := some error }
    else { row with appAdmissionAttempts := attempts }
  else row

end DeliveryRow

/-! ### A delivery pass -/

structure DurableRoutes (ρ : Type*) where
  subscribers : List ρ
  label : ρ → Option String

structure RetryMarks where
  deduplicated : Bool := false
  redeliveryRequired : Bool := false
  appAdmissionRedeliveryRequired : Bool := false
  deriving DecidableEq

/-- What the application does in one pass: how each durable route ends, how each of the first and the normal
subscribers ends, and the time of the receipt. -/
structure PassCalls (ρ : Type*) where
  route : ρ → SubscriberCall
  ordinary : List SubscriberCall
  now : Int

/-- The marks that a keyed publication of an event with a row sets on it. -/
def DeliveryRow.retryMarks (row : DeliveryRow) : RetryMarks :=
  if row.appAdmissionPending = some true ∧ row.AcceptedDirectly then ⟨true, true, true⟩
  else ⟨true, decide (row.status = .pending ∨ row.status = .unhandled ∨ row.AcceptedNoop), false⟩

section Dispatch

variable {ρ : Type*} (routes : DurableRoutes ρ)

/-- The routes that a pass runs. -/
def DurableRoutes.selects (marks : RetryMarks) (durableRouteLabel : Option String) (route : ρ) : Bool :=
  (match durableRouteLabel with
    | some wanted => wanted == "" || routes.label route == some wanted
    | none => true) &&
  (!marks.appAdmissionRedeliveryRequired || routes.label route == some "app-inbox-route")

def DurableRoutes.selected (marks : RetryMarks) (durableRouteLabel : Option String) : List ρ :=
  routes.subscribers.filter (routes.selects marks durableRouteLabel)

/-- The outcome that `dispatch` records, if any. -/
def deliveryOutcome (event : AgentEvent) (recordOnly : Bool) (routeCalls ordinary : List SubscriberCall) :
    Option DeliveryOutcome :=
  let delivery := (routeCalls ++ ordinary).foldl (fun delivery call => preferredDelivery delivery call.delivery) none
  if routeCalls.any SubscriberCall.isThrown then
    some (.failed "A required durable route failed; see linked subscriber.failed evidence")
  else
    ((delivery.or (pairTrackerFallback event)).or (if recordOnly then some recordOnlyDelivery else none)).map .accepted

/-- `dispatch` of a persisted event. A thrown call leaves the delivery as it was. -/
def dispatch (event : AgentEvent) (marks : RetryMarks) (durableRouteLabel : Option String) (calls : PassCalls ρ)
    (row : DeliveryRow) : DeliveryRow :=
  if marks.deduplicated && !marks.redeliveryRequired then row
  else
    let routeCalls := (routes.selected marks durableRouteLabel).map calls.route
    let ordinary := if marks.redeliveryRequired then [] else calls.ordinary
    match deliveryOutcome event row.recordOnly routeCalls ordinary with
    | some outcome => row.recordDelivery outcome calls.now
    | none => row

end Dispatch

/-! ### The deliveries of one event -/

/-- The row of an event. `owed` is not in the source: the routes that threw in a pass before which no direct
acceptance was recorded, and that have not run without throwing since. -/
structure EventDelivery (ρ : Type*) where
  row : DeliveryRow
  owed : List ρ

/-- What happens to a persisted event. `fanout` is the pass of its first emission and that of a worker's event. -/
inductive DeliveryAction (ρ : Type*) where
  | fanout (calls : PassCalls ρ)
  | keyedEmit (calls : PassCalls ρ)
  | redeliver (durableRouteLabel : Option String) (calls : PassCalls ρ)
  | sweep (planPending : Bool) (now : Int)
  | unroutable (diagnostic : String)

namespace EventDelivery

variable {ρ : Type*} [DecidableEq ρ] (routes : DurableRoutes ρ) (event : AgentEvent)

def pass (s : EventDelivery ρ) (marks : RetryMarks) (durableRouteLabel : Option String) (calls : PassCalls ρ) :
    EventDelivery ρ :=
  let ran := if marks.deduplicated && !marks.redeliveryRequired then [] else routes.selected marks durableRouteLabel
  { row := dispatch routes event marks durableRouteLabel calls s.row
    owed := s.owed.filter (fun route => route ∉ ran ∨ (calls.route route).isThrown) ++
      if s.row.AcceptedDirectly then [] else ran.filter fun route => (calls.route route).isThrown }

def next (s : EventDelivery ρ) : DeliveryAction ρ → EventDelivery ρ
  | .fanout calls => s.pass routes event {} none calls
  | .keyedEmit calls => s.pass routes event s.row.retryMarks none calls
  | .redeliver durableRouteLabel calls => s.pass routes event ⟨true, true, false⟩ durableRouteLabel calls
  | .sweep planPending now => { s with row := s.row.sweepUnaccepted planPending now }
  | .unroutable diagnostic => { s with row := s.row.recordUnroutableAddressAttempt diagnostic }

def Initial (s : EventDelivery ρ) : Prop :=
  s.owed = [] ∧ ∃ recordOnly timestamp ttlMs, s.row = .inserted recordOnly timestamp ttlMs

def Reachable (ok : EventDelivery ρ → DeliveryAction ρ → Prop) (s : EventDelivery ρ) : Prop :=
  Reaches Initial (next routes event) ok s

end EventDelivery

end MayAgent
