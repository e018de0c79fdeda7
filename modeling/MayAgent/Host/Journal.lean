import MayAgent.Host.Routing

/-!
# The event journal and its replay

The row that `DbWriter` inserts for an event whose body fits inline, and the event that
`recoverTaskConditions` rebuilds from it after a crash. The payload of an event is a column of its own;
the rest of the envelope goes to columns the rebuilt event does not read. An event that the writer
itself completes before it inserts it is meant as completed.
-/

namespace MayAgent

def isCanonicalEventEnvelope (e : Event) : Bool :=
  nonEmptyText (e.field "source") && nonEmptyText (e.field "owner") && (e.record? "data").isSome

/-- `eventPayload` of the writer. -/
def eventPayload (e : Event) : Event :=
  if isCanonicalEventEnvelope e then (e.record? "data").getD [] else e.filter fun entry => entry.1 != "type"

/-- `eventSource` and `eventOwner` of the writer. -/
def eventParty (name : String) (e : Event) (fallback : Option Value) : Option String :=
  let party := if isCanonicalEventEnvelope e then e.field name else (eventPayload e).field name
  (party.bind Value.string?).or (fallback.bind Value.string?)

def eventSource : Event → Option Value → Option String := eventParty "source"

def eventOwner : Event → Option Value → Option String := eventParty "owner"

/-- A text or a number under one of several keys. -/
def stringField (payload : Event) (keys : List String) : Option String :=
  keys.findSome? fun key =>
    match payload.field key with
    | some (.str s) => if Text.nonEmpty s then some s else none
    | some (.num n) => some (toString n)
    | _ => none

def journalPayload (event : AgentEvent) : Event :=
  let payload := eventPayload event.envelope
  if event.type = "message.created" then
    ((payload.assign "intent" ((present (payload.field "intent")).getD .null)).assign "artifact"
      ((present (payload.field "artifact")).getD .null)).assign "priority"
      ((present (payload.field "priority")).getD (.str "P2"))
  else payload

/-- What an event of a session falls back to for its source and its owner. -/
def journalFallback (event : AgentEvent) : Option Value :=
  if ["session.start", "session.end", "session.idle"].contains event.type then
    (eventPayload event.envelope).field "agent"
  else none

/-- `{...base, ...overlay}`. -/
def Event.overlay (base overlay : Event) : Event := overlay.foldl (fun e entry => e.assign entry.1 entry.2) base

/-- The record in which `eventCorrelation` looks: a payload overlaid by the target. -/
def correlatedWith (event : AgentEvent) (payload : Event) : Event :=
  payload.overlay ((event.envelope.record? "target").getD [])

/-- The event on the bus after its row was inserted. -/
def AgentEvent.persisted (event : AgentEvent) (id : Int) : AgentEvent := { event with rowId := some id }

end MayAgent
