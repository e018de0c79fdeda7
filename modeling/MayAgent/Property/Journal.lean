import MayAgent.Lib.Select
import MayAgent.Host.Journal
import MayAgent.Property.Routing

/-!
# Replay against live delivery

The rebuilt event has the payload at its top, the live event keeps envelope, target and data apart. A
Condition is decided alike where it reads alike, and a reading that differs decides some Condition
differently. A human approval reads its proposal from the data, which the rebuilt event does not have.
-/

namespace MayAgent

def AgentEvent.live (event : AgentEvent) (id : Int) : Event := canonicalTaskEvent (event.persisted id)

def expectedNames (expected : Event) : List (List String) :=
  ((expected.string? "field").filter Text.nonEmpty).toList.map fieldAliases
    ++ expected.filterMap fun (field, value) =>
      if expectedFieldKeywords.contains field then none
      else if (field == "allowedDecisions" || field == "acceptedDecisions") && value.array?.isSome then some ["decision"]
      else some (fieldAliases field)

def reportNames : List (List String) :=
  [["id"], ["kind"], ["status"], ["reportKind"], ["state", "status"], ["source"], ["reportAttemptId"], ["taskId"],
    ["reportRevision"]]

def Condition.isRequest (c : Condition) : Bool :=
  c.spec.type == "app.dependency.updated" && Text.startsWith c.id "app-request:"

def Event.approval (e : Event) : Option (String × Event) :=
  (e.record? "data").bind (readVerifiedApprovalDecision (e.string? "source"))

def stateNames : List String := ["state", "status", "disposition", "result", "outcome"]

/-- The fields that decide a Condition, approvals apart. -/
def Condition.reads (c : Condition) : List (List String) :=
  ((typedSubject c.spec.subject).map fun subject => fieldAliases subject.1).toList
    ++ (match c.spec.expected with
      | .obj expected => expectedNames expected
      | _ => [stateNames])
    ++ if c.isRequest then reportNames else []

variable {ctx : Context} {lookup : AttemptLookup} {appId : String} {c : Condition} {e e' : Event}

variable {s : Store}

variable {type : String} {expected : Value} {since : Option Int}

section Rebuilt

variable (event : AgentEvent) (emittedBy : Option String) (id now : Int)

end Rebuilt

/-! ### What an event shows -/

/-- What the journal keeps of an event: of a canonical envelope the data, or all of it. -/
def AgentEvent.kept (event : AgentEvent) : Event :=
  if isCanonicalEventEnvelope event.envelope then eventData event.envelope else event.envelope

def AgentEvent.target (event : AgentEvent) : Event := (event.envelope.record? "target").getD []

/-- The first container with one of the names. -/
def readIn (containers : List Event) (names : List String) : Option Value :=
  containers.findSome? fun container => names.findSome? container.field

/-- The target and then the data show under these names what the kept part shows, with a target and data of its own. -/
def AgentEvent.Keeps (event : AgentEvent) (names : List String) : Prop :=
  readIn [event.target, eventData event.envelope] names = readIn (eventContainers event.kept) names

/-- A verified decision that stands in the data. -/
def AgentEvent.decision (event : AgentEvent) (data : Option Event) : Option (String × Event) :=
  data.bind (readVerifiedApprovalDecision (event.envelope.string? "source"))

section Shown

variable {event : AgentEvent} {emittedBy : Option String} {id now : Int}

variable {name : String} {names : List String}

end Shown

namespace Sample

end Sample

end MayAgent
