import MayAgent.Task.Data

/-!
# Trigger events

The pending input of a Task: the identity of an event, the batch a Task keeps for its next
attempt, the event shown as its trigger, and what a settled attempt consumes.
-/

namespace MayAgent

/-! ### Identity -/

/-- `Number(event.eventId)` when it is a positive safe integer. -/
def eventId? (e : Event) : Option Int :=
  (e.number? "eventId").filter fun n => isSafeInteger n && decide (0 < n)

/-- `taskEventIdentity`: the journal id, or the digest of the canonical event. -/
inductive EventIdentity where
  | event (id : Int)
  | legacy (event : Event)
  deriving DecidableEq

def taskEventIdentity (e : Event) : EventIdentity :=
  match eventId? e with
  | some id => .event id
  | none => .legacy e

/-- `sameEvent` of the Condition tracker. -/
def sameEvent (left right : Event) : Bool :=
  match eventId? left, eventId? right with
  | some l, some r => l == r
  | _, _ => decide (left = right)

/-- A clock wake: it requests the review it triggers and carries no input of its own. -/
def isTick (e : Event) : Bool := e.field "type" == some (.str "project.task.tick")

/-! ### Origin of an event -/

/-- `value ?? next`: an absent or `null` field. -/
def present (v : Option Value) : Option Value := v.filter (· != .null)

/-- `eventData`: the nested data record, or the event itself. -/
def eventData (e : Event) : Event := (e.record? "data").getD e

def triggerHasDirectProjectComment (e : Event) : Bool :=
  e.field "type" == some (.str "project.comment.created") || e.field "type" == some (.str "message.created")

def taskTriggerPriority (e : Event) (taskAgent : String) : Nat :=
  let data := (e.record? "data").getD []
  let params := ((e.record? "params").or (data.record? "params")).getD []
  let source := (((present (e.field "source")).or (present (data.field "source"))).map Value.text).getD ""
  let type := ((present (e.field "type")).map Value.text).getD ""
  let reason := ((((present (e.field "reason")).or (present (data.field "reason"))).or
    (present (params.field "reason"))).map Value.text).getD ""
  if triggerHasDirectProjectComment e then 4
  else if type == "project.approval.submitted" || source == "human" || source == "web-ui"
      || Text.startsWith source "telegram" || reason == "retry-candidate-verification" then 3
  else if source == "agent:" ++ taskAgent then 1
  else 2

def taskTriggerLane (e : Event) : Lane :=
  let request := (e.record? "data").bind fun data => Event.record? data "request"
  let requestSource := request.bind fun r => Event.record? r "source"
  if e.field "source" == some (.str "human")
      || (requestSource.bind fun r => Event.field r "kind") == some (.str "human") then .human
  else .normal

def eventAdmissionKey? (e : Event) : Option String :=
  if e.field "type" == some (.str "app.task.requested") then (eventData e).string? "idempotencyKey" else none

def taskInputAdmissionKeys (events : List TriggerEvent) (continued : List String) : List String :=
  (continued ++ events.filterMap fun entry => eventAdmissionKey? entry.event).eraseDups

/-! ### The pending batch -/

/-- `taskTriggerEvents`: the batch of a trigger, or the single event of an older one. -/
def taskTriggerEvents (t : Trigger) : List TriggerEvent :=
  if t.events.isEmpty then [⟨t.event, t.observedAt⟩] else t.events

def pendingTriggerEvents (t : Option Trigger) : List TriggerEvent :=
  match t with
  | some t => taskTriggerEvents t
  | none => []

def preferredTaskTrigger (previous incoming : Event) (taskAgent : String) : Event :=
  if triggerHasDirectProjectComment previous && !triggerHasDirectProjectComment incoming then previous
  else if taskTriggerPriority previous taskAgent ≤ taskTriggerPriority incoming taskAgent then incoming
  else previous

/-- `preferredTriggerFromEvents`. The source throws on an empty batch; no caller passes one. -/
def preferredTriggerFromEvents (events : List TriggerEvent) (taskAgent : String) : Event :=
  match events with
  | [] => []
  | first :: rest => rest.foldl (fun preferred entry => preferredTaskTrigger preferred entry.event taskAgent) first.event

def appendTaskTriggerEvent (events : List TriggerEvent) (e : Event) (observedAt : Int) : List TriggerEvent :=
  if events.any fun entry => taskEventIdentity entry.event == taskEventIdentity e then events
  else if isTick e then
    -- One latest clock wake is enough; everything else in the batch stays.
    let stale := match (events.filter fun entry => isTick entry.event).getLast? with
      | some previous =>
        match eventId? previous.event, eventId? e with
        | some previousId, some incomingId => decide (incomingId < previousId)
        | _, _ => false
      | none => false
    if stale then events else (events.filter fun entry => !isTick entry.event) ++ [⟨e, observedAt⟩]
  else events ++ [⟨e, observedAt⟩]

def appendTaskTriggerEvents (events : List TriggerEvent) (batch : List TriggerEvent) : List TriggerEvent :=
  batch.foldl (fun events entry => appendTaskTriggerEvent events entry.event entry.observedAt) events

/-! ### Attempts and their batch -/

def attemptInput (a : Attempt) : List TriggerEvent :=
  if a.events.isEmpty then
    match a.trigger with
    | some e => [⟨e, a.startedAt⟩]
    | none => []
  else a.events

def attemptTrigger (a : Attempt) : Option Event :=
  if a.events.isEmpty then a.trigger else some (preferredTriggerFromEvents a.events a.owner)

/-- `restoreAttemptEvents`: an attempt's input returns to the front of the pending batch. -/
def restoreAttemptEvents (r : Resource) (a : Attempt) (previous : Option Trigger) (observedAt : Int) :
    Option Trigger :=
  if (attemptInput a).isEmpty then previous
  else
    let combined := appendTaskTriggerEvents (attemptInput a) (pendingTriggerEvents previous)
    let owner := if a.owner != "" then a.owner else r.spec.owner.getD ""
    some {
      taskId := r.metadata.id
      taskGeneration := r.metadata.generation
      resourceVersion := (previous.map Trigger.resourceVersion).getD 0 + 1
      events := combined
      event := preferredTriggerFromEvents combined owner
      observedAt := observedAt }

/-- An event that `consumeSettledTaskEvents` keeps pending. -/
def survivesSettlement (acceptedLiveEventIds : List Int) (covered : List String) (entry : TriggerEvent) : Bool :=
  !isTick entry.event
    && !((eventAdmissionKey? entry.event).any fun key => covered.contains key)
    && !((entry.event.number? "eventId").any fun id => isSafeInteger id && acceptedLiveEventIds.contains id)

/-- `consumeSettledTaskEvents`: the pending trigger after an accepted result. -/
def consumeSettledTaskEvents (previous : Option Trigger) (agent : String) (acceptedLiveEventIds : List Int)
    (covered : List String) : Option Trigger :=
  match previous with
  | none => none
  | some t =>
    let pending := taskTriggerEvents t
    let remaining := pending.filter (survivesSettlement acceptedLiveEventIds covered)
    if remaining.length = pending.length then some t
    else
      match remaining.getLast? with
      | none => none
      | some last => some { t with
          resourceVersion := t.resourceVersion + 1
          events := remaining
          event := preferredTriggerFromEvents remaining agent
          observedAt := last.observedAt }

/-- The part of a worker's result that `acceptedAttemptResult` and `resultInputKeys` read. -/
structure ResultInput where
  summary : String
  response : Option String := none
  result : Option Event := none
  reviewAt : Option Int := none
  facts : Option (List String) := none
  acceptedLiveEventIds : List Int := []
  inputKeys : Option (List String) := none
  report : Bool := false

def incorporatedEventIds (trigger : Option Trigger) (acceptedIds : List Int) (covered : List String) : List Int :=
  ((pendingTriggerEvents trigger).filterMap fun entry =>
    (eventId? entry.event).filter fun id =>
      acceptedIds.contains id || (eventAdmissionKey? entry.event).any fun key => covered.contains key).eraseDups

def acceptedAttemptResult (trigger : Option Trigger) (state : ResultState) (input : ResultInput)
    (acceptanceBasis : AcceptanceBasis) : AcceptedResult where
  state := state
  summary := input.summary
  response := input.response
  result := input.result
  reviewAt := input.reviewAt
  facts := input.facts.getD []
  acceptanceBasis := some acceptanceBasis
  acceptedLiveEventIds := incorporatedEventIds trigger input.acceptedLiveEventIds (input.inputKeys.getD [])
  inputKeys := input.inputKeys

end MayAgent
