import MayAgent.Property.Emission

/-!
# Confirmation of a publication

`findPersistedEventId` takes the identity and the digest of an event as its producer authored it, the writer takes
them of the event it stores. The two agree on the events that the writer stores as they are. A message without its
defaults, an escalation without its resume data and an answer without its route are stored with them, and are not
found again.
-/

namespace MayAgent

/-! ### Events that are stored as they are -/

/-- The writer stores the payload of the event as it is, and adds no address. -/
structure AsAuthored (db : Ledger) (event : AgentEvent) : Prop where
  payload : persistedPayload (completeEvent db event) = eventPayload event.envelope
  rest : ((completeEvent db event).envelope.filter fun entry => entry.1 != "data") =
    event.envelope.filter fun entry => entry.1 != "data"
  canonical : isCanonicalEventEnvelope (completeEvent db event).envelope = isCanonicalEventEnvelope event.envelope

section AsAuthored

variable {db : Ledger} {event : AgentEvent} {p : Publication}

theorem completeEvent_of_not (h : isEscalationFeedback event.type = false) : completeEvent db event = event := by
  rw [completeEvent, if_neg (by simp [h])]

theorem completeEvent_of_feedback (db : Ledger) (h : isEscalationFeedback event.type = true) :
    completeEvent db event = addressFeedback event (feedbackTarget db event) := if_pos h

theorem not_created_of_feedback (h : isEscalationFeedback event.type = true) :
    event.type ≠ "escalation.created" ∧ event.type ≠ "message.created" := by
  constructor <;> intro heq <;> rw [heq] at h <;> revert h <;> decide

theorem persistedPayload_of_other (hescalation : event.type ≠ "escalation.created") (hmessage : event.type ≠ "message.created") :
    persistedPayload event = eventPayload event.envelope := by
  rw [persistedPayload, normalizePersistedEscalationPayload, if_neg hescalation, journalPayload, if_neg hmessage]

theorem persistedPayload_of_plain (hpersisted : isPersisted event = true)
    (hplain : isCanonicalEventEnvelope event.envelope = false) : persistedPayload event = eventPayload event.envelope := by
  refine persistedPayload_of_other ?_ ?_
  · intro htype
    rw [isPersisted, hplain, htype] at hpersisted
    revert hpersisted
    decide
  · intro htype
    rw [isPersisted, hplain, htype] at hpersisted
    revert hpersisted
    decide

theorem journalFallback_of_plain (hpersisted : isPersisted event = true)
    (hplain : isCanonicalEventEnvelope event.envelope = false) : journalFallback event = none := by
  rw [journalFallback, if_neg]
  intro hsession
  have hall : ∀ type ∈ ["session.start", "session.end", "session.idle"],
      (type == "metric.threshold_changed" || type == "metric.alert_resolved" || isEscalationFeedback type ||
        DURABLE_COMMAND_EVENTS.contains type || Text.startsWith type "trigger." || (Text.contains type '.' && false)) = false := by
    decide
  rw [isPersisted, hplain, hall event.type (by simpa using hsession)] at hpersisted
  cases hpersisted

theorem AsAuthored.field (h : AsAuthored db event) {name : String} (hname : name ≠ "data") :
    (completeEvent db event).envelope.field name = event.envelope.field name := by
  have hfields : Event.field ((completeEvent db event).envelope.filter fun entry => entry.1 != "data") name =
      Event.field (event.envelope.filter fun entry => entry.1 != "data") name := by rw [h.rest]
  rw [Event.field_filter (· != "data"), Event.field_filter (· != "data")] at hfields
  simpa [hname] using hfields

theorem AsAuthored.hash (h : AsAuthored db p.event) : (p.complete db).hash = p.authoredHash := by
  show hashOf (completeEvent db p.event) (persistedPayload (completeEvent db p.event)) p.interfaceInput = _
  rw [Publication.authoredHash, hashOf, hashOf, h.canonical, h.payload, type_completeEvent]
  split
  · have hsplit (e : Event) : (e.filter fun entry => isHashed p.interfaceInput entry.1) =
        (e.filter fun entry => entry.1 != "data").filter fun entry => isHashed p.interfaceInput entry.1 := by
      rw [List.filter_filter]
      refine List.filter_congr fun entry _ => ?_
      cases hdata : entry.1 != "data" <;> simp [isHashed, hdata]
    rw [hsplit, hsplit p.event.envelope, h.rest]
  · rfl

theorem AsAuthored.eventPayload_eq (h : AsAuthored db event) :
    eventPayload (completeEvent db event).envelope = eventPayload event.envelope := by
  cases hfeedback : isEscalationFeedback event.type with
  | false => rw [completeEvent_of_not hfeedback]
  | true =>
    obtain ⟨_, _⟩ := not_created_of_feedback hfeedback
    rw [← h.payload, persistedPayload_of_other] <;> rw [type_completeEvent] <;> assumption

theorem isPersisted_completeEvent (db : Ledger) (hpersisted : isPersisted event = true)
    (hcanonical : isCanonicalEventEnvelope (completeEvent db event).envelope = isCanonicalEventEnvelope event.envelope) :
    isPersisted (completeEvent db event) = true := by
  rw [isPersisted, hcanonical, type_completeEvent]
  exact hpersisted

theorem AsAuthored.eventParty_eq (h : AsAuthored db event) (hpersisted : isPersisted event = true) (name : String)
    (hname : name = "source" ∨ name = "owner") :
    eventParty name (completeEvent db event).envelope (journalFallback (completeEvent db event)) =
      eventParty name event.envelope none := by
  have hdata : name ≠ "data" := by rcases hname with rfl | rfl <;> decide
  rw [eventParty, eventParty, h.canonical]
  cases hcanonical : isCanonicalEventEnvelope event.envelope with
  | true =>
    have htext : nonEmptyText (event.envelope.field name) = true := by
      rw [isCanonicalEventEnvelope, Bool.and_eq_true, Bool.and_eq_true] at hcanonical
      rcases hname with rfl | rfl
      · exact hcanonical.1.1
      · exact hcanonical.1.2
    rw [if_pos rfl, if_pos rfl, h.field hdata]
    cases hfield : (event.envelope.field name).bind Value.string? with
    | none =>
      rw [nonEmptyText, hfield] at htext
      cases htext
    | some => rfl
  | false =>
    have hplain := h.canonical.trans hcanonical
    rw [if_neg Bool.false_ne_true, if_neg Bool.false_ne_true, h.eventPayload_eq,
      journalFallback_of_plain (isPersisted_completeEvent db hpersisted h.canonical) hplain]

theorem AsAuthored.identity (h : AsAuthored db p.event) (hpersisted : isPersisted p.event = true) (hfence : p.fence = none) :
    (p.complete db).identity = p.authoredIdentity := by
  have hsource := h.eventParty_eq hpersisted "source" (.inl rfl)
  have howner := h.eventParty_eq hpersisted "owner" (.inr rfl)
  have htarget : (completeEvent db p.event).envelope.record? "target" = p.event.envelope.record? "target" := by
    rw [Event.record?, Event.record?, h.field (by decide)]
  have hcorrelated : correlated (completeEvent db p.event) =
      correlatedWith p.event (eventPayload p.event.envelope) := by
    rw [correlated, correlatedWith, h.payload, htarget, correlatedWith]
  rw [Publication.identity, Publication.authoredIdentity, EventIdentityKey.mk.injEq]
  refine ⟨type_completeEvent db _, ?_, ?_, ?_⟩
  · rw [Publication.ingress, Publication.source]
    rw [show (p.complete db).event = completeEvent db p.event from rfl, eventSource, hsource]
    rfl
  · rw [Publication.scope, Publication.projectId, Publication.taskId, Publication.workflowRunId, Publication.sessionId,
      show (p.complete db).fence = none from hfence, show (p.complete db).event = completeEvent db p.event from rfl, hcorrelated,
      Publication.owner, show (p.complete db).event = completeEvent db p.event from rfl, eventOwner, howner]
  · rw [Publication.key, show (p.complete db).event = completeEvent db p.event from rfl, h.payload]

theorem key_complete (db : Ledger) (p : Publication) : (p.complete db).key = p.authoredIdentity.key := by
  show Text.trim ((Event.string? (persistedPayload (completeEvent db p.event)) "idempotencyKey").getD "") =
    Text.trim ((Event.string? (eventPayload p.event.envelope) "idempotencyKey").getD "")
  have hfield : (persistedPayload (completeEvent db p.event)).field "idempotencyKey" =
      (eventPayload p.event.envelope).field "idempotencyKey" := by
    cases hfeedback : isEscalationFeedback p.event.type with
    | false => rw [completeEvent_of_not hfeedback, persistedPayload_key]
    | true =>
      rw [completeEvent_of_feedback db hfeedback, persistedPayload_addressFeedback hfeedback, canonical_addressFeedback]
      split
      case isTrue => rw [Event.field_assign, if_neg (by decide)]
      case isFalse hplain =>
        have hcanonical : isCanonicalEventEnvelope p.event.envelope = false := by
          rw [isCanonicalEventEnvelope, Bool.eq_false_iff.mpr hplain, Bool.false_and]
        rw [eventPayload, hcanonical, if_neg Bool.false_ne_true, Event.field_filter (· != "type"),
          Event.field_filter (· != "type"), field_addressFeedback]
        simp
  rw [Event.string?, Event.string?, hfield]

/-! ### Digests tell what was stored -/

theorem field_payload_of_plain {name : String} (hplain : isCanonicalEventEnvelope event.envelope = false) (hname : name ≠ "type") :
    (eventPayload event.envelope).field name = event.envelope.field name := by
  rw [eventPayload, hplain, if_neg Bool.false_ne_true, Event.field_filter (· != "type")]
  simp [hname]

theorem field_hashOf_of_plain (payload : Event) (interfaceInput : Bool) (hplain : isCanonicalEventEnvelope event.envelope = false) :
    (hashOf event payload interfaceInput).field "data" = some (.obj (payload.filter fun entry => entry.1 != "timestamp")) ∧
      (hashOf event payload interfaceInput).field "idempotencyKey" = none := by
  rw [hashOf, hplain, if_neg Bool.false_ne_true]
  simp [Event.field_cons]
  rfl

theorem field_hashOf_of_canonical (payload : Event) (interfaceInput : Bool)
    (hcanonical : isCanonicalEventEnvelope event.envelope = true) :
    (hashOf event payload interfaceInput).field "data" = some (.obj payload) ∧
      (hashOf event payload interfaceInput).field "idempotencyKey" = event.envelope.field "idempotencyKey" ∧
      ((hashOf event payload interfaceInput).filter fun entry => entry.1 != "data") =
        event.envelope.filter fun entry => isHashed interfaceInput entry.1 := by
  refine ⟨?_, field_hashOf hcanonical (by simp [isHashed]), ?_⟩
  · rw [hashOf, hcanonical, if_pos rfl, Event.field_assign, if_pos rfl]
  · rw [hashOf, hcanonical, if_pos rfl, Event.filter_assign_of_not (by simp), List.filter_filter]
    refine List.filter_congr fun entry _ => ?_
    cases hdata : entry.1 != "data" <;> simp [isHashed, hdata]

theorem rest_addressFeedback {target : Option (String × String)} {keep : String × Value → Bool}
    (hdata : ∀ w, keep ("data", w) = false) (htarget : ∀ w, keep ("target", w) = true)
    (h : (addressFeedback event target).envelope.filter keep = event.envelope.filter keep) :
    ((addressFeedback event target).envelope.filter fun entry => entry.1 != "data") =
      event.envelope.filter fun entry => entry.1 != "data" := by
  cases target with
  | none => exact Event.filter_assign_of_not (by simp) event.envelope
  | some target =>
    have hsame : (event.envelope.assign "target" (targetValue target)).filter keep = event.envelope.filter keep := by
      rw [← h]
      exact (Event.filter_assign_of_not hdata _).symm
    have hunchanged := Event.assign_eq_of_filter htarget hsame
    show ((event.envelope.assign "target" (targetValue target)).assign "data" _).filter _ = _
    rw [hunchanged]
    exact Event.filter_assign_of_not (by simp) event.envelope

theorem asAuthored_of_hash (hpersisted : isPersisted p.event = true) (hkey : p.authoredIdentity.key ≠ "")
    (h : (p.complete db).hash = p.authoredHash) : AsAuthored db p.event := by
  have hhash : hashOf (completeEvent db p.event) (persistedPayload (completeEvent db p.event)) p.interfaceInput =
      hashOf p.event (eventPayload p.event.envelope) p.interfaceInput := h
  cases hfeedback : isEscalationFeedback p.event.type with
  | false =>
    rw [completeEvent_of_not hfeedback] at hhash
    have hcomplete : completeEvent db p.event = p.event := completeEvent_of_not hfeedback
    refine ⟨?_, by rw [hcomplete], by rw [hcomplete]⟩
    rw [hcomplete]
    cases hcanonical : isCanonicalEventEnvelope p.event.envelope with
    | true =>
      rw [hashOf, hashOf, hcanonical, if_pos rfl, if_pos rfl] at hhash
      have hdata := congrArg (fun e => Event.field e "data") hhash
      simpa [Event.field_assign] using hdata
    | false => exact persistedPayload_of_plain hpersisted hcanonical
  | true =>
    have hcomplete := completeEvent_of_feedback db hfeedback
    cases hparties : nonEmptyText (p.event.envelope.field "source") && nonEmptyText (p.event.envelope.field "owner") with
    | true =>
      have hcanonical' : isCanonicalEventEnvelope (completeEvent db p.event).envelope = true := by
        rw [hcomplete, canonical_addressFeedback, hparties]
      cases hcanonical : isCanonicalEventEnvelope p.event.envelope with
      | true =>
        obtain ⟨hdata', -, hrest'⟩ := field_hashOf_of_canonical (persistedPayload (completeEvent db p.event))
          p.interfaceInput hcanonical'
        obtain ⟨hdata, -, hrest⟩ := field_hashOf_of_canonical (eventPayload p.event.envelope) p.interfaceInput hcanonical
        rw [hhash] at hdata' hrest'
        refine ⟨?_, ?_, hcanonical'.trans hcanonical.symm⟩
        · have := hdata'.symm.trans hdata
          simpa using this
        · have hsame := hrest'.symm.trans hrest
          rw [hcomplete] at hsame ⊢
          exact rest_addressFeedback (by simp [isHashed]) (by simp [isHashed]) hsame
      | false =>
        -- The key stands in the digest of a canonical event only.
        exfalso
        have hnone := (field_hashOf_of_plain (eventPayload p.event.envelope) p.interfaceInput hcanonical).2
        rw [← hhash, (field_hashOf_of_canonical _ _ hcanonical').2.1, field_completeEvent db _ (by decide) (by decide),
          ← field_payload_of_plain hcanonical (by decide)] at hnone
        apply hkey
        show Text.trim ((Event.string? (eventPayload p.event.envelope) "idempotencyKey").getD "") = ""
        rw [Event.string?, hnone]
        rfl
    | false =>
      -- The record would be a part of itself.
      exfalso
      have hplain' : isCanonicalEventEnvelope (completeEvent db p.event).envelope = false := by
        rw [hcomplete, canonical_addressFeedback, hparties]
      have hplain : isCanonicalEventEnvelope p.event.envelope = false := by
        rw [isCanonicalEventEnvelope, hparties, Bool.false_and]
      have hdata := (field_hashOf_of_plain (eventPayload p.event.envelope) p.interfaceInput hplain).1
      rw [← hhash, (field_hashOf_of_plain _ _ hplain').1] at hdata
      have hsame : ((persistedPayload (completeEvent db p.event)).filter fun entry => entry.1 != "timestamp") =
          (eventPayload p.event.envelope).filter fun entry => entry.1 != "timestamp" := by simpa using hdata
      have hfields : Event.field ((persistedPayload (completeEvent db p.event)).filter fun entry => entry.1 != "timestamp") "data" =
          Event.field ((eventPayload p.event.envelope).filter fun entry => entry.1 != "timestamp") "data" := by rw [hsame]
      obtain ⟨_, _⟩ := not_created_of_feedback hfeedback
      have hstored : persistedPayload (completeEvent db p.event) = eventPayload (completeEvent db p.event).envelope := by
        refine persistedPayload_of_other ?_ ?_ <;> rw [type_completeEvent] <;> assumption
      rw [Event.field_filter (· != "timestamp"), Event.field_filter (· != "timestamp"), if_pos (by decide), if_pos (by decide),
        hstored, field_payload_of_plain hplain' (by decide), hcomplete, field_addressFeedback, if_pos rfl] at hfields
      refine Event.field_ne_self ((eventPayload p.event.envelope).assign "feedbackRoute"
        (feedbackRoute (feedbackTarget db p.event))) "data" ?_
      rw [Event.field_assign, if_neg (by decide)]
      exact hfields.symm

end AsAuthored

/-! ### Events with nothing left to add -/

def Event.Has (e : Event) (name : String) (v : Value) : Prop := e.assign name v = e

def HasDefaults (payload : Event) : Prop :=
  payload.Has "intent" ((present (payload.field "intent")).getD .null) ∧
    payload.Has "artifact" ((present (payload.field "artifact")).getD .null) ∧
    payload.Has "priority" ((present (payload.field "priority")).getD (.str "P2"))

/-- An escalation that states the condition to resume on, also in its record of how to resume, or has none. -/
def HasResume (payload : Event) : Prop :=
  ∀ condition, firstEscalationResumeCondition payload = some condition →
    payload.Has "resumeCondition" (.str condition) ∧
      match payload.record? "resume" with
      | some resume =>
        ((textValue (Event.field resume "condition")).isSome || (textValue (Event.field resume "resumeCondition")).isSome) = true
      | none => textValue (payload.field "sourceSessionId") = none

/-- An answer in an envelope that states its route and the Task it goes to. -/
structure HasRoute (db : Ledger) (event : AgentEvent) : Prop where
  canonical : isCanonicalEventEnvelope event.envelope = true
  route : (eventPayload event.envelope).Has "feedbackRoute" (feedbackRoute (feedbackTarget db event))
  target : ∀ target, feedbackTarget db event = some target → event.envelope.Has "target" (targetValue target)

/-- The event states all that the writer would add. -/
structure FullyAuthored (db : Ledger) (event : AgentEvent) : Prop where
  message : event.type = "message.created" → HasDefaults (eventPayload event.envelope)
  escalation : event.type = "escalation.created" → HasResume (eventPayload event.envelope)
  answer : isEscalationFeedback event.type = true → HasRoute db event

section FullyAuthored

variable {db : Ledger} {event : AgentEvent} {payload : Event} {name : String} {v : Value}

theorem Event.has_of_eq {e : Event} (h : e = payload)
    (hsame : e.filter (fun entry => entry.1 == name) = (payload.assign name v).filter fun entry => entry.1 == name) :
    payload.Has name v :=
  Event.assign_eq_of_filter (by simp) (hsame.symm.trans (by rw [h]))

theorem filter_assign_ne {other : String} (hne : name ≠ other) :
    (payload.assign name v).filter (fun entry => entry.1 == other) = payload.filter fun entry => entry.1 == other :=
  Event.filter_assign_of_not (by simpa using hne) payload

theorem hasDefaults_iff (htype : event.type = "message.created") :
    persistedPayload event = eventPayload event.envelope ↔ HasDefaults (eventPayload event.envelope) := by
  rw [persistedPayload, normalizePersistedEscalationPayload, if_neg (by rw [htype]; decide), journalPayload, if_pos htype]
  constructor
  · intro h
    have hintent : (eventPayload event.envelope).Has "intent" _ :=
      Event.has_of_eq h (by rw [filter_assign_ne (by decide), filter_assign_ne (by decide)])
    rw [hintent] at h
    have hartifact : (eventPayload event.envelope).Has "artifact" _ :=
      Event.has_of_eq h (by rw [filter_assign_ne (by decide)])
    rw [hartifact] at h
    exact ⟨hintent, hartifact, h⟩
  · rintro ⟨hintent, hartifact, hpriority⟩
    rw [hintent, hartifact, hpriority]

theorem textValue_of_resumeCondition {condition : String} (h : firstEscalationResumeCondition payload = some condition) :
    textValue (some (.str condition)) = some condition := by
  obtain ⟨field, -, hfield⟩ := List.exists_of_findSome?_eq_some h
  rw [textValue] at hfield
  cases htext : field.bind Value.string? with
  | none =>
    rw [htext] at hfield
    cases hfield
  | some =>
    rw [htext, Text.trimmed?.eq_def] at hfield
    dsimp only at hfield
    split at hfield
    case isTrue hnonempty =>
      cases hfield
      simpa [textValue, Text.trimmed?, Value.string?, Text.nonEmpty, Text.trim_trim] using hnonempty
    case isFalse => cases hfield

theorem hasResume_iff (htype : event.type = "escalation.created") :
    persistedPayload event = eventPayload event.envelope ↔ HasResume (eventPayload event.envelope) := by
  rw [persistedPayload, journalPayload, if_neg (by rw [htype]; decide)]
  generalize eventPayload event.envelope = payload
  rw [normalizePersistedEscalationPayload, if_pos htype, HasResume]
  cases hcondition : firstEscalationResumeCondition payload with
  | none => simp
  | some condition =>
    have htext := textValue_of_resumeCondition hcondition
    dsimp only
    have hresume : (payload.assign "resumeCondition" (.str condition)).record? "resume" = payload.record? "resume" := by
      rw [Event.record?, Event.record?, Event.field_assign, if_neg (by decide)]
    have hsession : (payload.assign "resumeCondition" (.str condition)).field "sourceSessionId" =
        payload.field "sourceSessionId" := by rw [Event.field_assign, if_neg (by decide)]
    rw [hresume, hsession]
    have hafter {w : Value} (h : (payload.assign "resumeCondition" (.str condition)).assign "resume" w = payload) :
        payload.record? "resume" = w.record? := by
      rw [← h, Event.record?, Event.field_assign, if_pos rfl]
      rfl
    simp only [Option.some.injEq, forall_eq']
    cases hrecord : payload.record? "resume" with
    | none =>
      cases hsource : textValue (payload.field "sourceSessionId") with
      | none => simp [Event.Has]
      | some =>
        refine ⟨fun h => ?_, fun h => by simp at h⟩
        have := hafter h
        rw [hrecord] at this
        cases this
    | some resume =>
      dsimp only
      split
      case isTrue hstated => simp [Event.Has, hstated]
      case isFalse hunstated =>
        refine ⟨fun h => absurd ?_ hunstated, fun h => absurd h.2 hunstated⟩
        have hsame := hafter h
        rw [hrecord] at hsame
        have hstates : resume = Event.assign "condition" (.str condition) resume := by simpa [Value.record?] using hsame
        rw [hstates, Event.field_assign, if_pos rfl, htext]
        rfl

theorem hasRoute_of_asAuthored (hfeedback : isEscalationFeedback event.type = true) (h : AsAuthored db event) :
    HasRoute db event := by
  have hpayload := h.payload
  have hcanonical := h.canonical
  have hrest := h.rest
  rw [completeEvent_of_feedback db hfeedback] at hpayload hcanonical hrest
  rw [persistedPayload_addressFeedback hfeedback, hcanonical] at hpayload
  cases henvelope : isCanonicalEventEnvelope event.envelope with
  | true =>
    rw [henvelope, if_pos rfl] at hpayload
    refine ⟨henvelope, hpayload, fun target htarget => ?_⟩
    rw [htarget] at hrest
    have hsame : (event.envelope.assign "target" (targetValue target)).filter (fun entry => entry.1 != "data") =
        event.envelope.filter fun entry => entry.1 != "data" := by
      rw [← hrest]
      exact (Event.filter_assign_of_not (by simp) _).symm
    exact Event.assign_eq_of_filter (by simp) hsame
  | false =>
    -- The record would be a part of itself.
    exfalso
    rw [henvelope, if_neg Bool.false_ne_true] at hpayload
    have hfields := congrArg (fun e => Event.field e "data") hpayload
    rw [Event.field_filter (· != "type"), if_pos (by decide), field_addressFeedback, if_pos rfl] at hfields
    refine Event.field_ne_self ((eventPayload event.envelope).assign "feedbackRoute" (feedbackRoute (feedbackTarget db event)))
      "data" ?_
    rw [Event.field_assign, if_neg (by decide)]
    exact hfields.symm

theorem HasRoute.asAuthored (hfeedback : isEscalationFeedback event.type = true) (h : HasRoute db event) :
    AsAuthored db event := by
  have hparties : (nonEmptyText (event.envelope.field "source") && nonEmptyText (event.envelope.field "owner")) = true := by
    have hcanonical := h.canonical
    rw [isCanonicalEventEnvelope, Bool.and_eq_true] at hcanonical
    exact hcanonical.1
  refine ⟨?_, ?_, ?_⟩ <;> rw [completeEvent_of_feedback db hfeedback]
  · rw [persistedPayload_addressFeedback hfeedback, canonical_addressFeedback, hparties, if_pos rfl]
    exact h.route
  · cases htarget : feedbackTarget db event with
    | none => exact Event.filter_assign_of_not (by simp) _
    | some target =>
      show ((event.envelope.assign "target" (targetValue target)).assign "data" _).filter _ = _
      rw [h.target target htarget]
      exact Event.filter_assign_of_not (by simp) _
  · rw [canonical_addressFeedback, hparties, h.canonical]

theorem asAuthored_iff : AsAuthored db event ↔ FullyAuthored db event := by
  cases hfeedback : isEscalationFeedback event.type with
  | true =>
    obtain ⟨hescalation, hmessage⟩ := not_created_of_feedback hfeedback
    refine ⟨fun h => ⟨fun htype => absurd htype hmessage, fun htype => absurd htype hescalation, fun _ =>
      hasRoute_of_asAuthored hfeedback h⟩, fun h => (h.answer hfeedback).asAuthored hfeedback⟩
  | false =>
    have hcomplete : completeEvent db event = event := completeEvent_of_not hfeedback
    have hpayload : AsAuthored db event ↔ persistedPayload event = eventPayload event.envelope := by
      refine ⟨fun h => by rw [← h.payload, hcomplete], fun h => ⟨by rw [hcomplete, h], by rw [hcomplete], by rw [hcomplete]⟩⟩
    rw [hpayload]
    constructor
    · intro h
      exact ⟨fun htype => (hasDefaults_iff htype).mp h, fun htype => (hasResume_iff htype).mp h, by simp [hfeedback]⟩
    · intro h
      by_cases hmessage : event.type = "message.created"
      · exact (hasDefaults_iff hmessage).mpr (h.message hmessage)
      · by_cases hescalation : event.type = "escalation.created"
        · exact (hasResume_iff hescalation).mpr (h.escalation hescalation)
        · exact persistedPayload_of_other hescalation hmessage

end FullyAuthored

/-! ### Rows -/

section Rows

variable {db₀ db₁ db : Ledger} {p : Publication}

theorem row_of_publish {now : Int} {projection : Option String} {r : Receipt} (hkey : p.authoredIdentity.key ≠ "")
    (hpublish : publish db₀ p now projection = .ok (db₁, some r)) :
    isPersisted p.event = true ∧ ∃ row ∈ db₁.rows, row.id = r.eventId ∧ row.identity = some (p.complete db₀).identity ∧
      row.idempotencyHash = some (p.complete db₀).hash := by
  have hkey' : (p.complete db₀).key ≠ "" := by rwa [key_complete]
  rcases publish_ok hpublish with ⟨-, -, hnone⟩ | ⟨_, hreceipt, hpersisted, hinsert⟩
  · cases hnone
  cases hreceipt
  refine ⟨hpersisted, ?_⟩
  rcases insertKeyed_ok hinsert with ⟨row, -, hfound, hhash, rfl, rfl⟩ | ⟨-, hinserted⟩
  · exact ⟨row, List.mem_of_find?_eq_some hfound, rfl, by simpa using List.find?_some hfound, hhash⟩
  · obtain ⟨hrows, rfl, -⟩ := insertPublication_ok hinserted
    refine ⟨(p.complete db₀).row db₀.nextId now, by simp [hrows], rfl, identity_row hkey' _ _, ?_⟩
    simp [Publication.row, hkey']

theorem findPersistedEventId_eq_some {id : Nat} (h : findPersistedEventId db p = some id) :
    p.authoredIdentity.key ≠ "" ∧ ∃ row ∈ db.rows, row.id = id ∧ row.identity = some p.authoredIdentity ∧
      row.idempotencyHash = some p.authoredHash := by
  rw [findPersistedEventId] at h
  split at h
  · cases h
  case isFalse hkey =>
    obtain ⟨row, hfound, rfl⟩ := Option.map_eq_some_iff.mp h
    have hrow := List.find?_some hfound
    simp only [Bool.and_eq_true, beq_iff_eq] at hrow
    exact ⟨hkey, row, List.mem_of_find?_eq_some hfound, rfl, hrow⟩

theorem findPersistedEventId_of_row (hdb : db.Indexed) (hkey : p.authoredIdentity.key ≠ "") {row : LedgerRow} (hmem : row ∈ db.rows)
    (hidentity : row.identity = some p.authoredIdentity) (hhash : row.idempotencyHash = some p.authoredHash) :
    findPersistedEventId db p = some row.id := by
  have hsome : (db.rows.find? fun row => row.identity == some p.authoredIdentity &&
      row.idempotencyHash == some p.authoredHash).isSome = true :=
    List.find?_isSome.mpr ⟨row, hmem, by simp [hidentity, hhash]⟩
  obtain ⟨found, hfound⟩ := Option.isSome_iff_exists.mp hsome
  have hrow := List.find?_some hfound
  simp only [Bool.and_eq_true, beq_iff_eq] at hrow
  have hsame : db.findKeyed p.authoredIdentity = some found :=
    hdb.findKeyed_eq (List.mem_of_find?_eq_some hfound) hrow.1
  rw [hdb.findKeyed_eq hmem hidentity] at hsame
  rw [findPersistedEventId, if_neg hkey, hfound, Option.some.inj hsame]
  rfl

/-- A confirmation returns the row of a publication, and so does publishing it again, exactly if the writer stores the event
as it is, then and now. -/
theorem confirmation_iff {ok : Ledger → LedgerAction → Prop} {now₀ : Int} {projection₀ : Option String} {r : Receipt}
    (hdb : Ledger.Reachable ok db₀) (hfence : p.fence = none) (hkey : p.authoredIdentity.key ≠ "")
    (hpublish : publish db₀ p now₀ projection₀ = .ok (db₁, some r)) (hlater : db₁.Later db) :
    (findPersistedEventId db p = some r.eventId ∧
        ∀ now projection, publish db p now projection = .ok (db, some ⟨r.eventId, true⟩)) ↔
      FullyAuthored db₀ p.event ∧ FullyAuthored db p.event := by
  rw [← asAuthored_iff, ← asAuthored_iff]
  obtain ⟨hpersisted, row, hmem, hid, hidentity, hhash⟩ := row_of_publish hkey hpublish
  have hindexed : db.Indexed := hlater.indexed (hdb.indexed.publish hpublish)
  have hmem := hlater.rows.subset hmem
  constructor
  · rintro ⟨hfind, hagain⟩
    obtain ⟨-, found, hfound, hfoundid, -, hfoundhash⟩ := findPersistedEventId_eq_some hfind
    obtain rfl : found = row := hindexed.eq_of_id hfound hmem (hfoundid.trans hid.symm)
    have hauthored := Option.some.inj (hhash.symm.trans hfoundhash)
    refine ⟨asAuthored_of_hash hpersisted hkey hauthored, ?_⟩
    obtain ⟨-, row', hmem', hid', -, hhash'⟩ := row_of_publish hkey (hagain 0 none)
    obtain rfl : row' = found := hindexed.eq_of_id hmem' hmem (hid'.trans hid.symm)
    exact asAuthored_of_hash hpersisted hkey (Option.some.inj (hhash'.symm.trans hfoundhash))
  · rintro ⟨hthen, hnow⟩
    rw [hthen.identity hpersisted hfence] at hidentity
    rw [hthen.hash] at hhash
    refine ⟨hid ▸ findPersistedEventId_of_row hindexed hkey hmem hidentity hhash, fun now projection => ?_⟩
    have hfound : db.findKeyed (p.complete db).identity = some row := by
      rw [hnow.identity hpersisted hfence]
      exact hindexed.findKeyed_eq hmem hidentity
    rw [publish_found hpersisted (by rwa [key_complete]) hfound, hnow.hash, if_pos hhash, hid]

end Rows

/-! ### Runs with their publications -/

/-- The tables, with the publications that were answered and the rows they were answered with. -/
structure Journaled where
  db : Ledger
  answered : List (Publication × Nat) := []

namespace Journaled

def next (s : Journaled) (a : LedgerAction) : Journaled where
  db := s.db.next a
  answered :=
    match a with
    | .publish p now projection =>
      match publish s.db p now projection with
      | .ok (_, some r) => (p, r.eventId) :: s.answered
      | _ => s.answered
    | _ => s.answered

/-- The states reached from a new database by actions that meet `ok`. -/
def Reachable (ok : Ledger → LedgerAction → Prop) (s : Journaled) : Prop :=
  Reaches (· = { db := Ledger.empty }) next (fun s => ok s.db) s

variable {ok : Ledger → LedgerAction → Prop} {s : Journaled} {p q : Publication} {id : Nat}

theorem answered_mono (a : LedgerAction) (h : (q, id) ∈ s.answered) : (q, id) ∈ (s.next a).answered := by
  cases a with
  | publish p now projection =>
    show (q, id) ∈ match publish s.db p now projection with
      | .ok (_, some r) => (p, r.eventId) :: s.answered
      | _ => s.answered
    split
    · exact List.mem_cons_of_mem _ h
    · exact h
  | record | sweepPairs => exact h

theorem rows_next (a : LedgerAction) {row : LedgerRow} (h : row ∈ (s.next a).db.rows) :
    row ∈ s.db.rows ∨ ∃ q now projection, a = .publish q now projection ∧ isPersisted q.event = true ∧
      row = (q.complete s.db).row s.db.nextId now ∧ (q, row.id) ∈ (s.next a).answered := by
  cases a with
  | record | sweepPairs => exact .inl h
  | publish q now projection =>
    cases hpublish : publish s.db q now projection with
    | error =>
      refine .inl ?_
      simpa [next, Ledger.next, hpublish] using h
    | ok result =>
      obtain ⟨db', r⟩ := result
      have hmem : row ∈ db'.rows := by simpa [next, Ledger.next, hpublish] using h
      rcases publish_ok hpublish with ⟨-, rfl, -⟩ | ⟨_, rfl, hpersisted, hinsert⟩
      · exact .inl hmem
      rcases insertKeyed_ok hinsert with ⟨-, -, -, -, rfl, -⟩ | ⟨-, hinserted⟩
      · exact .inl hmem
      obtain ⟨hrows, rfl, -⟩ := insertPublication_ok hinserted
      rw [hrows, List.mem_append, List.mem_singleton] at hmem
      refine hmem.imp_right fun hrow => ⟨q, now, projection, rfl, hpersisted, hrow, ?_⟩
      simp [next, hpublish, hrow, Publication.row]

end Journaled

/-- An event of the type and under the key of `p` is published with nothing left to add. -/
def KeepsAuthored (p : Publication) (db : Ledger) (a : LedgerAction) : Prop :=
  ∀ q now projection, a = .publish q now projection → q.event.type = p.event.type →
    q.authoredIdentity.key = p.authoredIdentity.key → FullyAuthored db q.event

/-- The publication was answered with the row, and has the content of `p`. -/
structure Journaled.Backs (s : Journaled) (p q : Publication) (id : Nat) : Prop where
  answered : (q, id) ∈ s.answered
  type : q.event.type = p.event.type
  content : q.authoredHash = p.authoredHash
  identity : q.fence = none → q.authoredIdentity = p.authoredIdentity

theorem Journaled.Reachable.row_backed {s : Journaled} {p : Publication} (hs : s.Reachable (KeepsAuthored p)) :
    ∀ row ∈ s.db.rows, row.eventType = p.event.type → row.idempotencyKey = some p.authoredIdentity.key →
      ∃ q, (q, row.id) ∈ s.answered ∧ q.event.type = p.event.type ∧ row.idempotencyHash = some q.authoredHash ∧
        (q.fence = none → row.identity = some q.authoredIdentity) := by
  refine Reaches.invariant (I := fun s : Journaled => ∀ row ∈ s.db.rows, row.eventType = p.event.type →
    row.idempotencyKey = some p.authoredIdentity.key → ∃ q, (q, row.id) ∈ s.answered ∧ q.event.type = p.event.type ∧
      row.idempotencyHash = some q.authoredHash ∧ (q.fence = none → row.identity = some q.authoredIdentity)) ?_ ?_ hs
  · rintro s rfl row hrow
    exact absurd hrow List.not_mem_nil
  · intro s a ih hok row hrow htype hkey
    rcases rows_next a hrow with hold | ⟨q, now, projection, rfl, hpersisted, rfl, hanswered⟩
    · obtain ⟨q, hanswered, hrest⟩ := ih row hold htype hkey
      exact ⟨q, answered_mono a hanswered, hrest⟩
    · have htype : q.event.type = p.event.type := by
        rw [← htype]
        exact (type_completeEvent s.db q.event).symm
      have hnonempty : (q.complete s.db).key ≠ "" := by
        intro hempty
        simp [Publication.row, hempty] at hkey
      have hkey : q.authoredIdentity.key = p.authoredIdentity.key := by
        rw [← key_complete s.db q]
        simpa [Publication.row, hnonempty] using hkey
      have hauthored := asAuthored_iff.mpr (hok q now projection rfl htype hkey)
      refine ⟨q, hanswered, htype, ?_, fun hfence => ?_⟩
      · simp [Publication.row, hnonempty, hauthored.hash]
      · rw [identity_row hnonempty, hauthored.identity hpersisted hfence]

theorem Journaled.Reachable.backed {s : Journaled} {p : Publication} {id : Nat} (hs : s.Reachable (KeepsAuthored p))
    (hfind : findPersistedEventId s.db p = some id) : ∃ q, s.Backs p q id := by
  obtain ⟨-, row, hmem, rfl, hidentity, hhash⟩ := findPersistedEventId_eq_some hfind
  obtain ⟨_, hkey, hparts⟩ := Option.map_eq_some_iff.mp hidentity
  have htype : row.eventType = p.event.type := congrArg EventIdentityKey.eventType hparts
  have hkey : row.idempotencyKey = some p.authoredIdentity.key := hkey.trans (congrArg some (congrArg EventIdentityKey.key hparts))
  obtain ⟨q, hanswered, hqtype, hqhash, hqidentity⟩ := hs.row_backed row hmem htype hkey
  exact ⟨q, hanswered, hqtype, Option.some.inj (hqhash.symm.trans hhash), fun hfence =>
    Option.some.inj ((hqidentity hfence).symm.trans hidentity)⟩

/-- Once a keyed event has a row, its confirmation and publishing it again both return the row at a later time, exactly if
the event states all that the writer would add. Where the events of its type under its key all do, a confirmation
returns only a row that was answered to a publication with the same content. -/
theorem confirmation_agrees (p : Publication) :
    (∀ (ok : Ledger → LedgerAction → Prop) (db₀ db₁ db : Ledger) (now₀ : Int) (projection₀ : Option String) (r : Receipt),
      Ledger.Reachable ok db₀ → p.fence = none → p.authoredIdentity.key ≠ "" →
      publish db₀ p now₀ projection₀ = .ok (db₁, some r) → db₁.Later db →
      ((findPersistedEventId db p = some r.eventId ∧
          ∀ now projection, publish db p now projection = .ok (db, some ⟨r.eventId, true⟩)) ↔
        FullyAuthored db₀ p.event ∧ FullyAuthored db p.event)) ∧
    ∀ s : Journaled, s.Reachable (KeepsAuthored p) → ∀ id, findPersistedEventId s.db p = some id →
      ∃ q, s.Backs p q id :=
  ⟨fun _ _ _ _ _ _ _ hdb hfence hkey hpublish hlater => confirmation_iff hdb hfence hkey hpublish hlater,
    fun _ hs _ hfind => hs.backed hfind⟩

namespace Ledger.Sample

/-- A note under the key `k`, with the defaults of a message. -/
def note : Publication where
  event := {
    type := "message.created"
    envelope := [("data", .obj [("artifact", .null), ("idempotencyKey", .str "k"), ("intent", .null),
      ("priority", .str "P2")]), ("owner", .str "agent:may"), ("source", .str "console"), ("type", .str "message.created")]
    rowId := none
    typed := by decide }

def bareNote : Publication where
  event := {
    type := "message.created"
    envelope := [("data", .obj [("idempotencyKey", .str "k")]), ("owner", .str "agent:may"), ("source", .str "console"),
      ("type", .str "message.created")]
    rowId := none
    typed := by decide }

def noted : Ledger := Ledger.empty.next (.publish note 0 none)

def crossed : Ledger := noted.next (.publish escalation 1 none)

theorem publish_note : publish Ledger.empty note 0 none = .ok (noted, some ⟨1, false⟩) := by
  rfl

theorem fullyAuthored_note (db : Ledger) : FullyAuthored db note.event :=
  ⟨fun _ => by unfold HasDefaults Event.Has; decide, fun h => absurd h (by decide), fun h => absurd h (by decide)⟩

end Ledger.Sample

open Ledger Ledger.Sample in
theorem confirmation_agrees_note : findPersistedEventId crossed note = some 1 ∧
    publish crossed note 5 none = .ok (crossed, some ⟨1, true⟩) := by
  have hlater : noted.Later crossed := .single ⟨.publish escalation 1 none, trivial, rfl⟩
  have hagrees := ((confirmation_agrees note).1 (fun _ _ => True) _ _ _ 0 none _ reachable_empty rfl (by decide)
    publish_note hlater).mpr ⟨fullyAuthored_note _, fullyAuthored_note _⟩
  exact ⟨hagrees.1, hagrees.2 5 none⟩

open Ledger Ledger.Sample in
/-- The note without its defaults: publishing it again returns its row, its confirmation does not find it, and the
confirmation of the note with the defaults, which no producer wrote, does. -/
theorem bare_note_not_confirmed :
    ∃ db, publish Ledger.empty bareNote 0 none = .ok (db, some ⟨1, false⟩) ∧
      publish db bareNote 1 none = .ok (db, some ⟨1, true⟩) ∧ findPersistedEventId db bareNote = none ∧
      findPersistedEventId db note = some 1 :=
  ⟨_, rfl, rfl, by decide, by decide⟩

end MayAgent
