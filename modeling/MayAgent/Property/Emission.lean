import MayAgent.Host.Emitter
import MayAgent.Property.Publication

/-!
# Facts of a Task

A fact of a Task generation is published under a key that does not depend on the attempt, and the writer
finds its row again; only the current attempt appends. The digest does depend on the attempt where the
event names no owner: the owner is then the agent of the attempt, and a replacement by another agent is
refused. An event with a blank owner has no key at all.
-/

namespace MayAgent

/-! ### The event of an emission -/

section Envelope

variable {scope : TaskEmissionScope} {agent key idempotencyKey : String} {emitted : AppTaskEmission}

def AppTaskEmission.ownerText (emitted : AppTaskEmission) (agent : String) : String := emitted.owner.getD ("agent:" ++ agent)

def emissionData (scope : TaskEmissionScope) (key idempotencyKey : String) (emitted : AppTaskEmission) : Event :=
  (emitted.data.assign "idempotencyKey" (.str idempotencyKey)).assign "emission" (.obj [
    ("appId", .str scope.appId), ("generation", .num scope.generation), ("localKey", .str key),
    ("taskId", .str scope.taskId)])

@[simp] theorem emissionEnvelope_data : (emissionEnvelope scope agent key idempotencyKey emitted).field "data" =
    some (.obj (emissionData scope key idempotencyKey emitted)) := by
  simp [emissionEnvelope, Event.field_ofFields, emissionData]

@[simp] theorem emissionEnvelope_owner :
    (emissionEnvelope scope agent key idempotencyKey emitted).field "owner" = some (.str (emitted.ownerText agent)) := by
  simp [emissionEnvelope, Event.field_ofFields, AppTaskEmission.ownerText]

@[simp] theorem emissionEnvelope_source :
    (emissionEnvelope scope agent key idempotencyKey emitted).field "source" = some (.str ("app-task:" ++ scope.appId)) := by
  simp [emissionEnvelope, Event.field_ofFields]

@[simp] theorem emissionEnvelope_key :
    (emissionEnvelope scope agent key idempotencyKey emitted).field "idempotencyKey" = none := by
  simp [emissionEnvelope, Event.field_ofFields]

theorem emissionData_key : (emissionData scope key idempotencyKey emitted).field "idempotencyKey" =
    some (.str idempotencyKey) := by
  simp [emissionData, Event.field_assign]

theorem nonEmpty_kind {kind : String} (rest : String) {c : Char} (hfirst : kind.toList.head? = some c)
    (hblank : isSpace c = false) : Text.nonEmpty (kind ++ rest) = true := by
  have hne : Text.trim (kind ++ rest) ≠ "" := by
    refine Text.trim_ne_empty (?_ : _ = some c) hblank
    rw [String.toList_append, List.head?_append, hfirst, Option.some_or]
  simpa [Text.nonEmpty] using hne

theorem nonEmpty_source (appId : String) : Text.nonEmpty ("app-task:" ++ appId) = true :=
  nonEmpty_kind (c := 'a') appId (by decide) (by decide)

theorem nonEmpty_agent (agent : String) : Text.nonEmpty ("agent:" ++ agent) = true :=
  nonEmpty_kind (c := 'a') agent (by decide) (by decide)

theorem canonical_emission : isCanonicalEventEnvelope (emissionEnvelope scope agent key idempotencyKey emitted) =
    Text.nonEmpty (emitted.ownerText agent) := by
  unfold isCanonicalEventEnvelope
  simp [nonEmptyText, Value.string?, nonEmpty_source, Event.record?, Value.record?]

end Envelope

/-! ### What completion and normalisation keep -/

variable {type name key agent agent' : String} {event : AgentEvent} {row : LedgerRow} {scope : TaskEmissionScope}
  {emitted : AppTaskEmission}

theorem field_normalize {payload : Event} (hcondition : name ≠ "resumeCondition")
    (hresume : name ≠ "resume") : (normalizePersistedEscalationPayload type payload).field name = payload.field name := by
  unfold normalizePersistedEscalationPayload
  split
  · split
    · rfl
    · dsimp only
      split
      · split <;> simp [Event.field_assign, hcondition, hresume]
      · simp [Event.field_assign, hcondition, hresume]
      · simp [Event.field_assign, hcondition]
  · rfl

theorem field_journalPayload (hintent : name ≠ "intent")
    (hartifact : name ≠ "artifact") (hpriority : name ≠ "priority") :
    (journalPayload event).field name = (eventPayload event.envelope).field name := by
  unfold journalPayload
  dsimp only
  split
  · simp [Event.field_assign, hintent, hartifact, hpriority]
  · rfl

theorem persistedPayload_key (event : AgentEvent) :
    (persistedPayload event).field "idempotencyKey" = (eventPayload event.envelope).field "idempotencyKey" := by
  unfold persistedPayload
  rw [field_normalize (by decide) (by decide), field_journalPayload (by decide) (by decide) (by decide)]

theorem field_completeEvent (db : Ledger) (event : AgentEvent) (hdata : name ≠ "data")
    (htarget : name ≠ "target") : (completeEvent db event).envelope.field name = event.envelope.field name := by
  unfold completeEvent
  split
  · rw [field_addressFeedback, if_neg hdata, if_neg htarget]
  · rfl

theorem canonical_completeEvent (db : Ledger) (hdata : (event.envelope.record? "data").isSome) :
    isCanonicalEventEnvelope (completeEvent db event).envelope = isCanonicalEventEnvelope event.envelope := by
  unfold completeEvent
  split
  · rw [canonical_addressFeedback]
    simp [isCanonicalEventEnvelope, hdata]
  · rfl

theorem key_completeEvent (db : Ledger) (hdata : (event.envelope.record? "data").isSome) :
    (eventPayload (completeEvent db event).envelope).field "idempotencyKey" =
      (eventPayload event.envelope).field "idempotencyKey" := by
  have hcanonical := canonical_completeEvent db hdata
  unfold completeEvent at hcanonical ⊢
  split
  case isFalse => rfl
  case isTrue hfeedback =>
    rw [if_pos hfeedback] at hcanonical
    unfold eventPayload
    rw [hcanonical]
    cases hc : isCanonicalEventEnvelope event.envelope with
    | true => simp [Event.record?, field_addressFeedback, Value.record?, Event.field_assign, eventPayload, hc]
    | false =>
      rw [if_neg Bool.false_ne_true, if_neg Bool.false_ne_true, Event.field_filter (· != "type"),
        Event.field_filter (· != "type"), field_addressFeedback]
      simp

/-! ### The publication of a call -/

namespace EmissionCall

variable {call : EmissionCall} {db db' : Ledger}

def owned (call : EmissionCall) : Bool := Text.nonEmpty (call.emitted.ownerText call.claim.agent)

theorem data_publication (call : EmissionCall) (db : Ledger) :
    ((call.publication db).event.envelope.record? "data").isSome := by
  simp [publication, emissionEvent, Event.record?, Value.record?]

theorem key_publication (call : EmissionCall) (db db' : Ledger) :
    ((call.publication db).complete db').key = if call.owned then Text.trim (call.idempotencyKey db) else "" := by
  unfold Publication.key Event.string?
  rw [persistedPayload_key]
  show Text.trim (((Event.field (eventPayload (completeEvent db' (call.publication db).event).envelope) _).bind _).getD _) = _
  rw [key_completeEvent db' (call.data_publication db)]
  unfold eventPayload
  show Text.trim (((Event.field (if isCanonicalEventEnvelope (emissionEnvelope _ _ _ _ _) then _ else _) _).bind _).getD _) = _
  rw [canonical_emission]
  change Text.trim (((Event.field (if call.owned = true then _ else _) _).bind _).getD _) = _
  by_cases howned : call.owned = true
  · rw [if_pos howned, if_pos howned]
    simp [publication, emissionEvent, Event.record?, Value.record?, emissionData_key, Value.string?]
  · rw [if_neg howned, if_neg howned, Event.field_filter (· != "type")]
    simp only [publication, emissionEvent, emissionEnvelope_key]
    rfl

theorem source_publication (call : EmissionCall) (db db' : Ledger) :
    ((call.publication db).complete db').source = some ("app-task:" ++ call.scope.appId) := by
  have hfield : (completeEvent db' (call.publication db).event).envelope.field "source" =
      some (.str ("app-task:" ++ call.scope.appId)) := by
    rw [field_completeEvent db' _ (by decide) (by decide)]
    exact emissionEnvelope_source
  unfold Publication.source eventSource eventParty
  have hparty : (if isCanonicalEventEnvelope ((call.publication db).complete db').event.envelope then
        ((call.publication db).complete db').event.envelope.field "source"
      else (eventPayload ((call.publication db).complete db').event.envelope).field "source") =
      some (.str ("app-task:" ++ call.scope.appId)) := by
    split
    case isTrue => exact hfield
    case isFalse hcanonical =>
      unfold eventPayload
      rw [if_neg hcanonical, Event.field_filter (· != "type")]
      exact hfield
  rw [hparty]
  rfl

theorem identity_publication (howned : call.owned = true) (db db' : Ledger) :
    ((call.publication db).complete db').identity =
      ⟨call.emitted.type, "app-task:" ++ call.scope.appId, call.scope.appId, Text.trim (call.idempotencyKey db)⟩ := by
  have htype : ((call.publication db).complete db').event.type = call.emitted.type :=
    type_completeEvent db' (call.publication db).event
  have hingress : ((call.publication db).complete db').ingress = "app-task:" ++ call.scope.appId := by
    show ((call.publication db).complete db').source.getD "internal" = _
    rw [source_publication]
    rfl
  have hproject : ((call.publication db).complete db').projectId = some call.scope.appId := by
    simp only [Publication.projectId, Publication.complete, publication, fence]
  have hscope : ((call.publication db).complete db').scope = call.scope.appId := by
    unfold Publication.scope
    simp only [hproject, Option.some_or, Option.getD_some]
  unfold Publication.identity
  rw [key_publication, if_pos howned, htype, hingress, hscope]

variable {a b : String} {c : Char} {now : Int} {projection : Option String} {r : Receipt}

theorem head_append (h : a.toList.head? = some c) : (a ++ b).toList.head? = some c := by
  rw [String.toList_append, List.head?_append, h, Option.some_or]

theorem getLast_append (h : b.toList.getLast? = some c) :
    (a ++ b).toList.getLast? = some c := by
  rw [String.toList_append, List.getLast?_append, h, Option.some_or]

theorem trim_taskEmissionIdentity (scope : TaskEmissionScope) (key : String) :
    Text.trim (taskEmissionIdentity scope key) = taskEmissionIdentity scope key := by
  have hfirst : (taskEmissionIdentity scope key).toList.head? = some 't' := by
    unfold taskEmissionIdentity
    repeat apply head_append
    decide
  have hlast : (taskEmissionIdentity scope key).toList.getLast? = some ']' := by
    unfold taskEmissionIdentity
    apply getLast_append
    decide
  apply Text.trim_eq_self
  · rw [hfirst]
    rintro _ ⟨⟩
    decide
  · rw [hlast]
    rintro _ ⟨⟩
    decide

theorem taskEmissionIdentity_ne_empty (scope : TaskEmissionScope) (key : String) : taskEmissionIdentity scope key ≠ "" := by
  intro h
  have hfirst : (taskEmissionIdentity scope key).toList.head? = some 't' := by
    unfold taskEmissionIdentity
    repeat apply head_append
    decide
  rw [h] at hfirst
  cases hfirst

theorem emit_ok
    (h : call.emit db now projection = .ok (db', r)) :
    emissionError call.communication call.key call.emitted = none ∧
      publish db (call.publication db) now projection = .ok (db', some r) := by
  unfold emit at h
  split at h
  · cases h
  case h_2 hnone =>
    split at h
    · cases h
    · cases h
    case h_3 hpublish =>
      cases h
      exact ⟨hnone, hpublish⟩

theorem emit_unowned
    (hstale : ownsEmission db call.fence now = false) (h : call.emit db now projection = .ok (db', r)) : db' = db := by
  rcases publish_ok (emit_ok h).2 with ⟨-, -, hnone⟩ | ⟨_, -, -, hinsert⟩
  · cases hnone
  rcases insertKeyed_ok hinsert with ⟨-, -, -, -, hsame, -⟩ | ⟨-, hinserted⟩
  · exact hsame
  · have hfence := (insertPublication_ok hinserted).2.2
    have hcheck : fenceError db ((call.publication db).complete db) now = if ownsEmission db call.fence now then none
        else some _ := rfl
    rw [hcheck, hstale] at hfence
    cases hfence

end EmissionCall

/-! ### Keys of emissions -/

/-- The keys of the rows have no blanks around them. -/
def Ledger.Trimmed (db : Ledger) : Prop := ∀ row ∈ db.rows, ∀ key ∈ row.idempotencyKey, Text.trim key = key

theorem Publication.trim_key (p : Publication) : Text.trim p.key = p.key := Text.trim_trim _

theorem Ledger.Trimmed.next {db : Ledger} (h : db.Trimmed) (action : LedgerAction) : (db.next action).Trimmed := by
  intro row hrow key hkey
  rcases db.next_rows action with hsame | ⟨p, _, -, hrows⟩
  · rw [hsame] at hrow
    exact h row hrow key hkey
  · rw [hrows] at hrow
    rcases List.mem_append.mp hrow with hrow | hrow
    · exact h row hrow key hkey
    · rw [List.mem_singleton.mp hrow] at hkey
      unfold Publication.row at hkey
      dsimp only at hkey
      split at hkey
      · cases hkey
      · cases hkey
        exact p.trim_key

theorem Ledger.Reachable.trimmed {ok : Ledger → LedgerAction → Prop} {db : Ledger} (h : Ledger.Reachable ok db) :
    db.Trimmed := by
  refine Reaches.invariant (fun db hdb => ?_) (fun db action hdb _ => hdb.next action) h
  subst hdb
  exact fun row hrow => absurd hrow List.not_mem_nil

theorem LedgerRow.identity_of_isEmission
    (h : row.isEmission scope type key = true) :
    row.identity = some ⟨type, "app-task:" ++ scope.appId, scope.appId, key⟩ := by
  simp only [isEmission, Bool.and_eq_true, beq_iff_eq] at h
  obtain ⟨⟨⟨⟨⟨⟨htype, hingress⟩, hscope⟩, hkey⟩, -⟩, -⟩, -⟩ := h
  simp [identity, htype, hingress, hscope, hkey]

theorem LedgerRow.key_of_isEmission
    (h : row.isEmission scope type key = true) : key ∈ row.idempotencyKey := by
  simp only [isEmission, Bool.and_eq_true, beq_iff_eq] at h
  exact h.1.1.1.2

theorem LedgerRow.ne_empty_of_isEmission
    (h : row.isEmission scope type key = true) : key ≠ "" := by
  simp only [isEmission, Bool.and_eq_true, bne_iff_ne] at h
  exact h.1.1.2

theorem findTaskEmission_some {db : Ledger} {found : String}
    (h : findTaskEmission db scope type key = some found) : ∃ row ∈ db.rows, row.isEmission scope type found = true := by
  unfold findTaskEmission at h
  dsimp only at h
  split at h
  case isTrue hkeyed =>
    rw [← Option.some.inj h]
    exact List.any_eq_true.mp hkeyed
  case isFalse =>
    split at h
    case isTrue hkeyed =>
      rw [← Option.some.inj h]
      exact List.any_eq_true.mp hkeyed
    case isFalse => cases h

theorem findTaskEmission_eq {db : Ledger}
    (hmem : row ∈ db.rows) (hrow : row.isEmission scope type (taskEmissionIdentity scope key) = true) :
    findTaskEmission db scope type key = some (taskEmissionIdentity scope key) := by
  unfold findTaskEmission
  exact if_pos (List.any_eq_true.mpr ⟨row, hmem, hrow⟩)

namespace EmissionCall

variable {call : EmissionCall} {db db' : Ledger}

theorem isEmission_row (howned : call.owned = true)
    (hkey : ((call.publication db).complete db').key = taskEmissionIdentity call.scope call.key) (id : Nat) (now : Int) :
    (((call.publication db).complete db').row id now).isEmission call.scope call.emitted.type
      (taskEmissionIdentity call.scope call.key) = true := by
  have hne := taskEmissionIdentity_ne_empty call.scope call.key
  have hidentity := identity_publication howned db db'
  unfold Publication.identity at hidentity
  obtain ⟨htype, hingress, hscope, -⟩ := EventIdentityKey.mk.inj hidentity
  have hproject : ((call.publication db).complete db').projectId = some call.scope.appId := by
    simp only [Publication.projectId, Publication.complete, publication, fence]
  have htask : ((call.publication db).complete db').taskId = some call.scope.taskId := by
    simp only [Publication.taskId, Publication.complete, publication, fence, scope]
  unfold LedgerRow.isEmission Publication.row
  dsimp only
  rw [htype, hingress, hscope, hproject, htask, hkey, if_neg hne]
  simp [hne]

variable {now : Int} {projection : Option String}

theorem emit_inserted {r : Nat} (hdb : db.Trimmed) (howned : call.owned = true)
    (h : call.emit db now projection = .ok (db', ⟨r, false⟩)) :
    findTaskEmission db call.scope call.emitted.type call.key = none ∧
      ∃ row, db'.rows = db.rows ++ [row] ∧ row.id = r ∧
        row.isEmission call.scope call.emitted.type (taskEmissionIdentity call.scope call.key) = true := by
  rcases publish_ok (emit_ok h).2 with ⟨-, -, hnone⟩ | ⟨_, hreceipt, -, hinsert⟩
  · cases hnone
  cases hreceipt
  rcases insertKeyed_ok hinsert with ⟨row, -, -, -, -, hdup⟩ | ⟨hfresh, hinserted⟩
  · cases hdup
  have hidentity := identity_publication howned db db
  have hunfound : findTaskEmission db call.scope call.emitted.type call.key = none := by
    cases hfound : findTaskEmission db call.scope call.emitted.type call.key with
    | none => rfl
    | some found =>
      -- The row of the fact has the identity of the publication, so the writer would have found it.
      obtain ⟨row, hrow, hemission⟩ := findTaskEmission_some hfound
      have hrowid := LedgerRow.identity_of_isEmission hemission
      have hkey : call.idempotencyKey db = found := by
        unfold idempotencyKey
        rw [hfound, Option.getD_some]
      have htrim : Text.trim found = found := hdb row hrow found (LedgerRow.key_of_isEmission hemission)
      rw [hkey, htrim] at hidentity
      rcases hfresh with hempty | hnone
      · rw [key_publication, if_pos howned, hkey, htrim] at hempty
        exact absurd hempty (LedgerRow.ne_empty_of_isEmission hemission)
      · have := List.find?_eq_none.mp hnone row hrow
        rw [hrowid, hidentity] at this
        exact absurd (beq_self_eq_true _) this
  refine ⟨hunfound, _, (insertPublication_ok hinserted).1, ?_, ?_⟩
  · exact (congrArg Receipt.eventId (insertPublication_ok hinserted).2.1).symm
  · have hkey : ((call.publication db).complete db).key = taskEmissionIdentity call.scope call.key := by
      rw [key_publication, if_pos howned, idempotencyKey, hunfound, Option.getD_none, trim_taskEmissionIdentity]
    exact isEmission_row howned hkey _ _

def byAttempt (call : EmissionCall) (attemptId agent : String) : EmissionCall :=
  { call with claim := { call.claim with attemptId := attemptId, agent := agent } }

def emitting (call : EmissionCall) (emitted : AppTaskEmission) : EmissionCall := { call with emitted := emitted }

theorem idempotencyKey_later {again : EmissionCall} (hscope : again.scope = call.scope)
    (hkey : again.key = call.key) (htype : again.emitted.type = call.emitted.type) (hmem : row ∈ db.rows)
    (hrow : row.isEmission call.scope call.emitted.type (taskEmissionIdentity call.scope call.key) = true) :
    again.idempotencyKey db = taskEmissionIdentity call.scope call.key := by
  unfold idempotencyKey
  rw [hscope, hkey, htype, findTaskEmission_eq hmem hrow, Option.getD_some]

theorem isPersisted_publication (howned : call.owned = true)
    (herror : emissionError call.communication call.key call.emitted = none) :
    isPersisted (call.publication db).event = true := by
  have hdotted : Text.contains call.emitted.type '.' = true := by
    unfold emissionError at herror
    by_contra hplain
    rw [Bool.not_eq_true] at hplain
    by_cases hkey : call.key = "" ∨ 256 < call.key.length
    · rw [if_pos hkey] at herror
      cases herror
    · rw [if_neg hkey, if_pos (by rw [hplain]; rfl)] at herror
      cases herror
  have hcanonical : isCanonicalEventEnvelope (call.publication db).event.envelope = true :=
    canonical_emission.trans howned
  unfold isPersisted
  rw [show (call.publication db).event.type = call.emitted.type from rfl, hdotted, hcanonical]
  simp

theorem emissionError_congr {emitted' : AppTaskEmission} (communication : Bool) (key : String)
    (htype : emitted.type = emitted'.type) :
    emissionError communication key emitted = emissionError communication key emitted' := by
  unfold emissionError
  rw [htype]

theorem emit_found (hdb : db.Indexed) (howned : call.owned = true)
    (herror : emissionError call.communication call.key call.emitted = none) (hmem : row ∈ db.rows)
    (hrow : row.isEmission call.scope call.emitted.type (taskEmissionIdentity call.scope call.key) = true) :
    call.emit db now projection =
      if row.idempotencyHash = some ((call.publication db).complete db).hash then .ok (db, ⟨row.id, true⟩)
      else .error ("Idempotency key " ++ ((call.publication db).complete db).key ++
        " was already used with different event input") := by
  have hkey : ((call.publication db).complete db).key = taskEmissionIdentity call.scope call.key := by
    rw [key_publication, if_pos howned, idempotencyKey_later rfl rfl rfl hmem hrow, trim_taskEmissionIdentity]
  have hidentity : ((call.publication db).complete db).identity =
      ⟨call.emitted.type, "app-task:" ++ call.scope.appId, call.scope.appId, taskEmissionIdentity call.scope call.key⟩ := by
    rw [identity_publication howned, idempotencyKey_later rfl rfl rfl hmem hrow, trim_taskEmissionIdentity]
  have hfound : db.findKeyed ((call.publication db).complete db).identity = some row := by
    rw [hidentity]
    exact hdb.findKeyed_eq hmem (LedgerRow.identity_of_isEmission hrow)
  unfold emit
  rw [herror]
  dsimp only
  rw [publish_found (isPersisted_publication howned herror)
    (by rw [hkey]; exact taskEmissionIdentity_ne_empty _ _) hfound]
  by_cases hhash : row.idempotencyHash = some ((call.publication db).complete db).hash
  · rw [if_pos hhash, if_pos hhash]
  · rw [if_neg hhash, if_neg hhash]

end EmissionCall

/-! ### The digest of a fact -/

variable {idempotencyKey : String}

theorem emissionEvent_congr
    (h : emitted.ownerText agent = emitted.ownerText agent') :
    emissionEvent scope agent key idempotencyKey emitted = emissionEvent scope agent' key idempotencyKey emitted := by
  have henvelope : emissionEnvelope scope agent key idempotencyKey emitted =
      emissionEnvelope scope agent' key idempotencyKey emitted := by
    unfold AppTaskEmission.ownerText at h
    unfold emissionEnvelope
    rw [h]
  simp only [emissionEvent, henvelope]

theorem AppTaskEmission.ownerText_eq_iff :
    emitted.ownerText agent = emitted.ownerText agent' ↔ (emitted.owner = none → agent = agent') := by
  unfold ownerText
  cases emitted.owner with
  | none => simp [String.append_right_inj]
  | some => simp

/-- The content of a fact is the same from two attempts if the event names its owner or the attempts have the same
agent, and its answer to an escalation is for the same Task. -/
theorem hash_emission_eq_iff
    {db db' : Ledger} (howned : Text.nonEmpty (emitted.ownerText agent) = true)
    (howned' : Text.nonEmpty (emitted.ownerText agent') = true) :
    idempotencyHash (completeEvent db' (emissionEvent scope agent' key idempotencyKey emitted)) false =
        idempotencyHash (completeEvent db (emissionEvent scope agent key idempotencyKey emitted)) false ↔
      (emitted.owner = none → agent' = agent) ∧
        SameFeedback db db' (emissionEvent scope agent key idempotencyKey emitted) := by
  have hdata : ∀ agent, ((emissionEvent scope agent key idempotencyKey emitted).envelope.record? "data").isSome := by
    intro agent
    simp [emissionEvent, Event.record?, Value.record?]
  have howner : ∀ (db : Ledger) (agent : String), Text.nonEmpty (emitted.ownerText agent) = true →
      (idempotencyHash (completeEvent db (emissionEvent scope agent key idempotencyKey emitted)) false).field "owner" =
        some (.str (emitted.ownerText agent)) := by
    intro db agent howned
    rw [idempotencyHash, field_hashOf ((canonical_completeEvent db (hdata agent)).trans (canonical_emission.trans howned))
      (by decide),
      field_completeEvent db _ (by decide) (by decide)]
    exact emissionEnvelope_owner
  constructor
  · intro hhash
    have htext : emitted.ownerText agent' = emitted.ownerText agent := by
      have hfields := congrArg (Event.field · "owner") hhash
      rw [howner db' agent' howned', howner db agent howned] at hfields
      simpa using hfields
    refine ⟨AppTaskEmission.ownerText_eq_iff.mp htext, fun hfeedback => ?_⟩
    rw [emissionEvent_congr htext] at hhash
    unfold completeEvent at hhash
    rw [if_pos hfeedback, if_pos hfeedback] at hhash
    exact (target_eq_of_hash hfeedback hhash).symm
  · rintro ⟨hagent, hsame⟩
    rw [emissionEvent_congr (AppTaskEmission.ownerText_eq_iff.mpr hagent), hsame.completeEvent]

/-! ### Runs -/

def EmissionAction.Owned : EmissionAction → Prop
  | .emit call _ _ => call.owned = true
  | .other _ => True

namespace EmissionLog

variable {s : EmissionLog}

theorem db_next (s : EmissionLog) (action : EmissionAction) :
    (s.next action).db = s.db ∨ ∃ ledgerAction, (s.next action).db = s.db.next ledgerAction := by
  cases action with
  | other action => exact .inr ⟨action, rfl⟩
  | emit call now projection =>
    unfold EmissionLog.next
    dsimp only
    split
    case h_1 => exact .inl rfl
    case h_2 db receipt hemit =>
      refine .inr ⟨.publish (call.publication s.db) now projection, ?_⟩
      unfold Ledger.next
      dsimp only
      rw [(EmissionCall.emit_ok hemit).2]

theorem Reachable.db {ok : EmissionLog → EmissionAction → Prop} (h : Reachable ok s) :
    Ledger.Reachable (fun _ _ => True) s.db := by
  refine Reaches.invariant (I := fun s => Ledger.Reachable (fun _ _ => True) s.db)
    (fun s hinit => ?_) (fun s action hs _ => ?_) h
  · rw [hinit]
    exact Reaches.start rfl
  · rcases s.db_next action with hsame | ⟨_, hnext⟩
    · rwa [hsame]
    · rw [hnext]
      exact Reaches.step hs trivial

/-- A published fact: the App, Task and generation, the type and the local key. -/
def fact (entry : TaskEmissionScope × String × String × Nat) : TaskEmissionScope × String × String :=
  (entry.1, entry.2.1, entry.2.2.1)

structure Once (s : EmissionLog) : Prop where
  row : ∀ entry ∈ s.published, ∃ row ∈ s.db.rows, row.id = entry.2.2.2 ∧
    row.isEmission entry.1 entry.2.1 (taskEmissionIdentity entry.1 entry.2.2.1) = true
  facts : (s.published.map fact).Nodup

theorem Once.of_rows {s' : EmissionLog} (h : Once s) (hrows : s.db.rows ⊆ s'.db.rows) (hsame : s'.published = s.published) :
    Once s' := by
  refine ⟨fun entry hentry => ?_, by rw [hsame]; exact h.facts⟩
  rw [hsame] at hentry
  obtain ⟨row, hrow, hfact⟩ := h.row entry hentry
  exact ⟨row, hrows hrow, hfact⟩

theorem rows_subset_next (s : EmissionLog) (action : EmissionAction) : s.db.rows ⊆ (s.next action).db.rows := by
  rcases s.db_next action with hsame | ⟨ledgerAction, hnext⟩
  · rw [hsame]
    exact List.Subset.refl _
  · rw [hnext]
    rcases s.db.next_rows ledgerAction with hsame | ⟨p, _, -, hrows⟩
    · rw [hsame]
      exact List.Subset.refl _
    · rw [hrows]
      exact List.subset_append_left _ _

theorem Once.next (h : Once s) (hdb : s.db.Trimmed) (action : EmissionAction) (howned : action.Owned) :
    Once (s.next action) := by
  have hrows := s.rows_subset_next action
  cases action with
  | other => exact h.of_rows hrows rfl
  | emit call =>
    unfold EmissionLog.next at hrows ⊢
    dsimp only at hrows ⊢
    split at hrows
    case h_1 => exact h
    case h_2 db receipt hemit =>
      obtain ⟨eventId, deduplicated⟩ := receipt
      cases deduplicated with
      | true => exact h.of_rows hrows rfl
      | false =>
        obtain ⟨hunfound, row, hinserted, hid, hrow⟩ := EmissionCall.emit_inserted hdb howned hemit
        refine ⟨fun entry hentry => ?_, ?_⟩
        · rcases List.mem_append.mp hentry with hold | hnew
          · obtain ⟨old, hold, hfact⟩ := h.row entry hold
            exact ⟨old, hrows hold, hfact⟩
          · rw [List.mem_singleton.mp hnew]
            exact ⟨row, by simp [hinserted], hid, hrow⟩
        · -- A fact that was published before has a row, and the call would have found it.
          show ((s.published ++ [(call.scope, call.emitted.type, call.key, eventId)]).map fact).Nodup
          rw [List.map_append, List.nodup_append]
          refine ⟨h.facts, List.nodup_singleton _, fun old hold new hnew => ?_⟩
          rintro rfl
          obtain ⟨entry, hentry, hfact⟩ := List.mem_map.mp hold
          rw [List.map_singleton, List.mem_singleton] at hnew
          obtain ⟨old, hold, -, hemission⟩ := h.row entry hentry
          rw [← hfact] at hnew
          simp only [fact, Prod.mk.injEq] at hnew
          obtain ⟨hscope, htype, hkey⟩ := hnew
          rw [hscope, htype, hkey] at hemission
          rw [findTaskEmission_eq hold hemission] at hunfound
          cases hunfound

theorem Reachable.once (h : Reachable (fun _ action => action.Owned) s) : Once s := by
  have hboth : Once s ∧ s.db.Trimmed := by
    refine Reaches.invariant (I := fun s => Once s ∧ s.db.Trimmed)
      (fun s hinit => ?_) (fun s action hs hok => ⟨hs.1.next hs.2 action hok, ?_⟩) h
    · rw [hinit]
      exact ⟨⟨fun entry hentry => absurd hentry List.not_mem_nil, List.nodup_nil⟩,
        fun row hrow => absurd hrow List.not_mem_nil⟩
    · rcases s.db_next action with hsame | ⟨ledgerAction, hnext⟩
      · rw [hsame]
        exact hs.2
      · rw [hnext]
        exact hs.2.next ledgerAction
  exact hboth.1

end EmissionLog

/-! ### Facts -/

namespace EmissionCall

variable {call : EmissionCall} {db db₀ db₁ : Ledger} {now₀ : Int} {projection₀ : Option String} {r : Nat}

theorem row_later (hindexed : db₀.Indexed) (htrimmed : db₀.Trimmed) (howned : call.owned = true)
    (hfirst : call.emit db₀ now₀ projection₀ = .ok (db₁, ⟨r, false⟩)) (hlater : db₁.Later db) :
    call.idempotencyKey db₀ = taskEmissionIdentity call.scope call.key ∧
      ∃ row ∈ db.rows, row.id = r ∧
        row.isEmission call.scope call.emitted.type (taskEmissionIdentity call.scope call.key) = true ∧
        row.idempotencyHash = some ((call.publication db₀).complete db₀).hash := by
  obtain ⟨hunfound, row, hrows, hid, hrow⟩ := emit_inserted htrimmed howned hfirst
  have hkey : call.idempotencyKey db₀ = taskEmissionIdentity call.scope call.key := by
    rw [idempotencyKey, hunfound, Option.getD_none]
  have hcomplete : ((call.publication db₀).complete db₀).key ≠ "" := by
    rw [key_publication, if_pos howned, hkey, trim_taskEmissionIdentity]
    exact taskEmissionIdentity_ne_empty _ _
  obtain ⟨found, hfound, hfoundid, hhash, -, -⟩ :=
    findKeyed_later hindexed hcomplete (emit_ok hfirst).2 rfl hlater
  have hmem : row ∈ db.rows := hlater.rows.subset (hrows ▸ List.mem_append_right _ (List.mem_singleton_self _))
  have hdb : db.Indexed := hlater.indexed (hindexed.publish (emit_ok hfirst).2)
  have heq : found = row := hdb.eq_of_id hfound hmem (hfoundid.trans hid.symm)
  exact ⟨hkey, row, hmem, hid, hrow, heq ▸ hhash⟩

theorem owned_byAttempt (howned : call.owned = true) (attemptId agent : String) :
    (call.byAttempt attemptId agent).owned = true := by
  unfold owned AppTaskEmission.ownerText at howned ⊢
  cases howner : call.emitted.owner with
  | none =>
    rw [show (call.byAttempt attemptId agent).emitted.owner = none from howner]
    exact nonEmpty_agent agent
  | some owner =>
    rw [show (call.byAttempt attemptId agent).emitted.owner = some owner from howner]
    rw [howner] at howned
    exact howned

theorem emit_again (attemptId agent : String) (hindexed : db₀.Indexed)
    (htrimmed : db₀.Trimmed) (howned : call.owned = true) (hfirst : call.emit db₀ now₀ projection₀ = .ok (db₁, ⟨r, false⟩))
    (hlater : db₁.Later db) (htype : emitted.type = call.emitted.type)
    (howned' : ((call.byAttempt attemptId agent).emitting emitted).owned = true) (now : Int) (projection : Option String) :
    ((call.byAttempt attemptId agent).emitting emitted).emit db now projection =
      if ((call.publication db₀).complete db₀).hash =
          ((((call.byAttempt attemptId agent).emitting emitted).publication db).complete db).hash then
        .ok (db, ⟨r, true⟩)
      else .error ("Idempotency key " ++
        ((((call.byAttempt attemptId agent).emitting emitted).publication db).complete db).key ++
          " was already used with different event input") := by
  obtain ⟨-, row, hmem, rfl, hrow, hhash⟩ := row_later hindexed htrimmed howned hfirst hlater
  have hdb : db.Indexed := hlater.indexed (hindexed.publish (emit_ok hfirst).2)
  have herror : emissionError call.communication call.key emitted = none :=
    (emissionError_congr _ _ htype).trans (emit_ok hfirst).1
  have hrow' : row.isEmission call.scope emitted.type (taskEmissionIdentity call.scope call.key) = true := by
    rw [htype]
    exact hrow
  rw [emit_found hdb howned' herror hmem hrow', hhash]
  simp only [Option.some.injEq]

end EmissionCall

/-- In every run whose publications name no owner or a non-blank one, every fact is published at most once and a
stale attempt appends nothing. Publishing a fact again returns its row exactly if the event names its owner or the
agent is that of the first publication, and an answer to an escalation still is for the same Task; publishing under
its key fails exactly if the content differs. -/
theorem task_fact_published_once {s : EmissionLog} (h : EmissionLog.Reachable (fun _ action => action.Owned) s) :
    (s.published.map EmissionLog.fact).Nodup ∧
      (∀ (call : EmissionCall) now projection db r, ownsEmission s.db call.fence now = false →
        call.emit s.db now projection = .ok (db, r) → db = s.db) ∧
      ∀ (call : EmissionCall) now₀ projection₀ db₁ r db attemptId agent, call.owned = true →
        call.emit s.db now₀ projection₀ = .ok (db₁, ⟨r, false⟩) → db₁.Later db →
        ((∀ now projection, (call.byAttempt attemptId agent).emit db now projection = .ok (db, ⟨r, true⟩)) ↔
          (call.emitted.owner = none → agent = call.claim.agent) ∧ SameFeedback s.db db (call.publication s.db).event) ∧
        ∀ emitted : AppTaskEmission, emitted.type = call.emitted.type →
          ((call.byAttempt attemptId agent).emitting emitted).owned = true →
          ((∀ now projection, ∃ error,
              ((call.byAttempt attemptId agent).emitting emitted).emit db now projection = .error error) ↔
            ((((call.byAttempt attemptId agent).emitting emitted).publication db).complete db).hash ≠
              ((call.publication s.db).complete s.db).hash) := by
  refine ⟨h.once.facts, fun call now projection db r hstale hemit => EmissionCall.emit_unowned hstale hemit, ?_⟩
  intro call now₀ projection₀ db₁ r db attemptId agent howned hfirst hlater
  have hindexed : s.db.Indexed := h.db.indexed
  have htrimmed : s.db.Trimmed := h.db.trimmed
  have howned' := EmissionCall.owned_byAttempt howned attemptId agent
  constructor
  · have hagain : ∀ now projection, (call.byAttempt attemptId agent).emit db now projection = _ :=
      EmissionCall.emit_again attemptId agent hindexed htrimmed howned hfirst hlater rfl howned'
    obtain ⟨hkey, _, hmem, -, hrow, -⟩ := EmissionCall.row_later hindexed htrimmed howned hfirst hlater
    have hkey' : (call.byAttempt attemptId agent).idempotencyKey db = taskEmissionIdentity call.scope call.key :=
      EmissionCall.idempotencyKey_later rfl rfl rfl hmem hrow
    have hhash : (((call.byAttempt attemptId agent).publication db).complete db).hash =
        ((call.publication s.db).complete s.db).hash ↔
        (call.emitted.owner = none → agent = call.claim.agent) ∧
          SameFeedback s.db db (call.publication s.db).event := by
      unfold EmissionCall.publication
      rw [hkey, hkey']
      exact hash_emission_eq_iff howned howned'
    rw [← hhash]
    constructor
    · intro hreturns
      by_contra hdiffers
      have hrefused := (hagain 0 none).trans (if_neg (Ne.symm hdiffers))
      cases (hreturns 0 none).symm.trans hrefused
    · intro hsame now projection
      exact (hagain now projection).trans (if_pos hsame.symm)
  · intro emitted htype howned''
    have hagain := EmissionCall.emit_again attemptId agent hindexed htrimmed howned hfirst hlater htype howned''
    constructor
    · intro hfails hsame
      obtain ⟨error, herror⟩ := hfails 0 none
      rw [hagain, if_pos hsame.symm] at herror
      cases herror
    · intro hdiffers now projection
      exact ⟨_, (hagain now projection).trans (if_neg (Ne.symm hdiffers))⟩

/-! ### A fact of two agents -/

namespace EmissionLog.Sample

/-- Task `t` of the App `app` in its first generation, run by the attempt `attemptId` until 10. -/
def running (attemptId : String) : EmissionAction :=
  .other (.record [] [⟨"app", "t", 1, some attemptId, 1, .running, some 10, []⟩] ["app"])

/-- The first attempt, of the agent `a`, publishes a fact without an owner. -/
def call : EmissionCall := ⟨"app", ⟨"t", 1, "t1", "a"⟩, false, "k", ⟨"report.ready", [], none, none, none, none, none⟩⟩

def claimed : EmissionLog := EmissionLog.next ⟨Ledger.empty, []⟩ (running "t1")

def published : EmissionLog := claimed.next (.emit call 0 none)

def replaced : EmissionLog := published.next (running "t2")

theorem reachable_claimed : Reachable (fun _ action => action.Owned) claimed := by
  have hstart : Reachable (fun _ action => action.Owned) ⟨Ledger.empty, []⟩ := Reaches.start rfl
  exact hstart.step (a := running "t1") trivial

theorem emit_claimed : call.emit claimed.db 0 none = .ok (published.db, ⟨1, false⟩) := by
  rfl

theorem later_replaced : published.db.Later replaced.db :=
  .single ⟨.record [] [⟨"app", "t", 1, some "t2", 1, .running, some 10, []⟩] ["app"], trivial, rfl⟩

theorem emit_new_agent : ∃ error, (call.byAttempt "t2" "b").emit replaced.db 0 none = .error error := by
  have hdb := reachable_claimed.db
  refine ⟨_, (EmissionCall.emit_again "t2" "b" hdb.indexed hdb.trimmed (by decide) emit_claimed later_replaced rfl
    (by decide) 0 none).trans (if_neg ?_)⟩
  decide +kernel

end EmissionLog.Sample

open EmissionLog EmissionLog.Sample in
theorem task_fact_published_once_again :
    (call.byAttempt "t2" "a").emit replaced.db 0 none = .ok (replaced.db, ⟨1, true⟩) :=
  ((task_fact_published_once reachable_claimed).2.2 call 0 none published.db 1 replaced.db "t2" "a" (by decide) emit_claimed
    later_replaced).1.mpr ⟨fun _ => rfl, fun hfeedback => absurd hfeedback (by decide)⟩ 0 none

open EmissionLog EmissionLog.Sample in
/-- The attempt of the new agent owns the Task, and the same fact is refused. -/
theorem fact_refused_of_new_agent :
    Reachable (fun _ action => action.Owned) claimed ∧ call.emit claimed.db 0 none = .ok (published.db, ⟨1, false⟩) ∧
      published.db.Later replaced.db ∧ ownsEmission replaced.db (call.byAttempt "t2" "b").fence 0 = true ∧
      ∃ error, (call.byAttempt "t2" "b").emit replaced.db 0 none = .error error :=
  ⟨reachable_claimed, emit_claimed, later_replaced, by rfl, emit_new_agent⟩

end MayAgent
