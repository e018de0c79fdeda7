import MayAgent.Host.Schedules
import MayAgent.Property.Publication

/-!
# Scheduled inputs

A slot of an input schedule stands in at most one row of the journal: the lookup finds the row that the
writer's own key would find. The records in memory keep the slots of one activation increasing. A slot whose
publication fails is published by the next scan that reaches the database, as long as no other schedule
advances the same record: the records are kept under the App's and the schedule's id with a slash between
them, and these texts may coincide.
-/

namespace MayAgent

/-! ### The event of a slot -/

namespace SlotId

def publication (id : SlotId) (input : Value) : Publication := { event := scheduledInput id input }

theorem not_isSpace_of_isDigit {c : Char} (h : c.isDigit = true) : isSpace c = false := by
  have hbounds : 48 ≤ c.toNat ∧ c.toNat ≤ 57 := by
    simpa [Char.isDigit, UInt32.le_iff_toNat_le] using h
  simp only [isSpace, isSpaceCode, Bool.or_eq_false_iff, Bool.and_eq_false_iff, decide_eq_false_iff_not, List.contains_eq_mem,
    List.mem_cons, List.not_mem_nil, or_false]
  omega

theorem getLast_repr (n : Nat) : ∀ c ∈ (Nat.repr n).toList.getLast?, isSpace c = false := by
  intro c hc
  apply not_isSpace_of_isDigit
  refine Nat.isDigit_of_mem_toDigits (b := 10) (n := n) (by decide) (by decide) ?_
  simpa [Nat.repr] using List.mem_of_getLast? hc

theorem getLast_toString (n : Int) : ∀ c ∈ (toString n).toList.getLast?, isSpace c = false := by
  cases n with
  | ofNat n => exact getLast_repr n
  | negSucc n =>
    intro c hc
    have htext : (toString (Int.negSucc n)).toList = '-' :: (Nat.repr (n + 1)).toList := by
      show ("-" ++ Nat.repr (n + 1)).toList = _
      simp
    rw [htext, List.getLast?_cons] at hc
    cases hlast : (Nat.repr (n + 1)).toList.getLast? with
    | none =>
      rw [hlast] at hc
      cases hc
      decide
    | some d =>
      rw [hlast] at hc
      cases hc
      exact getLast_repr (n + 1) d hlast

theorem key_trimmed (id : SlotId) : Text.trim id.key = id.key := by
  apply Text.trim_eq_self
  · intro c hc
    have hfirst : id.key.toList.head? = some 's' := by simp [key]
    rw [hfirst] at hc
    cases hc
    decide
  · intro c hc
    rw [key, String.toList_append, List.getLast?_append] at hc
    cases hlast : (toString id.slot).toList.getLast? with
    | some =>
      rw [hlast] at hc
      cases hc
      exact getLast_toString id.slot c hlast
    | none =>
      rw [hlast, String.toList_append, List.getLast?_append] at hc
      cases hc
      decide

theorem nonEmpty_source (id : SlotId) : Text.nonEmpty id.source = true := by
  have hfirst : id.source.toList.head? = some 'a' := by simp [source]
  simpa [Text.nonEmpty] using Text.trim_ne_empty hfirst (by decide)

theorem nonEmpty_owner (id : SlotId) : Text.nonEmpty id.owner = true := by
  have hfirst : id.owner.toList.head? = some 'a' := by simp [owner]
  simpa [Text.nonEmpty] using Text.trim_ne_empty hfirst (by decide)

variable (id : SlotId) (input : Value)

theorem canonical_scheduledInput : isCanonicalEventEnvelope (scheduledInput id input).envelope = true := by
  simp [isCanonicalEventEnvelope, scheduledInput, Event.field_cons, Event.record?, nonEmptyText, Value.string?,
    Value.record?, nonEmpty_source, nonEmpty_owner]

theorem eventPayload_scheduledInput : eventPayload (scheduledInput id input).envelope = id.data input := by
  rw [eventPayload, if_pos (canonical_scheduledInput id input)]
  simp [scheduledInput, Event.record?, Event.field_cons, Value.record?]

theorem persistedPayload_scheduledInput : persistedPayload (scheduledInput id input) = id.data input := by
  have hjournal : journalPayload (scheduledInput id input) = id.data input := by
    rw [journalPayload, eventPayload_scheduledInput]
    exact if_neg (by decide : "app.input.requested" ≠ "message.created")
  rw [persistedPayload, hjournal]
  exact if_neg (by decide : "app.input.requested" ≠ "escalation.created")

theorem isPersisted_scheduledInput : isPersisted (scheduledInput id input) = true := by
  have htype : Text.contains (scheduledInput id input).type '.' = true := by
    show Text.contains "app.input.requested" '.' = true
    decide
  rw [isPersisted, canonical_scheduledInput, htype]
  simp

theorem complete_publication (db : Ledger) : (id.publication input).complete db = id.publication input := by
  have htype : isEscalationFeedback (scheduledInput id input).type = false := by
    show isEscalationFeedback "app.input.requested" = false
    decide
  rw [Publication.complete, publication, completeEvent, htype]
  rfl

theorem key_publication : (id.publication input).key = id.key := by
  rw [Publication.key, publication, persistedPayload_scheduledInput]
  simpa [data, Event.string?, Event.field_cons, Value.string?] using id.key_trimmed

theorem key_ne_empty : id.key ≠ "" := by
  intro h
  have := congrArg String.length h
  simp [key] at this

theorem party_scheduledInput {name text : String}
    (hfield : (scheduledInput id input).envelope.field name = some (.str text)) (fallback : Option Value) :
    eventParty name (scheduledInput id input).envelope fallback = some text := by
  rw [eventParty, if_pos (canonical_scheduledInput id input), hfield]
  rfl

theorem stringField_data {keys : List String} (h : ∀ key ∈ keys, key ∉ ["appId", "idempotencyKey", "input", "source"]) :
    stringField (id.data input) keys = none := by
  rw [stringField, List.findSome?_eq_none_iff]
  intro key hkey
  have habsent : (id.data input).field key = none := by
    have hkeys := h key hkey
    simp only [List.mem_cons, not_or] at hkeys
    simp [data, hkeys, Event.field]
  rw [habsent]

theorem identity_publication : (id.publication input).identity = id.identity := by
  have hsource : (id.publication input).source = some id.source := by
    rw [Publication.source, eventSource, publication]
    exact id.party_scheduledInput input (by simp [scheduledInput, Event.field_cons]) _
  have howner : (id.publication input).owner = some id.owner := by
    rw [Publication.owner, eventOwner, publication]
    exact id.party_scheduledInput input (by simp [scheduledInput, Event.field_cons]) _
  have hcorrelated : correlated (scheduledInput id input) = id.data input := by
    have htarget : (scheduledInput id input).envelope.field "target" = none := by
      simp only [scheduledInput, Event.field_cons, String.reduceEq, if_false]
      rfl
    rw [correlated, correlatedWith, persistedPayload_scheduledInput, Event.record?, htarget]
    rfl
  have hscope : (id.publication input).scope = id.owner := by
    have hproject : (id.publication input).projectId = none := by
      simp only [Publication.projectId, publication, hcorrelated]
      exact id.stringField_data input (by decide)
    have htask : (id.publication input).taskId = none := by
      simp only [Publication.taskId, publication, hcorrelated]
      exact id.stringField_data input (by decide)
    have hworkflow : (id.publication input).workflowRunId = none := by
      simp only [Publication.workflowRunId, publication, hcorrelated]
      exact id.stringField_data input (by decide)
    have hsession : (id.publication input).sessionId = none := by
      simp only [Publication.sessionId, publication, hcorrelated]
      exact id.stringField_data input (by decide)
    rw [Publication.scope, hproject, htask, hworkflow, hsession, howner]
    rfl
  have hingress : (id.publication input).ingress = id.source := by
    rw [Publication.ingress, hsource]
    simp [publication, Text.trimmed?]
  rw [Publication.identity, hscope, hingress, key_publication]
  rfl

end SlotId

/-! ### Publication of a slot -/

section Publication

variable {db : Ledger} {id : SlotId} {input : Value} {stamp : Int}

theorem publish_slot (hnone : db.findKeyed id.identity = none) :
    ∃ db' receipt, publish db (id.publication input) stamp none = .ok (db', receipt) ∧
      db'.rows = db.rows ++ [(id.publication input).row db.nextId stamp] := by
  have hfeedback : isEscalationFeedback (id.publication input).event.type = false := by
    show isEscalationFeedback "app.input.requested" = false
    decide
  have hkeyed : insertKeyed db (id.publication input) stamp none = insertPublication db (id.publication input) stamp none := by
    rw [insertKeyed, SlotId.key_publication, if_neg id.key_ne_empty, SlotId.identity_publication, hnone]
  obtain ⟨db', receipt, hinsert⟩ : ∃ db' receipt,
      insertPublication db (id.publication input) stamp none = .ok (db', receipt) := by
    have hfence : fenceError db (id.publication input) stamp = none := rfl
    rw [insertPublication, hfence]
    dsimp only
    rw [hfeedback]
    exact ⟨_, _, rfl⟩
  refine ⟨db', some receipt, ?_, (insertPublication_ok hinsert).1⟩
  have hpersisted : isPersisted (id.publication input).event = true := id.isPersisted_scheduledInput input
  rw [publish, if_pos hpersisted, SlotId.complete_publication, hkeyed, hinsert]
  rfl

theorem publishScheduledEvent_later (db : Ledger) (p : Publication) (stamp : Int) (storage : Storage) :
    Ledger.Later db (publishScheduledEvent db p stamp storage).1 := by
  unfold publishScheduledEvent
  split
  · exact .refl
  · split
    case h_1 db' receipt hok =>
      refine Relation.ReflTransGen.single ⟨.publish p stamp none, trivial, ?_⟩
      simp [Ledger.next, hok]
    case h_2 => exact .refl

theorem publishScheduledInput_cases (db : Ledger) (id : SlotId) (input : Value) (stamp : Int) (storage : Storage) :
    (publishScheduledInput db id input stamp storage = (db, false) ∧ storage ≠ .works) ∨
      (publishScheduledInput db id input stamp storage = (db, true) ∧ db.findKeyed id.identity ≠ none) ∨
      ∃ db', publishScheduledInput db id input stamp storage = (db', true) ∧ db.findKeyed id.identity = none ∧
        db'.rows = db.rows ++ [(id.publication input).row db.nextId stamp] := by
  unfold publishScheduledInput
  split
  case isTrue hfails => exact .inl ⟨rfl, by rintro rfl; cases hfails⟩
  case isFalse =>
    split
    case h_1 row hrow => exact .inr (.inl ⟨rfl, by simp [hrow]⟩)
    case h_2 hnone =>
      unfold publishScheduledEvent
      split
      case h_1 error herror => exact .inl ⟨rfl, by rintro rfl; cases herror⟩
      case h_2 =>
        obtain ⟨db', receipt, hok, hrows⟩ : ∃ db' receipt,
            publish db { event := scheduledInput id input } stamp none = .ok (db', receipt) ∧
              db'.rows = db.rows ++ [(id.publication input).row db.nextId stamp] := publish_slot hnone
        refine .inr (.inr ⟨db', ?_, hnone, hrows⟩)
        rw [hok]

theorem publishScheduledInput_later (db : Ledger) (id : SlotId) (input : Value) (stamp : Int) (storage : Storage) :
    Ledger.Later db (publishScheduledInput db id input stamp storage).1 := by
  unfold publishScheduledInput
  split
  · exact .refl
  · split
    · exact .refl
    · exact publishScheduledEvent_later _ _ _ _

theorem identity_slot (id : SlotId) (input : Value) (n : Nat) (stamp : Int) :
    ((id.publication input).row n stamp).identity = some id.identity := by
  have hkey : (id.publication input).key ≠ "" := by
    rw [SlotId.key_publication]
    exact id.key_ne_empty
  rw [identity_row hkey, SlotId.identity_publication]

theorem input_slot (id : SlotId) (input : Value) (n : Nat) (stamp : Int) :
    ((id.publication input).row n stamp).data.field "input" = some input := by
  simp only [Publication.row, SlotId.publication, SlotId.persistedPayload_scheduledInput]
  simp [SlotId.data, Event.field_cons]

end Publication

/-! ### One activation -/

/-- What is known of the inputs that were journalled under an activation. -/
structure Activation.Sound (db : Ledger) (a : Activation) : Prop where
  increasing : a.published.Pairwise fun p q => p.slot < q.slot
  bounded : ∀ p ∈ a.published, ∃ last, a.lastSlot = some last ∧ p.slot ≤ last
  journalled : ∀ p ∈ a.published, ∃ row ∈ db.rows, row.identity = some p.id.identity ∧ row.data.field "input" = some p.input
  begun : ∀ p ∈ a.published, p.catchUp = .none → (a.activatedAt : ℚ) ≤ p.slot * p.intervalMs

namespace Activation

variable {db db' : Ledger} {a : Activation}

theorem Sound.later (h : a.Sound db) (hlater : Ledger.Later db db') : a.Sound db' where
  increasing := h.increasing
  bounded := h.bounded
  journalled p hp := by
    obtain ⟨row, hmem, hrow⟩ := h.journalled p hp
    exact ⟨row, hlater.rows.subset hmem, hrow⟩
  begun := h.begun

theorem sound_activate (db : Ledger) (schedule : Schedule) (now : Int) : (schedule.activate now).Sound db where
  increasing := .nil
  bounded p hp := by cases hp
  journalled p hp := by cases hp
  begun p hp := by cases hp

theorem Sound.advance (h : a.Sound db) {slot : Int} (hslot : ∀ last, a.lastSlot = some last → last < slot) :
    Activation.Sound db { a with lastSlot := some slot } where
  increasing := h.increasing
  bounded p hp := by
    obtain ⟨last, hlast, hle⟩ := h.bounded p hp
    exact ⟨slot, rfl, hle.trans (hslot last hlast).le⟩
  journalled := h.journalled
  begun := h.begun

theorem Sound.publish (h : a.Sound db) {p : SlotInput} (hslot : ∀ last, a.lastSlot = some last → last < p.slot)
    (hrow : ∃ row ∈ db.rows, row.identity = some p.id.identity ∧ row.data.field "input" = some p.input)
    (hbegun : p.catchUp = .none → (a.activatedAt : ℚ) ≤ p.slot * p.intervalMs) :
    Activation.Sound db { a with published := a.published ++ [p], lastSlot := some p.slot } where
  increasing := by
    rw [List.pairwise_append]
    refine ⟨h.increasing, List.pairwise_singleton _ _, fun q hq r hr => ?_⟩
    rw [List.mem_singleton.mp hr]
    obtain ⟨last, hlast, hle⟩ := h.bounded q hq
    exact hle.trans_lt (hslot last hlast)
  bounded q hq := by
    rcases List.mem_append.mp hq with hq | hq
    · obtain ⟨last, hlast, hle⟩ := h.bounded q hq
      exact ⟨p.slot, rfl, hle.trans (hslot last hlast).le⟩
    · rw [List.mem_singleton.mp hq]
      exact ⟨p.slot, rfl, le_rfl⟩
  journalled q hq := by
    rcases List.mem_append.mp hq with hq | hq
    · exact h.journalled q hq
    · rw [List.mem_singleton.mp hq]
      exact hrow
  begun q hq := by
    rcases List.mem_append.mp hq with hq | hq
    · exact h.begun q hq
    · rw [List.mem_singleton.mp hq]
      exact hbegun

end Activation

/-! ### Runs -/

namespace Scheduler

/-- What holds in every state. -/
structure Sound (s : Scheduler) : Prop where
  indexed : s.ledger.Indexed
  activations : ∀ key a, s.activations.get key = some a → a.Sound s.ledger

variable {s : Scheduler} {d : Declared} {scan : Scan}

variable {db : Ledger} {a : Activation} {s' : Scheduler}

theorem Sound.later (h : s.Sound) (hlater : Ledger.Later s.ledger db) : Sound { s with ledger := db } where
  indexed := hlater.indexed h.indexed
  activations key a ha := (h.activations key a ha).later hlater

theorem Sound.put (h : s.Sound) {key : String} (ha : a.Sound s.ledger) :
    Sound { s with activations := s.activations.put key a } where
  indexed := h.indexed
  activations key' b hb := by
    rw [Table.get_put] at hb
    split at hb
    · cases hb
      exact ha
    · exact h.activations key' b hb

theorem Sound.scanEvent (h : s.Sound) (ha : a.Sound s.ledger) (event : AgentEvent) :
    (s.scanEvent scan d a event).Sound := by
  unfold Scheduler.scanEvent
  dsimp only
  split
  · exact h
  case h_2 last hlast =>
    split
    · exact h
    case isFalse hslot =>
      have hlater := publishScheduledEvent_later s.ledger
        { event := scheduledFact ⟨d.appId, d.schedule.id, d.schedule.slotAt scan.now⟩ event, recordOnly := true } scan.stamp
        (scan.storage d.appId d.schedule.id)
      split
      · refine (h.later hlater).put ((ha.later hlater).advance fun last' hlast' => ?_)
        rw [hlast] at hlast'
        cases hlast'
        exact not_le.mp hslot
      · exact h.later hlater

theorem Sound.scanInput (h : s.Sound) (ha : a.Sound s.ledger) (input : Value) (catchUp : Option CatchUp) :
    (s.scanInput scan d a input catchUp).Sound := by
  unfold Scheduler.scanInput
  dsimp only
  split
  · exact h
  case isFalse hlast =>
    have hslot : ∀ last, a.lastSlot = some last → last < d.schedule.slotAt scan.now := by
      intro last heq
      rw [heq] at hlast
      simpa using hlast
    split
    · exact h.put (ha.advance hslot)
    case isFalse hbegun =>
      have hcases := publishScheduledInput_cases s.ledger (slotInput d scan.now input catchUp).id input scan.stamp
        (scan.storage d.appId d.schedule.id)
      have hlater := publishScheduledInput_later s.ledger (slotInput d scan.now input catchUp).id input scan.stamp
        (scan.storage d.appId d.schedule.id)
      rcases hcases with ⟨hr, -⟩ | ⟨hr, hfound⟩ | ⟨db, hr, _, hrows⟩
      · rw [hr]
        exact h
      · rw [hr]
        refine h.put ?_
        rw [journalled, if_neg fun hnew => hfound hnew.1]
        exact ha.advance hslot
      · rw [hr] at hlater ⊢
        have hmem : (SlotId.publication (slotInput d scan.now input catchUp).id input).row s.ledger.nextId scan.stamp ∈
            db.rows := by
          rw [hrows]
          exact List.mem_append_right _ List.mem_cons_self
        refine (h.later hlater).put ?_
        unfold journalled
        split
        · exact Activation.Sound.publish (p := slotInput d scan.now input catchUp) (ha.later hlater) hslot
            ⟨_, hmem, identity_slot _ input _ _, input_slot _ input _ _⟩
            fun hcatch => not_lt.mp fun hlt => hbegun ⟨hcatch, hlt⟩
        · exact (ha.later hlater).advance hslot

theorem Sound.scanSchedule (h : s.Sound) (scan : Scan) (d : Declared) : (scanSchedule scan s d).Sound := by
  unfold Scheduler.scanSchedule
  split
  · exact h
  · split
    · exact h
    case h_2 a ha =>
      split
      · exact h.scanEvent (h.activations _ a ha) _
      · exact h.scanInput (h.activations _ a ha) _ _

theorem Sound.foldl (h : s.Sound) (scan : Scan) (ds : List Declared) : (ds.foldl (Scheduler.scanSchedule scan) s).Sound := by
  induction ds generalizing s with
  | nil => exact h
  | cons d _ ih => exact ih (h.scanSchedule scan d)

theorem Sound.scanNow (h : s.Sound) (scan : Scan) : (s.scanNow scan).Sound := by
  unfold Scheduler.scanNow
  split
  · exact h
  · exact h.foldl scan _

theorem refresh_cases (loaded : LoadedApps) (clock : String → String → Int) (activations : Table String Activation)
    {key : String} (h : (refreshScheduleActivations loaded clock activations).get key = some a) :
    activations.get key = some a ∨ ∃ (schedule : Schedule) (now : Int), a = schedule.activate now := by
  rw [refreshScheduleActivations, Table.get_filter_eq_some_iff] at h
  obtain ⟨h, -⟩ := h
  revert h
  generalize loaded.declared = ds
  induction ds generalizing activations with
  | nil => exact .inl
  | cons d _ ih =>
    intro h
    rcases ih _ h with hget | hnew
    · unfold Declared.refresh at hget
      dsimp only at hget
      split at hget
      · exact .inl hget
      · rw [Table.get_put] at hget
        split at hget
        · cases hget
          exact .inr ⟨_, _, rfl⟩
        · exact .inl hget
    · exact .inr hnew

theorem Sound.replace (h : s.Sound) (entries : LoadedApps) (clock : String → String → Int) :
    (s.replace entries clock).Sound where
  indexed := h.indexed
  activations key a ha := by
    rcases refresh_cases _ _ _ ha with hget | ⟨_, _, rfl⟩
    · exact h.activations key a hget
    · exact Activation.sound_activate _ _ _

theorem Sound.next (h : s.Sound) (action : Action) : (s.next action).Sound := by
  cases action with
  | scan scan => exact h.scanNow scan
  | reload entries clock => exact h.replace entries clock
  | rejectReload => exact ⟨h.indexed, h.activations⟩
  | close => exact ⟨h.indexed, fun key a ha => by simp [Scheduler.next, Scheduler.close] at ha⟩
  | restart enabled entries clock =>
    refine Sound.replace (s := { s with enabled := enabled, closed := false, loaded := .empty, activations := ∅ })
      ⟨h.indexed, fun key a ha => ?_⟩ entries clock
    simp at ha
  | journal action =>
    exact h.later (Relation.ReflTransGen.single ⟨action, trivial, rfl⟩)

theorem reachable_initial : Reachable initial := Reaches.start rfl

theorem Reachable.next (h : Reachable s) (action : Action) : Reachable (s.next action) := Reaches.step h trivial

theorem Reachable.sound (h : Reachable s) : s.Sound := by
  refine Reaches.invariant (fun s hs => ?_) (fun s action hsound _ => hsound.next action) h
  subst hs
  exact ⟨⟨.nil, .nil⟩, fun key a ha => by simp [initial] at ha⟩

/-! ### Eligible slots -/

def Journalled (db : Ledger) (id : SlotId) : Prop := ∃ row ∈ db.rows, row.identity = some id.identity

theorem Journalled.later {db' : Ledger} {id : SlotId} (h : Journalled db id) (hlater : Ledger.Later db db') :
    Journalled db' id := by
  obtain ⟨row, hmem, hrow⟩ := h
  exact ⟨row, hlater.rows.subset hmem, hrow⟩

/-- The slot of `now`. -/
def slotId (d : Declared) (now : Int) : SlotId := ⟨d.appId, d.schedule.id, d.schedule.slotAt now⟩

/-- A scan at `now` tries to publish the slot of an input schedule: the schedule is enabled, its activation has not
reached the slot, and the slot did not begin before the activation if it must not be caught up on. -/
def Eligible (s : Scheduler) (d : Declared) (now : Int) : Prop :=
  s.closed = false ∧ s.enabled = true ∧ d.schedule.enabled ≠ some false ∧
    ∃ a input catchUp, s.activations.get d.key = some a ∧ d.schedule.target = .input input catchUp ∧
      (∀ last, a.lastSlot = some last → last < d.schedule.slotAt now) ∧
      ¬(catchUp.getD .latest = .none ∧ d.schedule.slotAt now * d.schedule.intervalMs < a.activatedAt)

theorem Eligible.congr {now now' : Int} (h : s.Eligible d now) (hclosed : s'.closed = s.closed)
    (henabled : s'.enabled = s.enabled) (hget : s'.activations.get d.key = s.activations.get d.key)
    (hslot : d.schedule.slotAt now' = d.schedule.slotAt now) : s'.Eligible d now' := by
  unfold Eligible
  rw [hclosed, henabled, hget, hslot]
  exact h

/-- A turn of the scan leaves the declarations and the other records. -/
structure Frame (s s' : Scheduler) (key : String) : Prop where
  closed : s'.closed = s.closed
  enabled : s'.enabled = s.enabled
  loaded : s'.loaded = s.loaded
  ledger : Ledger.Later s.ledger s'.ledger
  others : ∀ key', key' ≠ key → s'.activations.get key' = s.activations.get key'

theorem Frame.refl (s : Scheduler) (key : String) : Frame s s key := ⟨rfl, rfl, rfl, .refl, fun _ _ => rfl⟩

theorem Frame.put (hlater : Ledger.Later s.ledger db) (key : String) (a : Activation) :
    Frame s { s with ledger := db, activations := s.activations.put key a } key :=
  ⟨rfl, rfl, rfl, hlater, fun _ hne => Table.get_put_ne _ _ hne⟩

theorem frame_scanSchedule (scan : Scan) (s : Scheduler) (d : Declared) : Frame s (scanSchedule scan s d) d.key := by
  unfold scanSchedule
  split
  · exact .refl s _
  · split
    · exact .refl s _
    case h_2 a ha =>
      split
      · unfold scanEvent
        dsimp only
        split
        · exact .refl s _
        · split
          · exact .refl s _
          · split
            · exact .put (publishScheduledEvent_later _ _ _ _) _ _
            · exact ⟨rfl, rfl, rfl, publishScheduledEvent_later _ _ _ _, fun _ _ => rfl⟩
      · unfold scanInput
        dsimp only
        split
        · exact .refl s _
        · split
          · exact .put .refl _ _
          · split
            · exact .put (publishScheduledInput_later _ _ _ _ _) _ _
            · exact ⟨rfl, rfl, rfl, publishScheduledInput_later _ _ _ _ _, fun _ _ => rfl⟩

theorem foldl_frame (scan : Scan) (ds : List Declared) (s : Scheduler) :
    (ds.foldl (scanSchedule scan) s).closed = s.closed ∧ (ds.foldl (scanSchedule scan) s).enabled = s.enabled ∧
      (ds.foldl (scanSchedule scan) s).loaded = s.loaded ∧
      Ledger.Later s.ledger (ds.foldl (scanSchedule scan) s).ledger ∧
      ∀ key, (∀ d ∈ ds, d.key ≠ key) → (ds.foldl (scanSchedule scan) s).activations.get key = s.activations.get key := by
  induction ds generalizing s with
  | nil => exact ⟨rfl, rfl, rfl, .refl, fun _ _ => rfl⟩
  | cons d _ ih =>
    have hturn := frame_scanSchedule scan s d
    obtain ⟨hclosed, henabled, hloaded, hlater, hget⟩ := ih (scanSchedule scan s d)
    refine ⟨hclosed.trans hturn.closed, henabled.trans hturn.enabled, hloaded.trans hturn.loaded,
      hturn.ledger.trans hlater, fun key hkeys => ?_⟩
    rw [List.foldl_cons, hget key fun d' hd' => hkeys d' (List.mem_cons_of_mem d hd')]
    exact hturn.others key (hkeys d List.mem_cons_self).symm

/-- The turn of an eligible slot: it is in the journal afterwards, or the database failed and the record is as before. -/
theorem Eligible.turn (h : s.Eligible d scan.now) :
    Journalled (scanSchedule scan s d).ledger (slotId d scan.now) ∨
      ((scanSchedule scan s d).activations.get d.key = s.activations.get d.key ∧
        scan.storage d.appId d.schedule.id ≠ .works) := by
  obtain ⟨-, -, henabled, a, input, catchUp, ha, htarget, hslot, hbegun⟩ := h
  have hlast : ¬(a.lastSlot.any fun last => decide (d.schedule.slotAt scan.now ≤ last)) = true := by
    cases hlast : a.lastSlot with
    | none => simp
    | some last => simpa using hslot last hlast
  have hturn : scanSchedule scan s d = s.scanInput scan d a input catchUp := by
    rw [scanSchedule, if_neg henabled, ha]
    dsimp only
    rw [htarget]
  rw [hturn, scanInput]
  dsimp only
  rw [if_neg hlast, if_neg hbegun]
  rcases publishScheduledInput_cases s.ledger (slotInput d scan.now input catchUp).id input scan.stamp
    (scan.storage d.appId d.schedule.id) with ⟨hr, hfails⟩ | ⟨hr, hfound⟩ | ⟨db, hr, -, hrows⟩
  · rw [hr]
    exact .inr ⟨rfl, hfails⟩
  · rw [hr]
    obtain ⟨row, hrow⟩ := Option.ne_none_iff_exists'.mp hfound
    have hid : row.identity = some (slotInput d scan.now input catchUp).id.identity := by simpa using List.find?_some hrow
    exact .inl ⟨row, List.mem_of_find?_eq_some hrow, hid⟩
  · rw [hr]
    refine .inl ⟨_, ?_, identity_slot (slotInput d scan.now input catchUp).id input s.ledger.nextId scan.stamp⟩
    show _ ∈ db.rows
    rw [hrows]
    exact List.mem_append_right _ List.mem_cons_self

theorem Eligible.scanned (h : s.Eligible d scan.now) (hkeys : (s.loaded.declared.map Declared.key).Nodup)
    (hmem : d ∈ s.loaded.declared) :
    Journalled (s.scanNow scan).ledger (slotId d scan.now) ∨
      ((s.scanNow scan).activations.get d.key = s.activations.get d.key ∧
        scan.storage d.appId d.schedule.id ≠ .works) := by
  obtain ⟨before, after, hsplit⟩ := List.append_of_mem hmem
  rw [hsplit, List.map_append, List.map_cons, List.nodup_append, List.nodup_cons] at hkeys
  obtain ⟨-, ⟨hafter, -⟩, hbefore⟩ := hkeys
  have hbefore' : ∀ d' ∈ before, d'.key ≠ d.key := fun d' hd' =>
    hbefore _ (List.mem_map_of_mem hd') _ List.mem_cons_self
  have hafter' : ∀ d' ∈ after, d'.key ≠ d.key := fun d' hd' heq => hafter (heq ▸ List.mem_map_of_mem hd')
  have hscan : s.scanNow scan = after.foldl (scanSchedule scan)
      (scanSchedule scan (before.foldl (scanSchedule scan) s) d) := by
    rw [scanNow, h.1, h.2.1, hsplit, List.foldl_append]
    rfl
  obtain ⟨hclosed, henabled, -, -, hget⟩ := foldl_frame scan before s
  obtain ⟨-, -, -, hlater, hget'⟩ := foldl_frame scan after (scanSchedule scan (before.foldl (scanSchedule scan) s) d)
  rw [hscan]
  rcases (h.congr hclosed henabled (hget d.key hbefore') rfl).turn with hdone | ⟨hkept, hfails⟩
  · exact .inl (hdone.later hlater)
  · exact .inr ⟨by rw [hget' d.key hafter', hkept, hget d.key hbefore'], hfails⟩

theorem scanNow_frame (s : Scheduler) (scan : Scan) :
    (s.scanNow scan).closed = s.closed ∧ (s.scanNow scan).enabled = s.enabled ∧ (s.scanNow scan).loaded = s.loaded ∧
      Ledger.Later s.ledger (s.scanNow scan).ledger := by
  unfold scanNow
  split
  · exact ⟨rfl, rfl, rfl, .refl⟩
  · obtain ⟨hclosed, henabled, hloaded, hlater, -⟩ := foldl_frame scan s.loaded.declared s
    exact ⟨hclosed, henabled, hloaded, hlater⟩

/-! ### The journal only grows -/

theorem next_later (s : Scheduler) (action : Action) : Ledger.Later s.ledger (s.next action).ledger := by
  cases action with
  | scan scan => exact (s.scanNow_frame scan).2.2.2
  | reload => exact .refl
  | rejectReload => exact .refl
  | close => exact .refl
  | restart => exact .refl
  | journal action => exact Relation.ReflTransGen.single ⟨action, trivial, rfl⟩

theorem Later.ledger (h : Later s s') : Ledger.Later s.ledger s'.ledger := by
  induction h with
  | refl => exact .refl
  | @tail mid _ _ hlast ih =>
    obtain ⟨action, -, rfl⟩ := hlast
    exact ih.trans (mid.next_later action)

theorem Later.reachable (h : Later s s') (hs : Reachable s) : Reachable s' := by
  obtain ⟨s₀, hinit, hsteps⟩ := hs
  exact ⟨s₀, hinit, hsteps.trans h⟩

/-- What is promised of a state: the slots that were published stay as they are, and a slot that is not published
by a scan is published by the next one that reaches the database. -/
structure PublishesOnce (s : Scheduler) : Prop where
  once : ∀ (id : SlotId) (row row' : LedgerRow), row ∈ s.ledger.rows → row' ∈ s.ledger.rows →
    row.identity = some id.identity → row'.identity = some id.identity → row = row'
  first : ∀ (id : SlotId) (row row' : LedgerRow) (s' : Scheduler), Later s s' → row ∈ s.ledger.rows →
    row.identity = some id.identity → row' ∈ s'.ledger.rows → row'.identity = some id.identity → row' = row
  journalled : ∀ key a, s.activations.get key = some a → ∀ p ∈ a.published,
    ∃ row ∈ s.ledger.rows, row.identity = some p.id.identity ∧ row.data.field "input" = some p.input
  increasing : ∀ key a, s.activations.get key = some a → a.published.Pairwise fun p q => p.slot < q.slot
  eligible : ∀ (d : Declared) (scan scan' : Scan), d ∈ s.loaded.declared → s.Eligible d scan.now →
    ¬Journalled (s.next (.scan scan)).ledger (slotId d scan.now) → d.schedule.slotAt scan'.now = d.schedule.slotAt scan.now →
    (s.next (.scan scan)).Eligible d scan'.now ∧
      (scan'.storage d.appId d.schedule.id = .works →
        Journalled ((s.next (.scan scan)).next (.scan scan')).ledger (slotId d scan.now))
  rejected : ∀ entries clock, s.next (.rejectReload entries clock) = s
  caughtUp : ∀ key a, s.activations.get key = some a → ∀ p ∈ a.published, p.catchUp = .none →
    (a.activatedAt : ℚ) ≤ p.slot * p.intervalMs

theorem Sound.once (h : s.Sound) {identity : EventIdentityKey} {row row' : LedgerRow} (hrow : row ∈ s.ledger.rows)
    (hrow' : row' ∈ s.ledger.rows) (hid : row.identity = some identity) (hid' : row'.identity = some identity) :
    row = row' := by
  have hfound := h.indexed.findKeyed_eq hrow hid
  have hfound' := h.indexed.findKeyed_eq hrow' hid'
  exact Option.some.inj (hfound.symm.trans hfound')

/-- Scheduled inputs are published once, in every state whose declarations keep their records apart. -/
theorem publishes_once (h : Reachable s) (hkeys : (s.loaded.declared.map Declared.key).Nodup) : s.PublishesOnce where
  once id row row' hrow hrow' hid hid' := h.sound.once hrow hrow' hid hid'
  first id row row' s' hlater hrow hid hrow' hid' :=
    ((hlater.reachable h).sound.once (hlater.ledger.rows.subset hrow) hrow' hid hid').symm
  journalled key a ha := (h.sound.activations key a ha).journalled
  increasing key a ha := (h.sound.activations key a ha).increasing
  eligible d scan scan' hmem heligible hfailed hslot := by
    obtain ⟨hclosed, henabled, hloaded, -⟩ := s.scanNow_frame scan
    rcases heligible.scanned hkeys hmem with hdone | ⟨hget, -⟩
    · exact absurd hdone hfailed
    · have hagain : (s.next (.scan scan)).Eligible d scan'.now := heligible.congr hclosed henabled hget hslot
      refine ⟨hagain, fun hworks => ?_⟩
      have hid : slotId d scan.now = slotId d scan'.now := by rw [slotId, slotId, hslot]
      have hloaded' : (s.next (.scan scan)).loaded = s.loaded := hloaded
      rcases hagain.scanned (hloaded' ▸ hkeys) (hloaded' ▸ hmem) with hdone | ⟨-, hfails⟩
      · exact hid ▸ hdone
      · exact absurd hworks hfails
  rejected entries clock := rfl
  caughtUp key a ha := (h.sound.activations key a ha).begun

end Scheduler

namespace Sample.Schedules

def app (appId scheduleId : String) (intervalMs : ℚ) (positive : 0 < intervalMs) : AppSchedules :=
  ⟨appId, [⟨scheduleId, none, intervalMs, .input (.obj [("kind", .str "check")]) none, positive⟩], List.nodup_singleton _⟩

def pair : LoadedApps := ⟨[app "a" "b" 1000 (by norm_num), app "c" "b" 10 (by norm_num)], by decide⟩

def shared : LoadedApps := ⟨[app "a" "b/c" 1000 (by norm_num), app "a/b" "c" 10 (by norm_num)], by decide⟩

def started (loaded : LoadedApps) : Scheduler := Scheduler.initial.next (.restart true loaded fun _ _ => 0)

theorem started_reachable (loaded : LoadedApps) : Scheduler.Reachable (started loaded) :=
  Scheduler.reachable_initial.next _

def refusing : Scan := ⟨5000, 5000, fun appId _ => if appId = "a" then ⟨false, some "database is locked"⟩ else .works⟩

def slow : Declared := ⟨"a", ⟨"b/c", none, 1000, .input (.obj [("kind", .str "check")]) none, by norm_num⟩⟩

def fast : Declared := ⟨"a/b", ⟨"c", none, 10, .input (.obj [("kind", .str "check")]) none, by norm_num⟩⟩

def working : Scan := ⟨5000, 5000, fun _ _ => .works⟩

end Sample.Schedules

open Sample.Schedules in
theorem Scheduler.publishes_once_pair :
    ((started pair).next (.scan working)).Reachable ∧ ((started pair).next (.scan working)).PublishesOnce := by
  have hreach := (started_reachable pair).next (.scan working)
  have hloaded : ((started pair).next (.scan working)).loaded = pair := ((started pair).scanNow_frame working).2.2.1
  exact ⟨hreach, Scheduler.publishes_once hreach (by rw [hloaded]; decide)⟩

open Sample.Schedules in
/-- A slot whose publication fails is given up when another schedule has advanced the same record. -/
theorem shared_record_skips : (started shared).Reachable ∧ ¬(started shared).PublishesOnce := by
  refine ⟨started_reachable shared, fun h => ?_⟩
  have hmem : slow ∈ (started shared).loaded.declared := List.mem_cons_self
  have heligible : (started shared).Eligible slow 5000 := by
    refine ⟨rfl, rfl, by decide, fast.schedule.activate 0, _, none, by decide +kernel, rfl, ?_, ?_⟩
    · intro last hlast
      cases hlast
    · rintro ⟨hnone, -⟩
      cases hnone
  have hfailed : ¬Scheduler.Journalled ((started shared).next (.scan refusing)).ledger (Scheduler.slotId slow 5000) := by
    unfold Scheduler.Journalled
    decide +kernel
  have hlast : (((started shared).next (.scan refusing)).activations.get slow.key).bind Activation.lastSlot = some 500 := by
    decide +kernel
  obtain ⟨-, -, -, a, -, -, ha, -, hslot, -⟩ := (h.eligible slow refusing refusing hmem heligible hfailed rfl).1
  rw [ha] at hlast
  have hlt : (500 : Int) < slow.schedule.slotAt 5000 := hslot 500 hlast
  revert hlt
  decide +kernel

end MayAgent
