import MayAgent.Host.Writer
import MayAgent.Lib.Select

/-!
# Keyed publications

The journal only grows, and a key stands in at most one row of its type, ingress source and scope. So a
keyed event that is published again finds its row, as long as the writer completes it in the same way: an
answer to an escalation without an address is completed from what is known of the escalation at that time,
and its scope and its digest follow.
-/

namespace MayAgent

/-! ### What an insertion does -/

variable {db db' : Ledger} {p : Publication} {now : Int} {projection : Option String} {r : Receipt}

theorem persistExactTaskWake_rows {target : Option Value} {eventId : Nat}
    (h : persistExactTaskWake db target eventId = .ok db') : db'.rows = db.rows := by
  unfold persistExactTaskWake at h
  split at h
  · split at h
    · split at h
      · cases h
        rfl
      · cases h
    · cases h
      rfl
  · cases h
    rfl

theorem insertPublication_ok
    (h : insertPublication db p now projection = .ok (db', r)) :
    db'.rows = db.rows ++ [p.row db.nextId now] ∧ r = ⟨db.nextId, false⟩ ∧ fenceError db p now = none := by
  unfold insertPublication at h
  split at h
  · cases h
  case h_2 hfence =>
    dsimp only at h
    split at h
    · cases h
    · cases h
    case h_3 woken hwoken =>
      cases h
      refine ⟨?_, rfl, hfence⟩
      show woken.rows = _
      split at hwoken
      · rw [persistExactTaskWake_rows hwoken]
      · cases hwoken
        rfl

theorem insertKeyed_ok
    (h : insertKeyed db p now projection = .ok (db', r)) :
    (∃ row, p.key ≠ "" ∧ db.findKeyed p.identity = some row ∧ row.idempotencyHash = some p.hash ∧ db' = db ∧
        r = ⟨row.id, true⟩) ∨
      ((p.key = "" ∨ db.findKeyed p.identity = none) ∧ insertPublication db p now projection = .ok (db', r)) := by
  unfold insertKeyed at h
  split at h
  case isTrue hkey => exact .inr ⟨.inl hkey, h⟩
  case isFalse hkey =>
    split at h
    case h_1 row hrow =>
      split at h
      case isTrue hhash =>
        cases h
        exact .inl ⟨row, hkey, hrow, hhash, rfl, rfl⟩
      case isFalse => cases h
    case h_2 hnone => exact .inr ⟨.inr hnone, h⟩

theorem publish_ok {r : Option Receipt}
    (h : publish db p now projection = .ok (db', r)) :
    (isPersisted p.event = false ∧ db' = db ∧ r = none) ∨
      ∃ receipt, r = some receipt ∧ isPersisted p.event = true ∧
        insertKeyed db (p.complete db) now projection = .ok (db', receipt) := by
  unfold publish at h
  split at h
  case isTrue hpersisted =>
    cases hinsert : insertKeyed db (p.complete db) now projection with
    | error =>
      rw [hinsert] at h
      cases h
    | ok result =>
      obtain ⟨_, receipt⟩ := result
      rw [hinsert] at h
      cases h
      exact .inr ⟨receipt, rfl, hpersisted, rfl⟩
  case isFalse hpersisted =>
    cases h
    exact .inl ⟨by simpa using hpersisted, rfl, rfl⟩

/-! ### The journal -/

/-- Rows have increasing ids, and no two of them the same key. -/
structure Ledger.Indexed (db : Ledger) : Prop where
  ids : db.rows.Pairwise fun a b => a.id < b.id
  keys : db.rows.Pairwise fun a b => ∀ identity, a.identity = some identity → b.identity ≠ some identity

namespace Ledger

variable {db db' : Ledger}

theorem id_lt_nextId {row : LedgerRow} (h : row ∈ db.rows) : row.id < db.nextId := by
  exact Nat.lt_succ_of_le (le_foldl_max (List.mem_map_of_mem h) 0)

theorem Indexed.append (h : db.Indexed) (hrows : db'.rows = db.rows ++ [p.row db.nextId now])
    (hfresh : p.key = "" ∨ db.findKeyed p.identity = none) : db'.Indexed := by
  refine ⟨?_, ?_⟩ <;> rw [hrows, List.pairwise_append]
  · refine ⟨h.ids, List.pairwise_singleton _ _, fun row hrow new hnew => ?_⟩
    rw [List.mem_singleton.mp hnew]
    exact id_lt_nextId hrow
  · refine ⟨h.keys, List.pairwise_singleton _ _, fun row hrow new hnew identity hrowid hnewid => ?_⟩
    rw [List.mem_singleton.mp hnew] at hnewid
    rcases hfresh with hkey | hnone
    · simp [LedgerRow.identity, Publication.row, hkey] at hnewid
    · have hne : p.key ≠ "" := fun hkey => by simp [LedgerRow.identity, Publication.row, hkey] at hnewid
      have hsame : p.identity = identity := by
        simpa [LedgerRow.identity, Publication.row, hne, Publication.identity] using hnewid
      have := List.find?_eq_none.mp hnone row hrow
      rw [hrowid, hsame] at this
      exact this (beq_self_eq_true _)

/-- What an action does to the rows: nothing, or it appends the row of a publication with a key of its own. -/
theorem next_rows (db : Ledger) (action : LedgerAction) :
    (db.next action).rows = db.rows ∨
      ∃ (p : Publication) (now : Int), (p.key = "" ∨ db.findKeyed p.identity = none) ∧
        (db.next action).rows = db.rows ++ [p.row db.nextId now] := by
  cases action with
  | publish p now =>
    unfold Ledger.next
    dsimp only
    split
    case h_1 db' r hok =>
      rcases publish_ok hok with ⟨-, rfl, -⟩ | ⟨_, -, -, hinsert⟩
      · exact .inl rfl
      · rcases insertKeyed_ok hinsert with ⟨_, -, -, -, rfl, -⟩ | ⟨hfresh, hinserted⟩
        · exact .inl rfl
        · exact .inr ⟨p.complete db, now, hfresh, (insertPublication_ok hinserted).1⟩
    case h_2 => exact .inl rfl
  | record => exact .inl rfl
  | sweepPairs => exact .inl rfl

theorem Indexed.of_rows (h : db.Indexed) (hrows : db'.rows = db.rows) : db'.Indexed :=
  ⟨hrows ▸ h.ids, hrows ▸ h.keys⟩

theorem Indexed.publish (h : db.Indexed) {r : Option Receipt}
    (hok : MayAgent.publish db p now projection = .ok (db', r)) : db'.Indexed := by
  rcases publish_ok hok with ⟨-, rfl, -⟩ | ⟨_, -, -, hinsert⟩
  · exact h
  · rcases insertKeyed_ok hinsert with ⟨_, -, -, -, rfl, -⟩ | ⟨hfresh, hinserted⟩
    · exact h
    · exact h.append (insertPublication_ok hinserted).1 hfresh

theorem Indexed.next (h : db.Indexed) (action : LedgerAction) : (db.next action).Indexed := by
  rcases db.next_rows action with hsame | ⟨p, _, hfresh, hrows⟩
  · exact h.of_rows hsame
  · exact h.append hrows hfresh

theorem Reachable.indexed {ok : Ledger → LedgerAction → Prop} (h : Reachable ok db) : db.Indexed := by
  refine Reaches.invariant (fun db hdb => ?_) (fun db action hindexed _ => hindexed.next action) h
  subst hdb
  exact ⟨.nil, .nil⟩

theorem Later.rows (h : Later db db') : db.rows <+: db'.rows := by
  induction h with
  | refl => exact List.prefix_refl _
  | @tail mid _ _ hlast ih =>
    obtain ⟨action, -, rfl⟩ := hlast
    rcases mid.next_rows action with hsame | ⟨p, _, -, hrows⟩
    · rwa [hsame]
    · rw [hrows]
      exact ih.trans (List.prefix_append _ _)

theorem Later.indexed (h : Later db db') (hdb : db.Indexed) : db'.Indexed := by
  induction h with
  | refl => exact hdb
  | tail _ hlast ih =>
    obtain ⟨action, -, rfl⟩ := hlast
    exact ih.next action

theorem Indexed.findKeyed_eq (h : db.Indexed) {row : LedgerRow} {identity : EventIdentityKey} (hmem : row ∈ db.rows)
    (hrow : row.identity = some identity) : db.findKeyed identity = some row := by
  obtain ⟨found, hfound⟩ : ∃ found, db.findKeyed identity = some found := by
    refine Option.isSome_iff_exists.mp (List.find?_isSome.mpr ⟨row, hmem, ?_⟩)
    simp [hrow]
  have hfoundid : found.identity = some identity := by simpa using List.find?_some hfound
  have hfoundmem := List.mem_of_find?_eq_some hfound
  rw [hfound]
  by_contra hne
  have hsymm : Std.Symm fun a b : LedgerRow => ∀ identity, a.identity = some identity → b.identity ≠ some identity :=
    ⟨fun a b hab identity hb ha => hab identity ha hb⟩
  exact h.keys.forall hmem hfoundmem (fun heq => hne (heq ▸ rfl)) identity hrow hfoundid

theorem Indexed.eq_of_id (h : db.Indexed) {a b : LedgerRow} (ha : a ∈ db.rows) (hb : b ∈ db.rows) (hid : a.id = b.id) :
    a = b := by
  by_contra hne
  have hdistinct : db.rows.Pairwise fun a b => a.id ≠ b.id := h.ids.imp fun hlt => Nat.ne_of_lt hlt
  have hsymm : Std.Symm fun a b : LedgerRow => a.id ≠ b.id := ⟨fun _ _ hab => hab.symm⟩
  exact hdistinct.forall ha hb hne hid

end Ledger

/-! ### Completion -/

/-- The two databases give an answer to an escalation the same Task. -/
def SameFeedback (db db' : Ledger) (event : AgentEvent) : Prop :=
  isEscalationFeedback event.type = true → feedbackTarget db event = feedbackTarget db' event

theorem SameFeedback.completeEvent {event : AgentEvent} (h : SameFeedback db db' event) :
    completeEvent db event = completeEvent db' event := by
  unfold MayAgent.completeEvent
  split
  case isTrue hfeedback => rw [h hfeedback]
  case isFalse => rfl

section AddressFeedback

variable {event : AgentEvent} {target target' : Option (String × String)} {interfaceInput : Bool}

def feedbackRoute (target : Option (String × String)) : Value := .str (if target.isSome then "task" else "unresolved")

theorem field_addressFeedback (event : AgentEvent) (target : Option (String × String)) (name : String) :
    (addressFeedback event target).envelope.field name =
      if name = "data" then some (.obj ((eventPayload event.envelope).assign "feedbackRoute" (feedbackRoute target)))
      else if name = "target" then (target.map targetValue).or (event.envelope.field "target")
      else event.envelope.field name := by
  cases target with
  | none =>
    show (event.envelope.assign "data" _).field name = _
    rw [Event.field_assign]
    by_cases htarget : name = "target" <;> simp [htarget, feedbackRoute]
  | some target =>
    show ((event.envelope.assign "target" _).assign "data" _).field name = _
    rw [Event.field_assign, Event.field_assign]
    by_cases htarget : name = "target" <;> simp [htarget, feedbackRoute]

theorem type_addressFeedback (event : AgentEvent) (target : Option (String × String)) :
    (addressFeedback event target).type = event.type := by
  cases target <;> rfl

theorem type_completeEvent (db : Ledger) (event : AgentEvent) : (completeEvent db event).type = event.type := by
  unfold completeEvent
  split
  · exact type_addressFeedback event _
  · rfl

theorem canonical_addressFeedback (event : AgentEvent) (target : Option (String × String)) :
    isCanonicalEventEnvelope (addressFeedback event target).envelope =
      (nonEmptyText (event.envelope.field "source") && nonEmptyText (event.envelope.field "owner")) := by
  have hdata : (addressFeedback event target).envelope.record? "data" =
      some ((eventPayload event.envelope).assign "feedbackRoute" (feedbackRoute target)) := by
    simp [Event.record?, field_addressFeedback, Value.record?]
  unfold isCanonicalEventEnvelope
  rw [hdata, field_addressFeedback, field_addressFeedback]
  simp

theorem persistedPayload_addressFeedback (hfeedback : isEscalationFeedback event.type = true) :
    persistedPayload (addressFeedback event target) =
      if isCanonicalEventEnvelope (addressFeedback event target).envelope then
        (eventPayload event.envelope).assign "feedbackRoute" (feedbackRoute target)
      else (addressFeedback event target).envelope.filter fun entry => entry.1 != "type" := by
  have htype : event.type ≠ "escalation.created" ∧ event.type ≠ "message.created" := by
    constructor <;> intro h <;> rw [h] at hfeedback <;> revert hfeedback <;> decide
  unfold persistedPayload normalizePersistedEscalationPayload journalPayload
  rw [type_addressFeedback, if_neg htype.1, if_neg htype.2]
  unfold eventPayload
  split
  case isTrue => simp [Event.record?, field_addressFeedback, Value.record?]; rfl
  case isFalse => rfl

theorem field_hashOf {payload : Event} (h : isCanonicalEventEnvelope event.envelope = true) {name : String}
    (hname : isHashed interfaceInput name = true) :
    (hashOf event payload interfaceInput).field name = event.envelope.field name := by
  have hdata : name ≠ "data" := by
    rintro rfl
    simp [isHashed] at hname
  rw [hashOf, if_pos h, Event.field_assign, if_neg hdata, Event.field_filter (isHashed interfaceInput), if_pos hname]

theorem hash_addressFeedback (hfeedback : isEscalationFeedback event.type = true) :
    ∃ read : Event → Option Value × Option Value, ∀ target,
      read (idempotencyHash (addressFeedback event target) interfaceInput) =
        (some (feedbackRoute target), (target.map targetValue).or (event.envelope.field "target")) := by
  cases hcanonical : nonEmptyText (event.envelope.field "source") && nonEmptyText (event.envelope.field "owner") with
  | true =>
    refine ⟨fun hash => ((hash.record? "data").bind fun data => Event.field data "feedbackRoute", hash.field "target"),
      fun target => ?_⟩
    have hcanonical' := (canonical_addressFeedback event target).trans hcanonical
    refine Prod.ext ?_ ?_
    · rw [idempotencyHash, persistedPayload_addressFeedback hfeedback, hashOf, hcanonical', if_pos rfl, if_pos rfl]
      simp [Event.record?, Event.field_assign, Value.record?]
    · dsimp only
      rw [idempotencyHash, field_hashOf hcanonical' (by simp [isHashed]), field_addressFeedback]
      simp
  | false =>
    refine ⟨fun hash => ((hash.record? "data").bind fun payload => (payload.record? "data").bind fun data =>
      Event.field data "feedbackRoute", (hash.record? "data").bind fun payload => Event.field payload "target"),
      fun target => ?_⟩
    rw [idempotencyHash, hashOf, persistedPayload_addressFeedback hfeedback, canonical_addressFeedback, hcanonical,
      if_neg Bool.false_ne_true,
      if_neg Bool.false_ne_true]
    have hpayload : ∀ name, name ≠ "timestamp" → name ≠ "type" →
        Event.field (((addressFeedback event target).envelope.filter fun entry => entry.1 != "type").filter
          fun entry => entry.1 != "timestamp") name = (addressFeedback event target).envelope.field name := by
      intro name htime htype
      rw [Event.field_filter (· != "timestamp"), Event.field_filter (· != "type")]
      simp [htime, htype]
    refine Prod.ext ?_ ?_
    · simp [Event.record?, Event.field_cons, Value.record?, hpayload, field_addressFeedback, Event.field_assign,
        -List.filter_filter]
    · simp [Event.record?, Event.field_cons, Value.record?, hpayload, field_addressFeedback, -List.filter_filter]

theorem target_eq_of_hash (hfeedback : isEscalationFeedback event.type = true)
    (h : idempotencyHash (addressFeedback event target) interfaceInput =
      idempotencyHash (addressFeedback event target') interfaceInput) : target = target' := by
  obtain ⟨read, hread⟩ := @hash_addressFeedback event interfaceInput hfeedback
  have hsame := (hread target).symm.trans ((congrArg read h).trans (hread target'))
  obtain ⟨_, _⟩ := Prod.ext_iff.mp hsame
  cases target <;> cases target' <;> simp_all [feedbackRoute, targetValue, Prod.ext_iff]

end AddressFeedback

/-! ### Publishing again -/

theorem identity_row (hkey : p.key ≠ "") (id : Nat) (now : Int) :
    (p.row id now).identity = some p.identity := by
  simp [LedgerRow.identity, Publication.row, Publication.identity, hkey]

theorem findKeyed_later {db₀ db₁ : Ledger} {now₀ : Int} {projection₀ : Option String}
    (hdb : db₀.Indexed) (hkey : (p.complete db₀).key ≠ "")
    (hfirst : publish db₀ p now₀ projection₀ = .ok (db₁, some r)) (hnew : r.deduplicated = false)
    (hlater : db₁.Later db) :
    ∃ row ∈ db.rows, row.id = r.eventId ∧ row.idempotencyHash = some (p.complete db₀).hash ∧
      db.findKeyed (p.complete db₀).identity = some row ∧ isPersisted p.event = true := by
  rcases publish_ok hfirst with ⟨-, -, hnone⟩ | ⟨_, hreceipt, hpersisted, hinsert⟩
  · cases hnone
  cases hreceipt
  rcases insertKeyed_ok hinsert with ⟨row, -, -, -, -, hdup⟩ | ⟨hfresh, hinserted⟩
  · rw [hdup] at hnew
    cases hnew
  · obtain ⟨hrows, hr, -⟩ := insertPublication_ok hinserted
    have hindexed := hlater.indexed (hdb.append hrows hfresh)
    have hmem : (p.complete db₀).row db₀.nextId now₀ ∈ db.rows :=
      hlater.rows.subset (hrows ▸ List.mem_append_right _ (List.mem_singleton_self _))
    refine ⟨_, hmem, ?_, ?_, hindexed.findKeyed_eq hmem (identity_row hkey _ _), hpersisted⟩
    · rw [hr]
      rfl
    · simp [Publication.row, hkey]

theorem publish_found {q : Publication} {row : LedgerRow}
    (hpersisted : isPersisted q.event = true) (hkey : (q.complete db).key ≠ "")
    (hfound : db.findKeyed (q.complete db).identity = some row) :
    publish db q now projection =
      if row.idempotencyHash = some (q.complete db).hash then .ok (db, some ⟨row.id, true⟩)
      else .error ("Idempotency key " ++ (q.complete db).key ++ " was already used with different event input") := by
  unfold publish insertKeyed
  rw [if_pos hpersisted, if_neg hkey, hfound]
  dsimp only
  split <;> rfl

theorem Publication.key_identity (p : Publication) : p.identity.key = p.key := rfl

theorem publish_fails_iff {q : Publication} {row : LedgerRow} {hash : Event}
    (hkey : (q.complete db).key ≠ "") (hfound : db.findKeyed (q.complete db).identity = some row)
    (hhash : row.idempotencyHash = some hash) :
    (∀ now projection, ∃ error, publish db q now projection = .error error) ↔
      isPersisted q.event = true ∧ (q.complete db).hash ≠ hash := by
  constructor
  · intro hfails
    obtain ⟨error, herror⟩ := hfails 0 none
    cases hpersists : isPersisted q.event with
    | false =>
      unfold publish at herror
      rw [hpersists, if_neg Bool.false_ne_true] at herror
      cases herror
    | true =>
      refine ⟨rfl, fun hsame => ?_⟩
      rw [publish_found hpersists hkey hfound, hsame, if_pos hhash] at herror
      cases herror
  · rintro ⟨hpersists, hdiffers⟩ now projection
    rw [publish_found hpersists hkey hfound, hhash, if_neg]
    · exact ⟨_, rfl⟩
    · exact fun heq => hdiffers (Option.some.inj heq).symm

/-- Once a keyed event has a row, publishing it again at any later time returns the row and changes nothing, exactly if it
is not an answer to an escalation that is by now completed with another Task. Publishing another event under the
identity of the row fails exactly if the writer persists such events and the content differs. -/
theorem keyed_publication_idempotent {ok : Ledger → LedgerAction → Prop} {db₀ db₁ db : Ledger} {p : Publication}
    {now₀ : Int} {projection₀ : Option String} {r : Nat} (hdb : Ledger.Reachable ok db₀)
    (hkey : (p.complete db₀).key ≠ "") (hfirst : publish db₀ p now₀ projection₀ = .ok (db₁, some ⟨r, false⟩))
    (hlater : db₁.Later db) :
    ((∀ now projection, publish db p now projection = .ok (db, some ⟨r, true⟩)) ↔ SameFeedback db₀ db p.event) ∧
      ∀ q : Publication, (q.complete db).identity = (p.complete db₀).identity →
        ((∀ now projection, ∃ error, publish db q now projection = .error error) ↔
          isPersisted q.event = true ∧ (q.complete db).hash ≠ (p.complete db₀).hash) := by
  obtain ⟨row, hmem, hid, hhash, hfound, hpersisted⟩ := findKeyed_later hdb.indexed hkey hfirst rfl hlater
  refine ⟨⟨fun hreturns hfeedback => ?_, fun hsame now projection => ?_⟩, fun q hidentity => ?_⟩
  · -- The row that is returned has the digest of the event as it is completed now.
    rcases publish_ok (hreturns 0 none) with ⟨-, -, hnone⟩ | ⟨_, hreceipt, -, hinsert⟩
    · cases hnone
    cases hreceipt
    rcases insertKeyed_ok hinsert with ⟨found, -, hagain, hhash', -, _⟩ | ⟨-, hinserted⟩
    · have hfoundmem := List.mem_of_find?_eq_some hagain
      have hindexed : db.Indexed := hlater.indexed (hdb.indexed.publish hfirst)
      have heq : found = row := hindexed.eq_of_id hfoundmem hmem (by simp_all)
      rw [heq, hhash, Option.some.injEq] at hhash'
      have hdigest : idempotencyHash (completeEvent db₀ p.event) p.interfaceInput =
          idempotencyHash (completeEvent db p.event) p.interfaceInput := hhash'
      unfold completeEvent at hdigest
      rw [if_pos hfeedback, if_pos hfeedback] at hdigest
      exact target_eq_of_hash hfeedback hdigest
    · have := (insertPublication_ok hinserted).2.1
      simp at this
  · have hcomplete : p.complete db = p.complete db₀ := by
      unfold Publication.complete
      rw [hsame.completeEvent]
    rw [publish_found hpersisted (hcomplete ▸ hkey) (hcomplete ▸ hfound), hcomplete, if_pos hhash, hid]
  · refine publish_fails_iff ?_ (hidentity ▸ hfound) hhash
    rw [← Publication.key_identity, hidentity, Publication.key_identity]
    exact hkey

/-! ### An answer before its escalation -/

namespace Ledger.Sample

/-- The answer of an operator to the escalation `e1`, under the key `k`. -/
def answer : Publication where
  event := {
    type := "escalation.resolved"
    envelope := [("data", .obj [("escalationId", .str "e1"), ("idempotencyKey", .str "k")]), ("owner", .str "agent:may"),
      ("source", .str "console"), ("type", .str "escalation.resolved")]
    rowId := none
    typed := by decide }

/-- The escalation `e1` of Task `t` of the App `app`. -/
def escalation : Publication where
  event := {
    type := "escalation.created"
    envelope := [("data", .obj [("escalationId", .str "e1"), ("projectId", .str "app"), ("taskId", .str "t")]),
      ("owner", .str "agent:may"), ("source", .str "app-task:app"), ("type", .str "escalation.created")]
    rowId := none
    typed := by decide }

theorem reachable_empty : Ledger.Reachable (fun _ _ => True) Ledger.empty := Reaches.start rfl

def answered : Ledger := Ledger.empty.next (.publish answer 0 none)

def escalated : Ledger := answered.next (.publish escalation 1 none)

def opened : Ledger := Ledger.empty.next (.publish escalation 0 none)

def resolved : Ledger := opened.next (.publish answer 1 none)

def repeated : Ledger := resolved.next (.publish escalation 2 none)

theorem later_escalated : answered.Later escalated := .single ⟨.publish escalation 1 none, trivial, rfl⟩

theorem publish_answer : publish Ledger.empty answer 0 none = .ok (answered, some ⟨1, false⟩) := by
  rfl

end Ledger.Sample

open Ledger Ledger.Sample in
/-- The answer comes after its escalation, which is then escalated once more. -/
theorem keyed_publication_idempotent_answer :
    publish repeated answer 3 none = .ok (repeated, some ⟨2, true⟩) := by
  have hopened : Ledger.Reachable (fun _ _ => True) opened := reachable_empty.step (a := .publish escalation 0 none) trivial
  have hfirst : publish opened answer 1 none = .ok (resolved, some ⟨2, false⟩) := by rfl
  have hlater : resolved.Later repeated := .single ⟨.publish escalation 2 none, trivial, rfl⟩
  exact (keyed_publication_idempotent hopened (by decide) hfirst hlater).1.mpr (fun _ => by decide) 3 none

open Ledger Ledger.Sample in
/-- The same answer, after its escalation was recorded: it is completed with the Task, has another scope, and gets a
second row. -/
theorem answer_published_twice :
    publish Ledger.empty answer 0 none = .ok (answered, some ⟨1, false⟩) ∧ answered.Later escalated ∧
      ∃ db, publish escalated answer 2 none = .ok (db, some ⟨3, false⟩) ∧ db.rows.length = escalated.rows.length + 1 :=
  ⟨publish_answer, later_escalated, _, rfl, by decide⟩

end MayAgent
