import MayAgent.Host.Routing
import MayAgent.Proof.Histories

/-!
# The subject index against the matcher

The index keys an event by the text recorded last under a field name, data over target over envelope;
the matcher reads the first value under any spelling of the field, envelope before target before data.
They agree on all Hosts exactly for the events on which the two readings agree.
-/

namespace MayAgent

/-! ### Subjects -/

def Event.fieldText (e : Event) (field : String) : String :=
  ((present (eventField e (fieldAliases field))).map Value.text).getD ""

variable {kind : List Char} {field subject text eventType : String} {e : Event} {ids : List String}
  {allowed : Option (List String)} {c : Condition} {host : Host} {event : AgentEvent}

theorem isSubjectKind_no_colon (h : isSubjectKind kind = true) : ':' ∉ kind := by
  cases kind with
  | nil => simp
  | cons =>
    simp only [isSubjectKind, Bool.and_eq_true, List.all_eq_true] at h
    intro hmem
    rcases List.mem_cons.mp hmem with rfl | hmem
    · exact absurd h.1 (by decide)
    · exact absurd (h.2 _ hmem) (by decide)

theorem subjectField_no_colon (h : subjectField kind = some field) :
    ':' ∉ kind ∧ kind ≠ [] := by
  have hword : ∀ word : String, String.ofList kind = word → ':' ∉ word.toList → word ≠ "" → ':' ∉ kind ∧ kind ≠ [] := by
    rintro _ rfl hnot hne
    rw [String.toList_ofList] at hnot
    exact ⟨hnot, fun hnil => hne (by rw [hnil])⟩
  unfold subjectField at h
  split at h
  case h_9 =>
    split at h
    · rename_i hkind
      refine ⟨isSubjectKind_no_colon hkind, ?_⟩
      rintro rfl
      cases hkind
    · cases h
  all_goals exact hword _ ‹_› (by decide) (by decide)

theorem takeWhile_append_colon {value : List Char} (h : ':' ∉ kind) :
    (kind ++ ':' :: value).takeWhile (· != ':') = kind ∧ (kind ++ ':' :: value).dropWhile (· != ':') = ':' :: value := by
  induction kind with
  | nil => simp
  | cons c _ ih =>
    simp only [List.mem_cons, not_or] at h
    have hc : (c != ':') = true := by simpa using fun heq => h.1 heq.symm
    obtain ⟨htake, hdrop⟩ := ih h.2
    simp only [List.cons_append, List.takeWhile_cons, List.dropWhile_cons, hc, if_true, htake, hdrop, and_self]

theorem typedSubject_eq_some {value : String} :
    typedSubject subject = some (field, value) ↔
      ∃ kind, subjectField kind = some field ∧ value ≠ "" ∧ subject = String.ofList kind ++ ":" ++ value := by
  constructor
  · intro h
    unfold typedSubject at h
    simp only at h
    split at h
    · rename_i chars hrest
      split at h
      · cases h
      · rename_i hguard
        simp only [Bool.or_eq_true, not_or, List.isEmpty_iff] at hguard
        obtain ⟨_, hfield, heq⟩ := Option.map_eq_some_iff.mp h
        cases heq
        refine ⟨_, hfield, fun hempty => hguard.2 ?_, ?_⟩
        · have := congrArg String.toList hempty
          rwa [String.toList_ofList] at this
        · rw [← String.toList_inj, String.toList_append, String.toList_append, String.toList_ofList,
            String.toList_ofList]
          conv_lhs => rw [← List.takeWhile_append_dropWhile (p := (· != ':')) (l := subject.toList), hrest]
          simp
    · cases h
  · rintro ⟨kind, hfield, hvalue, rfl⟩
    obtain ⟨hcolon, hne⟩ := subjectField_no_colon hfield
    have hlist : (String.ofList kind ++ ":" ++ value).toList = kind ++ ':' :: value.toList := by
      rw [String.toList_append, String.toList_append, String.toList_ofList]
      simp
    obtain ⟨htake, hdrop⟩ := @takeWhile_append_colon kind value.toList hcolon
    have hvalue' : value.toList ≠ [] := fun hnil => hvalue (String.toList_eq_nil_iff.mp hnil)
    unfold typedSubject
    simp only [hlist, htake, hdrop, hfield, Option.map_some, String.ofList_toList]
    rw [if_neg]
    simp [hne, hvalue']

/-! ### The index -/

/-- The text recorded last under a name. -/
def Event.indexedText (e : Event) (name : String) : Option String :=
  (eventContainers e).flatten.reverse.findSome? fun entry => if entry.1 = name then indexText entry.2 else none

def Event.Indexes (e : Event) (subject : String) : Prop :=
  (∃ name text, e.indexedText name = some text ∧ Text.trim (name ++ ":" ++ text) = subject) ∨
    ∃ kind names text, (kind, names) ∈ typedKinds ∧ names.findSome? e.indexedText = some text ∧
      Text.trim (kind ++ ":" ++ text) = subject

theorem get_foldl_recordValue (entries : List (String × Value)) (values : Table String String) (name : String) :
    (entries.foldl recordValue values).get name =
      (entries.reverse.findSome? fun entry => if entry.1 = name then indexText entry.2 else none).or (values.get name) := by
  induction entries generalizing values with
  | nil => rfl
  | cons entry _ ih =>
    rw [List.foldl_cons, ih, List.reverse_cons, List.findSome?_append, Option.or_assoc]
    congr 1
    unfold recordValue
    cases htext : indexText entry.2 with
    | none => by_cases hname : entry.1 = name <;> simp [hname, htext]
    | some =>
      rw [Table.get_put]
      by_cases hname : entry.1 = name
      · simp [hname, htext]
      · simp [hname, Ne.symm hname]

theorem subjectValues_get (e : Event) (name : String) : (subjectValues e).get name = e.indexedText name := by
  unfold subjectValues Event.indexedText
  rw [← List.foldl_flatten, get_foldl_recordValue, Table.get_empty, Option.or_none]

theorem indexText_ne_empty {v : Value} (h : indexText v = some text) : text ≠ "" := by
  cases v with
  | str s =>
    simp only [indexText] at h
    by_cases hne : Text.nonEmpty s = true
    · rw [if_pos hne] at h
      cases h
      simpa [Text.nonEmpty] using hne
    · rw [if_neg hne] at h
      cases h
  | num n =>
    cases h
    cases n with
    | ofNat => exact Nat.repr_ne_empty
    | negSucc =>
      intro hempty
      simp [Value.text, toString, Int.repr] at hempty
  | bool b =>
    cases h
    cases b <;> decide
  | null => cases h
  | arr => cases h
  | obj => cases h

theorem indexedText_ne_empty {name : String} (h : e.indexedText name = some text) : text ≠ "" := by
  obtain ⟨_, -, hentry⟩ := List.exists_of_findSome?_eq_some h
  split at hentry
  · exact indexText_ne_empty hentry
  · cases hentry

theorem mem_exactSubjects (hne : subject ≠ "") :
    subject ∈ ((conditionSubjectCandidates e).map Text.trim).filter (· != "") ↔ e.Indexes subject := by
  have hvalues : ∀ names : List String, (names.findSome? fun name => ((subjectValues e).get name).filter (· != "")) =
      names.findSome? e.indexedText := by
    intro names
    congr 1
    funext name
    rw [subjectValues_get]
    cases htext : e.indexedText name with
    | none => rfl
    | some => simp [Option.filter, indexedText_ne_empty htext]
  unfold conditionSubjectCandidates Event.Indexes
  simp only [List.mem_filter, List.mem_map, List.mem_append, List.mem_filterMap, hvalues, bne_iff_ne, ne_eq, hne,
    not_false_eq_true, and_true]
  constructor
  · rintro ⟨_, ⟨⟨name, text⟩, hmem, rfl⟩ | ⟨⟨kind, names⟩, hkind, hfind⟩, rfl⟩
    · refine .inl ⟨name, text, ?_, rfl⟩
      rw [← subjectValues_get, Table.get_eq_some_iff]
      exact hmem
    · obtain ⟨text, htext, rfl⟩ := Option.map_eq_some_iff.mp hfind
      exact .inr ⟨kind, names, text, hkind, htext, rfl⟩
  · rintro (⟨name, text, htext, rfl⟩ | ⟨kind, names, text, hkind, htext, rfl⟩)
    · rw [← subjectValues_get, Table.get_eq_some_iff] at htext
      exact ⟨_, .inl ⟨_, htext, rfl⟩, rfl⟩
    · exact ⟨_, .inr ⟨_, hkind, Option.map_eq_some_iff.mpr ⟨text, htext, rfl⟩⟩, rfl⟩

/-! ### Routes -/

@[simp]
theorem mem_sortedIds {id : String} : id ∈ sortedIds ids ↔ id ∈ ids := by
  rw [sortedIds, List.mem_mergeSort, List.mem_eraseDups]

theorem mem_readConditionRoutes {s : Store}
    : (c, ids) ∈ s.readConditionRoutes eventType allowed ↔
      ∃ id, s.conditions.get id = some c ∧ c.spec.type = eventType ∧ c.state ≠ .met ∧
        ids = s.routedTasks allowed id ∧ ids ≠ [] := by
  unfold Store.readConditionRoutes
  rw [List.mem_filterMap]
  constructor
  · rintro ⟨⟨id, _⟩, hmem, hroute⟩
    split at hroute
    · rename_i hopen
      cases hroute
      refine ⟨id, (Table.get_eq_some_iff _ _ _).mpr hmem, hopen.1, hopen.2.1, rfl, fun hnil => ?_⟩
      rw [hnil] at hopen
      cases hopen.2.2
    · cases hroute
  · rintro ⟨id, hget, htype, hstate, rfl, hne⟩
    refine ⟨⟨id, c⟩, (Table.get_eq_some_iff _ _ _).mp hget, if_pos ⟨htype, hstate, ?_⟩⟩
    simpa using hne

structure Condition.Answers (ctx : Context) (lookup : AttemptLookup) (e : Event) (c : Condition) : Prop where
  type : c.spec.type = (e.string? "type").getD ""
  isOpen : c.state ≠ .met
  holds : matchesAppTaskCondition ctx lookup c e = true

variable {ctx : Context} {lookup : AttemptLookup} {appId taskId : String} {s : Store} {e : Event}

theorem mem_matchingAppTaskConditionTaskIds :
    taskId ∈ matchingAppTaskConditionTaskIds ctx lookup appId s e allowed ↔
      ∃ id c, s.conditions.get id = some c ∧ c.Answers ctx lookup e ∧ taskId ∈ s.routedTasks allowed id ∧
        s.approvalTargets appId taskId c e = true := by
  unfold matchingAppTaskConditionTaskIds
  simp only [mem_sortedIds, List.mem_flatMap]
  constructor
  · rintro ⟨⟨c, _⟩, hroute, hmem⟩
    obtain ⟨id, hget, htype, hopen, rfl, -⟩ := mem_readConditionRoutes.mp hroute
    split at hmem
    · rename_i hmatch
      obtain ⟨hrouted, htargets⟩ := List.mem_filter.mp hmem
      exact ⟨id, c, hget, ⟨htype, hopen, hmatch⟩, hrouted, htargets⟩
    · cases hmem
  · rintro ⟨id, c, hget, hanswers, hrouted, htargets⟩
    refine ⟨(c, s.routedTasks allowed id), mem_readConditionRoutes.mpr
      ⟨id, hget, hanswers.type, hanswers.isOpen, rfl, List.ne_nil_of_mem hrouted⟩, ?_⟩
    rw [if_pos hanswers.holds]
    exact List.mem_filter.mpr ⟨hrouted, htargets⟩

theorem mem_readConditionRoutesForAllApps {subjects : List String}
    {route : Host.Route} : route ∈ host.readConditionRoutesForAllApps eventType subjects ↔
      ∃ app id, host.get route.appId = some app ∧ app.store.conditions.get id = some route.condition ∧
        route.condition.spec.type = eventType ∧ route.condition.state ≠ .met ∧
        route.taskIds = app.store.routedTasks none id ∧ route.taskIds ≠ [] ∧
        route.condition.spec.subject ∈ (subjects.map Text.trim).filter (· != "") := by
  unfold Host.readConditionRoutesForAllApps
  simp only [List.mem_flatMap, List.mem_map, List.mem_filter (p := fun route : Condition × List String => _),
    List.contains_iff_mem]
  constructor
  · rintro ⟨⟨id, app⟩, happ, ⟨c, _⟩, ⟨hroute, hsubject⟩, rfl⟩
    obtain ⟨conditionId, hget, htype, hopen, hids, hne⟩ := mem_readConditionRoutes.mp hroute
    exact ⟨app, conditionId, (Table.get_eq_some_iff _ _ _).mpr happ, hget, htype, hopen, hids, hne, hsubject⟩
  · rintro ⟨app, id, happ, hget, htype, hopen, hids, hne, hsubject⟩
    exact ⟨⟨route.appId, app⟩, (Table.get_eq_some_iff _ _ _).mp happ, (route.condition, route.taskIds),
      ⟨mem_readConditionRoutes.mpr ⟨id, hget, htype, hopen, hids, hne⟩, hsubject⟩, rfl⟩

theorem mem_previewRoutes :
    (∃ ids, (appId, ids) ∈ host.previewLoadedCanonicalAppTaskEventRoutes ctx event ∧ taskId ∈ ids) ↔
      ∃ app id c, host.get appId = some app ∧ app.loaded = true ∧ app.store.conditions.get id = some c ∧
        c.Answers ctx host.attemptLookup (canonicalTaskEvent event) ∧ taskId ∈ app.store.routedTasks none id ∧
        c.spec.subject ∈ ((conditionSubjectCandidates (canonicalTaskEvent event)).map Text.trim).filter (· != "") := by
  have hloaded : ∀ {app : HostApp}, host.get appId = some app → (app.loaded = true ↔
      appId ∈ (host.entries.filter fun app => app.2.loaded).map Sigma.fst) := by
    intro app happ
    simp only [List.mem_map, List.mem_filter]
    constructor
    · intro hload
      exact ⟨⟨appId, app⟩, ⟨(Table.get_eq_some_iff _ _ _).mp happ, hload⟩, rfl⟩
    · rintro ⟨⟨id, _⟩, ⟨hmem, hload⟩, rfl⟩
      cases happ.symm.trans ((Table.get_eq_some_iff _ _ _).mpr hmem)
      exact hload
  unfold Host.previewLoadedCanonicalAppTaskEventRoutes
  simp only
  split
  · rename_i hempty
    refine iff_of_false (by simp) ?_
    rintro ⟨app, id, c, happ, hload, -⟩
    have hmem := (hloaded happ).mp hload
    rw [List.isEmpty_iff.mp hempty] at hmem
    cases hmem
  · simp only [List.mem_map, Prod.mk.injEq]
    constructor
    · rintro ⟨ids, ⟨_, -, rfl, rfl⟩, htask⟩
      simp only [mem_sortedIds, List.mem_flatMap, List.mem_filter, Bool.and_eq_true, beq_iff_eq,
        List.contains_iff_mem] at htask
      obtain ⟨route, ⟨⟨hroute, hload, hmatch⟩, rfl⟩, htask⟩ := htask
      obtain ⟨app, id, happ, hget, htype, hopen, hids, -, hsubject⟩ := mem_readConditionRoutesForAllApps.mp hroute
      exact ⟨app, id, route.condition, happ, (hloaded happ).mpr hload, hget, ⟨htype, hopen, hmatch⟩, hids ▸ htask, hsubject⟩
    · rintro ⟨app, id, c, happ, hload, hget, hanswers, htask, hsubject⟩
      have hroute : (⟨appId, c, app.store.routedTasks none id⟩ : Host.Route) ∈
          (host.readConditionRoutesForAllApps (((canonicalTaskEvent event).string? "type").getD "")
            (conditionSubjectCandidates (canonicalTaskEvent event))).filter fun route =>
              ((host.entries.filter fun app => app.2.loaded).map Sigma.fst).contains route.appId &&
                matchesAppTaskCondition ctx host.attemptLookup route.condition (canonicalTaskEvent event) := by
        refine List.mem_filter.mpr ⟨mem_readConditionRoutesForAllApps.mpr
          ⟨app, id, happ, hget, hanswers.type, hanswers.isOpen, rfl, List.ne_nil_of_mem htask, hsubject⟩, ?_⟩
        rw [Bool.and_eq_true]
        exact ⟨List.contains_iff_mem.mpr ((hloaded happ).mp hload), hanswers.holds⟩
      refine ⟨_, ⟨appId, ?_, rfl, rfl⟩, ?_⟩
      · exact mem_sortedIds.mpr (List.mem_map.mpr ⟨_, hroute, rfl⟩)
      · rw [mem_sortedIds, List.mem_flatMap]
        exact ⟨_, List.mem_filter.mpr ⟨hroute, beq_self_eq_true _⟩, htask⟩

theorem mem_previewLoaded (hplain : ∀ app id c, host.get appId = some app →
      app.store.conditions.get id = some c → c.state ≠ .met → c.isApproval = false) :
    taskId ∈ host.previewLoadedCanonicalAppTaskEvent ctx appId event none ↔
      ∃ app id c, host.get appId = some app ∧ app.loaded = true ∧ app.store.conditions.get id = some c ∧
        c.Answers ctx host.attemptLookup (canonicalTaskEvent event) ∧ taskId ∈ app.store.routedTasks none id := by
  unfold Host.previewLoadedCanonicalAppTaskEvent
  cases happ : host.get appId with
  | none =>
    refine iff_of_false (by simp) ?_
    rintro ⟨app, id, c, hnone, -⟩
    cases hnone
  | some app =>
    simp only [Option.some.injEq]
    split
    · rename_i hunloaded
      refine iff_of_false (by simp) ?_
      rintro ⟨_, id, c, rfl, hload, -⟩
      rw [hload] at hunloaded
      cases hunloaded
    · rename_i hload
      have hload : app.loaded = true := by simpa using hload
      rw [show (Option.filter (fun x : String => x != "") none).map (fun taskId => [taskId]) = none from rfl,
        mem_matchingAppTaskConditionTaskIds]
      constructor
      · rintro ⟨id, c, hget, hanswers, htask, -⟩
        exact ⟨app, id, c, rfl, hload, hget, hanswers, htask⟩
      · rintro ⟨_, id, c, rfl, -, hget, hanswers, htask⟩
        refine ⟨id, c, hget, hanswers, htask, ?_⟩
        rw [Store.approvalTargets, hplain app id c happ hget hanswers.isOpen]
        rfl

/-! ### Events the index reads as the matcher does -/

/-- A report of another App on a request. -/
def Event.isReport (e : Event) : Bool :=
  e.field "type" == some (.str "app.dependency.updated")
    && eventField e ["kind"] == some (.str "app")
    && (eventField e ["status"]).any fun status => status.text == "blocked" || status.text == "progress"

structure Event.Indexed (e : Event) : Prop where
  subject : ∀ kind field, subjectField kind = some field → e.fieldText field ≠ "" →
    e.Indexes (String.ofList kind ++ ":" ++ e.fieldText field)
  report : e.isReport = true → e.Indexes ("id:" ++ e.fieldText "id")

theorem Condition.matches_subject (h : c.matches ctx e = true) (hplain : c.isApproval = false) :
    ∃ kind field, subjectField kind = some field ∧ e.fieldText field ≠ "" ∧
      c.spec.subject = String.ofList kind ++ ":" ++ e.fieldText field := by
  unfold Condition.matches at h
  simp only [hplain, Bool.false_eq_true, if_false] at h
  split at h
  · cases h
  · split at h
    · cases h
    · split at h
      · cases h
      · rename_i field value hsubject
        obtain ⟨kind, hfield, hne, hshape⟩ := typedSubject_eq_some.mp hsubject
        split at h
        · cases h
        · rename_i htext
          have htext : e.fieldText field = value := by simpa [Event.fieldText] using htext
          exact ⟨kind, field, hfield, htext ▸ hne, htext ▸ hshape⟩

theorem Event.Indexed.indexes (h : e.Indexed) (hmatch : matchesAppTaskCondition ctx lookup c e = true)
    (hplain : c.isApproval = false) : c.spec.subject ≠ "" ∧ e.Indexes c.spec.subject := by
  unfold matchesAppTaskCondition at hmatch
  split at hmatch
  · cases hmatch
  · split at hmatch
    · rename_i hmatches
      obtain ⟨kind, field, hfield, hne, hsubject⟩ := Condition.matches_subject hmatches hplain
      rw [hsubject]
      exact ⟨by simp, h.subject kind field hfield hne⟩
    · have hreport := (Bool.and_eq_true_iff.mp hmatch).1
      simp only [isAppInputReport, Bool.and_eq_true, beq_iff_eq] at hreport
      obtain ⟨⟨⟨⟨⟨⟨htype, htyped⟩, -⟩, hsubject⟩, hkind⟩, hstatus⟩, -⟩ := hreport
      rw [hsubject]
      refine ⟨by simp, h.report ?_⟩
      rw [htype] at htyped
      simp only [Event.isReport, htyped, hkind, hstatus, beq_self_eq_true, Bool.and_self]

/-! ### Events the index misses -/

def Condition.on (type subject : String) : Condition where
  id := "condition"
  generation := 1
  resourceVersion := 1
  spec := { type := type, subject := subject, expected := .obj [] }
  observedGeneration := 1
  state := .unknown

def Condition.onRequest (subject : String) : Condition where
  id := "app-request:request"
  generation := 1
  resourceVersion := 1
  spec := { type := "app.dependency.updated", subject := subject, expected := appRequestExpected }
  observedGeneration := 1
  state := .unknown

def HostApp.waitingFor (c : Condition) : HostApp where
  loaded := true
  store := {
    tasks := (∅ : Table String Row).put "task" {
      resource := {
        metadata := ⟨"task", none, 1, 1, none⟩
        spec := { parentId := "", outcome := "outcome", acceptance := [] }
        status := { observedGeneration := 1, phase := .waiting, conditionIds := [c.id], updatedAt := 0 } }
      trigger := none
      ready := false
      changed := false
      nextCheckAt := none
      leaseUntil := none }
    attempts := ∅
    conditions := (∅ : Table String Condition).put c.id c
    routes := [("task", c.id)]
    admissions := ∅
    cancellations := ∅
    controlReceipts := ∅
    taskEvents := []
    groups := ∅
    revision := 0
    lifecycle := .active
    humanInput := []
    lastEventId := 0 }

theorem matches_on {type : String} (htype : e.field "type" = some (.str type))
    (hsubject : typedSubject subject = some (field, e.fieldText field)) : (Condition.on type subject).matches ctx e = true := by
  have hplain : (Condition.on type subject).isApproval = false := by
    simp [Condition.isApproval, Condition.on, isHumanActionOwner]
  have hfresh : isFreshLevelObservation ctx (Condition.on type subject) e = true := by
    simp [isFreshLevelObservation, Condition.on]
  have hexpected : matchesExpectedRecord [] e = true := by
    simp [matchesExpectedRecord, matchesExpectedField, Event.string?, Event.field]
  unfold Condition.matches
  rw [if_neg (by simp [htype, Condition.on]), hplain, hfresh]
  simp only [Bool.false_eq_true, if_false, Bool.not_true, Condition.on, hsubject]
  rw [if_neg (by simp [Event.fieldText]), hexpected]

theorem matches_onRequest (hreport : e.isReport = true) :
    matchesAppTaskCondition ctx lookup (Condition.onRequest ("id:" ++ e.fieldText "id")) e = true := by
  have hinput : isAppInputReport (Condition.onRequest ("id:" ++ e.fieldText "id")) e = true := by
    simp only [Event.isReport, Bool.and_eq_true, beq_iff_eq] at hreport
    obtain ⟨⟨htype, hkind⟩, hstatus⟩ := hreport
    have hid : ((present (eventField e ["id"])).map Value.text).getD "" = e.fieldText "id" := rfl
    have hname : Text.startsWith "app-request:request" "app-request:" = true := by decide
    simp only [isAppInputReport, Condition.onRequest, htype, hkind, hstatus, hid, hname, beq_self_eq_true, Bool.and_true,
      decide_true]
  have hnew : isNewReport lookup (Condition.onRequest ("id:" ++ e.fieldText "id")) e = true := by
    have hnone : (∅ : Table ReportKind Event).values = [] := rfl
    simp [isNewReport, observedReports, Condition.onRequest, hnone]
  unfold matchesAppTaskCondition
  rw [if_neg (by simp [Condition.onRequest])]
  split
  · rfl
  · rw [hinput, hnew]
    rfl

def Host.waitingFor (c : Condition) : Host := (∅ : Host).put "app" (.waitingFor c)

theorem Host.condition_waitingFor {c' : Condition} {id : String} {app : HostApp}
    (happ : (Host.waitingFor c).get appId = some app) (hget : app.store.conditions.get id = some c') : c' = c := by
  have happ' : app = .waitingFor c := by
    rw [Host.waitingFor, Table.get_put] at happ
    split at happ
    · exact (Option.some.inj happ).symm
    · simp at happ
  subst happ'
  have hget' : ((∅ : Table String Condition).put c.id c).get id = some c' := hget
  rw [Table.get_put] at hget'
  split at hget'
  · exact (Option.some.inj hget').symm
  · simp at hget'

theorem HostApp.routed_waitingFor (c : Condition) : "task" ∈ (HostApp.waitingFor c).store.routedTasks none c.id := by
  unfold Store.routedTasks
  rw [List.mem_map]
  refine ⟨("task", c.id), List.mem_filter.mpr ⟨List.mem_singleton_self _, ?_⟩, rfl⟩
  simp [HostApp.waitingFor, Store.awaits, Store.readTask, Resource.observesConditions]

theorem canonicalTaskEvent_type (event : AgentEvent) :
    (canonicalTaskEvent event).field "type" = some (.str event.type) := by
  rw [canonicalTaskEvent, Event.field_ofFields]
  simp

theorem indexes_of_routed
    (hroutes : ∀ host : Host, (∀ appId app id c, host.get appId = some app → app.store.conditions.get id = some c →
        c.state ≠ .met → c.isApproval = false) →
      ∀ appId taskId, (∃ ids, (appId, ids) ∈ host.previewLoadedCanonicalAppTaskEventRoutes ctx event ∧ taskId ∈ ids) ↔
        taskId ∈ host.previewLoadedCanonicalAppTaskEvent ctx appId event none)
    (htype : c.spec.type = event.type) (hopen : c.state = .unknown) (hplain : c.isApproval = false)
    (hne : c.spec.subject ≠ "")
    (hmatch : ∀ lookup, matchesAppTaskCondition ctx lookup c (canonicalTaskEvent event) = true) :
    (canonicalTaskEvent event).Indexes c.spec.subject := by
  have hget : (Host.waitingFor c).get "app" = some (.waitingFor c) := Table.get_put_self _ _ _
  have hcondition : (HostApp.waitingFor c).store.conditions.get c.id = some c := Table.get_put_self _ _ _
  have honly : ∀ appId app id c', (Host.waitingFor c).get appId = some app → app.store.conditions.get id = some c' →
      c'.state ≠ .met → c'.isApproval = false := by
    intro appId app id c' happ hc' _
    rw [Host.condition_waitingFor happ hc']
    exact hplain
  have hanswers : c.Answers ctx (Host.waitingFor c).attemptLookup (canonicalTaskEvent event) := by
    refine ⟨?_, by simp [hopen], hmatch _⟩
    rw [Event.string?, canonicalTaskEvent_type]
    exact htype
  have hlive : "task" ∈ (Host.waitingFor c).previewLoadedCanonicalAppTaskEvent ctx "app" event none :=
    (mem_previewLoaded (honly "app")).mpr ⟨_, c.id, c, hget, rfl, hcondition, hanswers, HostApp.routed_waitingFor c⟩
  obtain ⟨app, id, c', happ, -, hc', -, -, hsubject⟩ := mem_previewRoutes.mp ((hroutes _ honly "app" "task").mpr hlive)
  rw [Host.condition_waitingFor happ hc'] at hsubject
  exact (mem_exactSubjects hne).mp hsubject

/-- For an event of the bus, the indexed lookup finds the Tasks of the lookup App by App on every Host
without open approvals, exactly if the index has what the matcher reads under each subject kind. -/
theorem indexed_routing_iff (ctx : Context) (event : AgentEvent) :
    (∀ host : Host, (∀ appId app id c, host.get appId = some app → app.store.conditions.get id = some c →
        c.state ≠ .met → c.isApproval = false) →
      ∀ appId taskId, (∃ ids, (appId, ids) ∈ host.previewLoadedCanonicalAppTaskEventRoutes ctx event ∧ taskId ∈ ids) ↔
        taskId ∈ host.previewLoadedCanonicalAppTaskEvent ctx appId event none) ↔
    (canonicalTaskEvent event).Indexed := by
  constructor
  · intro hroutes
    constructor
    · intro kind field hfield hne
      have hsubject := typedSubject_eq_some.mpr ⟨kind, hfield, hne, rfl⟩
      refine indexes_of_routed (c := .on event.type _) hroutes rfl rfl ?_ ?_ fun lookup => ?_
      · simp [Condition.isApproval, Condition.on, isHumanActionOwner]
      · simp [Condition.on]
      · unfold matchesAppTaskCondition
        rw [if_neg (by simp [Condition.on]), if_pos (matches_on (canonicalTaskEvent_type event) hsubject)]
    · intro hreport
      have htype : "app.dependency.updated" = event.type := by
        have htyped := (Bool.and_eq_true_iff.mp (Bool.and_eq_true_iff.mp hreport).1).1
        rw [canonicalTaskEvent_type] at htyped
        simpa using (beq_iff_eq.mp htyped).symm
      refine indexes_of_routed (c := .onRequest _) hroutes htype rfl ?_ ?_ fun lookup => matches_onRequest hreport
      · simp [Condition.isApproval, Condition.onRequest]
      · simp [Condition.onRequest]
  · intro hindexed host hplain appId taskId
    rw [mem_previewRoutes, mem_previewLoaded (hplain appId)]
    constructor
    · rintro ⟨app, id, c, happ, hload, hget, hanswers, htask, -⟩
      exact ⟨app, id, c, happ, hload, hget, hanswers, htask⟩
    · rintro ⟨app, id, c, happ, hload, hget, hanswers, htask⟩
      obtain ⟨hne, hindexes⟩ := hindexed.indexes hanswers.holds (hplain appId app id c happ hget hanswers.isOpen)
      exact ⟨app, id, c, happ, hload, hget, hanswers, htask, (mem_exactSubjects hne).mpr hindexes⟩

namespace Sample

def addressedEvent : AgentEvent where
  type := "x.done"
  envelope := [("data", .obj [("status", .str "done"), ("taskId", .str "b")]), ("target", .obj [("taskId", .str "a")]),
    ("type", .str "x.done")]
  rowId := some 1
  typed := by decide

def awaitsA : Condition := { Condition.on "x.done" "task:a" with spec.expected := .str "done" }

end Sample

/-- The matcher reads the Task of the target, the index has the Task of the data. -/
theorem addressed_event_missed :
    (∀ appId app id c, (Host.waitingFor Sample.awaitsA).get appId = some app → app.store.conditions.get id = some c →
      c.state ≠ .met → c.isApproval = false) ∧
    (Host.waitingFor Sample.awaitsA).previewLoadedCanonicalAppTaskEvent Sample.context "app" Sample.addressedEvent none =
      ["task"] ∧
    (Host.waitingFor Sample.awaitsA).previewLoadedCanonicalAppTaskEventRoutes Sample.context Sample.addressedEvent = [] ∧
    Sample.awaitsA.matches Sample.context (canonicalTaskEvent Sample.addressedEvent) = true ∧
    Sample.awaitsA.spec.subject ∉ conditionSubjectCandidates (canonicalTaskEvent Sample.addressedEvent) := by
  refine ⟨fun appId app id c happ hget _ => ?_, by decide +kernel, by decide +kernel, by decide +kernel, by decide +kernel⟩
  rw [Host.condition_waitingFor happ hget]
  decide

end MayAgent
