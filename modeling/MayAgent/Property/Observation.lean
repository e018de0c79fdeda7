import MayAgent.Host.Observer
import MayAgent.Task.Tracker

/-!
# Coverage of the demand

The periodic runs of an observer read the demanded subjects in a cycle of pages, and requested checks do not move its
cursor. So each demanded resource is inspected in every cycle. The demand leaves out the Tasks whose retries are
exhausted, whose Conditions still admit evidence.
-/

namespace MayAgent

variable {apps : AppStores} {o : ResourceObserver} {subject : String}

/-- An open Task of some App that is neither at rest nor cancelled has a route to an open Condition for the subject. -/
def Demanded (apps : AppStores) (o : ResourceObserver) (subject : String) : Prop :=
  ∃ appId s, apps.get appId = some s ∧ ∃ taskId conditionId row c, (taskId, conditionId) ∈ s.routes ∧
    s.tasks.get taskId = some row ∧ s.conditions.get conditionId = some c ∧ c.state ≠ .met ∧
    row.resource.status.phase ∈ [.waiting, .running, .pending] ∧ s.isCancelled taskId = false ∧
    c.isDemand o.type o.source = true ∧ c.spec.subject = subject

theorem mem_demandedConditions {s : Store} {c : Condition} : c ∈ s.demandedConditions ↔
    ∃ taskId conditionId row, (taskId, conditionId) ∈ s.routes ∧ s.tasks.get taskId = some row ∧
      s.conditions.get conditionId = some c ∧ c.state ≠ .met ∧
      row.resource.status.phase ∈ [.waiting, .running, .pending] ∧ s.isCancelled taskId = false := by
  simp only [Store.demandedConditions, List.mem_filterMap, Prod.exists, Option.bind_eq_some_iff]
  constructor
  · rintro ⟨taskId, conditionId, hroute, _, hc, row, hrow, hif⟩
    split at hif
    case isTrue hopen =>
      cases hif
      simp only [Bool.and_eq_true, bne_iff_ne, List.contains_iff_mem, Bool.not_eq_true'] at hopen
      exact ⟨taskId, conditionId, row, hroute, hrow, hc, hopen.1.1, hopen.1.2, hopen.2⟩
    case isFalse => cases hif
  · rintro ⟨taskId, conditionId, row, hroute, hrow, hc, hstate, hphase, hcancelled⟩
    refine ⟨taskId, conditionId, hroute, c, hc, row, hrow, if_pos ?_⟩
    simp only [Bool.and_eq_true, bne_iff_ne, List.contains_iff_mem, Bool.not_eq_true']
    exact ⟨⟨hstate, hphase⟩, hcancelled⟩

theorem mem_demandedSubjects : subject ∈ demandedSubjects apps o.type o.source ↔ Demanded apps o subject := by
  simp only [demandedSubjects, List.mem_toFinset, List.mem_map, List.mem_filter, List.mem_flatMap, mem_demandedConditions,
    Table.mem_values_iff]
  constructor
  · rintro ⟨c, ⟨⟨s, ⟨appId, hs⟩, taskId, conditionId, row, hroute, hrow, hc, hstate, hphase, hcancelled⟩, hdemand⟩, hsubject⟩
    exact ⟨appId, s, hs, taskId, conditionId, row, c, hroute, hrow, hc, hstate, hphase, hcancelled, hdemand, hsubject⟩
  · rintro ⟨appId, s, hs, taskId, conditionId, row, c, hroute, hrow, hc, hstate, hphase, hcancelled, hdemand, hsubject⟩
    exact ⟨c, ⟨⟨s, ⟨appId, hs⟩, taskId, conditionId, row, hroute, hrow, hc, hstate, hphase, hcancelled⟩, hdemand⟩, hsubject⟩

/-! ### The cycle of pages -/

theorem demandOf_periodic (m : ObserverMemory) : demandOf apps o m none =
    Keyset.cyclePage OBSERVER_PAGE_SIZE (demandedSubjects apps o.type o.source) "" m.cursor := by
  show (if (Keyset.page _ (some m.cursor) _).isEmpty && m.cursor != "" then _ else _) = _
  rw [Keyset.cyclePage]
  by_cases hcursor : m.cursor = ""
  · rw [hcursor]
    simp
    rfl
  · by_cases hpage : Keyset.page (demandedSubjects apps o.type o.source) (some m.cursor) OBSERVER_PAGE_SIZE = []
    · simp [hpage, hcursor]
      rfl
    · simp [hpage]
      rfl

theorem mem_demanded_of_mem_demandOf {m : ObserverMemory} {requested : Option (List String)}
    (h : subject ∈ demandOf apps o m requested) : subject ∈ demandedSubjects apps o.type o.source := by
  cases requested with
  | none =>
    rw [demandOf_periodic, Keyset.cyclePage] at h
    split at h <;> exact (Keyset.mem_ahead.mp (Keyset.mem_ahead_of_mem_page h)).1
  | some => exact (Finset.mem_filter.mp (Keyset.mem_ahead.mp (Keyset.mem_ahead_of_mem_page h)).1).1

theorem origin_lt_of_reference (h : isResourceReference subject = true) : "" < subject := by
  rw [isResourceReference, Bool.and_eq_true] at h
  have htext := Text.append_drop_of_startsWith h.1
  rw [String.lt_iff_toList_lt, ← htext, String.toList_append]
  exact List.Lex.nil

/-- How many completed periodic runs may miss the subject. -/
def observerWait (apps : AppStores) (o : ResourceObserver) (subject : String) (m : ObserverMemory) : Nat :=
  Keyset.cycleWait OBSERVER_PAGE_SIZE (demandedSubjects apps o.type o.source) "" m.cursor subject

theorem observerWait_le (hdemanded : subject ∈ demandedSubjects apps o.type o.source) (m : ObserverMemory) :
    observerWait apps o subject m ≤ ((demandedSubjects apps o.type o.source).card + 3) / 4 :=
  Keyset.cycleWait_le (by decide) hdemanded

/-- A run does not move the cursor away from the subject, and a completed periodic run that misses it moves it closer. -/
theorem observerWait_next (hdemanded : subject ∈ demandedSubjects apps o.type o.source)
    (hreference : isResourceReference subject = true) (m : ObserverMemory) (run : ObserverRun)
    (hmissed : subject ∉ (observerScanner apps o).visited m run) :
    observerWait apps o subject ((observerScanner apps o).next m run) + (if (observerScanner apps o).isPass run then 1 else 0) ≤
      observerWait apps o subject m := by
  obtain ⟨requested, _, _, completed⟩ := run
  cases completed with
  | false => exact le_refl _
  | true =>
    cases requested with
    | some => exact le_refl _
    | none =>
      have hpage : subject ∉ Keyset.cyclePage OBSERVER_PAGE_SIZE (demandedSubjects apps o.type o.source) "" m.cursor := by
        rw [← demandOf_periodic]
        intro hmem
        exact hmissed (List.mem_filter.mpr ⟨hmem, hreference⟩)
      have hwait := Keyset.cycleWait_missed (by decide) hdemanded (origin_lt_of_reference hreference) hpage
      rw [← demandOf_periodic] at hwait
      exact hwait

theorem demanded_of_visits {m : ObserverMemory} {runs : List ObserverRun} (h : (observerScanner apps o).Visits subject m runs) :
    subject ∈ demandedSubjects apps o.type o.source ∧ isResourceReference subject = true := by
  obtain ⟨m, _, hvisited⟩ := h.exists
  simp only [observerScanner] at hvisited
  split at hvisited
  · obtain ⟨hmem, hreference⟩ := List.mem_filter.mp hvisited
    exact ⟨mem_demanded_of_mem_demandOf hmem, hreference⟩
  · cases hvisited

def unhelpfulRun : ObserverRun := ⟨none, fun _ => .error "", fun _ => false, true⟩

/-- A subject is inspected within as many completed periodic runs as the demand has pages and one more, from every memory
and among any other runs, if and only if it is a resource and a Task that waits, runs or is pending demands it. -/
theorem subject_observed_iff (apps : AppStores) (o : ResourceObserver) (subject : String) :
    (∀ (m : ObserverMemory) (runs : List ObserverRun),
        ((demandedSubjects apps o.type o.source).card + 3) / 4 + 1 ≤ runs.countP (observerScanner apps o).isPass →
        (observerScanner apps o).Visits subject m runs) ↔
      Demanded apps o subject ∧ isResourceReference subject = true := by
  constructor
  · intro hvisits
    have hpass : (observerScanner apps o).isPass unhelpfulRun = true := rfl
    have hcount (k : Nat) : (List.replicate k unhelpfulRun).countP (observerScanner apps o).isPass = k := by
      rw [List.countP_replicate, if_pos hpass]
    have hvisited := hvisits ⟨"", []⟩ (List.replicate _ unhelpfulRun) (hcount _).ge
    exact (demanded_of_visits hvisited).imp_left mem_demandedSubjects.mp
  · rintro ⟨hdemanded, hreference⟩ m runs hcount
    rw [← mem_demandedSubjects] at hdemanded
    refine Scanner.visits_of_measure (observerWait apps o subject) (observerWait_next hdemanded hreference) ?_
    exact lt_of_le_of_lt (observerWait_le hdemanded m) hcount

/-! ### A wait of a Task whose retries are exhausted -/

namespace Sample.Observation

def context : Context where
  appId := "app"
  agent := "worker"
  projectId := "app"
  project := "app"
  runtimeId := "runtime-1"
  maxConsecutiveFailures := none
  dateParse := fun _ => none
  foreignAttempt := fun _ _ => none

def observer : ResourceObserver := ⟨"git", "pulls", "pull.observed", 30000⟩

def merged : Condition where
  id := "merged"
  generation := 1
  resourceVersion := 1
  spec := {
    type := "pull.observed"
    subject := "resource:7"
    expected := .obj [("source", .str "app:git:observer:pulls"), ("state", .str "merged")] }
  observedGeneration := 1
  state := .unknown

def resource : Resource where
  metadata := ⟨"t", none, 1, 1, none⟩
  spec := { parentId := "root", outcome := "released", acceptance := ["merged"] }
  status := {
    observedGeneration := 1
    phase := .attention
    retryExhausted := some ⟨1, "attempt", 5, 5, 0⟩
    conditionIds := ["merged"]
    updatedAt := 0 }

def store : Store where
  tasks := (∅ : Table String Row).put "t" ⟨resource, none, false, false, none, none⟩
  attempts := ∅
  conditions := (∅ : Table String Condition).put "merged" merged
  routes := [("t", "merged")]
  admissions := ∅
  cancellations := ∅
  controlReceipts := ∅
  taskEvents := []
  groups := ∅
  revision := 0
  lifecycle := .active
  humanInput := []
  lastEventId := 0

def host : AppStores := (∅ : AppStores).put "app" store

def tree : Tree := store.readTaskContext { taskIds := ["t"], includeHistory := false, children := false }

def fact : Event := observedFact observer "resource:7" (.value [("state", .str "merged")])

end Sample.Observation

open Sample.Observation in
/-- The open Condition of the Task admits the fact of the observer and the Task would be woken, but the observer never
inspects the pull request. -/
theorem exhausted_wait_unobserved :
    host.get "app" = some store ∧ store.conditions.get "merged" = some merged ∧ merged.state ≠ .met ∧
      merged.isDemand observer.type observer.source = true ∧ ("t", "merged") ∈ store.routes ∧ store.isCancelled "t" = false ∧
      (applyConditionEvent context (store.attemptLookup context) 0 tree fact none).2 = ([("t", "merged")], ["merged"]) ∧
      ¬∀ (m : ObserverMemory) (runs : List ObserverRun),
        ((demandedSubjects host observer.type observer.source).card + 3) / 4 + 1 ≤
          runs.countP (observerScanner host observer).isPass →
        (observerScanner host observer).Visits merged.spec.subject m runs := by
  refine ⟨Table.get_put_self _ _ _, Table.get_put_self _ _ _, by decide, by decide, by decide, by decide, by decide +kernel,
    fun hvisits => ?_⟩
  have hnone : demandedSubjects host observer.type observer.source = ∅ := by decide +kernel
  have hvisited := hvisits ⟨"", []⟩ [unhelpfulRun] (by rw [hnone]; decide)
  have hdemanded := (demanded_of_visits hvisited).1
  rw [hnone] at hdemanded
  exact absurd hdemanded (Finset.notMem_empty _)

end MayAgent
