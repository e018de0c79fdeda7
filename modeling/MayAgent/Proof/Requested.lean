import MayAgent.Proof.WellFormed

/-!
# A snapshot that requests a Task

Such a snapshot shows the Task as it is stored, with its dependencies and linked Conditions, and of its
attempts the same ones whatever else is requested.
-/

namespace MayAgent

namespace Store

variable {s : Store} {scope : Scope} {k d : String} {r : Resource} {tr : Option Trigger}

def relations (s : Store) (id : String) : Option (List String) :=
  (s.readTask id).map fun r => (specRelations r.spec).filter (· != "")

theorem mem_closure_relations {start : List String} :
    k ∈ closure s.relations (s.tasks.entries.length + 1) start [] ↔
      (s.relations k).isSome = true ∧ Closure.Reached s.relations start k := by
  have hstored : ∀ id, (s.relations id).isSome = true → id ∈ (s.tasks.entries.map Sigma.fst).toFinset := by
    intro id hid
    rw [relations, Option.isSome_map, readTask, Option.isSome_map] at hid
    obtain ⟨row, hrow⟩ := Option.isSome_iff_exists.mp hid
    rw [List.mem_toFinset, List.mem_map]
    exact ⟨⟨id, row⟩, (Table.get_eq_some_iff _ _ _).mp hrow, rfl⟩
  refine mem_closure hstored ?_
  calc (s.tasks.entries.map Sigma.fst).toFinset.card
      ≤ (s.tasks.entries.map Sigma.fst).length := List.toFinset_card_le _
    _ = s.tasks.entries.length := List.length_map _
    _ < s.tasks.entries.length + 1 := Nat.lt_succ_self _

theorem relations_isSome (hr : s.task k = some (r, tr)) : (s.relations k).isSome = true := by
  rw [relations, readTask_eq_task, hr]
  rfl

theorem mem_contextTaskIds_of_requested (hk : k ∈ requestedIds scope.taskIds) (hr : s.task k = some (r, tr)) :
    k ∈ s.contextTaskIds scope := by
  have hreached := mem_closure_relations.mpr ⟨relations_isSome hr, k, hk, .refl⟩
  exact List.mem_append_left _ (List.mem_append_left _ hreached)

theorem mem_contextTaskIds_of_dependency (hk : k ∈ requestedIds scope.taskIds) (hr : s.task k = some (r, tr))
    (hd : d ∈ r.spec.dependsOn.getD []) (hne : d ≠ "") {q : Resource} {tr' : Option Trigger}
    (hq : s.task d = some (q, tr')) : d ∈ s.contextTaskIds scope := by
  have hedge : Closure.Edge s.relations k d := by
    refine ⟨(specRelations r.spec).filter (· != ""), ?_, ?_⟩
    · rw [relations, readTask_eq_task, hr]
      rfl
    · rw [List.mem_filter]
      exact ⟨List.mem_cons_of_mem _ hd, by simpa using hne⟩
  have hreached := mem_closure_relations.mpr ⟨relations_isSome hq, k, hk, .single hedge⟩
  exact List.mem_append_left _ (List.mem_append_left _ hreached)

theorem resources_get_of_requested (hk : k ∈ requestedIds scope.taskIds) (hr : s.task k = some (r, tr)) :
    (s.readTaskContext scope).resources.get k = some r := by
  rw [readTaskContext_resources_get, hr, Option.bind_some, List.contains_iff_mem.mpr (mem_contextTaskIds_of_requested hk hr)]
  rfl

theorem taskTriggers_get_of_requested (hk : k ∈ requestedIds scope.taskIds) (hr : s.task k = some (r, tr)) :
    (s.readTaskContext scope).taskTriggers.get k = tr := by
  rw [readTaskContext_taskTriggers_get, hr, Option.bind_some,
    List.contains_iff_mem.mpr (mem_contextTaskIds_of_requested hk hr)]
  rfl

theorem unmetDependencies_of_requested (hs : s.WellFormed) (hk : k ∈ requestedIds scope.taskIds)
    (hr : s.task k = some (r, tr)) :
    unmetDependencies (s.readTaskContext scope) r.spec =
      (r.spec.dependsOn.getD []).filter fun id => !((s.task id).map Prod.fst).any Resource.satisfies := by
  refine List.filter_congr fun d hd => ?_
  congr 2
  cases hq : s.task d with
  | none => rw [readTaskContext_resources_get, hq, Option.bind_none, Option.map_none]
  | some q =>
    obtain ⟨q, _⟩ := q
    have hne : d ≠ "" := by
      rintro rfl
      rw [hs.taskNonempty] at hq
      cases hq
    rw [readTaskContext_resources_get, hq, Option.bind_some,
      List.contains_iff_mem.mpr (mem_contextTaskIds_of_dependency hk hr hd hne hq)]
    rfl

theorem conditions_of_resources_get (hr : (s.readTaskContext scope).resources.get k = some r)
    (p : (_ : String) × Condition → Bool) :
    ((s.readTaskContext scope).conditions.entries.filter fun e => r.status.conditionIds.contains e.1 && p e) =
      s.conditions.entries.filter fun e => r.status.conditionIds.contains e.1 && p e := by
  have hconditions : (s.readTaskContext scope).conditions.entries = s.conditions.entries.filter fun e =>
      (((s.readTaskContext scope).resources.values.flatMap fun r => r.status.conditionIds)
        ++ scope.conditionIds).contains e.1 := rfl
  rw [hconditions, List.filter_filter]
  refine List.filter_congr fun e _ => ?_
  by_cases hlinked : e.1 ∈ r.status.conditionIds
  · have hshown : e.1 ∈ ((s.readTaskContext scope).resources.values.flatMap fun r => r.status.conditionIds)
        ++ scope.conditionIds :=
      List.mem_append_left _ (List.mem_flatMap.mpr ⟨r, (Table.mem_values_iff _ _).mpr ⟨k, hr⟩, hlinked⟩)
    rw [List.contains_iff_mem.mpr hshown, Bool.and_true]
  · simp [hlinked]

theorem referenced_contains (hs : s.WellFormed) (hr : (s.readTaskContext scope).resources.get k = some r) {b : Attempt}
    (hb : b ∈ s.attempts.values) (htask : b.taskId = k) :
    (referencedAttempts (s.readTaskContext scope)).contains b.id =
      (r.status.currentAttemptId.toList ++ r.status.observedAttemptId.toList).contains b.id := by
  rw [Bool.eq_iff_iff, List.contains_iff_mem, List.contains_iff_mem]
  constructor
  · intro href
    obtain ⟨_, hid⟩ := (Table.mem_values_iff _ _).mp hb
    rw [← hs.attemptId _ _ hid] at hid
    exact hs.referenced (by rw [htask]; exact hr) hid href
  · intro hown
    exact List.mem_flatMap.mpr ⟨r, (Table.mem_values_iff _ _).mpr ⟨k, hr⟩, hown⟩

theorem historyRank_of_resources_get (hs : s.WellFormed) (hr : (s.readTaskContext scope).resources.get k = some r)
    {a : Attempt} (ha : a ∈ s.attempts.values) (htask : a.taskId = k) :
    s.historyRank (referencedAttempts (s.readTaskContext scope)) a =
      s.historyRank (r.status.currentAttemptId.toList ++ r.status.observedAttemptId.toList) a := by
  unfold historyRank
  congr 1
  refine List.filter_congr fun b hb => ?_
  by_cases hsame : b.taskId = a.taskId
  · unfold historyPrecedes
    rw [referenced_contains hs hr hb (hsame.trans htask), referenced_contains hs hr ha htask]
  · rw [beq_false_of_ne hsame, Bool.false_and, Bool.false_and]

theorem attempts_of_resources_get (hs : s.WellFormed) (hhistory : scope.includeHistory = true)
    (hr : (s.readTaskContext scope).resources.get k = some r) (p : Attempt → Bool) :
    ((s.readTaskContext scope).attempts.values.filter fun a => a.taskId == k && p a) =
      s.attempts.values.filter fun a => (a.taskId == k && p a) && decide (s.historyRank
        (r.status.currentAttemptId.toList ++ r.status.observedAttemptId.toList) a < MAX_CONTEXT_ATTEMPTS_PER_TASK) := by
  have hvalues : (s.readTaskContext scope).attempts.values = s.attempts.values.filter fun a =>
      (s.readTaskContext scope).resources.has a.taskId
        && decide (s.historyRank (referencedAttempts (s.readTaskContext scope)) a < MAX_CONTEXT_ATTEMPTS_PER_TASK) := by
    simp only [readTaskContext, referencedAttempts, hhistory, if_true, Table.values, Table.filter, List.filter_map]
    rfl
  rw [hvalues, List.filter_filter]
  refine List.filter_congr fun a ha => ?_
  by_cases htask : a.taskId = k
  · rw [historyRank_of_resources_get hs hr ha htask, htask, Table.has, hr, Option.isSome_some, Bool.true_and]
  · rw [beq_false_of_ne htask, Bool.false_and, Bool.false_and, Bool.false_and]

end Store

end MayAgent
