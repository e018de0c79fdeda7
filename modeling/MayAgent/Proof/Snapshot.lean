import MayAgent.Proof.Commit

/-!
# What a snapshot shows

A snapshot (`readTaskContext`) is a part of the store it was read from: every Task, trigger, attempt,
Condition and closure in it is a stored one.
-/

namespace MayAgent

namespace Store

variable {s : Store} {scope : Scope} {k : String}

theorem readTaskContext_resources_get (s : Store) (scope : Scope) (k : String) :
    (s.readTaskContext scope).resources.get k =
      (s.task k).bind fun x => if (s.contextTaskIds scope).contains k then some x.1 else none := by
  simp only [readTaskContext, Table.get_filterMapVal, task, Option.bind_map, Function.comp_def]

theorem readTaskContext_taskTriggers_get (s : Store) (scope : Scope) (k : String) :
    (s.readTaskContext scope).taskTriggers.get k =
      (s.task k).bind fun x => if (s.contextTaskIds scope).contains k then x.2 else none := by
  simp only [readTaskContext, Table.get_filterMapVal, task, Option.bind_map, Function.comp_def]

/-- A resource of a context is the stored row. -/
theorem task_of_resources_get {r : Resource} (h : (s.readTaskContext scope).resources.get k = some r) :
    s.task k = some (r, (s.readTaskContext scope).taskTriggers.get k) := by
  rw [readTaskContext_resources_get, Option.bind_eq_some_iff] at h
  obtain ⟨⟨_, _⟩, htask, h⟩ := h
  by_cases hk : (s.contextTaskIds scope).contains k = true
  · simp only [if_pos hk, Option.some.injEq] at h
    subst h
    rw [readTaskContext_taskTriggers_get, htask, Option.bind_some, if_pos hk]
  · simp only [if_neg hk, reduceCtorEq] at h

theorem mem_contextTaskIds {r : Resource} (h : (s.readTaskContext scope).resources.get k = some r) :
    k ∈ s.contextTaskIds scope := by
  rw [readTaskContext_resources_get, Option.bind_eq_some_iff] at h
  obtain ⟨x, -, h⟩ := h
  by_cases hk : (s.contextTaskIds scope).contains k = true
  · exact List.contains_iff_mem.mp hk
  · simp only [if_neg hk, reduceCtorEq] at h

theorem attempts_of_readTaskContext {id : String} {a : Attempt}
    (h : (s.readTaskContext scope).attempts.get id = some a) : s.attempts.get id = some a := by
  simp only [readTaskContext] at h
  split at h
  · exact ((Table.get_filter_eq_some_iff _ _ _ _).mp h).1
  · rw [Table.get_empty] at h
    cases h

theorem cancellations_of_readTaskContext {id : String} {c : Cancellation}
    (h : (s.readTaskContext scope).cancellations.get id = some c) : s.cancellations.get id = some c :=
  ((Table.get_filter_eq_some_iff _ _ _ _).mp h).1

theorem appTaskAdmissions_get (s : Store) (scope : Scope) (key : String) :
    (s.readTaskContext scope).appTaskAdmissions.get key =
      (s.admissions.get key).filter fun _ => scope.admissionIds.contains key :=
  Table.get_filter _ _ _

theorem cancellations_get_of_resources_get {r : Resource}
    (h : (s.readTaskContext scope).resources.get k = some r) :
    (s.readTaskContext scope).cancellations.get k = s.cancellations.get k := by
  have hhas : (s.readTaskContext scope).resources.has k = true := by rw [Table.has, h, Option.isSome_some]
  simp only [readTaskContext] at hhas ⊢
  rw [Table.get_filter]
  cases hc : s.cancellations.get k with
  | none => rfl
  | some => exact Option.filter_eq_some_iff.mpr ⟨rfl, hhas⟩

end Store

end MayAgent
