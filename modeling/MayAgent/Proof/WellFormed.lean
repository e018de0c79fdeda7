import MayAgent.Proof.Snapshot
import Mathlib.Data.List.Perm.Subperm

/-!
# Well-formed stores

Rows are stored under the id they carry, and a Task and its attempts agree on which attempt runs. In
a well-formed store a snapshot contains the current and the observed attempt of each of its Tasks,
whatever the bound on their history.
-/

namespace MayAgent

structure Resource.Executes (attempts : Table String Attempt) (r : Resource) : Prop where
  current : ∀ id, r.status.currentAttemptId = some id →
    r.status.phase = .running ∧ ∃ a, attempts.get id = some a ∧ a.taskId = r.metadata.id ∧ a.state = .running
  running : r.status.phase = .running → r.status.currentAttemptId.isSome
  observed : ∀ id, r.status.observedAttemptId = some id →
    ∃ a, attempts.get id = some a ∧ a.taskId = r.metadata.id

/-- The basic invariant of a store. -/
structure Store.WellFormed (s : Store) : Prop where
  taskId : ∀ k r tr, s.task k = some (r, tr) → r.metadata.id = k
  taskNonempty : s.task "" = none
  attemptId : ∀ id a, s.attempts.get id = some a → a.id = id
  attemptTask : ∀ id a, s.attempts.get id = some a → ∃ r tr, s.task a.taskId = some (r, tr)
  executes : ∀ k r tr, s.task k = some (r, tr) → r.Executes s.attempts
  exclusive : ∀ id a, s.attempts.get id = some a → a.state = .running →
    ∃ r tr, s.task a.taskId = some (r, tr) ∧ r.status.currentAttemptId = some id

namespace Store

variable {s : Store}

/-- The attempts a snapshot keeps in any case. -/
def referencedAttempts (t : Tree) : List String :=
  t.resources.values.flatMap fun r => r.status.currentAttemptId.toList ++ r.status.observedAttemptId.toList

variable {scope : Scope} {r : Resource}

theorem readTaskContext_attempts_get (s : Store) (hhistory : scope.includeHistory = true) (id : String) :
    (s.readTaskContext scope).attempts.get id = (s.attempts.get id).filter fun a =>
      (s.readTaskContext scope).resources.has a.taskId
        && decide (s.historyRank (referencedAttempts (s.readTaskContext scope)) a < MAX_CONTEXT_ATTEMPTS_PER_TASK) := by
  have hattempts : (s.readTaskContext scope).attempts = s.attempts.filter fun _ a =>
      (s.readTaskContext scope).resources.has a.taskId
        && decide (s.historyRank (referencedAttempts (s.readTaskContext scope)) a < MAX_CONTEXT_ATTEMPTS_PER_TASK) := by
    simp only [readTaskContext, referencedAttempts, hhistory, if_true]
  rw [hattempts, Table.get_filter]

theorem WellFormed.referenced (hs : s.WellFormed) {b : Attempt}
    (hr : (s.readTaskContext scope).resources.get b.taskId = some r) (hb : s.attempts.get b.id = some b)
    (href : b.id ∈ referencedAttempts (s.readTaskContext scope)) :
    b.id ∈ r.status.currentAttemptId.toList ++ r.status.observedAttemptId.toList := by
  simp only [referencedAttempts, List.mem_flatMap] at href
  obtain ⟨_, hr', hmem⟩ := href
  obtain ⟨k, hk⟩ := (Table.mem_values_iff _ _).mp hr'
  have htask := task_of_resources_get hk
  have hid := hs.taskId _ _ _ htask
  have hexec := hs.executes _ _ _ htask
  have hown : b.taskId = k := by
    rw [List.mem_append, Option.mem_toList, Option.mem_toList] at hmem
    rcases hmem with hcur | hobs
    · obtain ⟨-, a, ha, htaskId, -⟩ := hexec.current _ hcur
      rw [hb] at ha
      cases ha
      rw [htaskId, hid]
    · obtain ⟨a, ha, htaskId⟩ := hexec.observed _ hobs
      rw [hb] at ha
      cases ha
      rw [htaskId, hid]
  rw [hown, hk] at hr
  cases hr
  exact hmem

theorem WellFormed.historyRank_lt (hs : s.WellFormed) {a : Attempt}
    (hr : (s.readTaskContext scope).resources.get a.taskId = some r)
    (href : a.id ∈ referencedAttempts (s.readTaskContext scope)) :
    s.historyRank (referencedAttempts (s.readTaskContext scope)) a < MAX_CONTEXT_ATTEMPTS_PER_TASK := by
  set referenced := referencedAttempts (s.readTaskContext scope) with hreferenced
  set earlier := s.attempts.values.filter fun b => b.taskId == a.taskId && historyPrecedes referenced b a with hearlier
  have hnodup : (earlier.map Attempt.id).Nodup :=
    List.Nodup.sublist (List.Sublist.map _ List.filter_sublist)
      (Table.nodup_map_values s.attempts Attempt.id hs.attemptId)
  have hsubset : earlier.map Attempt.id ⊆ r.status.currentAttemptId.toList ++ r.status.observedAttemptId.toList := by
    intro id hid
    obtain ⟨b, hb, rfl⟩ := List.mem_map.mp hid
    obtain ⟨hvalue, hprecedes⟩ := List.mem_filter.mp hb
    obtain ⟨_, hkey⟩ := (Table.mem_values_iff _ _).mp hvalue
    rw [← hs.attemptId _ _ hkey] at hkey
    simp only [Bool.and_eq_true, beq_iff_eq] at hprecedes
    have hbref : b.id ∈ referenced := by
      by_contra hnot
      have : historyPrecedes referenced b a = false := by
        simp [historyPrecedes, hnot, href]
      rw [this] at hprecedes
      exact absurd hprecedes.2 (by decide)
    exact hs.referenced (by rw [hprecedes.1]; exact hr) hkey hbref
  have hlength := (hnodup.subperm hsubset).length_le
  have hcur : r.status.currentAttemptId.toList.length ≤ 1 := by
    cases r.status.currentAttemptId <;> simp
  have hobs : r.status.observedAttemptId.toList.length ≤ 1 := by
    cases r.status.observedAttemptId <;> simp
  rw [List.length_append, List.length_map] at hlength
  have hrank : s.historyRank referenced a = earlier.length := rfl
  rw [hrank, MAX_CONTEXT_ATTEMPTS_PER_TASK]
  omega

/-- A context with history holds the current attempt, still running. -/
theorem WellFormed.current_in_snapshot (hs : s.WellFormed) (hhistory : scope.includeHistory = true)
    {k id : String} (hr : (s.readTaskContext scope).resources.get k = some r)
    (hcur : r.status.currentAttemptId = some id) :
    ∃ a, (s.readTaskContext scope).attempts.get id = some a ∧
      currentResourceAttempt (s.readTaskContext scope) r = some a ∧ s.attempts.get id = some a ∧ a.id = id ∧
      a.taskId = k ∧ a.state = .running := by
  have htask := task_of_resources_get hr
  obtain ⟨-, a, ha, htaskId, hstate⟩ := (hs.executes _ _ _ htask).current _ hcur
  rw [hs.taskId _ _ _ htask] at htaskId
  have hid := hs.attemptId _ _ ha
  suffices hread : (s.readTaskContext scope).attempts.get id = some a from
    ⟨a, hread, by simp [currentResourceAttempt, hcur, hread, hstate], ha, hid, htaskId, hstate⟩
  rw [readTaskContext_attempts_get s hhistory, ha, Option.filter_eq_some_iff]
  refine ⟨rfl, ?_⟩
  have hmem : a.id ∈ referencedAttempts (s.readTaskContext scope) := by
    rw [referencedAttempts, List.mem_flatMap]
    exact ⟨r, (Table.mem_values_iff _ _).mpr ⟨k, hr⟩, by simp [hcur, hid]⟩
  have hrank := hs.historyRank_lt (by rw [htaskId]; exact hr) hmem
  simp only [Bool.and_eq_true, decide_eq_true_eq]
  exact ⟨by rw [Table.has, htaskId, hr, Option.isSome_some], hrank⟩

end Store

end MayAgent
