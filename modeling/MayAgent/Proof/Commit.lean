import MayAgent.Task.System

/-!
# What a commit changes

Lookups in the store after `applyMutation`, table by table, and what an accepted commit tells about
the store it landed on.
-/

namespace MayAgent

namespace Store

def task (s : Store) (k : String) : Option (Resource × Option Trigger) :=
  (s.tasks.get k).map fun row => (row.resource, row.trigger)

variable {s : Store} {ctx : Context} {m : Mutation}

variable {k : String} {r : Resource} {tr : Option Trigger} {now : Int}

theorem task_eq_some_iff :
    s.task k = some (r, tr) ↔ ∃ row, s.tasks.get k = some row ∧ row.resource = r ∧ row.trigger = tr := by
  simp [task, Prod.ext_iff]

theorem readTask_eq_task (s : Store) (k : String) : s.readTask k = (s.task k).map Prod.fst := by
  simp [readTask, task, Function.comp_def]

theorem task_putTask (now : Int) (s : Store) (w : TaskWrite) (k : String) :
    (putTask now s w).task k = if k = w.resource.metadata.id then some (w.resource, w.trigger) else s.task k := by
  unfold task putTask
  rw [Table.get_put]
  split
  · rfl
  · rfl

theorem task_putAttempt (s : Store) (a : Attempt) (k : String) : (putAttempt s a).task k = s.task k := by
  unfold task putAttempt
  cases hrow : s.tasks.get a.taskId with
  | none => rfl
  | some row =>
    by_cases hcurrent : a.state = .running ∧ row.resource.status.currentAttemptId = some a.id
    · simp only [if_pos hcurrent, Table.get_put]
      by_cases hk : k = a.taskId
      · subst hk
        simp [hrow]
      · simp [hk]
    · simp only [if_neg hcurrent]

/-! ### Folds of single writes -/

section Folds

variable {α β : Type*}

variable {f : Store → α → Store} {v : Store → β}

theorem foldl_frame (hframe : ∀ s a, v (f s a) = v s)
    (l : List α) (s : Store) : v (l.foldl f s) = v s := by
  induction l generalizing s with
  | nil => rfl
  | cons a l ih => rw [List.foldl_cons, ih, hframe]

theorem foldl_view {g : β → α → β}
    (hview : ∀ s a, v (f s a) = g (v s) a) (l : List α) (s : Store) :
    v (l.foldl f s) = l.foldl g (v s) := by
  induction l generalizing s with
  | nil => rfl
  | cons a l ih => rw [List.foldl_cons, ih, hview, List.foldl_cons]

end Folds

theorem task_foldl_putTask_cases (now : Int) (ws : List TaskWrite) (s : Store) (k : String) :
    (∃ w ∈ ws, w.resource.metadata.id = k ∧ (ws.foldl (putTask now) s).task k = some (w.resource, w.trigger)) ∨
      ((∀ w ∈ ws, w.resource.metadata.id ≠ k) ∧ (ws.foldl (putTask now) s).task k = s.task k) := by
  induction ws generalizing s with
  | nil => exact Or.inr ⟨by simp, rfl⟩
  | cons w _ ih =>
    rw [List.foldl_cons]
    rcases ih (putTask now s w) with ⟨w', hw', hid, hget⟩ | ⟨hne, hget⟩
    · exact Or.inl ⟨w', List.mem_cons_of_mem w hw', hid, hget⟩
    · rw [task_putTask] at hget
      by_cases hk : w.resource.metadata.id = k
      · rw [if_pos hk.symm] at hget
        exact Or.inl ⟨w, List.mem_cons_self, hk, hget⟩
      · rw [if_neg (Ne.symm hk)] at hget
        refine Or.inr ⟨?_, hget⟩
        intro w' hw'
        rcases List.mem_cons.mp hw' with rfl | hw'
        · exact hk
        · exact hne w' hw'

/-! ### Lookups after a mutation -/

section Apply

variable (now : Int) (s : Store) (m : Mutation)

theorem task_applyMutation (k : String) :
    (s.applyMutation now m).task k = (m.tasks.foldl (putTask now) s).task k := by
  unfold applyMutation
  simp only
  have hroutes : ∀ s (w : TaskWrite), (putTaskConditionRoutes s w.resource).task k = s.task k := fun _ _ => rfl
  have hprune : ∀ s id, (pruneCondition s id).task k = s.task k := by
    intro s id
    unfold pruneCondition
    split <;> rfl
  have hput : ∀ s c, (putCondition s c).task k = s.task k := fun _ _ => rfl
  have hdelete : ∀ s id, (deleteCondition s id).task k = s.task k := fun _ _ => rfl
  change (m.pruneConditionIds.foldl pruneCondition _).task k = _
  rw [foldl_frame (v := fun s => s.task k) hprune,
    foldl_frame (v := fun s => s.task k) hroutes,
    foldl_frame (v := fun s => s.task k) hput,
    foldl_frame (v := fun s => s.task k) hdelete,
    foldl_frame (v := fun s => s.task k) (fun s a => task_putAttempt s a k)]
  rw [foldl_view (v := fun s => s.task k)
      (g := fun x w => if k = w.resource.metadata.id then some (w.resource, w.trigger) else x)
      (fun s w => task_putTask now s w k),
    foldl_view (v := fun s => s.task k)
      (g := fun x w => if k = w.resource.metadata.id then some (w.resource, w.trigger) else x)
      (fun s w => task_putTask now s w k)]
  rfl

/-- A Task row after a commit is one it wrote or the one that stood. -/
theorem task_applyMutation_cases (k : String) :
    (∃ w ∈ m.tasks, w.resource.metadata.id = k ∧ (s.applyMutation now m).task k = some (w.resource, w.trigger)) ∨
      ((∀ w ∈ m.tasks, w.resource.metadata.id ≠ k) ∧ (s.applyMutation now m).task k = s.task k) := by
  rw [task_applyMutation]
  exact task_foldl_putTask_cases now m.tasks s k

theorem attempts_applyMutation :
    (s.applyMutation now m).attempts = s.attempts.putAll Attempt.id m.attempts := by
  unfold applyMutation
  simp only
  have hprune : ∀ s id, (pruneCondition s id).attempts = s.attempts := by
    intro s id
    unfold pruneCondition
    split <;> rfl
  rw [foldl_frame (v := Store.attempts) hprune,
    foldl_frame (v := Store.attempts) (f := fun s (w : TaskWrite) => s.putTaskConditionRoutes w.resource)
      (fun _ _ => rfl),
    foldl_frame (v := Store.attempts) (f := putCondition) (fun _ _ => rfl),
    foldl_frame (v := Store.attempts) (f := deleteCondition) (fun _ _ => rfl),
    foldl_view (v := Store.attempts) (f := putAttempt) (g := fun t a => t.put a.id a) (fun _ _ => rfl),
    foldl_frame (v := Store.attempts) (f := putTask now) (fun _ _ => rfl)]
  rfl

theorem foldl_writes_frame {β : Type*} {v : Store → β} (htask : ∀ s w, v (putTask now s w) = v s)
    (hattempt : ∀ s a, v (putAttempt s a) = v s) (hdelete : ∀ s id, v (deleteCondition s id) = v s)
    (hput : ∀ s c, v (putCondition s c) = v s)
    (hroutes : ∀ s (w : TaskWrite), v (putTaskConditionRoutes s w.resource) = v s)
    (hprune : ∀ s id, v (pruneCondition s id) = v s) :
    v (m.pruneConditionIds.foldl pruneCondition
      (m.tasks.foldl (fun s w => s.putTaskConditionRoutes w.resource)
        (m.conditions.foldl putCondition (m.deleteConditionIds.foldl deleteCondition
          (m.attempts.foldl putAttempt (m.tasks.foldl (putTask now) s)))))) = v s := by
  rw [foldl_frame hprune, foldl_frame hroutes, foldl_frame hput, foldl_frame hdelete, foldl_frame hattempt,
    foldl_frame htask]

theorem cancellations_applyMutation :
    (s.applyMutation now m).cancellations
      = (s.cancellations.dropAll m.reopenTaskIds).putAll Cancellation.taskId m.cancellations := by
  unfold applyMutation
  simp only
  rw [foldl_writes_frame now _ m (v := Store.cancellations) (fun _ _ => rfl) (fun _ _ => rfl) (fun _ _ => rfl)
    (fun _ _ => rfl) (fun _ _ => rfl)]
  intro s id
  unfold pruneCondition
  split <;> rfl

theorem admissions_applyMutation :
    (s.applyMutation now m).admissions = m.admissions.foldl (fun t a => t.put a.1 a.2) s.admissions := by
  unfold applyMutation
  simp only
  rw [foldl_writes_frame now _ m (v := Store.admissions) (fun _ _ => rfl) (fun _ _ => rfl) (fun _ _ => rfl)
    (fun _ _ => rfl) (fun _ _ => rfl)]
  intro s id
  unfold pruneCondition
  split <;> rfl

/-- What no mutation changes: the groups, the App's lifecycle, its pending human inputs and the
journal. -/
theorem environment_applyMutation :
    (s.applyMutation now m).groups = s.groups ∧ (s.applyMutation now m).lifecycle = s.lifecycle ∧
      (s.applyMutation now m).humanInput = s.humanInput ∧ (s.applyMutation now m).lastEventId = s.lastEventId := by
  have hframe := foldl_writes_frame now { s with cancellations := s.cancellations.dropAll m.reopenTaskIds } m
    (v := fun s => (s.groups, s.lifecycle, s.humanInput, s.lastEventId)) (fun _ _ => rfl) (fun _ _ => rfl)
    (fun _ _ => rfl) (fun _ _ => rfl) (fun _ _ => rfl) (by
      intro s id
      unfold pruneCondition
      split <;> rfl)
  simp only [Prod.mk.injEq] at hframe
  exact hframe

end Apply

/-! ### Accepted commits -/

/-- What `commit` has checked when it accepts a mutation. -/
structure Accepts (ctx : Context) (s : Store) (m : Mutation) : Prop where
  fenced : m.fences ≠ [] ∨ m.expectMissingTaskIds ≠ []
  unpaused : ∀ k, m.requireUnpausedTask = some k → s.allowsTaskExecution k = true
  fences : ∀ f ∈ m.fences, s.fenceHolds f = true
  missing : ∀ k ∈ m.expectMissingTaskIds, s.tasks.get k = none
  creator : ∀ w ∈ m.tasks, s.changesCreator w = false
  parent : ∀ w ∈ m.tasks, s.attachesToClosed w = false
  reopened : ∀ k ∈ m.reopenTaskIds, s.reopenAllowed m k = true
  closed : ∀ c ∈ m.cancellations, s.isCancelled c.taskId = true → c.taskId ∈ m.reopenTaskIds
  receipts : ∀ r ∈ m.controlReceipts, s.controlReceipts.get r.controlKey = none

theorem ite_error_eq_ok {ε α : Type*} {c : Prop} [Decidable c] {e : ε} {x : Except ε α} {u : α} :
    (if c then .error e else x) = .ok u ↔ ¬c ∧ x = .ok u := by
  by_cases hc : c
  · simp [hc]
  · simp [hc]

theorem commitGuard_ok (h : s.commitGuard ctx m = .ok ()) :
    s.Accepts ctx m := by
  unfold commitGuard at h
  simp only [ite_error_eq_ok] at h
  obtain ⟨hfenced, hunpaused, hfences, hmissing, -, hcreator, hparent, hreopened, -, hclosed, -, hreceipts, -⟩ := h
  simp only [Bool.not_eq_true, Bool.and_eq_false_iff, List.isEmpty_eq_false_iff] at hfenced
  simp only [Bool.not_eq_true', Bool.not_eq_false] at hunpaused
  simp only [Bool.not_eq_true', Bool.not_eq_false, List.all_eq_true] at hfences hreopened
  simp only [Bool.not_eq_true, List.any_eq_false] at hmissing hcreator hparent hclosed hreceipts
  refine ⟨hfenced, ?_, hfences, ?_, ?_, ?_, hreopened, ?_, ?_⟩
  · intro k hk
    simpa [hk] using hunpaused
  · intro k hk
    simpa [Table.has] using hmissing k hk
  · intro w hw
    simpa using hcreator w hw
  · intro w hw
    simpa using hparent w hw
  · intro c hc hclosed'
    simpa [hclosed'] using hclosed c hc
  · intro r hr
    simpa [Table.has] using hreceipts r hr

theorem commit_eq_ok_iff {s' : Store} :
    s.commit ctx now m = .ok s' ↔ s.commitGuard ctx m = .ok () ∧ s' = s.applyMutation now m := by
  unfold commit
  cases h : s.commitGuard ctx m with
  | error => simp
  | ok => simp [eq_comm]

/-- A commit of one Task under its own fence lands. -/
theorem commit_single
    {w : TaskWrite} (hr : s.task k = some (r, tr)) (hid : r.metadata.id = k)
    (hfences : m.fences = [r.fence]) (htasks : m.tasks = [w]) (hw : w.resource.metadata.id = k)
    (hcreator : w.resource.metadata.creator = r.metadata.creator) (hparent : w.resource.spec.parentId = r.spec.parentId)
    (hunpaused : ∀ k', m.requireUnpausedTask = some k' → s.allowsTaskExecution k' = true)
    (hmissing : m.expectMissingTaskIds = []) (hclose : m.cancellations = []) (hreopen : m.reopenTaskIds = [])
    (hreceipts : ∀ c ∈ m.controlReceipts, c.appId = ctx.appId ∧ s.controlReceipts.get c.controlKey = none) :
    s.commit ctx now m = .ok (s.applyMutation now m) ∧ (s.applyMutation now m).task k = some (w.resource, w.trigger) := by
  obtain ⟨_, hrow, hresource, -⟩ := task_eq_some_iff.mp hr
  have hread : s.readTask w.resource.metadata.id = some r := by rw [readTask_eq_task, hw, hr, Option.map_some]
  have hfence : s.fenceHolds r.fence = true := by simp [fenceHolds, Resource.fence, hid, hrow, hresource]
  have hallowed : m.requireUnpausedTask.all s.allowsTaskExecution = true := by
    cases hrequire : m.requireUnpausedTask with
    | none => rfl
    | some k' => exact hunpaused k' hrequire
  have happ : (m.controlReceipts.any fun c => c.appId != ctx.appId) = false := by
    rw [List.any_eq_false]
    intro c hc
    simp [(hreceipts c hc).1]
  have hunused : (m.controlReceipts.any fun c => s.controlReceipts.has c.controlKey) = false := by
    rw [List.any_eq_false]
    intro c hc
    simp [Table.has, (hreceipts c hc).2]
  refine ⟨commit_eq_ok_iff.mpr ⟨?_, rfl⟩, ?_⟩
  · unfold commitGuard
    simp [hfences, htasks, hmissing, hclose, hreopen, hfence, hallowed, happ, hunused, changesCreator, attachesToClosed, hread,
      hcreator, hparent]
  · rcases task_applyMutation_cases now s m k with ⟨_, hw', -, htask⟩ | ⟨hnot, -⟩
    · rw [htasks, List.mem_singleton] at hw'
      rw [htask, hw']
    · exact absurd hw (hnot w (by simp [htasks]))

/-- A commit lands whole or not at all. -/
theorem land_commit_cases (ctx : Context) (now : Int) (s : Store) (m : Mutation) :
    (Effect.commit m).land ctx now s = s ∨
      (s.Accepts ctx m ∧ s.commit ctx now m = .ok (s.applyMutation now m) ∧
        (Effect.commit m).land ctx now s = s.applyMutation now m) := by
  simp only [Effect.land]
  cases h : s.commit ctx now m with
  | error => exact Or.inl rfl
  | ok =>
    obtain ⟨hguard, rfl⟩ := commit_eq_ok_iff.mp h
    exact Or.inr ⟨commitGuard_ok hguard, rfl, rfl⟩

end Store

end MayAgent
