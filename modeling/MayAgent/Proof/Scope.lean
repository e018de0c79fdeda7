import MayAgent.Proof.WellFormed

/-!
# Mutation scopes

What `finishResourceMutationScope` writes: the edited row of every tracked Task, fenced by the row as
it was read, and every attempt whose version was raised.
-/

namespace MayAgent

def Tree.linked (t : Tree) (k : String) : List String :=
  match t.resources.get k with
  | some r => r.status.conditionIds
  | none => []

/-- A scope whose tracked Tasks are fenced by the snapshot `base`. -/
structure MutationScope.Tracks (base : Tree) (scope : MutationScope) : Prop where
  fence : ∀ f ∈ scope.fences, ∃ r, base.resources.get f.taskId = some r ∧ f = { r.fence with taskId := f.taskId }
  fenced : ∀ k ∈ scope.writeTaskIds, ∀ r, base.resources.get k = some r → ∃ f ∈ scope.fences, f.taskId = k
  nodup : scope.writeTaskIds.Nodup
  nonempty : "" ∉ scope.writeTaskIds
  attempts : scope.originalAttemptVersions = base.attempts.filterMapVal fun _ a => some a.resourceVersion
  conditions : scope.originalConditionVersions = base.conditions.filterMapVal fun _ c => some c.resourceVersion

namespace MutationScope

variable {base t : Tree} {scope : MutationScope} {k : String}

theorem tracks_empty (base : Tree) : (emptyResourceMutationScope base).Tracks base where
  fence := by simp [emptyResourceMutationScope]
  fenced := by simp [emptyResourceMutationScope]
  nodup := List.nodup_nil
  nonempty := by simp [emptyResourceMutationScope]
  attempts := rfl
  conditions := rfl

theorem Tracks.fenceTask (h : scope.Tracks base)
    (hsame : ∀ r', t.resources.get k = some r' → (∃ f ∈ scope.fences, f.taskId = k) ∨
      ∃ r, base.resources.get k = some r ∧ r'.fence = r.fence) :
    (fenceResourceMutationTask t scope k).Tracks base ∧
      (fenceResourceMutationTask t scope k).writeTaskIds = scope.writeTaskIds ∧
      (∀ f ∈ scope.fences, f ∈ (fenceResourceMutationTask t scope k).fences) ∧
      (∀ r', t.resources.get k = some r' → ∃ f ∈ (fenceResourceMutationTask t scope k).fences, f.taskId = k) := by
  unfold fenceResourceMutationTask
  cases hr : t.resources.get k with
  | none => exact ⟨h, rfl, fun f hf => hf, by simp⟩
  | some r' =>
    by_cases hany : (scope.fences.any fun f => f.taskId == k) = true
    · simp only [if_pos hany]
      refine ⟨h, trivial, fun f hf => hf, ?_⟩
      intro _ _
      obtain ⟨f, hf, hid⟩ := List.any_eq_true.mp hany
      exact ⟨f, hf, by simpa using hid⟩
    · simp only [if_neg hany]
      have hnew : ∃ r, base.resources.get k = some r ∧ r'.fence = r.fence := by
        rcases hsame r' hr with ⟨f, hf, hid⟩ | hsame
        · exact absurd (List.any_eq_true.mpr ⟨f, hf, by simp [hid]⟩) hany
        · exact hsame
      obtain ⟨r, hbase, hfence⟩ := hnew
      refine ⟨⟨?_, ?_, h.nodup, h.nonempty, h.attempts, h.conditions⟩, trivial,
        fun f hf => List.mem_append_left _ hf, ?_⟩
      · intro f hf
        rcases List.mem_append.mp hf with hf | hf
        · exact h.fence f hf
        · rw [List.mem_singleton] at hf
          subst hf
          exact ⟨r, hbase, by rw [hfence]⟩
      · intro k' hk' r₂ hr₂
        obtain ⟨f, hf, hid⟩ := h.fenced k' hk' r₂ hr₂
        exact ⟨f, List.mem_append_left _ hf, hid⟩
      · intro _ _
        exact ⟨_, List.mem_append_right _ (List.mem_singleton.mpr rfl), rfl⟩

/-- Tracking one more Task keeps every fence already taken. -/
theorem Tracks.track (h : scope.Tracks base) (hne : k ≠ "") (hdomain : base.resources.has k = true →
      t.resources.has k = true)
    (hsame : ∀ r', t.resources.get k = some r' → (∃ f ∈ scope.fences, f.taskId = k) ∨
      ∃ r, base.resources.get k = some r ∧ r'.fence = r.fence) :
    (trackResourceMutationTask t scope k).Tracks base ∧
      (∀ k', k' ∈ (trackResourceMutationTask t scope k).writeTaskIds ↔ k' = k ∨ k' ∈ scope.writeTaskIds) ∧
      (∀ f ∈ scope.fences, f ∈ (trackResourceMutationTask t scope k).fences) := by
  set widened : MutationScope := { scope with writeTaskIds := if scope.writeTaskIds.contains k then scope.writeTaskIds
      else scope.writeTaskIds ++ [k] } with hwidened
  have hmem : ∀ k', k' ∈ widened.writeTaskIds ↔ k' = k ∨ k' ∈ scope.writeTaskIds := by
    intro k'
    by_cases hk : k ∈ scope.writeTaskIds
    · simp only [hwidened, List.contains_iff_mem, hk, if_true]
      constructor
      · exact Or.inr
      · rintro (rfl | h')
        · exact hk
        · exact h'
    · simp only [hwidened, List.contains_iff_mem, hk, if_false, List.mem_append, List.mem_singleton]
      exact or_comm
  have hnodup : widened.writeTaskIds.Nodup := by
    by_cases hk : k ∈ scope.writeTaskIds
    · simpa only [hwidened, List.contains_iff_mem, hk, if_true] using h.nodup
    · simp only [hwidened, List.contains_iff_mem, hk, if_false]
      rw [List.nodup_append]
      refine ⟨h.nodup, List.nodup_singleton k, ?_⟩
      intro a ha b hb
      rw [List.mem_singleton] at hb
      subst hb
      rintro rfl
      exact hk ha
  obtain ⟨hfenced, -, hkept, hown⟩ := h.fenceTask hsame
  have hcommute : fenceResourceMutationTask t widened k =
      { fenceResourceMutationTask t scope k with writeTaskIds := widened.writeTaskIds } := by
    unfold fenceResourceMutationTask
    cases t.resources.get k with
    | none => rfl
    | some =>
      simp only [hwidened]
      split <;> rfl
  have htracked : ∃ ids, trackResourceMutationTask t scope k =
      { fenceResourceMutationTask t scope k with writeTaskIds := widened.writeTaskIds, conditionIds := ids } := by
    unfold trackResourceMutationTask
    rw [if_neg hne]
    simp only
    rw [← hwidened, hcommute]
    cases t.resources.get k with
    | none => exact ⟨_, rfl⟩
    | some => exact ⟨_, rfl⟩
  obtain ⟨ids, htracked⟩ := htracked
  rw [htracked]
  refine ⟨⟨hfenced.fence, ?_, hnodup, ?_, hfenced.attempts, hfenced.conditions⟩, hmem, hkept⟩
  · intro k' hk' r hr
    rcases (hmem k').mp hk' with rfl | hk'
    · have hhas := hdomain (by rw [Table.has, hr, Option.isSome_some])
      obtain ⟨r', hr'⟩ := Option.isSome_iff_exists.mp hhas
      exact hown r' hr'
    · obtain ⟨f, hf, hid⟩ := h.fenced k' hk' r hr
      exact ⟨f, hkept f hf, hid⟩
  · intro hempty
    rcases (hmem "").mp hempty with h' | h'
    · exact hne h'.symm
    · exact h.nonempty h'

theorem Tracks.foldl_track (h : scope.Tracks base)
    (hdomain : ∀ k, t.resources.has k = true → base.resources.has k = true) (ks : List String)
    (hks : ∀ k ∈ ks, k ∈ scope.writeTaskIds) (ids : List String) :
    ks.foldl (trackResourceMutationTask t) { scope with conditionIds := ids } =
      { scope with conditionIds := ids ++ ks.flatMap t.linked } := by
  induction ks generalizing ids with
  | nil => simp
  | cons k _ ih =>
    have hk := hks k List.mem_cons_self
    have hne : k ≠ "" := fun heq => h.nonempty (heq ▸ hk)
    have hstep : trackResourceMutationTask t { scope with conditionIds := ids } k =
        { scope with conditionIds := ids ++ t.linked k } := by
      unfold trackResourceMutationTask fenceResourceMutationTask Tree.linked
      rw [if_neg hne]
      simp only [List.contains_iff_mem, hk, if_true]
      cases hr : t.resources.get k with
      | none => simp
      | some =>
        have hhas := hdomain k (by rw [Table.has, hr, Option.isSome_some])
        obtain ⟨r₀, hr₀⟩ := Option.isSome_iff_exists.mp hhas
        obtain ⟨f, hf, hid⟩ := h.fenced k hk r₀ hr₀
        have hany : (scope.fences.any fun f => f.taskId == k) = true :=
          List.any_eq_true.mpr ⟨f, hf, by simp [hid]⟩
        simp only [hany, if_true]
    rw [List.foldl_cons, hstep, ih (fun k' hk' => hks k' (List.mem_cons_of_mem k hk')), List.flatMap_cons,
      List.append_assoc]

/-- A tracked scope finishes as one mutation under its fences. -/
theorem Tracks.finish (h : scope.Tracks base)
    (hdomain : ∀ k, t.resources.has k = true → base.resources.has k = true) (now : Int) :
    finishResourceMutationScope now scope t =
      { fences := scope.fences
        tasks := scope.writeTaskIds.filterMap fun k =>
          (t.resources.get k).map fun r => resourceWrite now t r (isRunnableOnPassiveResync now t r)
        attempts := t.attempts.values.filter fun a => scope.writeTaskIds.contains a.taskId
          && decide ((base.attempts.get a.id).map Attempt.resourceVersion ≠ some a.resourceVersion)
        conditions := (scope.conditionIds ++ scope.writeTaskIds.flatMap t.linked).eraseDups.filterMap fun id =>
          (t.conditions.get id).filter fun c =>
            decide ((base.conditions.get id).map Condition.resourceVersion ≠ some c.resourceVersion)
        deleteConditionIds := (scope.conditionIds ++ scope.writeTaskIds.flatMap t.linked).eraseDups.filter
          fun id => !t.conditions.has id } := by
  have hfold := h.foldl_track hdomain scope.writeTaskIds (fun k hk => hk) scope.conditionIds
  unfold finishResourceMutationScope
  simp only [hfold, h.attempts, h.conditions, Table.get_filterMapVal, Option.map_eq_bind, Function.comp_def]

theorem beginFor_eq {r : Resource} (hr : base.resources.get k = some r) (hid : r.metadata.id = k) (hne : k ≠ "") :
    (beginResourceMutationScopeForTasks base [k]).Tracks base ∧
      (beginResourceMutationScopeForTasks base [k]).writeTaskIds = [k] ∧
      (beginResourceMutationScopeForTasks base [k]).fences = [r.fence] := by
  have htrack := (tracks_empty base).track hne (t := base) (fun h => h) (by
    intro r' hr'
    exact Or.inr ⟨r', hr', rfl⟩)
  refine ⟨htrack.1, ?_, ?_⟩
  · simp [beginResourceMutationScopeForTasks, trackResourceMutationTask, fenceResourceMutationTask,
      emptyResourceMutationScope, hne, hr]
  · simp [beginResourceMutationScopeForTasks, trackResourceMutationTask, fenceResourceMutationTask,
      emptyResourceMutationScope, hne, hr, Resource.fence, hid]

end MutationScope

/-! ### Written attempts -/

section Attempts

variable {base : Table String Attempt} {ks : List String}

/-- The attempts whose version was raised in an edited snapshot. -/
def raisedAttempts (base attempts : Table String Attempt) (ks : List String) : List Attempt :=
  attempts.values.filter fun a => ks.contains a.taskId
    && decide ((base.get a.id).map Attempt.resourceVersion ≠ some a.resourceVersion)

theorem raisedAttempts_self (hkeyed : ∀ id a, base.get id = some a → a.id = id) :
    raisedAttempts base base ks = [] := by
  rw [raisedAttempts, List.filter_eq_nil_iff]
  intro a ha
  obtain ⟨id, hid⟩ := (Table.mem_values_iff _ _).mp ha
  have hown := hkeyed id a hid
  subst hown
  simp [hid]

theorem raisedAttempts_put (hkeyed : ∀ id a, base.get id = some a → a.id = id) {a : Attempt}
    (hraised : (base.get a.id).map Attempt.resourceVersion ≠ some a.resourceVersion) (htask : a.taskId ∈ ks) :
    raisedAttempts base (base.put a.id a) ks = [a] := by
  have hvalues : (base.put a.id a).values = a :: (base.drop a.id).values := rfl
  rw [raisedAttempts, hvalues, List.filter_cons_of_pos (by simp [htask, hraised])]
  congr 1
  rw [List.filter_eq_nil_iff]
  intro b hb
  obtain ⟨id, hid⟩ := (Table.mem_values_iff _ _).mp hb
  rw [Table.get_drop] at hid
  by_cases heq : id = a.id
  · simp [heq] at hid
  · rw [if_neg heq] at hid
    have hown := hkeyed id b hid
    subst hown
    simp [hid]

end Attempts

namespace MutationScope

variable {base t : Tree} {scope : MutationScope} {k : String} {r : Resource}

theorem Tracks.fence_mem (h : scope.Tracks base) (hk : k ∈ scope.writeTaskIds) (hr : base.resources.get k = some r)
    (hid : r.metadata.id = k) : r.fence ∈ scope.fences := by
  obtain ⟨f, hf, hfk⟩ := h.fenced k hk r hr
  obtain ⟨_, hr', hfence⟩ := h.fence f hf
  rw [hfk, hr] at hr'
  cases hr'
  have hrf : f = r.fence := by
    rw [hfence, hfk, ← hid]
    rfl
  rwa [← hrf]

theorem Tracks.foldl_trackAll (ks : List String) (h : scope.Tracks base)
    (hks : ∀ k ∈ ks, k ≠ "" ∧ (base.resources.has k = true → t.resources.has k = true) ∧
      ∀ r', t.resources.get k = some r' → (∃ f ∈ scope.fences, f.taskId = k) ∨
        ∃ r, base.resources.get k = some r ∧ r'.fence = r.fence) :
    (ks.foldl (trackResourceMutationTask t) scope).Tracks base ∧
      (∀ k, k ∈ (ks.foldl (trackResourceMutationTask t) scope).writeTaskIds ↔ k ∈ scope.writeTaskIds ∨ k ∈ ks) ∧
      (∀ f ∈ scope.fences, f ∈ (ks.foldl (trackResourceMutationTask t) scope).fences) := by
  induction ks generalizing scope with
  | nil => exact ⟨h, by simp, fun f hf => hf⟩
  | cons k _ ih =>
    obtain ⟨hne, hdomain, hsame⟩ := hks k List.mem_cons_self
    obtain ⟨htrack, hone, hkept⟩ := h.track hne hdomain hsame
    obtain ⟨hTracks, hwrite, hfences⟩ := ih htrack (by
      intro k' hk'
      obtain ⟨hne', hdomain', hsame'⟩ := hks k' (List.mem_cons_of_mem k hk')
      refine ⟨hne', hdomain', fun r' hr' => ?_⟩
      rcases hsame' r' hr' with ⟨f, hf, hid⟩ | hsame'
      · exact Or.inl ⟨f, hkept f hf, hid⟩
      · exact Or.inr hsame')
    refine ⟨hTracks, ?_, fun f hf => hfences f (hkept f hf)⟩
    intro k'
    rw [List.foldl_cons, hwrite, hone, List.mem_cons]
    tauto

theorem Tracks.foldl_trackAction (actions : List TaskAction) (h : scope.Tracks base)
    (hne : ∀ taskId generation reason, TaskAction.unblockTask taskId generation reason ∈ actions → taskId ≠ "") :
    (actions.foldl (trackAction base) scope).Tracks base ∧
      (∀ k, k ∈ (actions.foldl (trackAction base) scope).writeTaskIds ↔
        k ∈ scope.writeTaskIds ∨ k ∈ unblockedTaskIds actions) := by
  induction actions generalizing scope with
  | nil => exact ⟨h, by simp [unblockedTaskIds]⟩
  | cons action actions ih =>
    rw [List.foldl_cons]
    have hrest : ∀ taskId generation reason, TaskAction.unblockTask taskId generation reason ∈ actions →
        taskId ≠ "" := fun taskId generation reason hmem => hne taskId generation reason (List.mem_cons_of_mem _ hmem)
    cases action with
    | retireCondition => simpa [unblockedTaskIds, trackAction] using ih h hrest
    | unblockTask taskId g reason =>
      have htrack := h.track (hne taskId g reason List.mem_cons_self) (fun h => h)
        (fun r' hr' => Or.inr ⟨r', hr', rfl⟩)
      obtain ⟨hTracks, hwrite⟩ := ih htrack.1 hrest
      refine ⟨hTracks, ?_⟩
      intro k
      change k ∈ (actions.foldl (trackAction base) (trackResourceMutationTask base scope taskId)).writeTaskIds ↔ _
      rw [hwrite, htrack.2.1]
      simp only [unblockedTaskIds, List.filterMap_cons, List.mem_cons]
      tauto

theorem begin_tracks (hr : base.resources.get k = some r) (hne : k ≠ "") (actions : List TaskAction)
    (hactions : ∀ taskId generation reason, TaskAction.unblockTask taskId generation reason ∈ actions → taskId ≠ "") :
    (beginResourceMutationScope base k actions).Tracks base ∧
      ∀ k', k' ∈ (beginResourceMutationScope base k actions).writeTaskIds ↔
        k' = k ∨ k' ∈ unblockedTaskIds actions := by
  have hsame : ∀ k r', base.resources.get k = some r' →
      ∃ r, base.resources.get k = some r ∧ r'.fence = r.fence := fun k r' hr' => ⟨r', hr', rfl⟩
  have hown := (tracks_empty base).track hne (fun h => h) (fun r' hr' => Or.inr (hsame k r' hr'))
  have hparent := hown.1.fenceTask (fun r' hr' => Or.inr (hsame r.spec.parentId r' hr'))
  obtain ⟨hTracks, hwrite⟩ := hparent.1.foldl_trackAction actions hactions
  have hbegin : beginResourceMutationScope base k actions = actions.foldl (trackAction base)
      (fenceResourceMutationTask base (trackResourceMutationTask base (emptyResourceMutationScope base) k)
        r.spec.parentId) := by
    simp only [beginResourceMutationScope, hr]
  rw [hbegin]
  refine ⟨hTracks, ?_⟩
  intro k'
  rw [hwrite, hparent.2.1, hown.2.1]
  simp [emptyResourceMutationScope]

theorem begin_nil_writeTaskIds (hr : base.resources.get k = some r) (hne : k ≠ "") :
    (beginResourceMutationScope base k []).writeTaskIds = [k] := by
  obtain ⟨htracks, hmem⟩ := begin_tracks hr hne [] (by simp)
  have hall : ∀ k' ∈ (beginResourceMutationScope base k []).writeTaskIds, k' = k := by
    intro k' hk'
    simpa [unblockedTaskIds] using (hmem k').mp hk'
  have hk : k ∈ (beginResourceMutationScope base k []).writeTaskIds := (hmem k).mpr (Or.inl rfl)
  have hnodup := htracks.nodup
  cases hlist : (beginResourceMutationScope base k []).writeTaskIds with
  | nil => rw [hlist] at hk; cases hk
  | cons x xs =>
    rw [hlist] at hall hnodup
    have hx := hall x List.mem_cons_self
    subst hx
    cases xs with
    | nil => rfl
    | cons y =>
      have hy := hall y (by simp)
      subst hy
      simp at hnodup

end MutationScope

end MayAgent
