import MayAgent.Lib.Except
import MayAgent.Proof.Inputs

/-!
# Actions and declarations on a snapshot

The typed changes a worker returns, as edits of the snapshot: the settled Task only has its links
edited, and every other Task is left alone or unblocked once.
-/

namespace MayAgent

/-! ### Edited links -/

theorem SameWaits.refl (waits : Table String InputWait) : SameWaits waits waits := fun _ => rfl

theorem SameWaits.trans {w w' w'' : Table String InputWait} (h : SameWaits w w') (h' : SameWaits w' w'') :
    SameWaits w w'' := fun key => (h' key).trans (h key)

namespace Resource.Relinks

variable {r r' r'' : Resource}

theorem refl (r : Resource) : r.Relinks r := ⟨Nat.le_refl _, SameWaits.refl _, rfl⟩

theorem trans (h : r.Relinks r') (h' : r'.Relinks r'') : r.Relinks r'' := by
  refine ⟨Nat.le_trans h.version h'.version, h.waits.trans h'.waits, ?_⟩
  have hrest' := h'.rest
  rw [h.rest] at hrest'
  exact hrest'

theorem id (h : r.Relinks r') : r'.metadata.id = r.metadata.id := by rw [h.rest]

theorem spec (h : r.Relinks r') : r'.spec = r.spec := by rw [h.rest]

theorem phase (h : r.Relinks r') : r'.status.phase = r.status.phase := by rw [h.rest]

theorem generation (h : r.Relinks r') : r'.metadata.generation = r.metadata.generation := by rw [h.rest]

theorem touch (now : Int) (r : Resource) (ids : List String) (hphase : r.status.phase ≠ .pending) :
    r.Relinks (touchResource now r fun st => { st with conditionIds := ids }) := by
  have hsettle : Status.settlePhase { r.status with conditionIds := ids, updatedAt := now } =
      { r.status with conditionIds := ids, updatedAt := now } := by
    rw [Status.settlePhase, if_neg]
    simp [hphase]
  refine ⟨by simp [touchResource], ?_, ?_⟩
  · simp only [touchResource, hsettle]
    exact SameWaits.refl _
  · simp only [touchResource, hsettle]

theorem follow (r : Resource) (id : String) (old new : Nat) : r.Relinks (r.followCondition id old new) := by
  refine ⟨Nat.le_refl _, ?_, rfl⟩
  intro key
  simp only [Resource.followCondition, Table.get_filterMapVal]
  cases r.status.inputWaits.get key with
  | none => rfl
  | some =>
    simp only [Option.bind_some, Option.map_some, InputWait.shape, InputWait.follow, List.map_map]
    congr 4
    apply List.map_congr_left
    intro ref _
    simp only [Function.comp_apply]
    split <;> rfl

end Resource.Relinks

/-! ### Validated actions -/

/-- What `validateTaskActions` establishes for an action that unblocks a Task. -/
structure UnblockAllowed (t : Tree) (k : String) (reason : String) (r : Resource) : Prop where
  stored : t.resources.get k = some r
  nonempty : k ≠ ""
  closed : t.cancellations.has (Text.trim k) = false
  phase : r.status.phase = .waiting ∨ r.status.phase = .attention

/-- Every Task that the actions unblock may be unblocked. -/
def Tree.Allows (t : Tree) (actions : List TaskAction) : Prop :=
  ∀ taskId generation reason, TaskAction.unblockTask taskId generation reason ∈ actions →
    ∃ r, UnblockAllowed t taskId reason r

def TaskAction.identity : TaskAction → String
  | .unblockTask taskId _ _ => Text.trim taskId
  | .retireCondition conditionId _ _ => "condition:" ++ Text.trim conditionId

variable {u : Unit} {decls : List ConditionDecl} {applied : List String}

theorem requireNonEmptyString_ok {value label : String} (h : requireNonEmptyString value label = .ok u) :
    Text.nonEmpty value = true := by
  unfold requireNonEmptyString at h
  split at h
  · assumption
  · cases h

variable {t t' : Tree} {k : String} {r : Resource} {actions : List TaskAction} {now : Int}

theorem mutableActionResource_ok {generation : Nat}
    (h : mutableActionResource t k generation = .ok r) :
    t.resources.get k = some r ∧ r.metadata.generation = generation := by
  unfold mutableActionResource at h
  split at h
  · cases h
  · rename_i r' hr
    split at h
    · cases h
    · rename_i hgeneration
      cases h
      exact ⟨hr, by simpa using hgeneration⟩

theorem validateTaskAction_ok {identity : String} {seen : List String} {action : TaskAction}
    (h : validateTaskAction t k seen action = .ok identity) :
    identity = action.identity ∧ identity ∉ seen ∧
      (∀ taskId generation reason, action = .unblockTask taskId generation reason →
        ∃ r, UnblockAllowed t taskId reason r) := by
  cases action with
  | retireCondition =>
    simp only [validateTaskAction, Checked.bind_eq_ok, Checked.ite_eq_ok, Checked.throw_eq_ok, and_false, false_and,
      exists_false, false_or, List.contains_iff_mem] at h
    obtain ⟨-, -, hseen, -, -, h⟩ := h
    split at h
    · rw [Checked.throw_eq_ok] at h
      exact h.elim
    · simp only [Checked.bind_eq_ok, Checked.ite_eq_ok, Checked.throw_eq_ok, Checked.pure_eq_ok, and_false, false_and,
        exists_false, false_or] at h
      obtain ⟨-, -, rfl⟩ := h
      exact ⟨rfl, hseen, by simp⟩
  | unblockTask =>
    simp only [validateTaskAction, Checked.bind_eq_ok, Checked.ite_eq_ok, Checked.throw_eq_ok, Checked.pure_eq_ok,
      and_false, false_and, exists_false, false_or, List.contains_iff_mem] at h
    obtain ⟨_, hnonempty, -, hseen, -, -, hclosed, r, hr, hphase, rfl⟩ := h
    refine ⟨rfl, hseen, ?_⟩
    intro taskId' generation' reason' heq
    cases heq
    refine ⟨r, (mutableActionResource_ok hr).1, ?_, by simpa using hclosed, ?_⟩
    · rintro rfl
      exact absurd (requireNonEmptyString_ok hnonempty) (by decide)
    · by_contra hneither
      push Not at hneither
      exact hphase hneither

/-- Accepted actions are distinct, and the tree allows each of them. -/
theorem validateTaskActions_ok
    (h : validateTaskActions t actions k = .ok u) :
    (actions.map TaskAction.identity).Nodup ∧ t.Allows actions := by
  unfold validateTaskActions at h
  split at h
  · cases h
  · simp only [Checked.bind_eq_ok] at h
    obtain ⟨seen, hfold, -⟩ := h
    suffices hgeneral : ∀ (actions : List TaskAction) (seen seen' : List String),
        actions.foldlM (fun seen action => do
          let identity ← validateTaskAction t k seen action
          return identity :: seen) seen = .ok seen' →
        (actions.map TaskAction.identity).Nodup ∧ (∀ action ∈ actions, action.identity ∉ seen) ∧ t.Allows actions by
      obtain ⟨hnodup, -, hallowed⟩ := hgeneral actions [] seen hfold
      exact ⟨hnodup, hallowed⟩
    intro actions
    induction actions with
    | nil => simp [Tree.Allows]
    | cons _ _ ih =>
      intro seen seen' hfold
      obtain ⟨_, hstep, hrest⟩ := Checked.foldlM_cons_eq_ok.mp hfold
      obtain ⟨identity, hvalid, hseen⟩ := Checked.bind_eq_ok.mp hstep
      rw [Checked.pure_eq_ok] at hseen
      subst hseen
      obtain ⟨rfl, hnew, hallowed⟩ := validateTaskAction_ok hvalid
      obtain ⟨hnodup, hfresh, hallowedRest⟩ := ih _ _ hrest
      refine ⟨?_, ?_, ?_⟩
      · rw [List.map_cons, List.nodup_cons]
        refine ⟨?_, hnodup⟩
        intro hmem
        obtain ⟨other, hother, hid⟩ := List.mem_map.mp hmem
        exact hfresh other hother (by rw [hid]; exact List.mem_cons_self)
      · intro other hother
        rcases List.mem_cons.mp hother with rfl | hother
        · exact hnew
        · exact fun hmem => hfresh other hother (List.mem_cons_of_mem _ hmem)
      · intro taskId generation reason hmem
        rcases List.mem_cons.mp hmem with heq | hmem
        · exact hallowed taskId generation reason heq.symm
        · exact hallowedRest taskId generation reason hmem

/-! ### Edits of the settled Task -/

/-- The Tasks of a snapshot are kept under their own id. -/
def Tree.Keyed (t : Tree) : Prop := ∀ k r, t.resources.get k = some r → r.metadata.id = k

theorem Store.WellFormed.snapshot_keyed {s : Store} (hs : s.WellFormed) (scope : Store.Scope) :
    (s.readTaskContext scope).Keyed :=
  fun _ _ hr => hs.taskId _ _ _ (Store.task_of_resources_get hr)

theorem Tree.Keyed.setResource (h : t.Keyed) (r : Resource) : (t.setResource r).Keyed := by
  intro k r' hr'
  rw [Tree.setResource_resources_get] at hr'
  by_cases hk : k = r.metadata.id
  · rw [if_pos hk] at hr'
    cases hr'
    exact hk.symm
  · rw [if_neg hk] at hr'
    exact h k r' hr'

/-- An edit of a snapshot that changes the links of the Task `k`, read as `r`, and otherwise at most
the Conditions. -/
structure Tree.EditsOwn (k : String) (r : Resource) (t t' : Tree) : Prop where
  own : ∃ r', t'.resources.get k = some r' ∧ r.Relinks r'
  others : ∀ k', k' ≠ k → t'.resources.get k' = t.resources.get k'
  keyed : t'.Keyed
  triggers : t'.taskTriggers = t.taskTriggers
  attempts : t'.attempts = t.attempts

theorem Tree.EditsOwn.trans {r' : Resource} {t'' : Tree} (h : t.EditsOwn k r t')
    (hr' : t'.resources.get k = some r') (h' : t'.EditsOwn k r' t'') : t.EditsOwn k r t'' := by
  obtain ⟨_, hr₁, hlinks₁⟩ := h.own
  rw [hr'] at hr₁
  cases hr₁
  obtain ⟨r₂, hr₂, hlinks₂⟩ := h'.own
  exact ⟨⟨r₂, hr₂, hlinks₁.trans hlinks₂⟩, fun k' hk' => (h'.others k' hk').trans (h.others k' hk'), h'.keyed,
    h'.triggers.trans h.triggers, h'.attempts.trans h.attempts⟩

section Edits

variable {t : Tree} {k : String} {r : Resource} (hkeyed : t.Keyed) (hr : t.resources.get k = some r)

include hkeyed hr

theorem Tree.EditsOwn.refl : t.EditsOwn k r t :=
  ⟨⟨r, hr, Resource.Relinks.refl r⟩, fun _ _ => rfl, hkeyed, rfl, rfl⟩

theorem Tree.EditsOwn.set {r' : Resource} (hlinks : r.Relinks r') (conditions : Table String Condition) :
    t.EditsOwn k r { t.setResource r' with conditions := conditions } := by
  have hk : r'.metadata.id = k := hlinks.id.trans (hkeyed k r hr)
  refine ⟨⟨r', ?_, hlinks⟩, ?_, fun k' r'' h => hkeyed.setResource r' k' r'' h, rfl, rfl⟩
  · change (t.setResource r').resources.get k = _
    rw [Tree.setResource_resources_get, if_pos hk.symm]
  · intro k' hk'
    change (t.setResource r').resources.get k' = _
    rw [Tree.setResource_resources_get, if_neg (by rw [hk]; exact hk')]

theorem unlinkExactTaskCondition_edits (now : Int) (conditionId : String) (hphase : r.status.phase ≠ .pending) :
    t.EditsOwn k r (unlinkExactTaskCondition now t k conditionId) := by
  unfold unlinkExactTaskCondition
  simp only [hr]
  split
  · exact Tree.EditsOwn.refl hkeyed hr
  · exact Tree.EditsOwn.set hkeyed hr (Resource.Relinks.touch now r _ hphase) _

theorem unlinkSatisfiedTaskConditions_edits (now : Int) (hphase : r.status.phase ≠ .pending) :
    t.EditsOwn k r (unlinkSatisfiedTaskConditions now t k) := by
  unfold unlinkSatisfiedTaskConditions
  simp only [hr]
  split
  · exact Tree.EditsOwn.refl hkeyed hr
  · exact Tree.EditsOwn.set hkeyed hr (Resource.Relinks.touch now r _ hphase) _

theorem materializeCondition_edits {decl : ConditionDecl}
    (h : materializeCondition now k t decl = .ok t') : t.EditsOwn k r t' := by
  have hplain : ∀ conditions, t.EditsOwn k r { t with conditions := conditions } :=
    fun conditions => ⟨⟨r, hr, Resource.Relinks.refl r⟩, fun _ _ => rfl, hkeyed, rfl, rfl⟩
  unfold materializeCondition at h
  simp only at h
  split at h
  · split at h
    · cases h
    · split at h
      · simp only [hr] at h
        cases h
        exact Tree.EditsOwn.set hkeyed hr (Resource.Relinks.follow r _ _ _) _
      · cases h
        exact hplain _
  · cases h
    exact hplain _

end Edits

theorem materializeConditions_edits
    (hkeyed : t.Keyed) (hr : t.resources.get k = some r)
    (h : decls.foldlM (materializeCondition now k) t = .ok t') : t.EditsOwn k r t' := by
  refine Checked.foldlM_invariant (P := fun t' => t.EditsOwn k r t') ?_
    (Tree.EditsOwn.refl hkeyed hr) h
  intro t₁ decl t₂ h₁ hstep
  obtain ⟨_, hr₁, -⟩ := h₁.own
  exact h₁.trans hr₁ (materializeCondition_edits h₁.keyed hr₁ hstep)

theorem declareConditions_edits
    (hkeyed : t.Keyed) (hr : t.resources.get k = some r) (hphase : r.status.phase ≠ .pending)
    (h : declareConditions now k t decls = .ok t') : t.EditsOwn k r t' := by
  unfold declareConditions materializeWaitingConditions at h
  split at h
  · cases h
    exact Tree.EditsOwn.refl hkeyed hr
  · split at h
    · cases h
    · split at h
      · cases h
      · rename_i t₁ hfold
        have h₁ := materializeConditions_edits hkeyed hr hfold
        obtain ⟨r₁, hr₁, hlinks⟩ := h₁.own
        simp only [hr₁] at h
        cases h
        refine h₁.trans hr₁ ?_
        exact Tree.EditsOwn.set h₁.keyed hr₁
          (Resource.Relinks.touch now r₁ _ (by rw [hlinks.phase]; exact hphase)) _

/-! ### Applied actions -/

/-- The Task after the actions of a result were applied to it. -/
def unblockedBy (now : Int) (actions : List TaskAction) (k : String) (r : Resource) : Resource :=
  ((unblockReason actions k).map fun reason => unblockResource now reason r).getD r

theorem unblockReason_eq_none (h : k ∉ unblockedTaskIds actions) :
    unblockReason actions k = none := by
  rw [unblockReason, List.findSome?_eq_none_iff]
  intro action haction
  cases action with
  | retireCondition => rfl
  | unblockTask =>
    simp only [ite_eq_right_iff, reduceCtorEq, imp_false]
    rintro rfl
    exact h (List.mem_filterMap.mpr ⟨_, haction, rfl⟩)

theorem unblockReason_mem {reason : String} (h : unblockReason actions k = some reason) :
    ∃ generation, TaskAction.unblockTask k generation reason ∈ actions := by
  obtain ⟨action, haction, h⟩ := List.exists_of_findSome?_eq_some h
  cases action with
  | retireCondition => cases h
  | unblockTask _ generation =>
    simp only [Option.ite_none_right_eq_some, Option.some.injEq] at h
    obtain ⟨rfl, rfl⟩ := h
    exact ⟨generation, haction⟩

theorem mem_unblockedTaskIds :
    k ∈ unblockedTaskIds actions ↔ ∃ generation reason, TaskAction.unblockTask k generation reason ∈ actions := by
  rw [unblockedTaskIds, List.mem_filterMap]
  constructor
  · rintro ⟨action, haction, h⟩
    cases action with
    | retireCondition => cases h
    | unblockTask _ generation reason =>
      cases h
      exact ⟨generation, reason, haction⟩
  · rintro ⟨generation, reason, haction⟩
    exact ⟨_, haction, rfl⟩

/-- The edit of a snapshot by the actions of a result for the Task `k`, read as `r`. -/
structure Tree.ActsOn (now : Int) (actions : List TaskAction) (k : String) (r : Resource) (t t' : Tree) : Prop where
  own : ∃ r', t'.resources.get k = some r' ∧ r.Relinks r'
  others : ∀ k', k' ≠ k → t'.resources.get k' = (t.resources.get k').map (unblockedBy now actions k')
  keyed : t'.Keyed
  triggers : t'.taskTriggers = t.taskTriggers
  attempts : t'.attempts = t.attempts

theorem unblockedTaskIds_nodup (h : (actions.map TaskAction.identity).Nodup) :
    (unblockedTaskIds actions).Nodup := by
  induction actions with
  | nil => exact List.nodup_nil
  | cons action actions ih =>
    rw [List.map_cons, List.nodup_cons] at h
    cases action with
    | retireCondition => exact ih h.2
    | unblockTask taskId =>
      change (taskId :: unblockedTaskIds actions).Nodup
      rw [List.nodup_cons]
      refine ⟨?_, ih h.2⟩
      intro hmem
      obtain ⟨_, _, haction⟩ := mem_unblockedTaskIds.mp hmem
      exact h.1 (List.mem_map.mpr ⟨_, haction, rfl⟩)

theorem applyTaskActionList_acts {ctx : Context}
    (hkeyed : t.Keyed) (hr : t.resources.get k = some r)
    (hphase : r.status.phase ≠ .pending) (hnodup : (unblockedTaskIds actions).Nodup)
    (hother : k ∉ unblockedTaskIds actions)
    (h : applyTaskActionList ctx now k actions t = .ok (t', applied)) : t.ActsOn now actions k r t' := by
  induction actions generalizing t r applied with
  | nil =>
    cases h
    refine ⟨⟨r, hr, Resource.Relinks.refl r⟩, ?_, hkeyed, rfl, rfl⟩
    intro k' _
    cases t'.resources.get k' <;> rfl
  | cons action actions ih =>
    simp only [applyTaskActionList] at h
    split at h
    · cases h
    · rename_i t₁ applied₁ hstep
      split at h
      · cases h
      · rename_i t₂ rest hrest
        cases h
        cases action with
        | retireCondition conditionId =>
          cases hstep
          have h₁ := unlinkExactTaskCondition_edits hkeyed hr now conditionId hphase
          obtain ⟨_, hr₁, hlinks₁⟩ := h₁.own
          have h₂ := ih h₁.keyed hr₁ (by rw [hlinks₁.phase]; exact hphase) hnodup hother hrest
          obtain ⟨r₂, hr₂, hlinks₂⟩ := h₂.own
          refine ⟨⟨r₂, hr₂, hlinks₁.trans hlinks₂⟩, ?_, h₂.keyed, h₂.triggers.trans h₁.triggers,
            h₂.attempts.trans h₁.attempts⟩
          intro k' hk'
          rw [h₂.others k' hk', h₁.others k' hk']
          rfl
        | unblockTask taskId generation reason =>
          change (taskId :: unblockedTaskIds actions).Nodup at hnodup
          change k ∉ taskId :: unblockedTaskIds actions at hother
          rw [List.nodup_cons] at hnodup
          simp only [List.mem_cons, not_or] at hother
          simp only [applyTaskAction] at hstep
          split at hstep
          · cases hstep
          · rename_i target htarget
            split at hstep
            · cases hstep
            · cases hstep
              have htaskId := (mutableActionResource_ok htarget).1
              have hid := hkeyed _ _ htaskId
              have hget : ∀ k', (t.setResource (unblockResource now reason target)).resources.get k' =
                  if k' = taskId then some (unblockResource now reason target) else t.resources.get k' := by
                intro k'
                rw [Tree.setResource_resources_get]
                change (if k' = target.metadata.id then _ else _) = _
                rw [hid]
              have hr₁ : (t.setResource (unblockResource now reason target)).resources.get k = some r := by
                rw [hget, if_neg hother.1, hr]
              have h₂ := ih (hkeyed.setResource _) hr₁ hphase hnodup.2 hother.2 hrest
              refine ⟨h₂.own, ?_, h₂.keyed, h₂.triggers, h₂.attempts⟩
              intro k' hk'
              rw [h₂.others k' hk', hget]
              by_cases hk : k' = taskId
              · subst hk
                rw [if_pos rfl, htaskId, Option.map_some, Option.map_some]
                have hnone := unblockReason_eq_none hnodup.1
                have hsome : unblockReason (.unblockTask k' generation reason :: actions) k' = some reason := by
                  simp [unblockReason]
                simp only [unblockedBy, hnone, hsome, Option.map_none, Option.getD_none, Option.map_some,
                  Option.getD_some]
              · rw [if_neg hk]
                have hsame : unblockReason (.unblockTask taskId generation reason :: actions) k' =
                    unblockReason actions k' := by
                  simp only [unblockReason, List.findSome?_cons, if_neg (Ne.symm hk)]
                have hsame' : unblockedBy now (.unblockTask taskId generation reason :: actions) k' =
                    unblockedBy now actions k' := by
                  funext r'
                  simp only [unblockedBy, hsame]
                rw [hsame']

/-- Actions that apply change only what the settling Task may act on. -/
theorem applyTaskActions_acts {ctx : Context}
    (hkeyed : t.Keyed) (hr : t.resources.get k = some r)
    (hphase : r.status.phase = .running) (h : applyTaskActions ctx now k t actions = .ok (t', applied)) :
    t.ActsOn now actions k r t' ∧ t.Allows actions := by
  unfold applyTaskActions at h
  split at h
  · cases h
  · rename_i hvalid
    obtain ⟨hnodup, hallowed⟩ := validateTaskActions_ok hvalid
    have hother : k ∉ unblockedTaskIds actions := by
      intro hmem
      obtain ⟨generation, reason, haction⟩ := mem_unblockedTaskIds.mp hmem
      obtain ⟨_, hstored, -, -, hphase'⟩ := hallowed k generation reason haction
      rw [hr] at hstored
      cases hstored
      rw [hphase] at hphase'
      rcases hphase' with h' | h' <;> cases h'
    exact ⟨applyTaskActionList_acts hkeyed hr (by simp [hphase]) (unblockedTaskIds_nodup hnodup) hother h, hallowed⟩

end MayAgent
