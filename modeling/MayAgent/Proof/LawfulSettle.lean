import MayAgent.Proof.Actions
import MayAgent.Proof.Triggers
import MayAgent.Proof.Wakes

/-!
# Settlements

An execution failure, an incomplete report, an accepted wait, an accepted outcome and the changes of
a running attempt, each as changes of the Tasks they write.
-/

namespace MayAgent

section Single

variable {ctx : Context} {now : Int} {call : Call} {reads : Reads} {m : Mutation}

variable {claim : Claim}

theorem failAppTaskAttempt_lawful (hs : reads.snapshot.WellFormed) {failure : String}
    {details : FailureDetails} {result : FailureResult}
    (h : failAppTaskAttempt ctx now reads claim failure details = .commit m result) :
    m.Lawful ctx now (.fail claim failure details) reads := by
  unfold failAppTaskAttempt at h
  simp only at h
  split at h
  · cases h
  · rename_i r a hmatch
    obtain ⟨hr, ha, hclaim⟩ := claimedAttempt_eq_some hs hmatch
    have htask := Store.task_of_resources_get hr
    rw [Plan.check_eq_commit] at h
    obtain ⟨⟨retained, keys, admissions⟩, houtcome, h⟩ := h
    cases h
    have hretained : retained.metadata.id = claim.taskId := by
      rw [(inputOutcomeAdmissions_onlyWaits houtcome).metadata, hclaim.own]
    refine Mutation.Lawful.scoped htask hr hclaim.own hs.snapshot_attemptId
      (MutationScope.begin_tracks hr (hs.ne_empty htask) [] (by simp)).1
      (MutationScope.begin_nil_writeTaskIds hr (hs.ne_empty htask)) ⟨rfl, rfl, rfl⟩
      (failedResource ctx now claim r retained a _ details) [failedAttempt ctx now r a failure details] hretained rfl
      rfl ?_ (.none rfl rfl rfl) ?_
    · exact .one ha (hclaim.runs.task.trans hclaim.own) (by simp [failedAttempt]) (by simp [failedAttempt])
        (by simp [failedAttempt])
    · simp only [Tree.setAttempt_taskTriggers, Tree.setTrigger_taskTriggers_get, if_true]
      exact Change.fail claim a failure _ details _ retained keys admissions rfl hclaim houtcome

theorem reportAppTaskFailure_lawful (hs : reads.snapshot.WellFormed) {input : ResultInput}
    {result : SettleResult} (h : reportAppTaskFailure ctx now reads claim input = .commit m result) :
    m.Lawful ctx now (.report claim input) reads := by
  unfold reportAppTaskFailure at h
  simp only at h
  split at h
  · cases h
  · rename_i r a hmatch
    obtain ⟨hr, ha, hclaim, hcurrent⟩ := matchingTaskAttempt_eq_some hs hmatch
    have htask := Store.task_of_resources_get hr
    simp only [Plan.check_eq_commit] at h
    obtain ⟨-, -, -, -, ⟨retained, keys, admissions⟩, houtcome, h⟩ := h
    cases h
    have hretained : (retainPendingInputs reads.late claim.generation retained keys).metadata.id = claim.taskId := by
      rw [(retainPendingInputs_onlyWaits reads.late claim.generation retained keys).metadata,
        (inputOutcomeAdmissions_onlyWaits houtcome).metadata, hclaim.own]
    refine Mutation.Lawful.scoped htask hr hclaim.own hs.snapshot_attemptId
      (MutationScope.begin_tracks hr (hs.ne_empty htask) [] (by simp)).1
      (MutationScope.begin_nil_writeTaskIds hr (hs.ne_empty htask)) ⟨rfl, rfl, rfl⟩
      (reportedResource ctx now claim r (retainPendingInputs reads.late claim.generation retained keys) a _ input)
      [_] hretained rfl rfl ?_ (.none rfl rfl rfl) ?_
    · exact .one ha (hclaim.runs.task.trans hclaim.own) (by simp) (by simp) (by simp)
    · simp only [Tree.setAttempt_taskTriggers, Tree.setTrigger_taskTriggers_get, if_true]
      exact Change.report claim a _ input _ retained keys admissions _ rfl hclaim hcurrent houtcome rfl

end Single

/-! ### Settlements with actions -/

section Actions

variable {ctx : Context} {now : Int} {call : Call} {reads : Reads} {scope : Store.Scope} {k : String}
  {r retained next : Resource} {base t : Tree} {actions : List TaskAction} {tr : Option Trigger} {attempts : List Attempt}
  {tracked : MutationScope}

/-- The snapshot `t` of a settlement of the Task `k`: that Task is `next` with the trigger `tr`, and
the other Tasks are those of `base` as the actions left them. -/
structure Tree.Settled (now : Int) (actions : List TaskAction) (k : String) (base : Tree) (next : Resource)
    (tr : Option Trigger) (attempts : List Attempt) (t : Tree) : Prop where
  own : t.resources.get k = some next
  others : ∀ k', k' ≠ k → t.resources.get k' = (base.resources.get k').map (unblockedBy now actions k')
  keyed : t.Keyed
  trigger : t.taskTriggers.get k = tr
  triggers : ∀ k', k' ≠ k → t.taskTriggers.get k' = base.taskTriggers.get k'
  attempts : t.attempts = (base.setAttempts attempts).attempts

namespace Tree.Settled

section

variable (h : base.Settled now actions k next tr attempts t)

include h

theorem claimed (r : Resource) : t.claimed k r = next := by rw [Tree.claimed, h.own, Option.getD_some]

theorem edit {t' : Tree} (he : t.EditsOwn k next t') :
    ∃ next', next.Relinks next' ∧ base.Settled now actions k next' tr attempts t' := by
  obtain ⟨next', hnext', hlinks⟩ := he.own
  exact ⟨next', hlinks, hnext', fun k' hk' => (he.others k' hk').trans (h.others k' hk'), he.keyed,
    by rw [he.triggers, h.trigger], fun k' hk' => by rw [he.triggers, h.triggers k' hk'], he.attempts.trans h.attempts⟩

theorem setResource (next' : Resource) (hid : next'.metadata.id = k) :
    base.Settled now actions k next' tr attempts (t.setResource next') := by
  refine ⟨?_, fun k' hk' => ?_, h.keyed.setResource _, h.trigger, h.triggers, h.attempts⟩
  · rw [Tree.setResource_resources_get, hid, if_pos rfl]
  · rw [Tree.setResource_resources_get, hid, if_neg hk', h.others k' hk']

theorem setTrigger (tr' : Option Trigger) : base.Settled now actions k next tr' attempts (t.setTrigger k tr') := by
  refine ⟨h.own, h.others, h.keyed, ?_, fun k' hk' => ?_, h.attempts⟩
  · rw [Tree.setTrigger_taskTriggers_get, if_pos rfl]
  · rw [Tree.setTrigger_taskTriggers_get, if_neg hk', h.triggers k' hk']

end

theorem setAttempt (h : base.Settled now actions k next tr [] t) (a : Attempt) :
    base.Settled now actions k next tr [a] (t.setAttempt a) :=
  ⟨h.own, h.others, h.keyed, h.trigger, h.triggers, by rw [Tree.setAttempt_attempts, h.attempts]; rfl⟩

end Tree.Settled

/-- The snapshot `base` a settlement of the Task `k` works on: the Task, read as `r`, may have its
waits and its trigger adjusted already. -/
structure SettleBase (reads : Reads) (scope : Store.Scope) (k : String) (r retained : Resource) (base : Tree) :
    Prop where
  wellFormed : reads.snapshot.WellFormed
  stored : (reads.snapshot.readTaskContext scope).resources.get k = some r
  running : r.status.phase = .running
  waits : r.OnlyWaits retained
  get : ∀ k', base.resources.get k' =
    if k' = k then some retained else (reads.snapshot.readTaskContext scope).resources.get k'
  triggers : ∀ k', k' ≠ k →
    base.taskTriggers.get k' = (reads.snapshot.readTaskContext scope).taskTriggers.get k'
  attempts : base.attempts = (reads.snapshot.readTaskContext scope).attempts
  cancellations : base.cancellations = (reads.snapshot.readTaskContext scope).cancellations

namespace SettleBase

variable (h : SettleBase reads scope k r retained base)

include h

theorem own : r.metadata.id = k := h.wellFormed.taskId _ _ _ (Store.task_of_resources_get h.stored)

theorem retained_id : retained.metadata.id = k := by rw [h.waits.metadata, h.own]

theorem ne_empty : k ≠ "" := h.wellFormed.ne_empty (Store.task_of_resources_get h.stored)

theorem get_own : base.resources.get k = some retained := by
  rw [h.get, if_pos rfl]

theorem keyed : base.Keyed := by
  intro k' r' hr'
  rw [h.get] at hr'
  by_cases hk : k' = k
  · rw [if_pos hk] at hr'
    cases hr'
    rw [h.retained_id, hk]
  · rw [if_neg hk] at hr'
    exact h.wellFormed.snapshot_keyed scope k' r' hr'

theorem phase : retained.status.phase = .running := by
  rw [h.waits]
  exact h.running

theorem stored_fence (k' : String) (r₀ : Resource)
    (hr₀ : base.resources.get k' = some r₀) :
    r₀.metadata.id = k' ∧ ∃ r tr, reads.snapshot.task k' = some (r, tr) ∧ r₀.fence = r.fence := by
  refine ⟨h.keyed k' r₀ hr₀, ?_⟩
  rw [h.get] at hr₀
  by_cases hk : k' = k
  · rw [if_pos hk] at hr₀
    cases hr₀
    rw [hk]
    exact ⟨r, _, Store.task_of_resources_get h.stored, h.waits.fence⟩
  · rw [if_neg hk] at hr₀
    exact ⟨r₀, _, Store.task_of_resources_get hr₀, rfl⟩

theorem nonempty_of_has (k' : String)
    (hk' : base.resources.has k' = true) : k' ≠ "" := by
  obtain ⟨r₀, hr₀⟩ := Option.isSome_iff_exists.mp hk'
  obtain ⟨-, r, _, htask, -⟩ := h.stored_fence k' r₀ hr₀
  exact h.wellFormed.ne_empty htask

/-- The actions of a settlement leave its own Task relinked at most. -/
theorem acts {applied : List String} (hactions : applyTaskActions ctx now k base actions = .ok (t, applied)) :
    base.Allows actions ∧ ∃ r₁, retained.Relinks r₁ ∧ r₁.status.phase ≠ .pending ∧
      base.Settled now actions k r₁ (base.taskTriggers.get k) [] t := by
  obtain ⟨hacts, hallowed⟩ := applyTaskActions_acts h.keyed h.get_own h.phase hactions
  obtain ⟨r₁, hr₁, hlinks⟩ := hacts.own
  exact ⟨hallowed, r₁, hlinks, by rw [hlinks.phase, h.phase]; simp, hr₁, hacts.others, hacts.keyed, by rw [hacts.triggers],
    fun k' _ => by rw [hacts.triggers], hacts.attempts⟩

theorem begin_tracks (hallowed : base.Allows actions) :
    (beginResourceMutationScope base k actions).Tracks base ∧
      ∀ k', k' ∈ (beginResourceMutationScope base k actions).writeTaskIds ↔ k' = k ∨ k' ∈ unblockedTaskIds actions := by
  refine MutationScope.begin_tracks h.get_own h.ne_empty actions ?_
  intro taskId generation reason haction
  obtain ⟨_, hunblock⟩ := hallowed taskId generation reason haction
  exact hunblock.nonempty

variable (hset : base.Settled now actions k next tr attempts t)

include hset

variable {k' : String}

theorem unblocked_others (hk' : k' ≠ k) : t.resources.get k' =
      ((reads.snapshot.readTaskContext scope).resources.get k').map (unblockedBy now actions k') := by
  rw [hset.others k' hk', h.get, if_neg hk']

theorem has_of_has (hhas : t.resources.has k' = true) : base.resources.has k' = true := by
  rw [Table.has, h.get]
  by_cases heq : k' = k
  · rw [if_pos heq, Option.isSome_some]
  · rw [if_neg heq]
    rwa [Table.has, h.unblocked_others hset heq, Option.isSome_map] at hhas

theorem edited_ne_empty (hhas : t.resources.has k' = true) : k' ≠ "" :=
  h.nonempty_of_has k' (h.has_of_has hset hhas)

theorem track_more (htracks : tracked.Tracks base)
    (hmem : ∀ k', k' ∈ tracked.writeTaskIds ↔ k' = k ∨ k' ∈ unblockedTaskIds actions) (hk' : k' ≠ "") :
    k' ≠ "" ∧ (base.resources.has k' = true → t.resources.has k' = true) ∧
      ∀ r', t.resources.get k' = some r' → (∃ f ∈ tracked.fences, f.taskId = k') ∨
        ∃ r₀, base.resources.get k' = some r₀ ∧ r'.fence = r₀.fence := by
  refine ⟨hk', ?_, ?_⟩
  · intro hhas
    by_cases heq : k' = k
    · rw [heq, Table.has, hset.own, Option.isSome_some]
    · rwa [Table.has, hset.others k' heq, Option.isSome_map]
  · intro r' hr'
    by_cases hwritten : k' ∈ tracked.writeTaskIds
    · left
      have hhas : t.resources.has k' = true := by rw [Table.has, hr', Option.isSome_some]
      obtain ⟨r₀, hr₀⟩ := Option.isSome_iff_exists.mp (h.has_of_has hset hhas)
      exact htracks.fenced k' hwritten r₀ hr₀
    · right
      rw [hmem, not_or] at hwritten
      rw [hset.others k' hwritten.1, Option.map_eq_some_iff] at hr'
      obtain ⟨r₀, hr₀, rfl⟩ := hr'
      refine ⟨r₀, hr₀, ?_⟩
      simp only [unblockedBy, unblockReason_eq_none hwritten.2, Option.map_none, Option.getD_none]

/-- A settlement that writes its own Task by one of the listed changes, and other Tasks only by
unblocking or waking them. -/
theorem lawful {m : Mutation} {tf : Tree} {events : List Event} (hallowed : base.Allows actions)
    (hwoken : t.WokenBy now events tf)
    (hforwards : ∀ k', k' ≠ k → k' ∈ reads.snapshot.contextTaskIds scope → ∀ e ∈ events, call.Forwards reads k' e)
    (htracks : tracked.Tracks base) (hk : k ∈ tracked.writeTaskIds)
    (hm : m.Finishes now tracked tf)
    (hraised : RaisedFrom base.attempts k attempts) (hcontrols : m.Controls now call reads) (hactions : call.actions = actions)
    (hown : Change ctx now call reads r ((reads.snapshot.readTaskContext scope).taskTriggers.get k) next
      (tf.taskTriggers.get k) attempts m.admissions) : m.Lawful ctx now call reads := by
  refine Mutation.Lawful.settles attempts (fun k' _ r₀ hr₀ => h.stored_fence k' r₀ hr₀)
    (by rw [h.attempts]; exact h.wellFormed.snapshot_attemptId) htracks ?_ hk ⟨next, by rw [hwoken.resources, hset.own]⟩ ?_
    hm (by rw [hwoken.attempts, hset.attempts]) hraised hcontrols ?_
  · rw [hwoken.resources]
    exact fun k' => h.has_of_has hset
  · rw [hwoken.resources]
    exact fun k' _ r' hr' => hset.keyed k' r' hr'
  · rw [hwoken.resources]
    intro k' _ r' r₁ tr₁ hr' htask
    by_cases heq : k' = k
    · subst heq
      rw [hset.own] at hr'
      cases hr'
      rw [Store.task_of_resources_get h.stored] at htask
      cases htask
      rw [if_pos rfl]
      exact Or.inl hown
    · obtain ⟨wakes, htrigger, hby⟩ := hwoken.triggers k' r' hr'
      rw [h.unblocked_others hset heq, Option.map_eq_some_iff] at hr'
      obtain ⟨r₀, hr₀, rfl⟩ := hr'
      rw [Store.task_of_resources_get hr₀] at htask
      cases htask
      have hid := h.wellFormed.snapshot_keyed scope k' r₁ hr₀
      -- An unblocked Task is woken as the stored one is: the wake reads only its identity.
      have hsame : ∀ tr, wakeTriggers (unblockedBy now actions k' r₁) now tr wakes = wakeTriggers r₁ now tr wakes := by
        have hstep : ∀ (tr : Option Trigger) (e : Event),
            wakeTrigger (unblockedBy now actions k' r₁) tr e now = wakeTrigger r₁ tr e now := by
          intro tr e
          unfold unblockedBy
          cases unblockReason actions k' <;> rfl
        simp only [wakeTriggers, hstep, implies_true]
      rw [htrigger, hset.triggers k' heq, h.triggers k' heq, hsame]
      refine Or.inr ⟨heq, Aside.aside (unblockReason actions k') wakes (by rw [hactions, hid]) ?_ ?_
        fun e he => (hby e he).2⟩
      · rw [hid]
        exact fun e he => hforwards k' heq (Store.mem_contextTaskIds hr₀) e (hby e he).1
      · intro hsome
        obtain ⟨reason, hreason⟩ := Option.isSome_iff_exists.mp hsome
        obtain ⟨generation, haction⟩ := unblockReason_mem hreason
        obtain ⟨_, hstored, -, hclosed, hphase⟩ := hallowed k' generation reason haction
        rw [h.get, if_neg heq, hr₀] at hstored
        cases hstored
        refine ⟨hphase, fun htrim => ?_⟩
        rw [hid] at htrim ⊢
        rwa [htrim, Table.has, h.cancellations, Store.cancellations_get_of_resources_get hr₀] at hclosed

end SettleBase

theorem SettleBase.ofSnapshot (hs : reads.snapshot.WellFormed)
    (hr : (reads.snapshot.readTaskContext scope).resources.get k = some r) (hphase : r.status.phase = .running) :
    SettleBase reads scope k r r (reads.snapshot.readTaskContext scope) := by
  refine ⟨hs, hr, hphase, Resource.OnlyWaits.refl r, ?_, fun _ _ => rfl, rfl, rfl⟩
  intro k'
  by_cases hk : k' = k
  · rw [if_pos hk, hk, hr]
  · rw [if_neg hk]

theorem SettleBase.ofRetained (hs : reads.snapshot.WellFormed)
    (hr : (reads.snapshot.readTaskContext scope).resources.get k = some r) (hphase : r.status.phase = .running)
    (hwaits : r.OnlyWaits retained) :
    SettleBase reads scope k r retained ((reads.snapshot.readTaskContext scope).setResource retained) := by
  refine ⟨hs, hr, hphase, hwaits, ?_, fun _ _ => rfl, rfl, rfl⟩
  intro k'
  rw [Tree.setResource_resources_get, hwaits.metadata, hs.taskId _ _ _ (Store.task_of_resources_get hr)]

theorem SettleBase.setTrigger (h : SettleBase reads scope k r retained base) (tr : Option Trigger) :
    SettleBase reads scope k r retained (base.setTrigger k tr) := by
  refine ⟨h.wellFormed, h.stored, h.running, h.waits, h.get, fun k' hk' => ?_, h.attempts, h.cancellations⟩
  rw [Tree.setTrigger_taskTriggers_get, if_neg hk', h.triggers k' hk']

end Actions

section Settle

variable {ctx : Context} {now : Int} {call : Call} {reads : Reads} {m : Mutation}

variable {r : Resource} {k : String} {result : SettleResult}

theorem Attempt.RunsFor.phase {a : Attempt} {tr : Option Trigger}
    (hruns : a.RunsFor reads r) (hs : reads.snapshot.WellFormed) (htask : reads.snapshot.task k = some (r, tr)) :
    r.status.phase = .running :=
  ((hs.executes _ _ _ htask).current _ hruns.current).1

variable {claim : Claim}

theorem applyRunningTaskChanges_lawful (hs : reads.snapshot.WellFormed) {input : ChangeInput}
    {result : ChangeReceipt} (h : applyRunningTaskChanges ctx now reads claim input = .commit m result) :
    m.Lawful ctx now (.change claim input) reads := by
  unfold applyRunningTaskChanges at h
  simp only at h
  split at h
  · cases h
  · rename_i r a hmatch
    obtain ⟨hr, ha, hclaim, hcurrent⟩ := matchingTaskAttempt_eq_some hs hmatch
    simp only [Plan.check_eq_commit] at h
    obtain ⟨keys, hkeys, -, -, -, -, ⟨_, applied⟩, hactions, t₂, hdeclare, h⟩ := h
    have hbase := SettleBase.ofSnapshot hs hr (hclaim.runs.phase hs (Store.task_of_resources_get hr))
    obtain ⟨hallowed, _, hlinks₁, hphase₁, hset₁⟩ := hbase.acts hactions
    obtain ⟨r₂, hlinks₂, hset₂⟩ := hset₁.edit (declareConditions_edits hset₁.keyed hset₁.own hphase₁ hdeclare)
    simp only [hset₂.claimed] at h
    cases h
    obtain ⟨htracks, hmem⟩ := hbase.begin_tracks hallowed
    have hnextId : (touchResource now (retainChangedInputs reads.late t₂ claim.generation
        (input.conditions.map ConditionDecl.id) r₂ keys) id).metadata.id = claim.taskId := by
      rw [touchResource_id, (retainChangedInputs_onlyWaits _ _ _ _ _ _).metadata, hlinks₂.id, hlinks₁.id, hclaim.own]
    have hset := (hset₂.setResource _ hnextId).setAttempt (recordChange a input applied {
        requests := input.requests
        conditionIds := input.conditions.map ConditionDecl.id
        actionsApplied := input.replayedActions ++ applied
        communication := input.communication })
    refine hbase.lawful hset hallowed (.refl now _) (by simp) htracks ((hmem _).mpr (Or.inl rfl)) ⟨rfl, rfl, rfl⟩
      (.one ha (hclaim.runs.task.trans hclaim.own) rfl (Nat.lt_succ_self _) rfl) (.none rfl rfl rfl) rfl ?_
    rw [hset.trigger]
    exact Change.change claim a input r₂ t₂ keys applied _ rfl hclaim hcurrent
      (hlinks₁.trans hlinks₂) hkeys

theorem settledWorkspace_id (a : Attempt) (workspace : Option (Workspace × Bool)) (r : Resource) :
    (settledWorkspace a workspace r).id = a.id := by
  unfold settledWorkspace
  split <;> rfl

theorem settledWorkspace_taskId (a : Attempt) (workspace : Option (Workspace × Bool)) (r : Resource) :
    (settledWorkspace a workspace r).taskId = a.taskId := by
  unfold settledWorkspace
  split <;> rfl

theorem settledWorkspace_resourceVersion (a : Attempt) (workspace : Option (Workspace × Bool)) (r : Resource) :
    (settledWorkspace a workspace r).resourceVersion = a.resourceVersion := by
  unfold settledWorkspace
  split <;> rfl

theorem dependentTaskIds_has {t : Tree} {k' : String} (h : k' ∈ dependentTaskIds t k) : t.resources.has k' = true := by
  obtain ⟨⟨_, r⟩, hentry, rfl⟩ := List.mem_map.mp h
  rw [Table.has, (Table.get_eq_some_iff _ _ _).mpr (List.mem_filter.mp hentry).1, Option.isSome_some]

theorem completeAppTask_lawful (hs : reads.snapshot.WellFormed) {input : CompleteInput}
    (h : completeAppTask ctx now reads claim input = .commit m result) :
    m.Lawful ctx now (.complete claim input) reads := by
  unfold completeAppTask at h
  simp only at h
  split at h
  · cases h
  · rename_i r a hmatch
    obtain ⟨hr, ha, hclaim, hcurrent⟩ := matchingTaskAttempt_eq_some hs hmatch
    simp only [Plan.check_eq_commit] at h
    obtain ⟨⟨retained, keys, admissions⟩, houtcome, -, -, ⟨t₁, _⟩, hactions, h⟩ := h
    have hbase := SettleBase.ofRetained hs hr (hclaim.runs.phase hs (Store.task_of_resources_get hr))
      (inputOutcomeAdmissions_onlyWaits houtcome)
    obtain ⟨hallowed, _, hlinks₁, hphase₁, hset₁⟩ := hbase.acts hactions
    simp only at h
    set accepted := acceptedAttemptResult ((reads.snapshot.readTaskContext _).taskTriggers.get claim.taskId) .converged
      { input.result with inputKeys := some keys }
      (input.acceptanceBasis.getD (defaultTaskAcceptance claim (input.result.facts.getD []))) with haccepted
    set trigger := consumeSettledTaskEvents ((reads.snapshot.readTaskContext _).taskTriggers.get claim.taskId)
      claim.agent accepted.acceptedLiveEventIds keys with htrigger
    have hset₂ := hset₁.setTrigger trigger
    obtain ⟨r₃, hlinks₃, hset₃⟩ := hset₂.edit (unlinkSatisfiedTaskConditions_edits hset₂.keyed hset₂.own now hphase₁)
    rw [hset₃.claimed] at h
    have hlinks := hlinks₁.trans hlinks₃
    have hid₃ : r₃.metadata.id = claim.taskId := by rw [hlinks.id, hbase.retained_id]
    have hset₄ := hset₃.setResource (r₃.release .completed) hid₃
    set t₄ := (unlinkSatisfiedTaskConditions now (t₁.setTrigger claim.taskId trigger) claim.taskId).setResource
      (r₃.release .completed)
    obtain ⟨htracks, hmem⟩ := hbase.begin_tracks hallowed
    set continues := pendingWork ctx now t₄ claim.taskId (r₃.release .completed) with hcontinues
    set dependents := (unblockedTaskIds input.actions ++ (if continues then [claim.taskId] else [])
      ++ (if continues then [] else dependentTaskIds t₄ claim.taskId)).eraseDups with hdependents
    have hdependent : ∀ k' ∈ dependents, k' ≠ "" := by
      intro k' hk'
      rw [hdependents, List.mem_eraseDups, List.mem_append, List.mem_append] at hk'
      rcases hk' with (hk' | hk') | hk'
      · rintro rfl
        exact htracks.nonempty ((hmem "").mpr (Or.inr hk'))
      · split at hk'
        · rw [List.mem_singleton.mp hk']
          exact hbase.ne_empty
        · cases hk'
      · split at hk'
        · cases hk'
        · exact hbase.edited_ne_empty hset₄ (dependentTaskIds_has hk')
    obtain ⟨htracked, hmem', -⟩ := htracks.foldl_trackAll (t := t₄) dependents fun k' hk' =>
      hbase.track_more hset₄ htracks hmem (hdependent k' hk')
    set next := completedResource now claim (r₃.release .completed) continues input.result with hnext
    have hset := (hset₄.setResource next hid₃).setAttempt
      (settledWorkspace ({ a with acceptedResult := some accepted }.finish .completed input.result.summary now)
        input.workspace next)
    cases h
    refine hbase.lawful hset hallowed (.refl now _) (by simp) htracked ((hmem' _).mpr (Or.inl ((hmem _).mpr
      (Or.inl rfl)))) ⟨rfl, rfl, rfl⟩ ?_ (.none rfl rfl rfl) rfl ?_
    · refine .one ha (hclaim.runs.task.trans hclaim.own) (settledWorkspace_id _ _ _) ?_ (settledWorkspace_taskId _ _ _)
      rw [settledWorkspace_resourceVersion]
      exact Nat.lt_succ_self _
    · rw [hset.trigger]
      refine Change.complete claim a input retained r₃ t₄ _ keys admissions accepted next rfl hclaim hcurrent
        houtcome hlinks haccepted (by rw [hclaim.own]; exact hset₄.trigger) ?_
      rw [hclaim.own]

theorem Resource.Relinks.released {r' : Resource} (h : r.Relinks r') (state : AttemptState) :
    (r.release state).Relinks (r'.release state) := by
  have hrest := h.rest
  refine ⟨h.version, ?_, ?_⟩
  · unfold Resource.release
    split <;> exact h.waits
  · unfold Resource.release
    split
    · rw [hrest]
    · rw [hrest]

theorem deferAppTask_lawful (hs : reads.snapshot.WellFormed) {input : DeferInput}
    (h : deferAppTask ctx now reads claim input = .commit m result) :
    m.Lawful ctx now (.defer claim input) reads := by
  unfold deferAppTask at h
  simp only at h
  set scope := input.scope claim with hscope
  split at h
  · cases h
  · rename_i r a hmatch
    obtain ⟨hr, ha, hclaim, hcurrent⟩ := matchingTaskAttempt_eq_some hs hmatch
    have htask := Store.task_of_resources_get hr
    simp only [Plan.check_eq_commit] at h
    obtain ⟨⟨retained, keys, admissions⟩, houtcome, reviewAt, hreview, -, -, ⟨t₁, _⟩, hactions, -, -, -, -,
      t₃, hdeclare, -, -, h⟩ := h
    simp only at hactions hdeclare h
    set accepted := { acceptedAttemptResult ((reads.snapshot.readTaskContext scope).taskTriggers.get claim.taskId) .waiting
        { input.result with reviewAt := reviewAt, inputKeys := some keys }
        (defaultTaskAcceptance claim (input.result.facts.getD [])) with
      report := input.result.report
      continue_ := input.continue_ } with haccepted
    set trigger := consumeSettledTaskEvents ((reads.snapshot.readTaskContext scope).taskTriggers.get claim.taskId)
      claim.agent accepted.acceptedLiveEventIds keys with htrigger
    have hbase := (SettleBase.ofRetained hs hr (hclaim.runs.phase hs htask)
      (inputOutcomeAdmissions_onlyWaits houtcome)).setTrigger trigger
    -- The stages: the actions, the released attempt, the declared Conditions, the satisfied ones unlinked.
    obtain ⟨hallowed, r₁, hlinks₁, hphase₁, hset₁⟩ := hbase.acts hactions
    rw [hset₁.claimed] at hdeclare
    have hset₂ := hset₁.setResource (r₁.release .completed) (hlinks₁.id.trans hbase.retained_id)
    obtain ⟨_, hlinks₃, hset₃⟩ := hset₂.edit (declareConditions_edits hset₂.keyed hset₂.own hphase₁ hdeclare)
    obtain ⟨r₄, hlinks₄, hset₄⟩ := hset₃.edit (unlinkSatisfiedTaskConditions_edits hset₃.keyed hset₃.own now
      (by rw [hlinks₃.phase]; exact hphase₁))
    set t₄ := unlinkSatisfiedTaskConditions now t₃ claim.taskId
    rw [hset₄.claimed] at h
    have hlinks := ((hlinks₁.released .completed).trans hlinks₃).trans hlinks₄
    set waiting := retainDeferredInputs reads.late t₄ claim.generation input.continue_
      (input.conditions.map ConditionDecl.id) reviewAt r₄ keys with hwaiting
    set next := deferredResource now claim waiting _ reviewAt input.result with hnext
    have hmetadata : next.metadata.id = r.metadata.id ∧ next.metadata.generation = r.metadata.generation := by
      rw [hnext, deferredResource, touchResource_id, touchResource_generation, hwaiting,
        (retainDeferredInputs_onlyWaits _ _ _ _ _ _ _ _).metadata, hlinks.id, hlinks.generation,
        Resource.release_metadata, hbase.waits.metadata]
      exact ⟨rfl, rfl⟩
    set a' := { a with acceptedResult := some accepted }.finish .completed input.result.summary now
    have hset := (hset₄.setResource _ (hmetadata.1.trans hclaim.own)).setAttempt a'
    set t₅ := (t₄.setResource next).setAttempt a'
    obtain ⟨htracks, hmem⟩ := hbase.begin_tracks hallowed
    rcases happly : applyPendingEvents ctx (reads.late.attemptLookup ctx) now (pendingTriggerEvents trigger) t₅
      (beginResourceMutationScope (((reads.snapshot.readTaskContext scope).setResource retained).setTrigger claim.taskId
        trigger) claim.taskId input.actions) with ⟨t₆, tracked⟩
    rw [happly] at h
    obtain ⟨hwoken, htracked, hmem'⟩ := applyPendingEvents_spec _ hset.keyed htracks (by
      intro k' hk'
      obtain ⟨hne, -, hfence⟩ := hbase.track_more hset htracks hmem (hbase.edited_ne_empty hset hk')
      exact ⟨hne, hfence⟩) happly
    cases h
    refine hbase.lawful hset hallowed hwoken ?_ htracked (hmem' _ ((hmem _).mpr (Or.inl rfl))) ⟨rfl, rfl, rfl⟩
      (.one ha (hclaim.runs.task.trans hclaim.own) rfl (Nat.lt_succ_self _) rfl) (.none rfl rfl rfl) rfl ?_
    · intro k' hk' hcontext e he
      obtain ⟨entry, hentry, rfl⟩ := List.mem_map.mp he
      rw [htrigger, pendingTriggerEvents_consume] at hentry
      exact ⟨claim, input, r, _, rfl, Ne.symm hk', hcontext, htask, entry, List.mem_of_mem_filter hentry, rfl⟩
    · obtain ⟨wakes, htrigger', hby⟩ := hwoken.triggers claim.taskId next hset.own
      have hsame : wakeTriggers next now trigger wakes = wakeTriggers r now trigger wakes := by
        simp only [wakeTriggers, wakeTrigger, hmetadata.1, hmetadata.2]
      rw [htrigger', hset.trigger, Tree.setTrigger_taskTriggers_get, if_pos rfl, hsame]
      exact Change.defer claim a input retained r₄ t₄ _ keys admissions accepted reviewAt _ wakes next rfl hclaim
        hcurrent (by split <;> simp) houtcome hreview hlinks ⟨rfl, rfl, rfl⟩ hnext
        (fun e he => (hby e he).2) fun e he => List.mem_map.mp (hby e he).1

end Settle

end MayAgent
