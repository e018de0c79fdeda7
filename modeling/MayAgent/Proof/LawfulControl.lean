import MayAgent.Lib.Select
import MayAgent.Proof.LawfulClaim

/-!
# Controls and repairs

The owner's controls and the repair of waits that can never be satisfied, as changes of the Tasks
they write. The repair of running Tasks without an attempt finds nothing to do in a well-formed
store.
-/

namespace MayAgent

section Control

variable {ctx : Context} {now : Int} {call : Call} {reads : Reads} {m : Mutation}

variable {k : String} {input : CloseInput} {result : CloseResult}

variable {t : Tree} {r : Resource} {candidates : List String} {isAdmitted : String → Bool}

theorem latestTaskAttempt_mem {generation : Option Nat} {a : Attempt}
    (h : latestTaskAttempt t k generation = some a) :
    a ∈ t.attempts.values ∧ a.taskId = k ∧ ∀ g, generation = some g → a.taskGeneration = g := by
  have hfold : ∀ b, latestTaskAttempt t k generation = some b → b ∈ t.attempts.values.filter fun a =>
      a.taskId == k && generation.all fun g => decide (a.taskGeneration = g) := by
    unfold latestTaskAttempt
    refine foldl_passed (P := fun passed best => ∀ b, best = some b → b ∈ passed) ?_ ?_
    · intro b hb
      cases hb
    · intro passed x rest best _ hbest b hb
      rw [List.mem_append, List.mem_singleton]
      cases best with
      | none => exact .inr (Option.some.inj hb).symm
      | some =>
        simp only at hb
        split at hb
        · exact .inr (Option.some.inj hb).symm
        · exact .inl (hbest b hb)
  have hmem := hfold a h
  simp only [List.mem_filter, Bool.and_eq_true, beq_iff_eq] at hmem
  refine ⟨hmem.1, hmem.2.1, ?_⟩
  rintro g rfl
  simpa using hmem.2.2

variable (hs : reads.snapshot.WellFormed)

include hs

theorem retryFailedAppTask_lawful (hlate : reads.late.WellFormed) {input : RetryInput}
    {result : RetryReceipt} (h : retryFailedAppTask now reads input = .commit m result) :
    m.Lawful ctx now (.retry input) reads := by
  unfold retryFailedAppTask at h
  simp only at h
  split at h
  · cases h
  · rename_i hopen
    split at h
    · unfold replayRetry at h
      split at h
      · cases h
      · split at h <;> cases h
    · split at h
      · cases h
      · rename_i r hr
        have htask := Store.task_of_resources_get hr
        have hown := hs.taskId _ _ _ htask
        simp only [Plan.check_eq_commit] at h
        obtain ⟨_, hversion, h⟩ := h
        split at h
        · cases h
        · rename_i hphase
          split at h
          · cases h
          · rename_i a ha
            simp only [Option.filter_eq_some_iff, Bool.and_eq_true, Option.isNone_iff_eq_none] at ha
            obtain ⟨hretried, hfailed, hidle⟩ := ha
            have hgeneration : r.metadata.generation = input.expectedGeneration := by
              unfold checkVersion at hversion
              simp only [Store.ite_error_eq_ok] at hversion
              simpa using hversion.1
            unfold retryPlan at h
            cases h
            refine Mutation.Lawful.scopedFor hs hr ⟨rfl, rfl, rfl⟩ (retriedResource now r) [] hown rfl rfl (Or.inl rfl)
              (.plain rfl rfl (by simp)) ?_
            simp only [Tree.setTrigger_taskTriggers_get, if_true]
            have hphase' : r.status.phase = .attention ∨ r.status.phase = .pending := by
              by_contra hneither
              push Not at hneither
              exact hphase ⟨hneither.1, fun h => hneither.2 h.1⟩
            have hopen' : reads.check.isCancelled r.metadata.id = false := by
              rw [hown]
              simpa using hopen
            have hfound := hretried
            rw [← hgeneration] at hfound
            unfold retriedAttempt at hretried
            split at hretried
            · rename_i exhaustion hexhausted
              have hid := hlate.attemptId _ _ hretried
              exact Change.retry input a rfl hown.symm hopen' hidle hphase' hfailed (Or.inl (by rw [hid]; exact hretried))
                (Or.inl ⟨exhaustion, hexhausted, hid⟩) hfound
            · obtain ⟨hmem, htaskId, hgen⟩ := latestTaskAttempt_mem hretried
              obtain ⟨_, hget⟩ := (Table.mem_values_iff _ _).mp hmem
              have hstored := Store.attempts_of_readTaskContext hget
              have hid := hs.attemptId _ _ hstored
              exact Change.retry input a rfl hown.symm hopen' hidle hphase' hfailed (Or.inr (by rw [hid]; exact hstored))
                (Or.inr ⟨by rw [htaskId, hown], by rw [hgen _ rfl, hgeneration]⟩) hfound

theorem commitTaskCancellation_lawful {scope : Store.Scope} (hhistory : scope.includeHistory = true)
    (h : commitTaskCancellation now input (reads.snapshot.readTaskContext scope) r = .commit m result)
    (hcall : call.closes = some input.taskId)
    (hr : (reads.snapshot.readTaskContext scope).resources.get input.taskId = some r) : m.Lawful ctx now call reads := by
  have htask := Store.task_of_resources_get hr
  have hown := hs.taskId _ _ _ htask
  obtain ⟨hprevious, hfound⟩ := previousAttempt_of_snapshot hs hhistory hr
  -- The attempt a Task refers to is always running.
  have hcurrent : r.status.currentAttemptId.bind (reads.snapshot.readTaskContext scope).attempts.get =
      currentResourceAttempt (reads.snapshot.readTaskContext scope) r := by
    cases hcur : r.status.currentAttemptId with
    | none => simp [currentResourceAttempt, hcur]
    | some =>
      obtain ⟨a, ha, hsome, -⟩ := hs.current_in_snapshot hhistory hr hcur
      rw [hsome, Option.bind_some, ha]
  unfold commitTaskCancellation at h
  simp only [hcurrent] at h
  set previous := currentResourceAttempt (reads.snapshot.readTaskContext scope) r
  have hreleased : (if previous.isSome = true then r.release .interrupted else r) = takeOver now false previous r := rfl
  rw [hreleased] at h
  cases h
  have hid : (closedResource now input (takeOver now false previous r)).metadata.id = input.taskId := by
    rw [closedResource, touchResource_id, takeOver_id, hown]
  refine Mutation.Lawful.scopedFor hs hr ⟨rfl, rfl, rfl⟩ (closedResource now input (takeOver now false previous r))
    (previous.map (cancelledAttempt now input.summary)).toList hid ?_ ?_ ?_ ?_ ?_
  · cases previous <;> rfl
  · cases previous <;> rfl
  · exact hprevious.raised hfound hown (fun _ => rfl) (fun _ => rfl) (fun a => by simp [cancelledAttempt])
  · refine .close input r _ previous _ htask (MutationScope.finish_single hs hr
      (closedResource now input (takeOver now false previous r)) hid (by cases previous <;> rfl)) rfl rfl rfl ?_
    simp
  · have htrigger : ((((reads.snapshot.readTaskContext scope).setResource
        (closedResource now input (takeOver now false previous r))).setTrigger input.taskId none).setAttempts
          (previous.map (cancelledAttempt now input.summary)).toList).taskTriggers.get input.taskId = none := by
      cases previous <;> simp
    rw [htrigger]
    exact Change.cancel input previous hcall hprevious hown.symm

theorem closeTask_lawful
    (h : closeTask ctx now reads input = .commit m result) (hcall : call.closes = some input.taskId) :
    m.Lawful ctx now call reads := by
  unfold closeTask at h
  simp only at h
  split at h
  · cases h
  · simp only [Plan.check_eq_commit] at h
    obtain ⟨_, -, h⟩ := h
    split at h
    · unfold replayClose at h
      split at h
      · cases h
      · split at h
        · cases h
        · simp [Plan.check_eq_commit] at h
    · split at h
      · unfold repeatClose at h
        split at h
        · cases h
        · simp [Plan.check_eq_commit] at h
      · split at h
        · cases h
        · rename_i r hr
          simp only [Plan.check_eq_commit] at h
          obtain ⟨_, -, h⟩ := h
          split at h
          · cases h
          · exact commitTaskCancellation_lawful hs rfl h hcall hr

theorem closeAppTask_lawful {afterResult : String}
    (h : closeAppTask ctx now reads input afterResult = .commit m result) :
    m.Lawful ctx now (.close input afterResult) reads := by
  unfold closeAppTask at h
  rw [Plan.check_eq_commit] at h
  obtain ⟨_, -, h⟩ := h
  exact closeTask_lawful hs h rfl

theorem reopenAppTask_lawful {input : ReopenInput} {result : ReopenReceipt}
    (h : reopenAppTask ctx now reads input = .commit m result) : m.Lawful ctx now (.reopen input) reads := by
  unfold reopenAppTask at h
  simp only [Plan.check_eq_commit] at h
  obtain ⟨_, -, _, -, h⟩ := h
  split at h
  · cases h
  · split at h
    · unfold replayReopen at h
      simp only at h
      split at h
      · split at h <;> cases h
      · cases h
    · split at h
      · rename_i r closure hr hclosed
        have htask := Store.task_of_resources_get hr
        have hown := hs.taskId _ _ _ htask
        split_ifs at h with hversion hparent hexecutor
        simp only [Plan.check_eq_commit] at h
        obtain ⟨spec, -, h⟩ := h
        unfold reopenPlan at h
        cases h
        push Not at hversion
        refine Mutation.Lawful.scopedFor hs hr ⟨rfl, rfl, rfl⟩
          (reopenedResource now input reads.late.lastEventId spec r) [] hown rfl rfl (Or.inl rfl) ?_ ?_
        · refine .reopen input r _ spec closure _ _ _ htask (MutationScope.finish_single hs hr
            (reopenedResource now input reads.late.lastEventId spec r) hown rfl) rfl
            (Store.cancellations_of_readTaskContext hclosed) rfl rfl rfl
            ⟨rfl, rfl, hversion.1.symm, hversion.2.symm, rfl⟩ rfl rfl hexecutor
        have htrigger : ∀ (t : Tree) (tr : Option Trigger) cancellations,
            ({ t.setTrigger input.taskId tr with cancellations := cancellations } : Tree).taskTriggers.get input.taskId
              = tr := by
          intro t tr cancellations
          exact Table.get_set_self _ _ _
        rw [htrigger]
        exact Change.reopen input spec closure rfl hown.symm hversion.1.symm
          (by rw [hown]; exact Store.cancellations_of_readTaskContext hclosed)
      · cases h

/-! ### Repairs -/

/-- On a well-formed store this repair finds nothing to commit. -/
theorem repairRunningAppTasksWithoutAttempt_idle {result : List RecoveryRepair} :
    repairRunningAppTasksWithoutAttempt now reads candidates ≠ .commit m result := by
  intro h
  unfold repairRunningAppTasksWithoutAttempt at h
  split at h
  · cases h
  · set scope : Store.Scope := { taskIds := candidates }
    -- No Task of the snapshot is running without its attempt, so the scan stays where it starts.
    have hidle : ∀ (ks : List String), ks.foldl (repairRunningTask now)
        ⟨reads.snapshot.readTaskContext scope, emptyResourceMutationScope (reads.snapshot.readTaskContext scope), []⟩ =
        ⟨reads.snapshot.readTaskContext scope, emptyResourceMutationScope (reads.snapshot.readTaskContext scope), []⟩ := by
      intro ks
      induction ks with
      | nil => rfl
      | cons k _ ih =>
        have hstep : repairRunningTask now ⟨reads.snapshot.readTaskContext scope,
            emptyResourceMutationScope (reads.snapshot.readTaskContext scope), []⟩ k =
            ⟨reads.snapshot.readTaskContext scope,
              emptyResourceMutationScope (reads.snapshot.readTaskContext scope), []⟩ := by
          unfold repairRunningTask
          simp only
          split
          · rfl
          · rename_i r hr
            rw [if_pos]
            by_cases hphase : r.status.phase = .running
            · right
              have htask := Store.task_of_resources_get hr
              obtain ⟨_, hcur⟩ := Option.isSome_iff_exists.mp ((hs.executes _ _ _ htask).running hphase)
              obtain ⟨a, -, hsome, -⟩ := hs.current_in_snapshot rfl hr hcur
              rw [hsome, Option.isSome_some]
            · exact Or.inl hphase
        rw [List.foldl_cons, hstep]
        exact ih
    simp only [hidle, RepairScan.plan, List.isEmpty_nil, if_true] at h
    cases h

omit hs in
theorem unlinkExactTaskConditions_edits (now : Int) (ids : List (String × String))
    (hkeyed : t.Keyed) (hr : t.resources.get k = some r) (hphase : r.status.phase ≠ .pending) :
    t.EditsOwn k r (ids.foldl (fun t request => unlinkExactTaskCondition now t k request.1) t) := by
  induction ids generalizing t r with
  | nil => exact Tree.EditsOwn.refl hkeyed hr
  | cons request _ ih =>
    have hstep := unlinkExactTaskCondition_edits hkeyed hr now request.1 hphase
    obtain ⟨_, hr', hlinks⟩ := hstep.own
    exact hstep.trans hr' (ih hstep.keyed hr' (by rw [hlinks.phase]; exact hphase))

/-- The scan of a repair: the Tasks it returned to the queue, and the rest as it was read. -/
structure RepairScan.Sound (now : Int) (base : Tree) (seen : List String) (scan : RepairScan) : Prop where
  tracks : scan.scope.Tracks base
  seen : ∀ k ∈ scan.scope.writeTaskIds, k ∈ seen
  written : ∀ k ∈ scan.scope.writeTaskIds, ∃ r relinked summary, base.resources.get k = some r ∧
    r.status.phase = .waiting ∧ r.Relinks relinked ∧
    scan.tree.resources.get k = some (requeueUnadmitted now summary relinked)
  rest : ∀ k ∉ scan.scope.writeTaskIds, scan.tree.resources.get k = base.resources.get k
  keyed : scan.tree.Keyed
  triggers : scan.tree.taskTriggers = base.taskTriggers
  attempts : scan.tree.attempts = base.attempts
  repairs : scan.repairs ≠ [] → scan.scope.writeTaskIds ≠ []

omit hs in
theorem repairUnadmittedTask_sound {base : Tree} {seen : List String} {scan : RepairScan}
    (hne : k ≠ "") (h : scan.Sound now base seen) (hk : k ∉ seen) :
    (repairUnadmittedTask isAdmitted now scan k).Sound now base (k :: seen) := by
  have hweaken : scan.Sound now base (k :: seen) :=
    { h with seen := fun k' hk' => List.mem_cons_of_mem k (h.seen k' hk') }
  have hnew : k ∉ scan.scope.writeTaskIds := fun hmem => hk (h.seen k hmem)
  unfold repairUnadmittedTask
  split
  · exact hweaken
  · rename_i r hr
    simp only
    split
    · exact hweaken
    · rename_i hphase
      push Not at hphase
      have hedits := unlinkExactTaskConditions_edits now (missingRequests isAdmitted scan.tree r) h.keyed hr
        (by rw [hphase.1]; simp)
      set t := (missingRequests isAdmitted scan.tree r).foldl
        (fun t request => unlinkExactTaskCondition now t k request.1) scan.tree
      obtain ⟨r', hr', hlinks⟩ := hedits.own
      have hclaimed : t.claimed k r = r' := by simp only [Tree.claimed, hr', Option.getD_some]
      rw [hclaimed]
      have hown : r.metadata.id = k := h.keyed k r hr
      have hid : (requeueUnadmitted now (unadmittedSummary (missingRequests isAdmitted scan.tree r)) r').metadata.id
          = k := by
        rw [requeueUnadmitted, touchResource_id, hlinks.id, hown]
      have hbase : base.resources.get k = some r := by rw [← h.rest k hnew, hr]
      obtain ⟨htracks, hmem, -⟩ := h.tracks.track (t := scan.tree) hne
        (fun _ => by rw [Table.has, hr, Option.isSome_some])
        (fun r₁ hr₁ => Or.inr ⟨r, hbase, by rw [hr] at hr₁; cases hr₁; rfl⟩)
      have hget : ∀ k', k' ≠ k → (t.setResource (requeueUnadmitted now
          (unadmittedSummary (missingRequests isAdmitted scan.tree r)) r')).resources.get k' =
          scan.tree.resources.get k' := by
        intro k' hk'
        rw [Tree.setResource_resources_get, hid, if_neg hk', hedits.others k' hk']
      refine ⟨htracks, ?_, ?_, ?_, hedits.keyed.setResource _, hedits.triggers.trans h.triggers,
        hedits.attempts.trans h.attempts, ?_⟩
      · intro k' hk'
        rcases (hmem k').mp hk' with rfl | hk'
        · exact List.mem_cons_self
        · exact List.mem_cons_of_mem k (h.seen k' hk')
      · intro k' hk'
        by_cases heq : k' = k
        · rw [heq]
          refine ⟨r, r', unadmittedSummary (missingRequests isAdmitted scan.tree r), hbase, hphase.1, hlinks, ?_⟩
          rw [Tree.setResource_resources_get, hid, if_pos rfl]
        · obtain ⟨r₁, relinked, summary, hr₁, hwaiting, hlinks₁, hnext⟩ :=
            h.written k' (((hmem k').mp hk').resolve_left heq)
          exact ⟨r₁, relinked, summary, hr₁, hwaiting, hlinks₁, by rw [hget k' heq]; exact hnext⟩
      · intro k' hk'
        rw [hmem, not_or] at hk'
        rw [hget k' hk'.1]
        exact h.rest k' hk'.2
      · intro _ hnil
        have hin := (hmem k).mpr (Or.inl rfl)
        rw [hnil] at hin
        cases hin

theorem repairUnadmittedAppDependencyWaits_lawful {result : List RecoveryRepair}
    (h : repairUnadmittedAppDependencyWaits now reads isAdmitted candidates = .commit m result) :
    m.Lawful ctx now (.repairUnadmitted isAdmitted candidates) reads := by
  unfold repairUnadmittedAppDependencyWaits at h
  split at h
  · cases h
  · simp only at h
    set scope : Store.Scope := { taskIds := candidates }
    set base := reads.snapshot.readTaskContext scope
    have hkeyed : base.Keyed := hs.snapshot_keyed scope
    have hkeys : ∀ k ∈ base.resources.entries.map Sigma.fst, k ≠ "" := by
      intro k hk
      obtain ⟨⟨k', r⟩, hentry, rfl⟩ := List.mem_map.mp hk
      exact hs.ne_empty (Store.task_of_resources_get ((Table.get_eq_some_iff _ _ _).mpr hentry))
    have hfold : ∀ (ks seen : List String) (scan : RepairScan), ks.Nodup → (∀ k ∈ ks, k ≠ "" ∧ k ∉ seen) →
        scan.Sound now base seen →
        ∃ seen', (ks.foldl (repairUnadmittedTask isAdmitted now) scan).Sound now base seen' := by
      intro ks
      induction ks with
      | nil => exact fun seen scan _ _ hscan => ⟨seen, hscan⟩
      | cons k _ ih =>
        intro seen scan hnodup hks hscan
        rw [List.nodup_cons] at hnodup
        refine ih (k :: seen) _ hnodup.2 ?_
          (repairUnadmittedTask_sound (hks k List.mem_cons_self).1 hscan (hks k List.mem_cons_self).2)
        intro k' hk'
        refine ⟨(hks k' (List.mem_cons_of_mem k hk')).1, ?_⟩
        rw [List.mem_cons, not_or]
        refine ⟨?_, (hks k' (List.mem_cons_of_mem k hk')).2⟩
        rintro rfl
        exact hnodup.1 hk'
    obtain ⟨seen, hscan⟩ := hfold (base.resources.entries.map Sigma.fst) []
      ⟨base, emptyResourceMutationScope base, []⟩ base.resources.nodupKeys
      (fun k hk => ⟨hkeys k hk, by simp⟩)
      ⟨MutationScope.tracks_empty base, by simp [emptyResourceMutationScope], by simp [emptyResourceMutationScope],
        fun _ _ => rfl, hkeyed, rfl, rfl, fun h => absurd rfl h⟩
    set scan := (base.resources.entries.map Sigma.fst).foldl (repairUnadmittedTask isAdmitted now)
      ⟨base, emptyResourceMutationScope base, []⟩
    unfold RepairScan.plan at h
    split at h
    · cases h
    · rename_i hrepairs
      cases h
      obtain ⟨k, hk⟩ := List.exists_mem_of_ne_nil _ (hscan.repairs (by simpa using hrepairs))
      obtain ⟨r, _, _, -, -, -, hnext⟩ := hscan.written k hk
      refine Mutation.Lawful.settles [] ?_ hs.snapshot_attemptId hscan.tracks ?_ hk ⟨_, hnext⟩
        (fun k' _ r' hr' => hscan.keyed k' r' hr') ⟨rfl, rfl, rfl⟩ hscan.attempts (Or.inl rfl) (.none rfl rfl rfl) ?_
      · intro k' _ r₀ hr₀
        exact ⟨hkeyed k' r₀ hr₀, r₀, _, Store.task_of_resources_get hr₀, rfl⟩
      · intro k' hk'
        by_cases hwritten : k' ∈ scan.scope.writeTaskIds
        · obtain ⟨r₁, -, -, hr₁, -⟩ := hscan.written k' hwritten
          rw [Table.has, hr₁, Option.isSome_some]
        · rwa [Table.has, hscan.rest k' hwritten] at hk'
      · intro k' hk' r' r₁ tr₁ hr' htask
        obtain ⟨r₀, relinked', summary', hr₀, hwaiting, hlinks, hnext'⟩ := hscan.written k' hk'
        rw [hnext'] at hr'
        cases hr'
        rw [Store.task_of_resources_get hr₀] at htask
        cases htask
        rw [hscan.triggers, ite_self]
        exact Or.inl (Change.unadmit relinked' summary' isAdmitted candidates rfl hwaiting hlinks)

end Control

end MayAgent
