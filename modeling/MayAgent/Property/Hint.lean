import MayAgent.Proof.Requested
import MayAgent.Property.Retries

/-!
# The scheduling hint

`isRunnableOnPassiveResync` tells the scheduler which Tasks to claim and `claimObservedAppTask` decides again.
For an idle Task whose linked Conditions are stored the two agree: the hint is set exactly when the Task is open
and a claim of it is granted.
-/

namespace MayAgent

variable {r : Resource} {k : String}

variable {t : Tree} {s : Store} {tr : Option Trigger}

theorem isRunnableOnPassiveResync_congr {now : Int} {t' : Tree}
    (hclosed : t.cancellations.has r.metadata.id = t'.cancellations.has r.metadata.id)
    (hdependencies : unmetDependencies t r.spec = unmetDependencies t' r.spec)
    (hcurrent : currentResourceAttempt t r = currentResourceAttempt t' r)
    (htrigger : t.taskTriggers.has r.metadata.id = t'.taskTriggers.has r.metadata.id)
    (hconditions : taskConditions t r = taskConditions t' r)
    (hhistory : latestTaskAttempt t r.metadata.id (some r.metadata.generation) =
      latestTaskAttempt t' r.metadata.id (some r.metadata.generation)) :
    isRunnableOnPassiveResync now t r = isRunnableOnPassiveResync now t' r := by
  unfold isRunnableOnPassiveResync dependenciesSatisfied hasSatisfiedTaskCondition hasLegacyWorkflowHandoff
  rw [hclosed, hdependencies, hcurrent, htrigger, hconditions, hhistory]

theorem isRunnableOnPassiveResync_requested (hs : s.WellFormed) {scope scope' : Store.Scope}
    (hhistory : scope.includeHistory = true) (hhistory' : scope'.includeHistory = true)
    (hr : s.task k = some (r, tr)) (hk : k ∈ Store.requestedIds scope.taskIds)
    (hk' : k ∈ Store.requestedIds scope'.taskIds) (hidle : r.status.currentAttemptId = none) (now : Int) :
    isRunnableOnPassiveResync now (s.readTaskContext scope) r =
      isRunnableOnPassiveResync now (s.readTaskContext scope') r := by
  have hid := hs.taskId _ _ _ hr
  have hshown := Store.resources_get_of_requested hk hr
  have hshown' := Store.resources_get_of_requested hk' hr
  apply isRunnableOnPassiveResync_congr
  · rw [hid, Table.has, Table.has, Store.cancellations_get_of_resources_get hshown,
      Store.cancellations_get_of_resources_get hshown']
  · rw [Store.unmetDependencies_of_requested hs hk hr, Store.unmetDependencies_of_requested hs hk' hr]
  · simp [currentResourceAttempt, hidle]
  · rw [hid, Table.has, Table.has, Store.taskTriggers_get_of_requested hk hr, Store.taskTriggers_get_of_requested hk' hr]
  · have hconditions := Store.conditions_of_resources_get hshown fun _ => true
    have hconditions' := Store.conditions_of_resources_get hshown' fun _ => true
    simp only [Bool.and_true] at hconditions hconditions'
    rw [taskConditions, taskConditions, hconditions, hconditions']
  · rw [hid, latestTaskAttempt, latestTaskAttempt, Store.attempts_of_resources_get hs hhistory hshown,
      Store.attempts_of_resources_get hs hhistory' hshown']

/-! ### The claim of an idle Task -/

/-- What holds a claim of an idle Task back. -/
structure Resource.Held (now : Int) (t : Tree) (tr : Option Trigger) (r : Resource) : Prop where
  observed : r.metadata.generation ≤ r.status.observedGeneration
  quiet : tr = none
  settled : r.status.phase = .converged ∨ r.status.phase = .attention ∧ hasLegacyWorkflowHandoff t r = false ∨
    r.status.phase = .waiting ∧ ((openTaskConditionIds t r).isEmpty = false ∨ (acceptedTaskReviewAt r).isSome = true) ∧
      hasSatisfiedTaskCondition t r = false ∧ ((acceptedTaskReviewAt r).filter fun at_ => decide (at_ ≤ now)) = none

section Claimed

variable {ctx : Context} {now : Int} {input : ClaimInput} {fence : Fence} {t : Tree} {r : Resource} {agent : String}
  {revision : Nat} {prior : Option Attempt} {claimed remaining : List TriggerEvent} {paths : List String}

theorem claimChecked_idle_iff (hphase : r.status.phase ≠ .running) :
    (∃ m claim, claimChecked ctx now revision input fence t r agent prior none none false claimed remaining paths
      = .commit m (.claimed claim)) ↔
    unmetDependencies t r.spec = [] ∧ ¬r.Held now t (t.taskTriggers.get input.taskId) := by
  unfold claimChecked
  simp only
  rw [if_neg (fun h => hphase h.1)]
  split_ifs with hconverged hattention hunmet hwaiting
  · refine iff_of_false ?_ fun h => h.2 ⟨hconverged.2.1, hconverged.2.2, .inl hconverged.1⟩
    rintro ⟨m, claim, ⟨⟩⟩
  · refine iff_of_false ?_ fun h => h.2 ⟨hattention.2.1, hattention.2.2.1, .inr (.inl ⟨hattention.1, hattention.2.2.2⟩)⟩
    rintro ⟨m, claim, ⟨⟩⟩
  · refine iff_of_false ?_ fun h => ?_
    · rintro ⟨m, claim, ⟨⟩⟩
    · rw [h.1] at hunmet
      cases hunmet
  · obtain ⟨hphase, hobserved, hsome, hquiet, hunsatisfied, hdue⟩ := hwaiting
    refine iff_of_false ?_ fun h => h.2 ⟨hobserved, hquiet, .inr (.inr ⟨hphase, hsome, hunsatisfied, hdue⟩)⟩
    rintro ⟨m, claim, ⟨⟩⟩
  · refine iff_of_true ⟨_, _, rfl⟩ ⟨by simpa using hunmet, ?_⟩
    rintro ⟨hobserved, hquiet, hphase | ⟨hphase, hlegacy⟩ | ⟨hphase, hsome, hunsatisfied, hdue⟩⟩
    · exact hconverged ⟨hphase, hobserved, hquiet⟩
    · exact hattention ⟨hphase, hobserved, hquiet, hlegacy⟩
    · exact hwaiting ⟨hphase, hobserved, hsome, hquiet, hunsatisfied, hdue⟩

theorem openTaskConditionIds_isEmpty (hlinked : ∀ id ∈ r.status.conditionIds, ∃ c, t.conditions.get id = some c)
    (hunsatisfied : hasSatisfiedTaskCondition t r = false) :
    (openTaskConditionIds t r).isEmpty = r.status.conditionIds.isEmpty := by
  cases hids : r.status.conditionIds with
  | nil => simp [openTaskConditionIds, hids]
  | cons id =>
    obtain ⟨c, hc⟩ := hlinked id (by simp [hids])
    have hentry := (Table.get_eq_some_iff _ _ _).mp hc
    have hopen : c.state ≠ .met := by
      intro hmet
      have hsatisfied : hasSatisfiedTaskCondition t r = true := by
        rw [hasSatisfiedTaskCondition, List.any_eq_true]
        refine ⟨c, List.mem_map.mpr ⟨⟨id, c⟩, List.mem_filter.mpr ⟨hentry, ?_⟩, rfl⟩, by simpa using hmet⟩
        simp [hids]
      rw [hunsatisfied] at hsatisfied
      cases hsatisfied
    have hmem : id ∈ openTaskConditionIds t r := by
      refine List.mem_map.mpr ⟨⟨id, c⟩, List.mem_filter.mpr ⟨hentry, ?_⟩, rfl⟩
      simp [hids, hopen]
    rw [List.isEmpty_cons, List.isEmpty_eq_false_iff_exists_mem]
    exact ⟨id, hmem⟩

theorem isRunnableOnPassiveResync_idle_iff (hphase : r.status.phase ≠ .running)
    (hidle : currentResourceAttempt t r = none)
    (hlinked : ∀ id ∈ r.status.conditionIds, ∃ c, t.conditions.get id = some c) :
    isRunnableOnPassiveResync now t r = true ↔
      t.cancellations.has r.metadata.id = false ∧ taskExecutionRetryExhausted r = false ∧
      pendingTaskExecutionRetryAt r now = none ∧ unmetDependencies t r.spec = [] ∧
      ¬r.Held now t (t.taskTriggers.get r.metadata.id) := by
  unfold isRunnableOnPassiveResync
  rw [hidle, dependenciesSatisfied, ← List.isEmpty_iff, ← Option.isNone_iff_eq_none]
  cases t.cancellations.has r.metadata.id with
  | true => simp
  | false =>
  cases taskExecutionRetryExhausted r with
  | true => simp
  | false =>
  cases pendingTaskExecutionRetryAt r now with
  | some => simp
  | none =>
  cases (unmetDependencies t r.spec).isEmpty with
  | false => simp
  | true =>
    simp only [Bool.false_eq_true, if_false, Option.isSome_none, Bool.not_true, Option.isNone_none, true_and]
    cases htrigger : t.taskTriggers.get r.metadata.id with
    | some =>
      refine iff_of_true (by simp [Table.has, htrigger]) fun hheld => ?_
      cases hheld.quiet
    | none =>
      by_cases hgap : r.status.observedGeneration < r.metadata.generation
      · refine iff_of_true (by simp [hgap]) fun hheld => ?_
        exact absurd hheld.observed (Nat.not_le.mpr hgap)
      · have hsettled : r.Held now t none ↔ _ := ⟨Resource.Held.settled, fun h => ⟨Nat.not_lt.mp hgap, rfl, h⟩⟩
        rw [hsettled, Table.has, htrigger, Option.isSome_none, if_neg Bool.false_ne_true, if_neg hgap]
        cases hstate : r.status.phase with
        | pending => simp
        | waiting =>
          cases hsatisfied : hasSatisfiedTaskCondition t r with
          | true => simp
          | false =>
            rw [openTaskConditionIds_isEmpty hlinked hsatisfied]
            cases acceptedTaskReviewAt r with
            | none => simp
            | some => simp
        | attention => simp
        | running => exact absurd hstate hphase
        | converged => simp

end Claimed

theorem setResource_unmetDependencies (hr : t.resources.get k = some r)
    (hk : r.metadata.id = k) (spec : Spec) : unmetDependencies (t.setResource r) spec = unmetDependencies t spec := by
  refine List.filter_congr fun d _ => ?_
  have hget : (t.setResource r).resources.get d = t.resources.get d := by
    rw [Tree.setResource, Table.get_put]
    split_ifs with hd
    · rw [hd, hk, hr]
    · rfl
  rw [hget]

section Store

variable {s : Store} {ctx : Context} {now : Int} {input : ClaimInput} {r : Resource} {tr : Option Trigger}

theorem claimObservedAppTask_idle_iff (now : Int) (hs : s.Sound) (hr : s.task input.taskId = some (r, tr))
    (hrequested : input.taskId ∈ Store.requestedIds [input.taskId]) (hidle : r.status.currentAttemptId = none)
    (hactive : s.lifecycle = .active) (hlimit : reachedLimit ctx r = none) {paths : List String}
    (hadmitted : admitExecution input (resourceIntent r) (resolvedAgent
      (s.readTaskContext { taskIds := [input.taskId] }) (resourceIntent r) input.appAgent) = .ok paths) :
    (∃ m claim, claimObservedAppTask ctx now (Reads.now s) input = .commit m (.claimed claim)) ↔
      s.isCancelled input.taskId = false ∧ taskExecutionRetryExhausted r = false ∧
      pendingTaskExecutionRetryAt r now = none ∧
      unmetDependencies (s.readTaskContext { taskIds := [input.taskId] }) r.spec = [] ∧
      ¬r.Held now (s.readTaskContext { taskIds := [input.taskId] }) tr := by
  have hown := hs.taskId _ _ _ hr
  have hphase : r.status.phase ≠ .running := by
    intro hrunning
    have hcurrent := (hs.executes _ _ _ hr).running hrunning
    rw [hidle] at hcurrent
    cases hcurrent
  set t := s.readTaskContext { taskIds := [input.taskId] } with ht
  have hshown : t.resources.get input.taskId = some r := Store.resources_get_of_requested hrequested hr
  have htrigger : t.taskTriggers.get input.taskId = tr := Store.taskTriggers_get_of_requested hrequested hr
  have hcross : crossTaskAttempt { t with attempts := s.attempts } r = none := by simp [crossTaskAttempt, hidle]
  have hallowed : s.allowsTaskExecution input.taskId = true := by simp [Store.allowsTaskExecution, hactive]
  have hnone : currentResourceAttempt t r = none := by simp [currentResourceAttempt, hidle]
  unfold claimObservedAppTask
  simp only [Reads.now, ← ht, hshown, hcross, hallowed, hlimit, hnone, hadmitted, hphase, decide_false, Bool.false_and,
    Bool.false_eq_true, Bool.not_true, if_false, Option.toList_none, Tree.setAttempts_nil]
  cases hclosed : s.isCancelled input.taskId with
  | true => simp
  | false =>
    cases hexhausted : taskExecutionRetryExhausted r with
    | true => simp
    | false =>
      cases hretry : pendingTaskExecutionRetryAt r now with
      | some => simp
      | none =>
        simp only [Bool.false_eq_true, if_false, true_and]
        refine (claimChecked_idle_iff hphase).trans (and_congr ?_ (not_congr ?_))
        · have hput : (t.setResource r).resources.get input.taskId = some r := by
            rw [Tree.setResource, hown, Table.get_put, if_pos rfl]
          change unmetDependencies ((t.setResource r).setResource r) r.spec = [] ↔ _
          rw [setResource_unmetDependencies hput hown, setResource_unmetDependencies hshown hown]
        · exact ⟨fun h => ⟨h.observed, htrigger ▸ h.quiet, h.settled⟩, fun h => ⟨h.observed, htrigger ▸ h.quiet, h.settled⟩⟩

theorem claimObservedAppTask_commits (hs : s.Sound) (hactive : s.lifecycle = .active) {m : Mutation} {claim : Claim}
    (h : claimObservedAppTask ctx now (Reads.now s) input = .commit m (.claimed claim)) :
    s.commit ctx now m = .ok (s.applyMutation now m) := by
  obtain ⟨r, tr, previous, untriggered, t, _, _, _, _, _, htask, -, -, hgrant⟩ :=
    claimObservedAppTask_claimed hs.toWellFormed h
  have htask : s.task input.taskId = some (r, tr) := htask
  have hown := hs.taskId _ _ _ htask
  unfold grantClaim at hgrant
  cases hgrant
  have hkept : ∀ id, (startRunning now id (takeOver now untriggered previous r)).metadata.id = r.metadata.id ∧
      (startRunning now id (takeOver now untriggered previous r)).metadata.creator = r.metadata.creator ∧
      (startRunning now id (takeOver now untriggered previous r)).spec.parentId = r.spec.parentId := by
    intro id
    cases untriggered <;> cases previous <;> exact ⟨rfl, rfl, rfl⟩
  refine (Store.commit_single htask hown rfl rfl ((hkept _).1.trans hown) (hkept _).2.1 (hkept _).2.2 ?_ rfl rfl rfl ?_).1
  · rintro k ⟨⟩
    simp [Store.allowsTaskExecution, hactive]
  · simp

end Store

/-! ### Agreement -/

def Action.AppliesLimit (limit : FailureLimit) : Action → Prop
  | .call landing => landing.ctx.failureLimit = limit
  | _ => True

theorem History.reachedLimit_eq_none {limit : FailureLimit} (hlimit : limit ≠ .count 0) {h : List Store}
    (hrun : History (fun _ action => action.AppliesLimit limit) h) (hs : s ∈ h) {ctx : Context}
    (hctx : ctx.failureLimit = limit) (hr : s.task k = some (r, tr)) :
    reachedLimit ctx r = none := by
  cases limit with
  | unlimited => simp [reachedLimit, hctx]
  | count n =>
    have hn : 0 < n := Nat.pos_of_ne_zero fun h => hlimit (by rw [h])
    have hlimited : History (fun _ action => action.Limited n) h := by
      refine hrun.mono fun h s hstep => ?_
      obtain ⟨s₀, past, action, heq, hadmissible, hreads, hok, hnext⟩ := hstep
      refine ⟨s₀, past, action, heq, hadmissible, hreads, ?_, hnext⟩
      cases action <;> exact hok
    have hpaced := (History.paced hn hlimited s hs).task k r tr hr
    rw [Option.eq_none_iff_forall_ne_some]
    exact fun _ => hpaced.not_reached hctx

/-- In every stored state, for every Task that has no running attempt and whose linked Conditions are stored,
the hint is set exactly when the Task is open and a claim of it is granted and committed. -/
theorem History.hint_iff_claimed {limit : FailureLimit} (hlimit : limit ≠ .count 0) {h : List Store}
    (hrun : History (fun _ action => action.AppliesLimit limit) h) {s : Store} (hs : s ∈ h)
    {ctx : Context} (hctx : ctx.failureLimit = limit) {input : ClaimInput} {r : Resource} {tr : Option Trigger}
    (hr : s.task input.taskId = some (r, tr))
    (hlinked : ∀ id ∈ r.status.conditionIds, s.conditions.has id = true)
    (hidle : ∀ id a, r.status.currentAttemptId = some id → s.attempts.get id = some a → a.state ≠ .running)
    (hactive : s.lifecycle = .active)
    (hadmitted : ∃ paths, admitExecution input (resourceIntent r) (resolvedAgent
      (s.readTaskContext { taskIds := [input.taskId] }) (resourceIntent r) input.appAgent) = .ok paths)
    {scope : Store.Scope} (hhistory : scope.includeHistory = true)
    (hrequested : input.taskId ∈ Store.requestedIds scope.taskIds) (now : Int) :
    isRunnableOnPassiveResync now (s.readTaskContext scope) r = true ↔
      s.isCancelled input.taskId = false ∧ ∃ m claim s',
        claimObservedAppTask ctx now (Reads.now s) input = .commit m (.claimed claim) ∧ s.commit ctx now m = .ok s' := by
  have hsound := (History.sound hrun).1 s hs
  have hown := hsound.taskId _ _ _ hr
  have hcurrent : r.status.currentAttemptId = none := by
    by_contra hsome
    obtain ⟨id, hid⟩ := Option.ne_none_iff_exists'.mp hsome
    obtain ⟨-, a, ha, -, hstate⟩ := (hsound.executes _ _ _ hr).current id hid
    exact hidle id a hid ha hstate
  have hphase : r.status.phase ≠ .running := by
    intro hrunning
    have hsome := (hsound.executes _ _ _ hr).running hrunning
    rw [hcurrent] at hsome
    cases hsome
  have hrequested' : input.taskId ∈ Store.requestedIds [input.taskId] := by
    obtain ⟨hmem, hne⟩ := List.mem_filter.mp hrequested
    obtain ⟨_, -, htrim⟩ := List.mem_map.mp hmem
    refine List.mem_filter.mpr ⟨List.mem_map.mpr ⟨input.taskId, List.mem_singleton.mpr rfl, ?_⟩, hne⟩
    rw [← htrim, Text.trim_trim]
  obtain ⟨paths, hadmitted⟩ := hadmitted
  have hshown : (s.readTaskContext { taskIds := [input.taskId] }).resources.get input.taskId = some r :=
    Store.resources_get_of_requested hrequested' hr
  have hsame := isRunnableOnPassiveResync_requested hsound.toWellFormed hhistory
    (show ({ taskIds := [input.taskId] } : Store.Scope).includeHistory = true from rfl) hr hrequested hrequested' hcurrent now
  have hstored : ∀ id ∈ r.status.conditionIds, ∃ c,
      (s.readTaskContext { taskIds := [input.taskId] }).conditions.get id = some c := by
    intro id hid
    obtain ⟨c, hc⟩ := Option.isSome_iff_exists.mp (hlinked id hid)
    refine ⟨c, (Table.get_filter_eq_some_iff _ _ _ _).mpr ⟨hc, List.contains_iff_mem.mpr ?_⟩⟩
    exact List.mem_append_left _ (List.mem_flatMap.mpr ⟨r, (Table.mem_values_iff _ _).mpr ⟨_, hshown⟩, hid⟩)
  rw [hsame, isRunnableOnPassiveResync_idle_iff hphase (by simp [currentResourceAttempt, hcurrent]) hstored, hown,
    Store.taskTriggers_get_of_requested hrequested' hr, Table.has, Store.cancellations_get_of_resources_get hshown]
  have hclaim := claimObservedAppTask_idle_iff now hsound hr hrequested' hcurrent hactive
    (History.reachedLimit_eq_none hlimit hrun hs hctx hr) hadmitted
  constructor
  · intro hhint
    obtain ⟨m, claim, hgranted⟩ := hclaim.mpr hhint
    exact ⟨hhint.1, m, claim, _, hgranted, claimObservedAppTask_commits hsound hactive hgranted⟩
  · rintro ⟨-, m, claim, s', hgranted, -⟩
    exact hclaim.mp ⟨m, claim, hgranted⟩

theorem Sample.observed_hinted : ((observed.task "a").any fun x => isRunnableOnPassiveResync 2
    (observed.readTaskContext { taskIds := ["a"] }) x.1 && x.1.status.conditionIds.isEmpty &&
    x.1.status.currentAttemptId.isNone && (admitExecution (claimInput "a" "u1") (resourceIntent x.1) (resolvedAgent
      (observed.readTaskContext { taskIds := ["a"] }) (resourceIntent x.1) "worker")).isOk) = true := by
  decide +kernel

theorem History.hint_iff_claimed_observed : ∃ m claim s',
    claimObservedAppTask Sample.context 2 (Reads.now Sample.observed) (Sample.claimInput "a" "u1") = .commit m (.claimed claim) ∧
      Sample.observed.commit Sample.context 2 m = .ok s' := by
  have hreach : Reachable (fun _ action => action.AppliesLimit (.count 3)) Sample.observed := Sample.observed_reachable rfl
  obtain ⟨_, hrun⟩ := hreach.history
  obtain ⟨⟨r, _⟩, hr, hhint⟩ := (Option.any_eq_true _ _).mp Sample.observed_hinted
  simp only [Bool.and_eq_true, List.isEmpty_iff, Option.isNone_iff_eq_none] at hhint
  obtain ⟨⟨⟨hhint, hconditions⟩, hcurrent⟩, hadmitted⟩ := hhint
  refine ((History.hint_iff_claimed (by simp) hrun List.mem_cons_self rfl hr ?_ ?_ (by decide +kernel) ?_ rfl
    (by decide +kernel) 2).mp hhint).2
  · simp [hconditions]
  · simp [hcurrent]
  · cases hresult : admitExecution (Sample.claimInput "a" "u1") (resourceIntent r) (resolvedAgent
        (Sample.observed.readTaskContext { taskIds := ["a"] }) (resourceIntent r) "worker") with
    | error _ =>
      rw [hresult] at hadmitted
      cases hadmitted
    | ok paths => exact ⟨paths, hresult⟩

end MayAgent
