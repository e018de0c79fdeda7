import MayAgent.Proof.Actions

/-!
# Claims

A claim grants a new attempt, backs off, or adopts a lowered failure allowance; each as a change of
the claimed Task.
-/

namespace MayAgent

section Claim

variable {ctx : Context} {now : Int} {call : Call} {reads : Reads} {m : Mutation}

variable {scope : Store.Scope} {k agent : String} {r : Resource} {input : ClaimInput} {result : ClaimResult}
  {previous prior : Option Attempt} {t : Tree} {paths : List String}

theorem exhaustRetainedFailures_lawful (hs : reads.snapshot.WellFormed) (hlate : reads.late.WellFormed)
    {limit : Nat}
    (htaskId : input.taskId = k)
    (hr : (reads.snapshot.readTaskContext scope).resources.get k = some r)
    (hopen : reads.late.isCancelled k = false) (hlimit : reachedLimit ctx r = some limit)
    (h : exhaustRetainedFailures now reads.late (reads.snapshot.readTaskContext scope) r limit = .commit m result) :
    m.Lawful ctx now (.claim input) reads := by
  have htask := Store.task_of_resources_get hr
  have hown := hs.taskId _ _ _ htask
  unfold exhaustRetainedFailures at h
  split at h
  · cases h
  · rename_i a ha
    simp only [Option.filter_eq_some_iff, Option.bind_eq_some_iff, Bool.and_eq_true, decide_eq_true_eq] at ha
    obtain ⟨⟨id, hreferenced, hstored⟩, hattemptTask, hfailed⟩ := ha
    have hid := hlate.attemptId _ _ hstored
    subst hid
    simp only [Plan.check_eq_commit] at h
    obtain ⟨⟨retained, keys, admissions⟩, houtcome, h⟩ := h
    simp only at h
    cases h
    have hretained : retained.metadata.id = k := by
      rw [(inputOutcomeAdmissions_onlyWaits houtcome).metadata, hown]
    have hbase : ((reads.snapshot.readTaskContext scope).setAttempt a).resources.get k = some r := hr
    obtain ⟨htracks, hwrite, -⟩ := MutationScope.beginFor_eq hbase hown (hs.ne_empty htask)
    rw [hown]
    refine Mutation.Lawful.scoped htask hbase hown ?_ htracks hwrite ⟨rfl, rfl, rfl⟩ (adoptedResource now limit r retained a)
      [adoptedAttempt now limit r a] hretained rfl rfl ?_ (.none rfl rfl rfl) ?_
    · intro id b hb
      rw [Tree.setAttempt_attempts, Table.get_put] at hb
      split at hb
      · rename_i heq
        cases hb
        exact heq.symm
      · exact hs.snapshot_attemptId id b hb
    · exact .one (by simp) (hattemptTask.trans hown) rfl (Nat.lt_succ_self _) rfl
    · rw [hown] at houtcome
      exact Change.adopt input limit a retained keys admissions rfl (by rw [htaskId, hown]) (by rw [hown]; exact hopen)
        hlimit hstored hattemptTask hfailed hreferenced houtcome

theorem previousAttempt_of_snapshot (hs : reads.snapshot.WellFormed)
    (hhistory : scope.includeHistory = true)
    (hr : (reads.snapshot.readTaskContext scope).resources.get k = some r) :
    PreviousAttempt reads r (currentResourceAttempt (reads.snapshot.readTaskContext scope) r) ∧
      (∀ a, currentResourceAttempt (reads.snapshot.readTaskContext scope) r = some a →
        (reads.snapshot.readTaskContext scope).attempts.get a.id = some a) := by
  have htask := Store.task_of_resources_get hr
  have hown := hs.taskId _ _ _ htask
  cases hcur : r.status.currentAttemptId with
  | none =>
    have hnone : currentResourceAttempt (reads.snapshot.readTaskContext scope) r = none := by
      simp [currentResourceAttempt, hcur]
    rw [hnone]
    exact ⟨hcur, by simp⟩
  | some =>
    obtain ⟨a, ha, hsome, hstored, hid, htaskId, hstate⟩ := hs.current_in_snapshot hhistory hr hcur
    rw [hsome]
    subst hid
    refine ⟨⟨hstored, by rw [htaskId, hown], hstate, hcur⟩, ?_⟩
    rintro b ⟨⟩
    exact ha

theorem takeOver_id (now : Int) (untriggered : Bool) (previous : Option Attempt) (r : Resource) :
    (takeOver now untriggered previous r).metadata.id = r.metadata.id := by
  unfold takeOver
  cases untriggered <;> cases previous <;> rfl

theorem takeOver_generation (now : Int) (untriggered : Bool) (previous : Option Attempt) (r : Resource) :
    (takeOver now untriggered previous r).metadata.generation = r.metadata.generation := by
  unfold takeOver
  cases untriggered <;> cases previous <;> rfl

theorem PreviousAttempt.raised {base : Table String Attempt}
    (h : PreviousAttempt reads r previous) (hbase : ∀ a, previous = some a → base.get a.id = some a)
    (hown : r.metadata.id = k) {f : Attempt → Attempt} (hid : ∀ a, (f a).id = a.id)
    (htask : ∀ a, (f a).taskId = a.taskId) (hversion : ∀ a, a.resourceVersion ≠ (f a).resourceVersion) :
    RaisedFrom base k (previous.map f).toList := by
  cases previous with
  | none => exact Or.inl rfl
  | some a =>
    refine Or.inr ⟨a, f a, rfl, by rw [hid]; exact hbase a rfl, hversion a, ?_⟩
    rw [htask, ← hown]
    exact h.task

theorem claimInadmissible_lawful (hs : reads.snapshot.WellFormed)
    (hhistory : scope.includeHistory = true) {summary : String}
    (htaskId : input.taskId = k)
    (hr : (reads.snapshot.readTaskContext scope).resources.get k = some r)
    (hopen : reads.late.isCancelled k = false) (hallowed : taskExecutionRetryExhausted r = false)
    (hlimit : reachedLimit ctx r = none)
    (h : claimInadmissible ctx now input (beginResourceMutationScopeForTasks (reads.snapshot.readTaskContext scope) [k])
      ((reads.snapshot.readTaskContext scope).setResource r) r
      (currentResourceAttempt (reads.snapshot.readTaskContext scope) r) none summary = .commit m result) :
    m.Lawful ctx now (.claim input) reads := by
  have htask := Store.task_of_resources_get hr
  have hown := hs.taskId _ _ _ htask
  obtain ⟨hprevious, hfound⟩ := previousAttempt_of_snapshot hs hhistory hr
  set previous := currentResourceAttempt (reads.snapshot.readTaskContext scope) r
  have hm : m = finishResourceMutationScope now (beginResourceMutationScopeForTasks
      (reads.snapshot.readTaskContext scope) [k]) ((((reads.snapshot.readTaskContext scope).setResource r).setResource
        (backOffAdmission now summary (takeOver now false previous r))).setAttempts
          (previous.map fun a => supersedeAttempt a summary now).toList) := by
    unfold claimInadmissible at h
    simp only at h
    cases hprev : previous with
    | none =>
      simp only [hprev] at h
      cases h
      rfl
    | some =>
      simp only [hprev] at h
      split at h
      · cases h
      · simp only [Plan.check_eq_commit] at h
        obtain ⟨_, -, h⟩ := h
        cases h
        rfl
  subst hm
  have hid : (backOffAdmission now summary (takeOver now false previous r)).metadata.id = k := by
    rw [backOffAdmission, touchResource_id, takeOver_id, hown]
  refine Mutation.Lawful.scopedFor hs hr ⟨rfl, rfl, rfl⟩ (backOffAdmission now summary (takeOver now false previous r))
    (previous.map fun a => supersedeAttempt a summary now).toList hid ?_ ?_ ?_ (.none rfl rfl rfl) ?_
  · have hput : (((reads.snapshot.readTaskContext scope).setResource r).setResource
        (backOffAdmission now summary (takeOver now false previous r))).resources =
        ((reads.snapshot.readTaskContext scope).setResource
          (backOffAdmission now summary (takeOver now false previous r))).resources := by
      unfold Tree.setResource
      rw [hid, hown]
      exact Table.put_put _ _ _ _
    rw [← hput]
    cases previous <;> rfl
  · cases previous <;> rfl
  · exact hprevious.raised hfound hown (fun _ => rfl) (fun _ => rfl) (fun a => by simp [supersedeAttempt])
  · have htrigger : ((((reads.snapshot.readTaskContext scope).setResource r).setResource
        (backOffAdmission now summary (takeOver now false previous r))).setAttempts
          (previous.map fun a => supersedeAttempt a summary now).toList).taskTriggers.get k =
        (reads.snapshot.readTaskContext scope).taskTriggers.get k := by
      cases previous <;> rfl
    rw [htrigger]
    exact Change.backOff input previous summary rfl (by rw [htaskId, hown]) hprevious (by rw [hown]; exact hopen) hallowed hlimit

variable {tr : Option Trigger} {continued : List String} {reviewDue : Option Int} {fence : Fence}
  {claimed remaining : List TriggerEvent} {claim : Claim} {revision : Nat}

theorem grantClaim_lawful
    (untriggered : Bool)
    
    (htask : reads.snapshot.task k = some (r, tr)) (hown : r.metadata.id = k) (htrigger : t.taskTriggers.get k = tr)
    (hid : input.taskId = k) (hprevious : PreviousAttempt reads r previous)
    (hopen : reads.late.isCancelled k = false) (hallowed : taskExecutionRetryExhausted r = false)
    (hlimit : reachedLimit ctx r = none)
    (huntriggered : untriggered = true → tr = none ∧ ∃ a, previous = some a ∧ attemptTrigger a = none)
    (h : grantClaim ctx now input r.fence t (takeOver now untriggered previous r) agent prior previous
      (previous.map (recoveredAttempt now untriggered)).toList (claimedEvents r (offeredEvents previous tr))
      (remainingEvents r (offeredEvents previous tr)) continued reviewDue paths = .commit m result) :
    m.Lawful ctx now (.claim input) reads := by
  unfold grantClaim at h
  cases h
  rw [hid]
  have hnewId : (newAttempt ctx now input (takeOver now untriggered previous r) agent prior
      (claimedEvents r (offeredEvents previous tr)) (remainingEvents r (offeredEvents previous tr)) continued
      (claimTrigger ctx input agent (claimedEvents r (offeredEvents previous tr)) previous reviewDue)).id =
      input.attemptId r.metadata.generation := by
    simp only [newAttempt, refreshAttemptLease, takeOver_generation, ClaimInput.attemptId]
  have hnext : ∀ id, (startRunning now id (takeOver now untriggered previous r)).metadata.id = k := by
    intro id
    rw [startRunning, touchResource_id, takeOver_id, hown]
  refine Mutation.Lawful.one htask (by simp) rfl (hnext _)
    (remainingTrigger agent tr (remainingEvents r (offeredEvents previous tr))) ?_ ?_ (.none rfl rfl rfl) ?_
  · simp only [resourceWrite, hnext, Tree.setAttempts_taskTriggers, Tree.setTrigger_taskTriggers_get, if_true, htrigger]
  · intro a ha
    rw [List.mem_append, List.mem_singleton] at ha
    rcases ha with ha | rfl
    · cases previous with
      | none => cases ha
      | some a' =>
        simp only [Option.map_some, Option.toList_some, List.mem_singleton] at ha
        subst ha
        have hkeep : (recoveredAttempt now untriggered a').taskId = a'.taskId := by
          cases untriggered <;> rfl
        rw [hkeep, ← hown]
        exact hprevious.task
    · exact hid
  · rw [hnewId]
    exact Change.grant input agent prior previous untriggered continued _ rfl hprevious (by rw [hown]; exact hopen) hallowed
      hlimit (by rw [hown]; exact hid) huntriggered ⟨reviewDue, rfl⟩

/-- A granted claim carries the events its attempt records. -/
theorem grantClaim_eq_claimed
    {changed : List Attempt}
        (hown : r.metadata.id = input.taskId) (htrigger : t.taskTriggers.get input.taskId = tr)
    (h : grantClaim ctx now input fence t r agent prior previous changed claimed remaining continued reviewDue paths
      = .commit m (.claimed claim)) :
    ∃ a w, a ∈ m.attempts ∧ a.id = claim.attemptId ∧ a.events = claimed ∧ a.eventsTruncated = !remaining.isEmpty ∧
      claim.events = claimed ∧ claim.eventsTruncated = !remaining.isEmpty ∧
      m.tasks = [w] ∧ w.resource.metadata.id = input.taskId ∧ w.trigger = remainingTrigger agent tr remaining := by
  unfold grantClaim at h
  cases h
  refine ⟨newAttempt ctx now input r agent prior claimed remaining continued
    (claimTrigger ctx input agent claimed previous reviewDue), _, List.mem_append_right _ (List.mem_singleton.mpr rfl),
    rfl, rfl, rfl, rfl, rfl, rfl, hown, ?_⟩
  have hnext : ∀ id, (startRunning now id r).metadata.id = input.taskId := fun _ => hown
  simp only [resourceWrite, hnext, Tree.setAttempts_taskTriggers, Tree.setTrigger_taskTriggers_get, if_true, htrigger]

theorem claimChecked_eq_commit
    {stale : Option Attempt} {untriggered : Bool}
    
    (hrunning : canRecoverPreviousRuntime ctx input previous = false → previous ≠ none → r.status.phase = .running)
    (h : claimChecked ctx now revision input fence t r agent prior previous stale untriggered claimed remaining paths
      = .commit m result) :
    ∃ continued reviewDue, grantClaim ctx now input fence t (if previous.isSome then r.release .interrupted else r)
      agent prior previous (stale.toList ++ (previous.map (recoveredAttempt now untriggered)).toList) claimed remaining
      continued reviewDue paths = .commit m result := by
  unfold claimChecked at h
  simp only at h
  split_ifs at h with hbusy
  split at h
  · rename_i a ha
    simp only [Plan.check_eq_commit] at h
    obtain ⟨_, -, h⟩ := h
    obtain ⟨hprev, -⟩ := Option.filter_eq_some_iff.mp ha
    rw [hprev] at h ⊢
    exact ⟨_, _, h⟩
  · rename_i hnone
    have hprev : previous = none := by
      by_contra hsome
      obtain ⟨a, ha⟩ := Option.ne_none_iff_exists'.mp hsome
      have hrecover : canRecoverPreviousRuntime ctx input previous = false := by
        rw [ha, Option.filter_eq_none_iff] at hnone
        rw [ha]
        simpa using hnone a rfl
      exact hbusy ⟨hrunning hrecover hsome, hrecover⟩
    rw [hprev] at h ⊢
    simp only [Option.map_none, Option.toList_none, List.append_nil]
    exact ⟨_, _, h⟩

variable (hs : reads.snapshot.WellFormed)

include hs

theorem claimAdmissible_eq_commit (hhistory : scope.includeHistory = true)
        (hr : (reads.snapshot.readTaskContext scope).resources.get input.taskId = some r)
    (h : claimAdmissible ctx now revision input r.fence ((reads.snapshot.readTaskContext scope).setResource r) r agent
      prior (currentResourceAttempt (reads.snapshot.readTaskContext scope) r) none paths = .commit m result) :
    ∃ previous untriggered tr t continued reviewDue, PreviousAttempt reads r previous ∧
      reads.snapshot.task input.taskId = some (r, tr) ∧ t.taskTriggers.get input.taskId = tr ∧
      (untriggered = true → tr = none ∧ ∃ a, previous = some a ∧ attemptTrigger a = none) ∧
      grantClaim ctx now input r.fence t (takeOver now untriggered previous r) agent prior previous
        (previous.map (recoveredAttempt now untriggered)).toList (claimedEvents r (offeredEvents previous tr))
        (remainingEvents r (offeredEvents previous tr)) continued reviewDue paths = .commit m result := by
  have htask := Store.task_of_resources_get hr
  obtain ⟨hprevious, -⟩ := previousAttempt_of_snapshot hs hhistory hr
  unfold claimAdmissible at h
  simp only at h
  rw [Tree.setResource_taskTriggers] at h
  set previous := currentResourceAttempt (reads.snapshot.readTaskContext scope) r
  set tr := (reads.snapshot.readTaskContext scope).taskTriggers.get input.taskId with htr
  set untriggered := canRecoverPreviousRuntime ctx input previous && tr.isNone && (previous.bind attemptTrigger).isNone
    with huntriggered
  obtain ⟨continued, reviewDue, hgrant⟩ := claimChecked_eq_commit (by
    intro hrecover hsome
    rw [huntriggered, hrecover]
    obtain ⟨a, ha⟩ := Option.ne_none_iff_exists'.mp hsome
    rw [ha] at hprevious
    exact ((hs.executes _ _ _ htask).current _ hprevious.current).1) h
  refine ⟨previous, untriggered, tr, ((reads.snapshot.readTaskContext scope).setResource r).setResource
    (if untriggered then requeueUntriggered now r else r), continued, reviewDue, hprevious, htask, rfl, ?_, hgrant⟩
  intro htrue
  rw [huntriggered, Bool.and_eq_true, Bool.and_eq_true, Option.isNone_iff_eq_none, Option.isNone_iff_eq_none] at htrue
  refine ⟨htrue.1.2, ?_⟩
  cases hprev : previous with
  | none =>
    rw [hprev] at htrue
    exact absurd htrue.1.1 (by simp [canRecoverPreviousRuntime])
  | some a =>
    rw [hprev] at htrue
    exact ⟨a, rfl, htrue.2⟩

theorem claimObservedAppTask_eq_commit (h : claimObservedAppTask ctx now reads input = .commit m result) :
    ∃ r, (reads.snapshot.readTaskContext { taskIds := [input.taskId] }).resources.get input.taskId = some r ∧
      reads.late.isCancelled input.taskId = false ∧
      ((∃ limit, reachedLimit ctx r = some limit ∧ exhaustRetainedFailures now reads.late
          (reads.snapshot.readTaskContext { taskIds := [input.taskId] }) r limit = .commit m result) ∨
        taskExecutionRetryExhausted r = false ∧ reachedLimit ctx r = none ∧
        ((∃ summary, claimInadmissible ctx now input
            (beginResourceMutationScopeForTasks (reads.snapshot.readTaskContext { taskIds := [input.taskId] })
              [input.taskId]) ((reads.snapshot.readTaskContext { taskIds := [input.taskId] }).setResource r) r
            (currentResourceAttempt (reads.snapshot.readTaskContext { taskIds := [input.taskId] }) r) none summary
              = .commit m result) ∨
          ∃ revision agent prior paths, claimAdmissible ctx now revision input r.fence
            ((reads.snapshot.readTaskContext { taskIds := [input.taskId] }).setResource r) r agent prior
            (currentResourceAttempt (reads.snapshot.readTaskContext { taskIds := [input.taskId] }) r) none paths
              = .commit m result)) := by
  unfold claimObservedAppTask at h
  simp only at h
  set scope : Store.Scope := { taskIds := [input.taskId] }
  split at h
  · cases h
  · rename_i r hr
    have htask := Store.task_of_resources_get hr
    have hown := hs.taskId _ _ _ htask
    split at h
    · cases h
    · rename_i hopen
      refine ⟨r, hr, by simpa using hopen, ?_⟩
      split at h
      · cases h
      · split at h
        · cases h
        · split at h
          · rename_i limit hlimit
            exact .inl ⟨limit, hlimit, h⟩
          · rename_i hlimit
            split at h
            · split at h <;> cases h
            · rename_i hallowed
              refine .inr ⟨by simpa using hallowed, hlimit, ?_⟩
              split at h
              · cases h
              · -- A running Task always has its running attempt in the snapshot.
                have hpresent : (decide (r.status.phase = .running)
                    && (currentResourceAttempt (reads.snapshot.readTaskContext scope) r).isNone) = false := by
                  by_cases hphase : r.status.phase = .running
                  · obtain ⟨_, hcur⟩ := Option.isSome_iff_exists.mp ((hs.executes _ _ _ htask).running hphase)
                    obtain ⟨_, -, hsome, -⟩ := hs.current_in_snapshot rfl hr hcur
                    simp [hsome]
                  · simp [hphase]
                simp only [hpresent, Bool.false_eq_true, if_false, Option.toList_none, Tree.setAttempts_nil, hown] at h
                split at h
                · exact .inl ⟨_, h⟩
                · exact .inr ⟨_, _, _, _, h⟩

theorem claimObservedAppTask_lawful (hlate : reads.late.WellFormed)
        (h : claimObservedAppTask ctx now reads input = .commit m result) : m.Lawful ctx now (.claim input) reads := by
  obtain ⟨r, hr, hopen, ⟨_, hlimit, h⟩ | ⟨hallowed, hlimit, ⟨_, h⟩ | ⟨_, _, _, _, h⟩⟩⟩ :=
    claimObservedAppTask_eq_commit hs h
  · exact exhaustRetainedFailures_lawful hs hlate rfl hr hopen hlimit h
  · exact claimInadmissible_lawful hs rfl rfl hr hopen hallowed hlimit h
  · obtain ⟨_, untriggered, _, t, _, _, hprevious, htask, htrigger, huntriggered, hgrant⟩ :=
      claimAdmissible_eq_commit hs rfl hr h
    exact grantClaim_lawful untriggered htask (hs.taskId _ _ _ htask) htrigger rfl hprevious hopen hallowed hlimit
      huntriggered hgrant

theorem claimObservedAppTask_claimed (h : claimObservedAppTask ctx now reads input = .commit m (.claimed claim)) :
    ∃ r tr previous untriggered t agent prior continued reviewDue paths,
      reads.snapshot.task input.taskId = some (r, tr) ∧ PreviousAttempt reads r previous ∧
      t.taskTriggers.get input.taskId = tr ∧
      grantClaim ctx now input r.fence t (takeOver now untriggered previous r) agent prior previous
        (previous.map (recoveredAttempt now untriggered)).toList (claimedEvents r (offeredEvents previous tr))
        (remainingEvents r (offeredEvents previous tr)) continued reviewDue paths = .commit m (.claimed claim) := by
  obtain ⟨r, hr, -, ⟨_, -, h⟩ | ⟨-, -, ⟨_, h⟩ | ⟨_, agent, prior, paths, h⟩⟩⟩ :=
    claimObservedAppTask_eq_commit hs h
  · unfold exhaustRetainedFailures at h
    split at h
    · cases h
    · simp only [Plan.check_eq_commit] at h
      obtain ⟨_, -, h⟩ := h
      cases h
  · unfold claimInadmissible at h
    simp only at h
    split at h
    · cases h
    · split at h
      · cases h
      · simp only [Plan.check_eq_commit] at h
        obtain ⟨_, -, h⟩ := h
        cases h
  · obtain ⟨previous, untriggered, tr, t, continued, reviewDue, hprevious, htask, htrigger, -, hgrant⟩ :=
      claimAdmissible_eq_commit hs rfl hr h
    exact ⟨r, tr, previous, untriggered, t, agent, prior, continued, reviewDue, paths, htask, hprevious, htrigger, hgrant⟩

end Claim

end MayAgent
