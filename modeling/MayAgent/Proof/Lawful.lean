import MayAgent.Proof.Change

/-!
# The operations on one Task

Each operation that writes a single Task makes one of the listed changes.
-/

namespace MayAgent

variable {m : Mutation} {now : Int}

theorem Plan.check_eq_commit {α ρ : Type} {x : Except TaskError α} {next : α → Plan ρ} {result : ρ} :
    Plan.check x next = .commit m result ↔ ∃ a, x = .ok a ∧ next a = .commit m result := by
  cases x with
  | error => simp [Plan.check]
  | ok => simp [Plan.check]

/-! ### Edited snapshots -/

namespace Tree

variable (t : Tree) (r : Resource) (k : String) (tr : Option Trigger) (a : Attempt)

@[simp] theorem setResource_taskTriggers : (t.setResource r).taskTriggers = t.taskTriggers := rfl
@[simp] theorem setTrigger_resources : (t.setTrigger k tr).resources = t.resources := rfl
@[simp] theorem setAttempt_resources : (t.setAttempt a).resources = t.resources := rfl
@[simp] theorem setAttempt_taskTriggers : (t.setAttempt a).taskTriggers = t.taskTriggers := rfl
@[simp] theorem setAttempt_attempts : (t.setAttempt a).attempts = t.attempts.put a.id a := rfl
@[simp] theorem setAttempts_nil : t.setAttempts [] = t := rfl
@[simp] theorem setAttempts_cons (as : List Attempt) : t.setAttempts (a :: as) = (t.setAttempt a).setAttempts as := rfl

theorem setAttempts_taskTriggers (t : Tree) (attempts : List Attempt) :
    (t.setAttempts attempts).taskTriggers = t.taskTriggers := by
  induction attempts generalizing t with
  | nil => rfl
  | cons a _ ih =>
    rw [setAttempts_cons, ih]
    rfl

@[simp] theorem setResource_resources_get (k' : String) :
    (t.setResource r).resources.get k' = if k' = r.metadata.id then some r else t.resources.get k' :=
  Table.get_put _ _ _ _

@[simp] theorem setTrigger_taskTriggers_get (k' : String) :
    (t.setTrigger k tr).taskTriggers.get k' = if k' = k then tr else t.taskTriggers.get k' :=
  Table.get_set _ _ _ _

theorem setResource_domain {r₀ : Resource} (hr : t.resources.get r.metadata.id = some r₀) (k' : String)
    (h : (t.setResource r).resources.has k' = true) : t.resources.has k' = true := by
  rw [Table.has, setResource_resources_get] at h
  by_cases hk : k' = r.metadata.id
  · rw [Table.has, hk, hr, Option.isSome_some]
  · rw [if_neg hk] at h
    exact h

end Tree

theorem resourceWrite_trigger_setTrigger {t : Tree} {k : String} {tr : Option Trigger} {r : Resource}
    {ready : Bool} (hid : r.metadata.id = k) : (resourceWrite now (t.setTrigger k tr) r ready).trigger = tr := by
  simp [resourceWrite, hid]

/-! ### Ids are kept -/

@[simp] theorem touchResource_id (now : Int) (r : Resource) (change : Status → Status) :
    (touchResource now r change).metadata.id = r.metadata.id := rfl

@[simp] theorem touchResource_generation (now : Int) (r : Resource) (change : Status → Status) :
    (touchResource now r change).metadata.generation = r.metadata.generation := rfl

@[simp] theorem Resource.release_metadata (r : Resource) (state : AttemptState) :
    (r.release state).metadata = r.metadata := rfl

@[simp] theorem Attempt.finish_id (a : Attempt) (state : AttemptState) (summary : String) (now : Int) :
    (a.finish state summary now).id = a.id := rfl

@[simp] theorem Attempt.finish_taskId (a : Attempt) (state : AttemptState) (summary : String) (now : Int) :
    (a.finish state summary now).taskId = a.taskId := rfl

@[simp] theorem Attempt.finish_resourceVersion (a : Attempt) (state : AttemptState) (summary : String) (now : Int) :
    (a.finish state summary now).resourceVersion = a.resourceVersion + 1 := rfl

section NoteFailure

variable (ctx : Context) (now : Int) (r : Resource) (a : Attempt)

@[simp] theorem Attempt.noteFailure_id : (a.noteFailure ctx now r).id = a.id := by
  unfold Attempt.noteFailure
  split <;> rfl

@[simp] theorem Attempt.noteFailure_taskId : (a.noteFailure ctx now r).taskId = a.taskId := by
  unfold Attempt.noteFailure
  split <;> rfl

@[simp] theorem Attempt.noteFailure_resourceVersion : (a.noteFailure ctx now r).resourceVersion = a.resourceVersion := by
  unfold Attempt.noteFailure
  split <;> rfl

end NoteFailure

theorem Mutation.Controls.none {call : Call} {reads : Reads} (hclose : m.cancellations = [])
    (hreopen : m.reopenTaskIds = []) (hreceipts : m.controlReceipts = []) : m.Controls now call reads :=
  .plain hclose hreopen (by simp [hreceipts])

section One

variable {ctx : Context} {now : Int} {call : Call} {reads : Reads} {m : Mutation} {k : String} {r : Resource}
  {tr : Option Trigger} {w : TaskWrite}

/-- One fenced Task that changes lawfully is a lawful commit. -/
theorem Mutation.Lawful.one (htask : reads.snapshot.task k = some (r, tr)) (hfence : r.fence ∈ m.fences)
    (htasks : m.tasks = [w]) (hid : w.resource.metadata.id = k) (tr' : Option Trigger) (htrigger : w.trigger = tr')
    (hattempts : ∀ a ∈ m.attempts, a.taskId = k) (hcontrols : m.Controls now call reads)
    (hchange : Change ctx now call reads r tr w.resource tr' m.attempts m.admissions) :
    m.Lawful ctx now call reads := by
  subst htrigger
  have hfilter : (m.attempts.filter fun a => a.taskId == k) = m.attempts :=
    List.filter_eq_self.mpr fun a ha => by simp [hattempts a ha]
  refine ⟨by simp [htasks], ?_, ?_, ?_, by simp [htasks], hcontrols⟩
  · intro w' hw'
    rw [htasks, List.mem_singleton] at hw'
    subst hw'
    left
    rw [hid, hfilter]
    exact ⟨r, tr, htask, hfence, Or.inl hchange⟩
  · intro a ha
    exact Or.inl ⟨w, by simp [htasks], by rw [hid, hattempts a ha]⟩
  · intro _
    refine ⟨w, by simp [htasks], Or.inr ⟨r, tr, ?_⟩⟩
    rw [hid, hfilter]
    exact ⟨htask, hchange⟩

variable {scope : Store.Scope} {t : Tree}

variable {s : Store} {base : Tree}

theorem Store.WellFormed.snapshot_attemptId (hs : s.WellFormed) :
    ∀ id a, (s.readTaskContext scope).attempts.get id = some a → a.id = id :=
  fun id a h => hs.attemptId id a (Store.attempts_of_readTaskContext h)

theorem Store.WellFormed.ne_empty (hs : s.WellFormed) (htask : s.task k = some (r, tr)) : k ≠ "" := by
  rintro rfl
  rw [hs.taskNonempty] at htask
  cases htask

/-- The mutation writes the Tasks and attempts that finishing the scope writes. -/
structure Mutation.Finishes (m : Mutation) (now : Int) (scope : MutationScope) (t : Tree) : Prop where
  fences : m.fences = (finishResourceMutationScope now scope t).fences
  tasks : m.tasks = (finishResourceMutationScope now scope t).tasks
  attempts : m.attempts = (finishResourceMutationScope now scope t).attempts

/-- At most one attempt of the Task `k`, with a raised version. -/
def RaisedFrom (base : Table String Attempt) (k : String) (attempts : List Attempt) : Prop :=
  attempts = [] ∨ ∃ a a', attempts = [a'] ∧ base.get a'.id = some a ∧ a.resourceVersion ≠ a'.resourceVersion ∧
    a'.taskId = k

theorem RaisedFrom.one {base : Table String Attempt} {a a' : Attempt} (ha : base.get a.id = some a)
    (htask : a.taskId = k) (hid : a'.id = a.id) (hversion : a.resourceVersion < a'.resourceVersion)
    (htask' : a'.taskId = a.taskId) : RaisedFrom base k [a'] :=
  Or.inr ⟨a, a', rfl, by rw [hid]; exact ha, hversion.ne, htask'.trans htask⟩

theorem RaisedFrom.filter {base : Table String Attempt} {attempts : List Attempt} (h : RaisedFrom base k attempts) (k' : String) :
    (attempts.filter fun a => a.taskId == k') = if k' = k then attempts else [] := by
  rcases h with rfl | ⟨-, a, rfl, -, -, rfl⟩
  · simp
  · by_cases hk : k' = a.taskId
    · simp [hk]
    · simp [hk, Ne.symm hk]

theorem RaisedFrom.raised {attempts : List Attempt} {ks : List String} (h : RaisedFrom base.attempts k attempts)
    (hkeyed : ∀ id a, base.attempts.get id = some a → a.id = id) (hk : k ∈ ks) :
    raisedAttempts base.attempts (base.setAttempts attempts).attempts ks = attempts := by
  rcases h with rfl | ⟨a, a', rfl, hold, hversion, htaskId⟩
  · exact raisedAttempts_self hkeyed
  · refine raisedAttempts_put hkeyed ?_ (by rw [htaskId]; exact hk)
    rw [hold, Option.map_some]
    simpa using hversion

theorem writes_ids {ks : List String} (hids : ∀ k ∈ ks, ∀ r, t.resources.get k = some r → r.metadata.id = k) :
    ((ks.filterMap fun k => (t.resources.get k).map fun r => resourceWrite now t r (isRunnableOnPassiveResync now t r)).map
      fun w => w.resource.metadata.id) = ks.filter fun k => t.resources.has k := by
  rw [List.map_filterMap, ← List.filterMap_eq_filter]
  refine List.filterMap_congr fun k hk => ?_
  cases hr : t.resources.get k with
  | none => simp [Table.has, hr, Option.guard]
  | some r => simpa [Table.has, hr, resourceWrite, Option.guard] using hids k hk r hr

/-- An operation that settles or edits the Task `k`, ends or notes at most one of its attempts, and may
edit other tracked Tasks. The snapshot `base` shows the stored Tasks up to data outside their fence. -/
theorem Mutation.Lawful.settles {scope : MutationScope} (attempts : List Attempt)
    (hbase : ∀ k' ∈ scope.writeTaskIds, ∀ r₀, base.resources.get k' = some r₀ → r₀.metadata.id = k' ∧
      ∃ r tr, reads.snapshot.task k' = some (r, tr) ∧ r₀.fence = r.fence)
    (hkeyed : ∀ id a, base.attempts.get id = some a → a.id = id) (htracks : scope.Tracks base)
    (hdomain : ∀ k', t.resources.has k' = true → base.resources.has k' = true) (hk : k ∈ scope.writeTaskIds)
    (hown : ∃ r', t.resources.get k = some r')
    (hids : ∀ k' ∈ scope.writeTaskIds, ∀ r', t.resources.get k' = some r' → r'.metadata.id = k')
    (hm : m.Finishes now scope t)
    (hattempts : t.attempts = (base.setAttempts attempts).attempts) (hraised : RaisedFrom base.attempts k attempts)
    (hcontrols : m.Controls now call reads)
    (hchange : ∀ k' ∈ scope.writeTaskIds, ∀ r' r tr, t.resources.get k' = some r' →
      reads.snapshot.task k' = some (r, tr) →
        Change ctx now call reads r tr r' (t.taskTriggers.get k') (if k' = k then attempts else []) m.admissions ∨
        k' ≠ k ∧ Aside now call reads r tr r' (t.taskTriggers.get k')) :
    m.Lawful ctx now call reads := by
  obtain ⟨hfences, htasks, hwritten⟩ := hm
  rw [htracks.finish hdomain] at hfences htasks hwritten
  have hattempts' : m.attempts = attempts := by
    have hlist := hraised.raised hkeyed hk
    rw [← hattempts] at hlist
    exact hwritten.trans hlist
  -- Every write is the edited row of a tracked Task.
  have hwrite : ∀ w ∈ m.tasks, ∃ k' ∈ scope.writeTaskIds, w.resource.metadata.id = k' ∧
      t.resources.get k' = some w.resource ∧ w.trigger = t.taskTriggers.get k' := by
    intro w hw
    rw [htasks, List.mem_filterMap] at hw
    obtain ⟨k', hk', hw⟩ := hw
    obtain ⟨r', hr', rfl⟩ := Option.map_eq_some_iff.mp hw
    have hid := hids k' hk' r' hr'
    exact ⟨k', hk', hid, hr', congrArg t.taskTriggers.get hid⟩
  have hstored : ∀ k' ∈ scope.writeTaskIds, ∀ r', t.resources.get k' = some r' → ∃ r₀ r tr,
      base.resources.get k' = some r₀ ∧ r₀.metadata.id = k' ∧ reads.snapshot.task k' = some (r, tr) ∧ r₀.fence = r.fence := by
    intro k' hk' r' hr'
    obtain ⟨r₀, hr₀⟩ := Option.isSome_iff_exists.mp (hdomain k' (by rw [Table.has, hr', Option.isSome_some]))
    obtain ⟨hid, r, tr, htask, hfence⟩ := hbase k' hk' r₀ hr₀
    exact ⟨r₀, r, tr, hr₀, hid, htask, hfence⟩
  obtain ⟨own, hown⟩ := hown
  obtain ⟨w, hmem, rfl⟩ : ∃ w ∈ m.tasks, w.resource = own := by
    rw [htasks]
    exact ⟨_, List.mem_filterMap.mpr ⟨k, hk, by rw [hown, Option.map_some]⟩, rfl⟩
  have hid := hids k hk _ hown
  refine ⟨?_, ?_, ?_, ?_, fun hnone => absurd (hnone ▸ hmem) List.not_mem_nil, hcontrols⟩
  · rw [htasks, writes_ids hids]
    exact List.Nodup.filter _ htracks.nodup
  · intro w hw
    obtain ⟨k', hk', hid', hr', htrigger⟩ := hwrite w hw
    obtain ⟨r₀, r, tr, hr₀, hid₀, htask, hfence⟩ := hstored k' hk' _ hr'
    left
    rw [hid', hattempts', hraised.filter, htrigger]
    refine ⟨r, tr, htask, ?_, ?_⟩
    · rw [hfences, ← hfence]
      exact htracks.fence_mem hk' hr₀ hid₀
    · exact (hchange k' hk' _ r tr hr' htask).imp_right fun h => ⟨if_neg h.1, h.2⟩
  · intro a ha
    refine Or.inl ⟨w, hmem, ?_⟩
    rw [hattempts'] at ha
    rcases hraised with rfl | ⟨-, a', rfl, -, -, htaskId⟩
    · cases ha
    · rw [List.mem_singleton.mp ha, htaskId, hid]
  · intro _
    obtain ⟨-, r, tr, -, -, htask, -⟩ := hstored k hk _ hown
    obtain ⟨k', -, hid', -, htrigger⟩ := hwrite w hmem
    obtain rfl : k = k' := hid.symm.trans hid'
    refine ⟨w, hmem, Or.inr ⟨r, tr, ?_⟩⟩
    rw [hid, hattempts', hraised.filter, htrigger]
    exact ⟨htask, (hchange k hk _ r tr hown htask).resolve_right fun h => h.1 rfl⟩

theorem Mutation.Lawful.scoped {scope : MutationScope} (htask : reads.snapshot.task k = some (r, tr))
    (hr : base.resources.get k = some r) (hown : r.metadata.id = k)
    (hkeyed : ∀ id a, base.attempts.get id = some a → a.id = id)
    (htracks : scope.Tracks base) (hwrite : scope.writeTaskIds = [k])
    (hm : m.Finishes now scope t)
    (r' : Resource) (attempts : List Attempt) (hid : r'.metadata.id = k)
    (hresources : t.resources = (base.setResource r').resources)
    (hattempts : t.attempts = (base.setAttempts attempts).attempts) (hraised : RaisedFrom base.attempts k attempts)
    (hcontrols : m.Controls now call reads)
    (hchange : Change ctx now call reads r tr r' (t.taskTriggers.get k) attempts m.admissions) :
    m.Lawful ctx now call reads := by
  have hr' : t.resources.get k = some r' := by
    rw [hresources, Tree.setResource_resources_get, if_pos hid.symm]
  have honly : ∀ k' ∈ scope.writeTaskIds, k' = k := by
    intro k' hk'
    rwa [hwrite, List.mem_singleton] at hk'
  refine Mutation.Lawful.settles attempts ?_ hkeyed htracks ?_ (by simp [hwrite]) ⟨r', hr'⟩ ?_ hm hattempts hraised
    hcontrols ?_
  · intro k' hk' r₀ hr₀
    obtain rfl := honly k' hk'
    rw [hr] at hr₀
    cases hr₀
    exact ⟨hown, r, tr, htask, rfl⟩
  · intro k' hk'
    rw [hresources] at hk'
    exact Tree.setResource_domain _ _ (hid ▸ hr) k' hk'
  · intro k' hk' r'' hr''
    obtain rfl := honly k' hk'
    rw [hr'] at hr''
    cases hr''
    exact hid
  · intro k' hk' r'' r₁ tr₁ hr'' htask₁
    obtain rfl := honly k' hk'
    rw [hr'] at hr''
    rw [htask] at htask₁
    cases hr''
    cases htask₁
    rw [if_pos rfl]
    exact Or.inl hchange

theorem MutationScope.finish_single (hs : reads.snapshot.WellFormed)
    (hr : (reads.snapshot.readTaskContext scope).resources.get k = some r) (r' : Resource) (hid : r'.metadata.id = k)
    (hresources : t.resources = ((reads.snapshot.readTaskContext scope).setResource r').resources) :
    (finishResourceMutationScope now
      (beginResourceMutationScopeForTasks (reads.snapshot.readTaskContext scope) [k]) t).tasks =
      [resourceWrite now t r' (isRunnableOnPassiveResync now t r')] := by
  have htask := Store.task_of_resources_get hr
  obtain ⟨htracks, hwrite, -⟩ := MutationScope.beginFor_eq hr (hs.taskId _ _ _ htask) (hs.ne_empty htask)
  rw [htracks.finish (by
    intro k' hk'
    rw [hresources] at hk'
    exact Tree.setResource_domain _ _ (hid ▸ hr) k' hk'), hwrite]
  simp [hresources, hid]

theorem Mutation.Lawful.scopedFor (hs : reads.snapshot.WellFormed)
    (hr : (reads.snapshot.readTaskContext scope).resources.get k = some r)
    (hm : m.Finishes now (beginResourceMutationScopeForTasks (reads.snapshot.readTaskContext scope) [k]) t)
    (r' : Resource) (attempts : List Attempt) (hid : r'.metadata.id = k)
    (hresources : t.resources = ((reads.snapshot.readTaskContext scope).setResource r').resources)
    (hattempts : t.attempts = ((reads.snapshot.readTaskContext scope).setAttempts attempts).attempts)
    (hraised : RaisedFrom (reads.snapshot.readTaskContext scope).attempts k attempts)
    (hcontrols : m.Controls now call reads)
    (hchange : Change ctx now call reads r ((reads.snapshot.readTaskContext scope).taskTriggers.get k) r'
      (t.taskTriggers.get k) attempts m.admissions) : m.Lawful ctx now call reads := by
  have htask := Store.task_of_resources_get hr
  have hown := hs.taskId _ _ _ htask
  obtain ⟨htracks, hwrite, -⟩ := MutationScope.beginFor_eq hr hown (hs.ne_empty htask)
  exact Mutation.Lawful.scoped htask hr hown hs.snapshot_attemptId htracks hwrite hm r' attempts hid hresources
    hattempts hraised hcontrols hchange

end One

/-! ### Recording and annotating -/

section Operations

variable {ctx : Context} {now : Int} {call : Call} {reads : Reads} {m : Mutation}

variable {taskId k summary sessionId leaseUuid : String} {scope : Store.Scope} {r : Resource} {a : Attempt}
  {result : Bool} {claim : Claim}

theorem recordAppTaskTrigger_lawful {e : Event} {result : RecordResult}
    (hs : reads.snapshot.WellFormed)
    (h : recordAppTaskTrigger ctx now reads taskId e = .commit m result) :
    m.Lawful ctx now (.record taskId e) reads := by
  unfold recordAppTaskTrigger at h
  simp only at h
  split at h
  · cases h
  · rename_i r hr
    have htask := Store.task_of_resources_get hr
    have hown := hs.taskId _ _ _ htask
    split_ifs at h with hclosed hrecent hnew
    cases h
    refine Mutation.Lawful.one htask (by simp) rfl hown _ (resourceWrite_trigger_setTrigger hown) (by simp)
      (.none rfl rfl rfl) ?_
    exact Change.record e _ (by rw [hown]) (by rw [hown]; simpa using hclosed) (by simpa using hrecent)
      (by rw [hown]; simpa using hnew)

variable {s : Store} {reason : String} {recovery : AttemptRecovery} {nowMs : Int} {generation : Nat}
  {workspace : Workspace} {tr : Option Trigger}

/-- The running attempt found is the Task's current one. -/
theorem runningAttempt_eq_some (hs : s.WellFormed)
    (h : runningAttempt (s.readTaskContext scope) k = some (r, a)) :
    (s.readTaskContext scope).resources.get k = some r ∧ (s.readTaskContext scope).attempts.get a.id = some a ∧
      s.attempts.get a.id = some a ∧ a.taskId = r.metadata.id ∧ a.state = .running ∧
      r.status.currentAttemptId = some a.id := by
  simp only [runningAttempt, Option.bind_eq_some_iff] at h
  obtain ⟨_, hr, h⟩ := h
  split at h
  · simp only [Option.map_eq_some_iff, Prod.mk.injEq] at h
    obtain ⟨_, ha, rfl, rfl⟩ := h
    simp only [currentResourceAttempt, Option.filter_eq_some_iff, Option.bind_eq_some_iff, decide_eq_true_eq] at ha
    obtain ⟨⟨_, hcur, hget⟩, hstate⟩ := ha
    have hid := hs.snapshot_attemptId _ _ hget
    subst hid
    have hstored := Store.attempts_of_readTaskContext hget
    have htask := Store.task_of_resources_get hr
    obtain ⟨-, b, hb, hbtask, -⟩ := (hs.executes _ _ _ htask).current _ hcur
    rw [hstored] at hb
    cases hb
    exact ⟨hr, hget, hstored, hbtask, hstate, hcur⟩
  · cases h

variable (hs : reads.snapshot.WellFormed)

include hs

theorem releaseMutation_lawful (h : runningAttempt (reads.snapshot.readTaskContext scope) k = some (r, a))
    {attemptSummary : String} {summary : Option String} (hcall : call.releases = true)
    (hreason : reason ≠ "owner-stopped") :
    (releaseMutation now (reads.snapshot.readTaskContext scope) k r a attemptSummary reason summary).Lawful
      ctx now call reads := by
  obtain ⟨hr, hbase, hstored, htaskId, hstate, hcur⟩ := runningAttempt_eq_some hs h
  have hown := hs.taskId _ _ _ (Store.task_of_resources_get hr)
  refine Mutation.Lawful.scopedFor hs hr ⟨rfl, rfl, rfl⟩ (requeuedResource now summary r)
    [releasedAttempt now attemptSummary reason a] hown rfl rfl ?_ (.none rfl rfl rfl) ?_
  · exact .one hbase (htaskId.trans hown) rfl (Nat.lt_add_of_pos_right Nat.two_pos) rfl
  · have htrigger : (releaseTree now (reads.snapshot.readTaskContext scope) k r a attemptSummary reason
        summary).taskTriggers.get k = restoreAttemptEvents r a
          ((reads.snapshot.readTaskContext scope).taskTriggers.get k) now := by
      simp [releaseTree]
    rw [htrigger]
    exact Change.release a attemptSummary reason summary hcall ⟨hstored, htaskId, hstate, hcur⟩ hreason

theorem releaseInterruptedAppTaskAttempt_lawful
        (h : releaseInterruptedAppTaskAttempt ctx now reads recovery summary = .commit m result) :
    m.Lawful ctx now (.releaseInterrupted recovery summary) reads := by
  unfold releaseInterruptedAppTaskAttempt at h
  simp only at h
  split at h
  · cases h
  · rename_i r a hrun
    split at h
    · cases h
    · cases h
      exact releaseMutation_lawful hs hrun rfl (by decide)

theorem releaseTerminalSessionExpiredAppTaskAttempt_lawful {status : TerminalStatus}
    {activity : Option SessionActivity}
    (h : releaseTerminalSessionExpiredAppTaskAttempt now reads recovery sessionId status summary nowMs activity
      = .commit m result) :
    m.Lawful ctx now (.releaseTerminal recovery sessionId status summary nowMs activity) reads := by
  unfold releaseTerminalSessionExpiredAppTaskAttempt at h
  simp only at h
  split at h
  · cases h
  · rename_i r a hrun
    split at h
    · cases h
    · cases h
      exact releaseMutation_lawful hs hrun rfl (by decide)

theorem releaseLateTerminalWorkflowAppTaskAttempt_lawful 
    (h : releaseLateTerminalWorkflowAppTaskAttempt now reads taskId generation sessionId summary = .commit m result) :
    m.Lawful ctx now (.releaseLate taskId generation sessionId summary) reads := by
  unfold releaseLateTerminalWorkflowAppTaskAttempt at h
  simp only at h
  split at h
  · cases h
  · rename_i r a hrun
    split at h
    · cases h
    · cases h
      exact releaseMutation_lawful hs hrun rfl (by decide)

theorem releaseStaleAppTaskResult_lawful
    {result : StaleRelease} (h : releaseStaleAppTaskResult now reads claim summary = .commit m result) :
    m.Lawful ctx now (.releaseStale claim summary) reads := by
  unfold releaseStaleAppTaskResult at h
  simp only at h
  split at h
  · cases h
  · rename_i r hr
    have htask := Store.task_of_resources_get hr
    have hown := hs.taskId _ _ _ htask
    split at h
    · cases h
    · rename_i a ha
      have hid := hs.snapshot_attemptId _ _ ha
      split at h
      · cases h
      · rename_i hcurrent
        push Not at hcurrent
        obtain ⟨hcur, hstate, htaskId, -⟩ := hcurrent
        cases h
        refine Mutation.Lawful.one htask (by simp) rfl hown (restoreAttemptEvents r a
          ((reads.snapshot.readTaskContext { taskIds := [claim.taskId] }).taskTriggers.get claim.taskId) now) ?_ ?_
          (.none rfl rfl rfl) ?_
        · simp [resourceWrite, releaseTree, requeuedResource, hown]
        · simpa [releasedAttempt] using htaskId
        · exact Change.release a summary _ none rfl
            ⟨by rw [hid]; exact Store.attempts_of_readTaskContext ha, by rw [hown]; exact htaskId, hstate,
              by rw [hid]; exact hcur⟩ (by decide)

/-- A claim that is honoured still holds its Task. -/
theorem claimedAttempt_eq_some (h : claimedAttempt (reads.snapshot.readTaskContext scope) claim = some (r, a)) :
    (reads.snapshot.readTaskContext scope).resources.get claim.taskId = some r ∧
      (reads.snapshot.readTaskContext scope).attempts.get a.id = some a ∧ claim.Holds reads r a := by
  simp only [claimedAttempt, matchingClaimAttempt] at h
  split at h
  · rename_i r' a' hr ha
    split at h
    · rename_i hmatch
      cases h
      obtain ⟨hcur, hstate, hgeneration, -, -⟩ := hmatch
      have hid := hs.snapshot_attemptId _ _ ha
      have hstored := Store.attempts_of_readTaskContext ha
      have htask := Store.task_of_resources_get hr
      obtain ⟨-, b, hb, hbtask, -⟩ := (hs.executes _ _ _ htask).current _ hcur
      rw [hstored] at hb
      cases hb
      rw [← hid] at ha hstored hcur
      exact ⟨hr, ha, hs.taskId _ _ _ htask, hid.symm, hgeneration, hstored, hbtask, hstate, hcur⟩
    · cases h
  · cases h

theorem matchingTaskAttempt_eq_some
    (h : matchingTaskAttempt (reads.snapshot.readTaskContext scope) claim = some (r, a)) :
    (reads.snapshot.readTaskContext scope).resources.get claim.taskId = some r ∧
      (reads.snapshot.readTaskContext scope).attempts.get a.id = some a ∧ claim.Holds reads r a ∧
      r.metadata.generation = claim.generation := by
  simp only [matchingTaskAttempt, Option.filter_eq_some_iff, decide_eq_true_eq] at h
  simpa only [and_assoc] using And.intro (claimedAttempt_eq_some hs h.1) h.2

theorem stopAppTaskAttempt_lawful {attemptId : String} {expectedGeneration : Nat} {result : Bool × List String}
    (h : stopAppTaskAttempt now reads taskId attemptId expectedGeneration reason = .commit m result) :
    m.Lawful ctx now (.stop taskId attemptId expectedGeneration reason) reads := by
  unfold stopAppTaskAttempt at h
  simp only at h
  split at h
  · rename_i r attempt hr hlate
    split_ifs at h with hmismatch hstopped hcurrent
    split at h
    · cases h
    · rename_i a ha
      push Not at hmismatch hcurrent
      obtain ⟨_, hgeneration⟩ := hmismatch
      have hid := hs.snapshot_attemptId _ _ ha
      have hstored := Store.attempts_of_readTaskContext ha
      have htask := Store.task_of_resources_get hr
      have hown := hs.taskId _ _ _ htask
      obtain ⟨-, b, hb, hbtask, hbstate⟩ := (hs.executes _ _ _ htask).current _ hcurrent.1
      rw [hstored] at hb
      cases hb
      cases h
      refine Mutation.Lawful.scopedFor hs hr ⟨rfl, rfl, rfl⟩ (stoppedResource now expectedGeneration reason
        (taskInputAdmissionKeys attempt.events attempt.continuedInputKeys) r)
        [{ a.finish .interrupted reason now with failureReason := some "owner-stopped" }] hown rfl rfl ?_
        (.none rfl rfl rfl) ?_
      · exact .one (by rw [hid]; exact ha) (hbtask.trans hown) rfl (Nat.lt_succ_self _) rfl
      · refine Change.stop a expectedGeneration reason _ (by rw [hown, hid])
          ⟨by rw [hid]; exact hstored, hbtask, hbstate, by rw [hid]; exact hcurrent.1⟩ ?_
        intro hsame
        have : attempt = a := by
          rw [Store.readAttempt, hsame, hstored] at hlate
          exact (Option.some.inj hlate).symm
        subst this
        exact ⟨hgeneration.symm, rfl⟩
  · cases h

theorem recordAppTaskAttemptWorkspace_lawful
    (h : recordAppTaskAttemptWorkspace now reads claim workspace = .commit m result) :
    m.Lawful ctx now (.workspace claim workspace) reads := by
  unfold recordAppTaskAttemptWorkspace at h
  simp only at h
  split at h
  · cases h
  · rename_i r a hmatch
    obtain ⟨hr, ha, ⟨hown, hid, -, hruns⟩, -⟩ := matchingTaskAttempt_eq_some hs hmatch
    cases h
    refine Mutation.Lawful.scopedFor hs hr ⟨rfl, rfl, rfl⟩
      (touchResource now r fun st => { st with workspaceAttemptId := some claim.attemptId })
      [{ a with resourceVersion := a.resourceVersion + 1, workspace := some workspace }] hown rfl rfl ?_
      (.none rfl rfl rfl) ?_
    · exact .one ha (hruns.task.trans hown) rfl (Nat.lt_succ_self _) rfl
    · rw [hid]
      exact Change.workspace claim a workspace rfl hruns

omit hs in
/-- A note on one attempt, with no Task written, is lawful. -/
theorem Mutation.Lawful.annotation {a' : Attempt} (htasks : m.tasks = [])
    (hattempts : m.attempts = [a']) (htask : reads.snapshot.task a'.taskId = some (r, tr))
    (hfence : ∃ f ∈ m.fences, f.taskId = a'.taskId ∧ f.resourceVersion = r.metadata.resourceVersion)
    (hstored : a.RunsFor reads r ∨ reads.late.attempts.get a.id = some a ∧ reads.late = reads.snapshot)
    (hnote : a.Annotates a') (hadmissions : m.admissions = []) (hcall : call.taskless = true)
    (hcontrols : m.Controls now call reads) :
    m.Lawful ctx now call reads := by
  refine ⟨by simp [htasks], by simp [htasks], ?_, fun h => (h.elim (absurd htasks) (absurd hadmissions)), fun _ => hcall, hcontrols⟩
  intro b hb
  rw [hattempts, List.mem_singleton] at hb
  subst hb
  exact Or.inr ⟨htasks, hattempts, a, r, tr, htask, hfence, hstored, hnote⟩

omit hs in
theorem attemptMutation_lawful {sessionId : Option String} {at_ : Int}
    (hsnapshot : reads.snapshot = s) (htask : s.task k = some (r, tr))
    (hown : r.metadata.id = k) (hruns : a.RunsFor reads r) (hcall : call.taskless = true) :
    (attemptMutation r (leasedAttempt leaseUuid sessionId at_ a)).Lawful ctx now call reads := by
  subst hsnapshot
  have htaskId : (leasedAttempt leaseUuid sessionId at_ a).taskId = k := hruns.task.trans hown
  refine Mutation.Lawful.annotation rfl rfl (by rw [htaskId]; exact htask) ?_ (Or.inl hruns) ⟨rfl⟩ rfl hcall
    (.none rfl rfl rfl)
  exact ⟨r.fence, by simp [attemptMutation], by rw [htaskId]; exact hown, rfl⟩

theorem renewAppTaskAttemptLease_lawful (h : renewAppTaskAttemptLease reads claim nowMs leaseUuid = .commit m result) :
    m.Lawful ctx now (.renewLease claim nowMs leaseUuid) reads := by
  unfold renewAppTaskAttemptLease at h
  simp only at h
  split at h
  · cases h
  · rename_i r a hmatch
    obtain ⟨hr, -, hown, -, -, hruns⟩ := claimedAttempt_eq_some hs hmatch
    cases h
    exact attemptMutation_lawful rfl (Store.task_of_resources_get hr) hown hruns rfl

theorem recordAppTaskAttemptSession_lawful
        (h : recordAppTaskAttemptSession now reads claim sessionId leaseUuid = .commit m result) :
    m.Lawful ctx now (.session claim sessionId leaseUuid) reads := by
  unfold recordAppTaskAttemptSession at h
  simp only at h
  split at h
  · cases h
  · rename_i r a hmatch
    obtain ⟨hr, -, hown, -, -, hruns⟩ := claimedAttempt_eq_some hs hmatch
    split at h
    · cases h
    · cases h
      exact attemptMutation_lawful rfl (Store.task_of_resources_get hr) hown hruns rfl

theorem associateAppTaskSession_lawful {attemptId : Option String} {result : SessionAssociation}
    (h : associateAppTaskSession now reads taskId generation attemptId sessionId leaseUuid = .commit m result) :
    m.Lawful ctx now (.associate taskId generation attemptId sessionId leaseUuid) reads := by
  unfold associateAppTaskSession at h
  simp only at h
  split at h
  · cases h
  · rename_i r hr
    split at h
    · cases h
    · rename_i r' a hrun
      obtain ⟨hr', -, hstored, htaskId, hstate, hcur⟩ := runningAttempt_eq_some hs hrun
      rw [hr] at hr'
      cases hr'
      have htask := Store.task_of_resources_get hr
      split_ifs at h
      cases h
      exact attemptMutation_lawful rfl htask (hs.taskId _ _ _ htask) ⟨hstored, htaskId, hstate, hcur⟩ rfl

omit hs in
theorem recordReleasedAppTaskWorkspace_lawful (hlate : reads.late.WellFormed) (hatomic : reads.late = reads.snapshot)
    {result : Unit}
    (h : recordReleasedAppTaskWorkspace reads claim workspace = .commit m result) :
    m.Lawful ctx now (.releasedWorkspace claim workspace) reads := by
  unfold recordReleasedAppTaskWorkspace at h
  simp only at h
  split at h
  · rename_i r a hr ha
    split at h
    · cases h
    · rename_i hmatch
      push Not at hmatch
      cases h
      have htask := Store.task_of_resources_get hr
      have hid := hlate.attemptId _ _ ha
      refine Mutation.Lawful.annotation rfl rfl (by rw [hmatch.1]; exact htask) ?_
        (Or.inr ⟨by rw [hid]; exact ha, hatomic⟩) ⟨rfl⟩ rfl rfl (.none rfl rfl rfl)
      exact ⟨_, List.mem_singleton.mpr rfl, hmatch.1.symm, rfl⟩
  · cases h

end Operations

end MayAgent
