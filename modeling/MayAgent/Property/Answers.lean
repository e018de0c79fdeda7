import MayAgent.Proof.Histories

/-!
# Answers

An admitted input is answered at most once, by the accepted outcome of an attempt of its own Task, and
the answer never changes. Admissions lie outside the fenced Task row; what protects them is that every
operation writes an admission only together with a change of the Task it belongs to.
-/

namespace MayAgent

/-! ### What an operation writes to an admission -/

/-- The admission written under a key by a change of the Task `r`, with the attempts of that change. -/
inductive Admits (call : Call) (reads : Reads) (r : Resource) (attempts : List Attempt) (key : String)
    (adm : Admission) : Prop
  | fresh (given : ObserveInput) (hcall : call = .observe given) (hnew : reads.snapshot.admissions.get key = none)
      (hopen : adm.resultAttemptId = none) (htask : adm.taskId = r.metadata.id)
  | reports (old : Admission) (hold : reads.late.admissions.get key = some old) (hopen : old.resultAttemptId = none)
      (hsame : adm.taskId = old.taskId ∧ adm.taskGeneration = old.taskGeneration ∧ adm.specHash = old.specHash)
      (hstill : adm.resultAttemptId = none)
  | answers (claim : Claim) (input : CompleteInput) (old : Admission) (a : Attempt) (accepted : AcceptedResult)
      (keys : List String) (hcall : call = .complete claim input) (hold : reads.late.admissions.get key = some old)
      (hopen : old.resultAttemptId = none) (hadm : adm = { old with resultAttemptId := some claim.attemptId })
      (hclaim : claim.taskId = r.metadata.id) (htask : old.taskId = r.metadata.id)
      (hgeneration : old.taskGeneration ≤ a.taskGeneration)
      (hattempts : attempts = [a]) (hid : a.id = claim.attemptId) (hstate : a.state = .completed)
      (hresult : a.acceptedResult = some accepted) (hconverged : accepted.state = .converged)
      (hkeys : accepted.inputKeys = some keys) (hkey : key ∈ keys)

variable {s s' : Store} {key : String} {adm : Admission} {ok : Store → Action → Prop}

theorem outcomeAdmission_eq_some {taskId attemptId key' : String} {generation : Nat} {report : Bool}
    {kind : OutcomeKind}
    (h : outcomeAdmission s taskId generation attemptId report kind key = some (key', adm)) :
    key' = key ∧ ∃ old, s.admissions.get key = some old ∧ old.taskId = taskId ∧ old.taskGeneration ≤ generation ∧
      old.resultAttemptId = none ∧
      (kind = .answer ∧ adm = { old with resultAttemptId := some attemptId } ∨
        kind ≠ .answer ∧ ∃ failure, adm = selectReport s old failure attemptId) := by
  unfold outcomeAdmission at h
  split at h
  · cases h
  · rename_i old hold
    split at h
    · cases h
    · rename_i houtstanding
      simp only [Bool.not_eq_true', Bool.not_eq_false, Admission.outstanding, Bool.and_eq_true, decide_eq_true_eq,
        Option.isNone_iff_eq_none] at houtstanding
      obtain ⟨⟨htask, hgeneration⟩, hopen⟩ := houtstanding
      have hbase : ∀ key₁ adm₁, some (key, adm₁) = some (key', adm) → key₁ = key → key' = key₁ ∧ adm = adm₁ := by
        rintro key₁ adm₁ heq rfl
        cases heq
        exact ⟨rfl, rfl⟩
      cases kind with
      | retain => cases h
      | answer =>
        obtain ⟨rfl, rfl⟩ := hbase key _ h rfl
        exact ⟨rfl, old, hold, htask, hgeneration, hopen, .inl ⟨rfl, rfl⟩⟩
      | progress =>
        dsimp only at h
        split at h
        · cases h
        · obtain ⟨rfl, rfl⟩ := hbase key _ h rfl
          exact ⟨rfl, old, hold, htask, hgeneration, hopen, .inr ⟨by simp, false, rfl⟩⟩
      | failure =>
        dsimp only at h
        split at h
        · cases h
        · obtain ⟨rfl, rfl⟩ := hbase key _ h rfl
          exact ⟨rfl, old, hold, htask, hgeneration, hopen, .inr ⟨by simp, true, rfl⟩⟩

section Writes

variable {ctx : Context} {now : Int} {call : Call} {reads : Reads} {r r' : Resource} {tr tr' : Option Trigger}
  {attempts : List Attempt} {admissions : List (String × Admission)} {key : String} {adm : Admission}

theorem Admits.of_report {a : Option Attempt} {generation : Nat} {attemptId : String} {input : ResultInput}
    {kind : OutcomeKind} {retained : Resource} {keys : List String}
    (houtcome : inputOutcomeAdmissions reads.late r a tr generation attemptId input kind
      = .ok (retained, keys, admissions)) (hkind : kind ≠ .answer) (hadm : (key, adm) ∈ admissions) :
    Admits call reads r attempts key adm := by
  obtain ⟨-, hadmissions, -⟩ := inputOutcomeAdmissions_eq_ok houtcome
  rw [hadmissions, List.mem_filterMap] at hadm
  obtain ⟨_, -, hwrite⟩ := hadm
  obtain ⟨rfl, old, hold, -, -, hopen, ⟨hanswer, -⟩ | ⟨-, _, rfl⟩⟩ := outcomeAdmission_eq_some hwrite
  · exact absurd hanswer hkind
  · exact .reports old hold hopen ⟨rfl, rfl, rfl⟩ hopen

theorem Change.admits (h : Change ctx now call reads r tr r' tr' attempts admissions)
    (hadm : (key, adm) ∈ admissions) : Admits call reads r attempts key adm := by
  cases h with
  | observe given _ _ _ _ _ hcall _ _ _ _ hkey =>
    rw [List.mem_map] at hadm
    obtain ⟨key', hkey', heq⟩ := hadm
    cases heq
    exact .fresh given hcall (hkey key (by simpa using hkey')) rfl rfl
  | adopt _ _ a _ _ _ _ _ _ _ _ _ _ _ houtcome =>
    exact .of_report houtcome (by decide) hadm
  | fail _ a _ _ _ _ _ _ _ _ _ houtcome =>
    exact .of_report houtcome (by decide) hadm
  | report _ a _ _ _ _ _ _ _ _ _ _ houtcome =>
    exact .of_report houtcome (by decide) hadm
  | defer _ a _ _ _ t _ _ _ _ _ _ _ _ _ _ _ hkind houtcome =>
    exact .of_report houtcome hkind hadm
  | complete claim a input _ _ t _ keys _ accepted _ hcall hclaim _ houtcome _ haccepted =>
    obtain ⟨-, hadmissions, -⟩ := inputOutcomeAdmissions_eq_ok houtcome
    rw [hadmissions, List.mem_filterMap] at hadm
    obtain ⟨key', hmem, hwrite⟩ := hadm
    obtain ⟨rfl, old, hold, htask, hle, hopen, ⟨-, rfl⟩ | ⟨hanswer, -⟩⟩ := outcomeAdmission_eq_some hwrite
    · refine .answers claim input old _ accepted keys hcall hold hopen rfl hclaim.own.symm htask ?_ rfl ?_ ?_ ?_ ?_ ?_ hmem
      · rw [settledWorkspace_same]
        exact hle.trans (Nat.le_of_eq hclaim.generation.symm)
      · rw [settledWorkspace_same]
        exact hclaim.attempt.symm
      · rw [settledWorkspace_same]
        rfl
      · rw [settledWorkspace_same]
        rfl
      · rw [haccepted]
        rfl
      · rw [haccepted]
        rfl
    · exact absurd rfl hanswer
  | _ => cases hadm

theorem Created.admits (h : Created ctx now call reads r tr admissions) (hadm : (key, adm) ∈ admissions) :
    adm.taskId = r.metadata.id ∧ adm.resultAttemptId = none ∧
      ∀ old, reads.snapshot.admissions.get key = some old → old.taskId = adm.taskId := by
  obtain ⟨_, _, _, _, _, _, _, _, _, hkey⟩ := h
  rw [List.mem_map] at hadm
  obtain ⟨_, hkey', heq⟩ := hadm
  cases heq
  refine ⟨?_, rfl, fun old => hkey key old (by simpa using hkey')⟩
  rw [noteHumanRequest_id]
  rfl

end Writes

/-! ### What a landing makes of the admissions -/

/-- The admissions of a store belong to stored Tasks, and an answer is the accepted converged result of an
attempt of that Task which names the key in its scope. -/
structure Store.Answered (s : Store) : Prop where
  owner : ∀ key adm, s.admissions.get key = some adm → ∃ r tr, s.task adm.taskId = some (r, tr)
  answer : ∀ key adm id, s.admissions.get key = some adm → adm.resultAttemptId = some id →
    ∃ a accepted keys, s.attempts.get id = some a ∧ a.taskId = adm.taskId ∧ adm.taskGeneration ≤ a.taskGeneration ∧
      a.state = .completed ∧ a.acceptedResult = some accepted ∧ accepted.state = .converged ∧
      accepted.inputKeys = some keys ∧ key ∈ keys

/-- An admission as later operations leave it: it stays with its Task, and so does an answer. -/
structure Admission.Keeps (adm adm' : Admission) : Prop where
  taskId : adm'.taskId = adm.taskId
  taskGeneration : adm'.taskGeneration = adm.taskGeneration
  specHash : adm'.specHash = adm.specHash
  answer : ∀ id, adm.resultAttemptId = some id → adm'.resultAttemptId = some id

theorem Admission.Keeps.refl (adm : Admission) : adm.Keeps adm := ⟨rfl, rfl, rfl, fun _ h => h⟩

theorem Admission.Keeps.trans {a b c : Admission} (h : a.Keeps b) (h' : b.Keeps c) : a.Keeps c :=
  ⟨h'.taskId.trans h.taskId, h'.taskGeneration.trans h.taskGeneration, h'.specHash.trans h.specHash,
    fun id hid => h'.answer id (h.answer id hid)⟩

namespace Landed

variable {ctx : Context} {now : Int} {call : Call} {s : Store} {m : Mutation} {key : String} {adm : Admission}

/-- An admission written by an operation that no other process interrupted: a Task is created for it, or
it is written with a change of a stored Task. -/
theorem admission_written (h : Landed ctx now call (Reads.now s) s m) (hadm : (key, adm) ∈ m.admissions) :
    (s.task adm.taskId = none ∧ adm.resultAttemptId = none ∧
      (∃ w ∈ m.tasks, w.resource.metadata.id = adm.taskId) ∧
      ∀ old, s.admissions.get key = some old → old.taskId = adm.taskId) ∨
    (∃ r tr, s.task r.metadata.id = some (r, tr) ∧ Admits call (Reads.now s) r
      (m.attempts.filter fun a => a.taskId == r.metadata.id) key adm) := by
  obtain ⟨w, hw, ⟨hmissing, hcreated⟩ | ⟨r, tr, hr, hchange⟩⟩ :=
    h.lawful.acts (.inr fun hnone => by rw [hnone] at hadm; cases hadm)
  · have htask : s.task w.resource.metadata.id = none := by
      rw [Store.task, h.accepts.missing _ hmissing, Option.map_none]
    obtain ⟨hid, hopen, hold⟩ := hcreated.admits hadm
    exact .inl ⟨hid ▸ htask, hopen, ⟨w, hw, hid.symm⟩, hold⟩
  · have hid : w.resource.metadata.id = r.metadata.id := (h.sound.taskId _ _ _ hr).symm
    rw [hid] at hr hchange
    exact .inr ⟨r, tr, hr, hchange.admits hadm⟩

theorem admission_keeps (h : Landed ctx now call (Reads.now s) s m) (hs : s.Answered) (landedAt : Int)
    (hold : s.admissions.get key = some adm) :
    ∃ adm', (s.applyMutation landedAt m).admissions.get key = some adm' ∧ adm.Keeps adm' := by
  rw [Store.admissions_applyMutation]
  rcases Table.get_foldl_put_cases s.admissions m.admissions key with ⟨adm', hadm, hget⟩ | ⟨-, hget⟩
  · refine ⟨adm', hget, ?_⟩
    rcases h.admission_written hadm with ⟨hmissing, -, -, howner⟩ | ⟨r, tr, hr, hadmits⟩
    · -- The Task of a stored admission is stored, so it is not created here.
      obtain ⟨r, tr, hr⟩ := hs.owner key adm hold
      rw [howner adm hold, hmissing] at hr
      cases hr
    · cases hadmits with
      | fresh _ _ hnew =>
        have hnone : s.admissions.get key = none := hnew
        rw [hold] at hnone
        cases hnone
      | reports old hold' hopen hsame =>
        have heq : s.admissions.get key = some old := hold'
        rw [hold] at heq
        cases heq
        exact ⟨hsame.1, hsame.2.1, hsame.2.2, fun id hid => by rw [hopen] at hid; cases hid⟩
      | answers _ _ old a _ _ _ hold' hopen hadm' _ _ _ _ hid =>
        have heq : s.admissions.get key = some old := hold'
        rw [hold] at heq
        cases heq
        rw [hadm']
        exact ⟨rfl, rfl, rfl, fun id hid => by rw [hopen] at hid; cases hid⟩
  · exact ⟨adm, hget.trans hold, .refl adm⟩

theorem admission_answered (h : Landed ctx now call (Reads.now s) s m) (landedAt : Int) {id : String}
    (hadm : (key, adm) ∈ m.admissions) (hid : adm.resultAttemptId = some id) :
    ∃ claim input a accepted keys, call = .complete claim input ∧ claim.attemptId = id ∧ claim.taskId = adm.taskId ∧
      (s.applyMutation landedAt m).attempts.get id = some a ∧ a.taskId = adm.taskId ∧
      adm.taskGeneration ≤ a.taskGeneration ∧ a.state = .completed ∧ a.acceptedResult = some accepted ∧
      accepted.state = .converged ∧ accepted.inputKeys = some keys ∧ key ∈ keys := by
  rcases h.admission_written hadm with ⟨-, hopen, -⟩ | ⟨r, _, _, hadmits⟩
  · rw [hopen] at hid
    cases hid
  · cases hadmits with
    | fresh _ _ _ hopen =>
      rw [hopen] at hid
      cases hid
    | reports _ _ _ _ hstill =>
      rw [hstill] at hid
      cases hid
    | answers claim input _ a accepted keys hcall _ _ hadm' hclaim htask hgeneration hattempts hattempt hstate
        hresult hconverged hkeys hkey =>
      rw [hadm'] at hid
      cases hid
      have hstored := h.attempt_written landedAt hattempts
      have hmem : a ∈ m.attempts.filter fun a => a.taskId == r.metadata.id := by simp [hattempts]
      have hown : a.taskId = r.metadata.id := by simpa using (List.mem_filter.mp hmem).2
      rw [hadm']
      exact ⟨claim, input, a, accepted, keys, hcall, rfl, hclaim.trans htask.symm, hattempt ▸ hstored,
        hown.trans htask.symm, hgeneration, hstate, hresult, hconverged, hkeys, hkey⟩

end Landed

/-! ### Runs -/

theorem Store.Answered.of_lineage (hs : s.Answered) (hlineage : Lineage s s')
    (hadm : s.admissions.get key = some adm) :
    (∃ r tr, s'.task adm.taskId = some (r, tr)) ∧ ∀ id, adm.resultAttemptId = some id →
      ∃ a accepted keys, s'.attempts.get id = some a ∧ a.taskId = adm.taskId ∧ adm.taskGeneration ≤ a.taskGeneration ∧
        a.state = .completed ∧ a.acceptedResult = some accepted ∧ accepted.state = .converged ∧
        accepted.inputKeys = some keys ∧ key ∈ keys := by
  constructor
  · obtain ⟨r, tr, hr⟩ := hs.owner key adm hadm
    obtain ⟨r', tr', hr', -⟩ := hlineage.task hr
    exact ⟨r', tr', hr'⟩
  · intro id hid
    obtain ⟨a, accepted, keys, ha, htask, hgeneration, hstate, hresult, hrest⟩ := hs.answer key adm id hadm hid
    obtain ⟨a', ha', hcontinues⟩ := hlineage.attempts id a ha
    have hended : a.state ≠ .running := by rw [hstate]; decide
    exact ⟨a', accepted, keys, ha', hcontinues.task.trans htask, hcontinues.generation ▸ hgeneration,
      (hcontinues.state hended).trans hstate, (hcontinues.accepted hended).trans hresult, hrest⟩

theorem Landed.admission_owner {ctx : Context} {now : Int} {call : Call} {m : Mutation}
    (h : Landed ctx now call (Reads.now s) s m) (hs : s.Answered) (landedAt : Int)
    (hadm : (key, adm) ∈ m.admissions) : ∃ r tr, (s.applyMutation landedAt m).task adm.taskId = some (r, tr) := by
  have hstored : ∀ r tr, s.task adm.taskId = some (r, tr) →
      ∃ r tr, (s.applyMutation landedAt m).task adm.taskId = some (r, tr) := by
    intro r tr hr
    obtain ⟨r', tr', hr', -⟩ := (h.lineage landedAt).task hr
    exact ⟨r', tr', hr'⟩
  rcases h.admission_written hadm with ⟨-, -, ⟨w, hw, hid⟩, -⟩ | ⟨r, tr, hr, hadmits⟩
  · rcases Store.task_applyMutation_cases landedAt s m adm.taskId with ⟨_, -, -, htask⟩ | ⟨hnot, -⟩
    · exact ⟨_, _, htask⟩
    · exact absurd hid (hnot w hw)
  · cases hadmits with
    | fresh _ _ _ _ htask => exact hstored r tr (htask ▸ hr)
    | reports old hold _ hsame =>
      obtain ⟨r', tr', hr'⟩ := hs.owner key old hold
      exact hstored r' tr' (hsame.1 ▸ hr')
    | answers _ _ _ a _ _ _ _ _ hadm' _ htask =>
      refine hstored r tr ?_
      rw [hadm']
      exact htask ▸ hr

theorem Landed.answered {ctx : Context} {now : Int} {call : Call} {m : Mutation}
    (h : Landed ctx now call (Reads.now s) s m) (hs : s.Answered) (landedAt : Int) :
    (s.applyMutation landedAt m).Answered := by
  have hcases : ∀ key adm, (s.applyMutation landedAt m).admissions.get key = some adm →
      (key, adm) ∈ m.admissions ∨ s.admissions.get key = some adm := by
    intro key adm hadm
    rw [Store.admissions_applyMutation] at hadm
    rcases Table.get_foldl_put_cases s.admissions m.admissions key with ⟨_, hmem, hget⟩ | ⟨-, hget⟩
    · rw [hadm] at hget
      cases hget
      exact .inl hmem
    · exact .inr (hget.symm.trans hadm)
  refine ⟨fun key adm hadm => ?_, fun key adm id hadm hid => ?_⟩
  · rcases hcases key adm hadm with hmem | hold
    · exact h.admission_owner hs landedAt hmem
    · exact (hs.of_lineage (h.lineage landedAt) hold).1
  · rcases hcases key adm hadm with hmem | hold
    · obtain ⟨-, -, a, accepted, keys, -, -, -, hrest⟩ := h.admission_answered landedAt hmem hid
      exact ⟨a, accepted, keys, hrest⟩
    · exact (hs.of_lineage (h.lineage landedAt) hold).2 id hid

theorem Store.Answered.of_eq (hs : s.Answered) (hlineage : Lineage s s')
    (hadmissions : s'.admissions = s.admissions) : s'.Answered :=
  ⟨fun _ _ hadm => (hs.of_lineage hlineage (hadmissions ▸ hadm)).1,
    fun _ _ id hadm => (hs.of_lineage hlineage (hadmissions ▸ hadm)).2 id⟩

/-- Every step keeps the admissions answered and every admission as it is but for its answer. -/
theorem Sequential.answered (hsound : s.Sound) (hs : s.Answered)
    (hstep : Sequential ok s s') : s'.Answered ∧ ∀ key adm, s.admissions.get key = some adm →
      ∃ adm', s'.admissions.get key = some adm' ∧ adm.Keeps adm' := by
  have hlineage := (hstep.sound hsound).2
  have hsame : s'.admissions = s.admissions → s'.Answered ∧ ∀ key adm, s.admissions.get key = some adm →
      ∃ adm', s'.admissions.get key = some adm' ∧ adm.Keeps adm' := fun hadmissions =>
    ⟨hs.of_eq hlineage hadmissions, fun _ adm hadm => ⟨adm, hadmissions ▸ hadm, .refl adm⟩⟩
  obtain ⟨_, -, -, hidle | ⟨_, _, _, _, _, -, -, hwake⟩ | ⟨_, m, -, -, hreads, hlanded, rfl⟩⟩ :=
    hstep.step_cases hsound
  · exact hsame hidle.admissions
  · exact hsame (persistExactTaskWake_frame hwake).2.2.1
  · rw [hreads] at hlanded
    exact ⟨hlanded.answered hs _, fun _ _ hadm => hlanded.admission_keeps hs _ hadm⟩

theorem Reachable.answered (h : Reachable ok s) : s.Answered := by
  refine Reachable.invariant (fun s hs => ?_) (fun s s' hsound hs hstep => (hstep.answered hsound hs).1) h
  have hnone : ∀ key, s.admissions.get key = none := by simp [hs.admissions]
  exact ⟨fun key adm hadm => by simp [hnone] at hadm, fun key adm id hadm => by simp [hnone] at hadm⟩

theorem Reachable.keeps (h : Reachable ok s)
    (hsteps : Relation.ReflTransGen (Sequential ok) s s')
    (hadm : s.admissions.get key = some adm) : ∃ adm', s'.admissions.get key = some adm' ∧ adm.Keeps adm' := by
  induction hsteps with
  | refl => exact ⟨adm, hadm, .refl adm⟩
  | @tail _ _ hsteps hlast ih =>
    obtain ⟨adm₁, hadm₁, hkeeps⟩ := ih
    have hreach := h.trans hsteps
    obtain ⟨adm₂, hadm₂, hkeeps'⟩ := (hlast.answered hreach.sound hreach.answered).2 key adm₁ hadm₁
    exact ⟨adm₂, hadm₂, hkeeps.trans hkeeps'⟩

theorem readAppTaskAdmissionAnswer_eq_some (hsound : s.Sound) (hs : s.Answered) {id : String}
    (hadm : s.admissions.get key = some adm) (hid : adm.resultAttemptId = some id) :
    ∃ a accepted, s.attempts.get id = some a ∧ a.state = .completed ∧ a.acceptedResult = some accepted ∧
      accepted.state = .converged ∧
      readAppTaskAdmissionAnswer s adm.taskId key = some (id, a.taskGeneration, accepted) := by
  obtain ⟨a, accepted, _, ha, htask, hgeneration, hstate, hresult, hconverged, -⟩ := hs.answer key adm id hadm hid
  refine ⟨a, accepted, ha, hstate, hresult, hconverged, ?_⟩
  have hread : adm.resultAttemptId.bind s.readAttempt = some a := by
    rw [hid]
    exact ha
  have hmatch : ¬(a.taskId ≠ adm.taskId ∨ a.taskGeneration < adm.taskGeneration) := by
    rw [htask]
    simp [hgeneration]
  simp only [readAppTaskAdmissionAnswer, hadm, hread, if_neg hmatch, hresult, if_pos hconverged, ne_eq,
    not_true_eq_false, if_false, hsound.attemptId id a ha]

/-! ### Using a key again -/

/-- The snapshot an observation under a key reads. -/
def ObserveInput.scope (intent : Intent) (key : String) : Store.Scope where
  taskIds := intent.id :: intent.parentId :: intent.dependsOn.getD []
  admissionIds := [Text.trim key]

def Admission.SameWork (adm : Admission) (s : Store) (appAgent key : String) (intent : Intent) : Prop :=
  adm.taskId = intent.id ∧ matchesAppTaskSpecHash intent
    (resolvedAgent (s.readTaskContext (ObserveInput.scope intent key)) intent appAgent) adm.specHash = true

/-- The outcomes of an observation under a key that is in use: it is rejected, it is a replay, its input is from
before a reopening, or it tries to create the Task of the admission. -/
inductive Reuses (s : Store) (adm : Admission) (given : ObserveInput) (key : String) (intent : Intent) :
    Plan Observation → Prop
  | rejected (e : TaskError) : Reuses s adm given key intent (.throw e)
  | replay (result : Observation) (hsame : adm.SameWork s given.appAgent key intent) :
      Reuses s adm given key intent (.done result)
  | outdated (result : Observation) (r : Resource) (tr : Option Trigger) (e : Event)
      (hr : s.task intent.id = some (r, tr)) (he : given.trigger = some e)
      (hpredates : taskEventPredatesReopening r e = true) : Reuses s adm given key intent (.done result)
  | creates (m : Mutation) (result : Observation) (hsame : adm.SameWork s given.appAgent key intent)
      (hmissing : adm.taskId ∈ m.expectMissingTaskIds) : Reuses s adm given key intent (.commit m result)

section Used

variable (ctx : Context) (now : Int) {s : Store} (given : ObserveInput) (intent : Intent) {key : String}
  {adm : Admission}

theorem observeAdmitted_reuses (hadm : s.admissions.get (Text.trim key) = some adm) :
    Reuses s adm given key intent (observeAppTaskIntent.observeAdmitted ctx now
      (s.readTaskContext (ObserveInput.scope intent key)) (some (Text.trim key)) { given with intent := intent }) := by
  have hfound : (s.readTaskContext (ObserveInput.scope intent key)).appTaskAdmissions.get (Text.trim key) = some adm := by
    rw [Store.appTaskAdmissions_get, hadm]
    simp [ObserveInput.scope]
  unfold observeAppTaskIntent.observeAdmitted
  cases validateParentReference (s.readTaskContext (ObserveInput.scope intent key)) intent.id intent.parentId with
  | error e => exact .rejected e
  | ok =>
    simp only [Plan.check, Option.bind_some, hfound, Option.map_some]
    split
    · exact .rejected _
    · rename_i hmatch
      simp only [not_or, not_not, Bool.not_eq_false] at hmatch
      split
      · exact .replay _ hmatch
      · rename_i hmissing
        have hnone : (s.readTaskContext (ObserveInput.scope intent key)).resources.get intent.id = none :=
          hmatch.1 ▸ hmissing
        unfold observePlan
        simp only [hnone, Plan.check]
        exact .creates _ _ hmatch (by simp [hmatch.1])

theorem observeAppTaskIntent_reuses (hkey : given.admissionKey = some key)
    (hadm : s.admissions.get (Text.trim key) = some adm) (hintent : normalizeTaskAgent given.intent = .ok intent) :
    Reuses s adm given key intent (observeAppTaskIntent ctx now (Reads.now s) given) := by
  have hadmitted := observeAdmitted_reuses ctx now given intent hadm
  unfold observeAppTaskIntent
  rw [hintent]
  simp only [Plan.check, hkey, Option.map_some, Option.toList_some]
  cases validateIntent intent with
  | error e => exact .rejected e
  | ok =>
    simp only
    split
    · exact .rejected _
    · split
      · exact .rejected _
      · split
        · rename_i r e hr he
          split
          · rename_i hpredates
            exact .outdated _ r _ e (Store.task_of_resources_get hr) he hpredates
          · exact hadmitted
        · exact hadmitted

end Used

theorem observe_used_unchanged (ctx : Context) (now : Int) (hs : s.Answered) {given : ObserveInput}
    (hkey : given.admissionKey = some key)
    (hadm : s.admissions.get (Text.trim key) = some adm) : (Call.observe given).perform ctx now s = s := by
  show ((observeAppTaskIntent ctx now (Reads.now s) given).effect).land ctx now s = s
  cases hintent : normalizeTaskAgent given.intent with
  | error =>
    unfold observeAppTaskIntent
    rw [hintent]
    rfl
  | ok intent =>
    have hreuses := observeAppTaskIntent_reuses ctx now given intent hkey hadm hintent
    cases hplan : observeAppTaskIntent ctx now (Reads.now s) given with
    | done => rfl
    | throw => rfl
    | acknowledge =>
      rw [hplan] at hreuses
      cases hreuses
    | commit m =>
      -- The Task of the admission is stored, so the commit finds it and is rejected.
      rw [hplan] at hreuses
      cases hreuses with
      | creates _ _ _ hmissing =>
        rcases Store.land_commit_cases ctx now s m with hsame' | ⟨haccepts, -, -⟩
        · exact hsame'
        · obtain ⟨r, _, hr⟩ := hs.owner _ adm hadm
          rw [Store.task, haccepts.missing _ hmissing, Option.map_none] at hr
          cases hr

/-! ### Write-once answers -/

/-- Answers are written once and are exact: an answered admission reads the same accepted result in every later
store, and an answer appears only with an accepted completion whose resolved scope names the key. Using a key
again changes nothing, and for other work it is refused unless the input is from before the reopening of
the Task it names. -/
theorem answers_write_once {ok : Store → Action → Prop} {s : Store} (h : Reachable ok s) :
    (∀ s' key adm id, Relation.ReflTransGen (Sequential ok) s s' → s.admissions.get key = some adm →
      adm.resultAttemptId = some id →
      (∃ adm', s'.admissions.get key = some adm' ∧ adm'.resultAttemptId = some id) ∧
      ∃ generation accepted, accepted.state = .converged ∧
        readAppTaskAdmissionAnswer s adm.taskId key = some (id, generation, accepted) ∧
        readAppTaskAdmissionAnswer s' adm.taskId key = some (id, generation, accepted)) ∧
    (∀ (action : Action) key adm id, action.Admissible s → action.Alone s →
      (action.next s).admissions.get key = some adm → adm.resultAttemptId = some id →
      (s.admissions.get key).bind Admission.resultAttemptId ≠ some id →
      ∃ landing claim input a accepted keys, action = .call landing ∧ landing.call = .complete claim input ∧
        claim.attemptId = id ∧ claim.taskId = adm.taskId ∧ (action.next s).attempts.get id = some a ∧
        a.taskId = adm.taskId ∧ adm.taskGeneration ≤ a.taskGeneration ∧ a.state = .completed ∧
        a.acceptedResult = some accepted ∧ accepted.state = .converged ∧ accepted.inputKeys = some keys ∧ key ∈ keys) ∧
    (∀ ctx now (given : ObserveInput) key adm, given.admissionKey = some key →
      s.admissions.get (Text.trim key) = some adm → (Call.observe given).perform ctx now s = s ∧
      ∀ intent, normalizeTaskAgent given.intent = .ok intent → ¬adm.SameWork s given.appAgent key intent →
        (∃ e, observeAppTaskIntent ctx now (Reads.now s) given = .throw e) ∨
        ∃ r tr e, s.task intent.id = some (r, tr) ∧ given.trigger = some e ∧ taskEventPredatesReopening r e = true) := by
  refine ⟨?_, ?_, ?_⟩
  · intro s' key adm id hsteps hadm hid
    have hreach := h.trans hsteps
    obtain ⟨adm', hadm', hkeeps⟩ := h.keeps hsteps hadm
    obtain ⟨a, accepted, ha, hstate, hresult, hconverged, hread⟩ :=
      readAppTaskAdmissionAnswer_eq_some h.sound h.answered hadm hid
    obtain ⟨_, _, ha', -, hresult', -, hread'⟩ :=
      readAppTaskAdmissionAnswer_eq_some hreach.sound hreach.answered hadm' (hkeeps.answer id hid)
    obtain ⟨b, hb, hcontinues⟩ := (h.lineage hsteps).attempts id a ha
    rw [ha'] at hb
    cases hb
    rw [hcontinues.accepted (by rw [hstate]; decide), hresult] at hresult'
    cases hresult'
    rw [hkeeps.taskId, hcontinues.generation] at hread'
    exact ⟨⟨adm', hadm', hkeeps.answer id hid⟩, a.taskGeneration, accepted, hconverged, hread, hread'⟩
  · intro action key adm id hadmissible halone hadm hid hnew
    have hstep : Sequential (fun _ a => a = action) s (action.next s) := ⟨action, hadmissible, halone, rfl, rfl⟩
    have hkept : (action.next s).admissions.get key ≠ s.admissions.get key := by
      intro hsame
      rw [← hsame, hadm, Option.bind_some] at hnew
      exact hnew hid
    obtain ⟨_, rfl, -, hidle | ⟨_, _, _, _, _, -, -, hwake⟩ | ⟨landing, m, rfl, -, hreads, hlanded, hnext⟩⟩ :=
      hstep.step_cases h.sound
    · exact absurd (by rw [hidle.admissions]) hkept
    · exact absurd (by rw [(persistExactTaskWake_frame hwake).2.2.1]) hkept
    · rw [hreads] at hlanded
      rw [hnext] at hadm hkept ⊢
      rw [Store.admissions_applyMutation] at hadm hkept
      rcases Table.get_foldl_put_cases s.admissions m.admissions key with ⟨adm', hmem, hget⟩ | ⟨-, hget⟩
      · rw [hadm] at hget
        cases hget
        obtain ⟨claim, input, a, accepted, keys, hcall, hrest⟩ := hlanded.admission_answered landing.landedAt hmem hid
        exact ⟨landing, claim, input, a, accepted, keys, rfl, hcall, hrest⟩
      · exact absurd hget hkept
  · intro ctx now given key adm hkey hadm
    refine ⟨observe_used_unchanged ctx now h.answered hkey hadm, fun intent hintent hother => ?_⟩
    have hreuses := observeAppTaskIntent_reuses ctx now given intent hkey hadm hintent
    generalize observeAppTaskIntent ctx now (Reads.now s) given = plan at hreuses
    cases hreuses with
    | rejected e => exact .inl ⟨e, rfl⟩
    | replay _ hsame => exact absurd hsame hother
    | outdated _ r tr e hr he hpredates => exact .inr ⟨r, tr, e, hr, he, hpredates⟩
    | creates m _ hsame => exact absurd hsame hother

namespace Sample

/-- The Task `a` with an input under the key `k`, executed and answered. -/
def admitted : Store := (observe "a" (some (event 1)) (some "k")).perform context 1 store
def admittedClaimed : Store := (claim "a" "u1").perform context 2 admitted
def complete (s : Store) (id : String) (keys : Option (List String)) : Call :=
  .complete (claimOf s id) { result := { result with inputKeys := keys } }
def answered : Store := (complete admittedClaimed "a" (some ["k"])).perform context 3 admittedClaimed

theorem admitted_reachable : Reachable (fun _ _ => True) admitted :=
  Reachable.call (Reachable.initial store_initial) context 1 trivial trivial

theorem answered_reachable : Reachable (fun _ _ => True) answered :=
  (admitted_reachable.call context 2 (ClaimInput.fresh_of_suffix (by decide +kernel)) trivial).call context 3 trivial
    trivial

end Sample

/-- The answered input of a small App keeps its answer when its Task receives another event. -/
theorem answers_write_once_answered : ∃ adm s', Sample.answered.admissions.get "k" = some adm ∧
    adm.resultAttemptId = some "r_1_u1" ∧ s' = (Call.record "a" (Sample.event 2)).perform Sample.context 4 Sample.answered ∧
    ∃ generation accepted, readAppTaskAdmissionAnswer s' adm.taskId "k" = some ("r_1_u1", generation, accepted) := by
  have hanswer : ((Sample.answered.admissions.get "k").bind Admission.resultAttemptId) = some "r_1_u1" := by
    decide +kernel
  obtain ⟨adm, hadm, hid⟩ := Option.bind_eq_some_iff.mp hanswer
  have hstep : Sequential (fun _ _ => True) Sample.answered
      ((Call.record "a" (Sample.event 2)).perform Sample.context 4 Sample.answered) :=
    ⟨.call (.alone Sample.context 4 (.record "a" (Sample.event 2)) Sample.answered), ⟨trivial, fun _ => rfl⟩, rfl, trivial, rfl⟩
  obtain ⟨-, generation, accepted, -, -, hread⟩ :=
    (answers_write_once Sample.answered_reachable).1 _ "k" adm "r_1_u1" (.single hstep) hadm hid
  exact ⟨adm, _, hadm, hid, rfl, generation, accepted, hread⟩

namespace Sample

def cancel (id : String) (generation version : Nat) : Call :=
  .cancel {
    appId := "app"
    taskId := id
    expectedGeneration := generation
    expectedResourceVersion := version
    reason := "over" }

def reopen (id : String) (generation version : Nat) (key : String) : Call :=
  .reopen {
    appId := "app"
    taskId := id
    expectedGeneration := generation
    expectedResourceVersion := version
    reason := "again"
    controlKey := key }

/-- The Task `a` closed after its first input, with five events in the journal, and reopened. -/
def closed : Store := (cancel "a" 1 1).perform context 2 admitted
def journaled : Store := Action.next closed (.journal 5)
def reopened : Store := (reopen "a" 1 2 "r").perform context 3 journaled

theorem reopened_reachable : Reachable (fun _ _ => True) reopened := by
  have hclosed : Reachable (fun _ _ => True) closed := admitted_reachable.call context 2 trivial trivial
  have hjournaled : Reachable (fun _ _ => True) journaled :=
    hclosed.step (.journal 5) (show closed.lastEventId < 5 by decide +kernel) trivial trivial
  exact hjournaled.call context 3 trivial trivial

/-- An input of other work under the key `k`, with the event of the first input. -/
def otherWork : ObserveInput where
  intent := { intent "a" with outcome := "another outcome" }
  appAgent := "worker"
  trigger := some (event 1)
  admissionKey := some "k"

end Sample

/-- After the reopening of a Task, a key that is in use is accepted for other work of that Task if its event
is from before the reopening: the observation returns without an error. -/
theorem used_key_accepted : Reachable (fun _ _ => True) Sample.reopened ∧
    (∃ adm, Sample.reopened.admissions.get "k" = some adm ∧
      ¬adm.SameWork Sample.reopened "worker" "k" Sample.otherWork.intent) ∧
    observeAppTaskIntent Sample.context 4 (Reads.now Sample.reopened) Sample.otherWork
      = .done { taskId := "a", generation := 2, changed := false } := by
  refine ⟨Sample.reopened_reachable, ?_, ?_⟩
  · have hother : ((Sample.reopened.admissions.get "k").all fun adm => !matchesAppTaskSpecHash Sample.otherWork.intent
        (resolvedAgent (Sample.reopened.readTaskContext (ObserveInput.scope Sample.otherWork.intent "k"))
          Sample.otherWork.intent "worker") adm.specHash) = true := by decide +kernel
    have hused : (Sample.reopened.admissions.get "k").isSome = true := by decide +kernel
    obtain ⟨adm, hadm⟩ := Option.isSome_iff_exists.mp hused
    refine ⟨adm, hadm, fun hsame => ?_⟩
    rw [hadm, Option.all_some, hsame.2] at hother
    cases hother
  · have hplan : (match observeAppTaskIntent Sample.context 4 (Reads.now Sample.reopened) Sample.otherWork with
      | .done result => decide (result = { taskId := "a", generation := 2, changed := false })
      | _ => false) = true := by decide +kernel
    split at hplan
    · rename_i result heq
      rw [heq, of_decide_eq_true hplan]
    · cases hplan

end MayAgent
