import MayAgent.Proof.Operations

/-!
# What a change does to execution

Every change of a Task keeps its running attempt, ends it, leaves an idle Task idle, or grants a new
attempt in place of the previous one. This is all the exclusive execution of Tasks depends on.
-/

namespace MayAgent

/-! ### Attempts over time -/

def Attempt.core (a : Attempt) : Attempt :=
  { a with resourceVersion := 0, sessionId := none, lease := none, workspace := none }

variable {a a' : Attempt} {r r' : Resource}

theorem Attempt.Annotates.core (h : a.Annotates a') : a'.core = a.core := by
  rw [h.rest]
  rfl

/-- A later state of one attempt: its assignment is fixed, and once it ended so is its outcome. -/
structure Attempt.Continues (a a' : Attempt) : Prop where
  task : a'.taskId = a.taskId
  generation : a'.taskGeneration = a.taskGeneration
  events : a'.events = a.events
  continued : a'.continuedInputKeys = a.continuedInputKeys
  trigger : a'.trigger = a.trigger
  state : a.state ≠ .running → a'.state = a.state
  accepted : a.state ≠ .running → a'.acceptedResult = a.acceptedResult
  failure : a.state ≠ .running → a'.failureReason = a.failureReason

namespace Attempt.Continues

theorem refl (a : Attempt) : a.Continues a :=
  ⟨rfl, rfl, rfl, rfl, rfl, fun _ => rfl, fun _ => rfl, fun _ => rfl⟩

variable {a : Attempt}

theorem trans {b c : Attempt} (h : a.Continues b) (h' : b.Continues c) : a.Continues c := by
  have hended : a.state ≠ .running → b.state ≠ .running := fun hstate => by rw [h.state hstate]; exact hstate
  exact ⟨h'.task.trans h.task, h'.generation.trans h.generation, h'.events.trans h.events,
    h'.continued.trans h.continued, h'.trigger.trans h.trigger,
    fun hstate => (h'.state (hended hstate)).trans (h.state hstate),
    fun hstate => (h'.accepted (hended hstate)).trans (h.accepted hstate),
    fun hstate => (h'.failure (hended hstate)).trans (h.failure hstate)⟩

theorem of_core (h : a'.core = a.core) : a.Continues a' := by
  have hfield : ∀ {β : Type} (f : Attempt → β), (∀ b, f b.core = f b) → f a' = f a := by
    intro β f hf
    rw [← hf a', ← hf a, h]
  exact ⟨hfield Attempt.taskId fun _ => rfl, hfield Attempt.taskGeneration fun _ => rfl,
    hfield Attempt.events fun _ => rfl, hfield Attempt.continuedInputKeys fun _ => rfl,
    hfield Attempt.trigger fun _ => rfl, fun _ => hfield Attempt.state fun _ => rfl,
    fun _ => hfield Attempt.acceptedResult fun _ => rfl, fun _ => hfield Attempt.failureReason fun _ => rfl⟩

theorem of_running (hstate : a.state = .running) (htask : a'.taskId = a.taskId)
    (hgeneration : a'.taskGeneration = a.taskGeneration) (hevents : a'.events = a.events)
    (hcontinued : a'.continuedInputKeys = a.continuedInputKeys) (htrigger : a'.trigger = a.trigger) :
    a.Continues a' :=
  ⟨htask, hgeneration, hevents, hcontinued, htrigger, fun h => absurd hstate h, fun h => absurd hstate h,
    fun h => absurd hstate h⟩

end Attempt.Continues

/-- The attempt `a'` is `a`, ended. -/
structure Attempt.Ends (a a' : Attempt) : Prop where
  id : a'.id = a.id
  continues : a.Continues a'
  state : a'.state ≠ .running

theorem Attempt.Ends.of_running (hstate : a.state = .running) (hid : a'.id = a.id) (htask : a'.taskId = a.taskId)
    (hgeneration : a'.taskGeneration = a.taskGeneration) (hevents : a'.events = a.events)
    (hcontinued : a'.continuedInputKeys = a.continuedInputKeys) (htrigger : a'.trigger = a.trigger)
    (hended : a'.state ≠ .running := by rintro ⟨⟩) : a.Ends a' :=
  ⟨hid, .of_running hstate htask hgeneration hevents hcontinued htrigger, hended⟩

theorem core_state (h : a'.core = a.core) : a'.state = a.state :=
  (congrArg Attempt.state h : a'.core.state = a.core.state)

theorem core_taskId (h : a'.core = a.core) : a'.taskId = a.taskId :=
  (congrArg Attempt.taskId h : a'.core.taskId = a.core.taskId)

/-! ### The phase of an edited Task -/

section Settle

variable (st : Status)

theorem Status.settlePhase_running : st.settlePhase.phase = .running ↔ st.phase = .running := by
  unfold Status.settlePhase
  split
  · rename_i h
    simp [h.2.1]
  · rfl

@[simp] theorem Status.settlePhase_currentAttemptId : st.settlePhase.currentAttemptId = st.currentAttemptId := by
  unfold Status.settlePhase
  split <;> rfl

@[simp] theorem Status.settlePhase_observedAttemptId : st.settlePhase.observedAttemptId = st.observedAttemptId := by
  unfold Status.settlePhase
  split <;> rfl

end Settle

section Touch

variable (now : Int) (r : Resource) (change : Status → Status)

theorem touchResource_running :
    (touchResource now r change).status.phase = .running ↔ (change r.status).phase = .running :=
  Status.settlePhase_running _

@[simp] theorem touchResource_currentAttemptId :
    (touchResource now r change).status.currentAttemptId = (change r.status).currentAttemptId :=
  Status.settlePhase_currentAttemptId _

@[simp] theorem touchResource_observedAttemptId :
    (touchResource now r change).status.observedAttemptId = (change r.status).observedAttemptId :=
  Status.settlePhase_observedAttemptId _

end Touch

@[simp] theorem Resource.release_observedAttemptId (r : Resource) (state : AttemptState) :
    (r.release state).status.observedAttemptId = r.status.observedAttemptId := by
  unfold Resource.release
  split <;> rfl

theorem reachedLimit_idle {ctx : Context} {limit : Nat} (h : reachedLimit ctx r = some limit) :
    r.status.currentAttemptId = none := by
  unfold reachedLimit at h
  cases hcurrent : r.status.currentAttemptId with
  | none => rfl
  | some => simp [hcurrent] at h

/-! ### Tasks that execute nothing -/

/-- A Task that executes nothing, with the attempt it observed last. -/
structure Resource.Stands (observed : Option String) (r : Resource) : Prop where
  phase : r.status.phase ≠ .running
  current : r.status.currentAttemptId = none
  observed : r.status.observedAttemptId = observed

theorem touchResource_stands {now : Int} {change : Status → Status} {observed : Option String}
    (hcurrent : (change r.status).currentAttemptId = none) (hobserved : (change r.status).observedAttemptId = observed)
    (hphase : (change r.status).phase ≠ .running := by rintro ⟨⟩) : (touchResource now r change).Stands observed :=
  ⟨fun h => hphase ((touchResource_running _ _ _).mp h), (touchResource_currentAttemptId _ _ _).trans hcurrent,
    (touchResource_observedAttemptId _ _ _).trans hobserved⟩

section Stands

variable (ctx : Context) (now : Int) (claim : Claim) (r retained : Resource) (a : Attempt)

theorem failedResource_stands (failure : String) (details : FailureDetails) :
    (failedResource ctx now claim r retained a failure details).Stands retained.status.observedAttemptId := by
  refine touchResource_stands rfl (Resource.release_observedAttemptId _ _) ?_
  simp only [Status.noteFailure]
  split <;> decide

theorem reportedResource_stands (summary : String) (input : ResultInput) :
    (reportedResource ctx now claim r retained a summary input).Stands (some claim.attemptId) := by
  refine touchResource_stands rfl rfl ?_
  simp only [Status.noteFailure]
  split <;> decide

theorem completedResource_stands (continues : Bool) (input : ResultInput) :
    (completedResource now claim r continues input).Stands (some claim.attemptId) := by
  unfold completedResource
  refine touchResource_stands rfl rfl ?_
  dsimp only
  split
  · decide
  · split <;> decide

theorem deferredResource_stands (runnable : Bool) (reviewAt : Option Int) (input : ResultInput) :
    (deferredResource now claim r runnable reviewAt input).Stands (some claim.attemptId) := by
  refine touchResource_stands rfl rfl ?_
  dsimp only
  split <;> decide

theorem closedResource_stands (input : CloseInput) :
    (closedResource now input r).Stands r.status.observedAttemptId := by
  refine touchResource_stands rfl rfl ?_
  dsimp only
  split <;> decide

end Stands

/-! ### Tasks that execute the same -/

structure Resource.SameRun (r r' : Resource) : Prop where
  phase : r'.status.phase = r.status.phase
  current : r'.status.currentAttemptId = r.status.currentAttemptId
  observed : r'.status.observedAttemptId = r.status.observedAttemptId

theorem Resource.SameRun.trans {r'' : Resource} (h : r.SameRun r') (h' : r'.SameRun r'') : r.SameRun r'' :=
  ⟨h'.phase.trans h.phase, h'.current.trans h.current, h'.observed.trans h.observed⟩

theorem Resource.OnlyWaits.sameRun (h : r.OnlyWaits r') : r.SameRun r' := by
  unfold Resource.OnlyWaits at h
  constructor <;> rw [h]

theorem Resource.Relinks.sameRun (h : r.Relinks r') : r.SameRun r' := by
  constructor <;> rw [h.rest]

/-! ### The effect of a change on execution -/

/-- What a change makes of the execution of a Task, with the attempts it writes. -/
inductive Runs (call : Call) (reads : Reads) (r r' : Resource) (attempts : List Attempt) : Prop
  | keeps (hphase : r'.status.phase = .running ↔ r.status.phase = .running)
      (hcurrent : r'.status.currentAttemptId = r.status.currentAttemptId)
      (hobserved : r'.status.observedAttemptId = r.status.observedAttemptId)
      (hattempts : attempts = [] ∨ ∃ a a' : Attempt, a.RunsFor reads r ∧ attempts = [a'] ∧ a'.id = a.id ∧ a.Continues a' ∧
        a'.state = .running)
  | ends (a a' : Attempt) (hruns : a.RunsFor reads r) (hattempts : attempts = [a']) (hid : a'.id = a.id)
      (hcontinues : a.Continues a') (hstate : a'.state ≠ .running) (hphase : r'.status.phase ≠ .running)
      (hcurrent : r'.status.currentAttemptId = none)
      (hobserved : r'.status.observedAttemptId = r.status.observedAttemptId ∨
        r'.status.observedAttemptId = some a.id)
  | idles (hidle : r.status.currentAttemptId = none) (hphase : r'.status.phase ≠ .running)
      (hcurrent : r'.status.currentAttemptId = none)
      (hobserved : r'.status.observedAttemptId = r.status.observedAttemptId ∨ r'.status.observedAttemptId = none)
      (hattempts : attempts = [] ∨ ∃ a a' : Attempt, reads.late.attempts.get a.id = some a ∧ a.taskId = r.metadata.id ∧
        a.state ≠ .running ∧ attempts = [a'] ∧ a'.id = a.id ∧ a.Continues a')
  | grants (input : ClaimInput) (previous : Option Attempt) (ended : Attempt → Attempt) (new : Attempt)
      (hcall : call = .claim input) (hid : input.taskId = r.metadata.id)
      (hprevious : PreviousAttempt reads r previous)
      (hended : ∀ a : Attempt, a.state = .running → a.Ends (ended a))
      (hnewId : new.id = input.attemptId r.metadata.generation) (hnewTask : new.taskId = r.metadata.id)
      (hnewState : new.state = .running)
      (hattempts : attempts = (previous.map ended).toList ++ [new]) (hphase : r'.status.phase = .running)
      (hcurrent : r'.status.currentAttemptId = some new.id)
      (hobserved : r'.status.observedAttemptId = r.status.observedAttemptId)
      (hopen : reads.late.isCancelled r.metadata.id = false)

section Cases

variable {ctx : Context} {now : Int} {call : Call} {reads : Reads} {r : Resource} {tr : Option Trigger}

variable {r' : Resource}

theorem Runs.settles {observed : Option String} (hruns : a.RunsFor reads r) (hends : a.Ends a')
    (hstands : r'.Stands observed) (hobserved : observed = r.status.observedAttemptId ∨ observed = some a.id) :
    Runs call reads r r' [a'] :=
  .ends a a' hruns rfl hends.id hends.continues hends.state hstands.phase hstands.current
    (by rwa [hstands.observed])

theorem Runs.rests (hidle : r.status.currentAttemptId = none) (hstands : r'.Stands r.status.observedAttemptId) :
    Runs call reads r r' [] :=
  .idles hidle hstands.phase hstands.current (.inl hstands.observed) (.inl rfl)

theorem Runs.ofPrevious {previous : Option Attempt} {ended : Attempt → Attempt}
    (hprevious : PreviousAttempt reads r previous) (hended : ∀ a : Attempt, a.state = .running → a.Ends (ended a))
    (hstands : r'.Stands r.status.observedAttemptId) : Runs call reads r r' (previous.map ended).toList := by
  cases previous with
  | none => exact .rests hprevious hstands
  | some a =>
    have hruns : a.RunsFor reads r := hprevious
    exact .settles hruns (hended a hruns.state) hstands (.inl rfl)

theorem takeOver_observedAttemptId (now : Int) (untriggered : Bool) (previous : Option Attempt) (r : Resource) :
    (takeOver now untriggered previous r).status.observedAttemptId = r.status.observedAttemptId := by
  unfold takeOver requeueUntriggered
  cases untriggered <;> cases previous <;> simp

theorem Attempt.noteFailure_same (ctx : Context) (now : Int) (r : Resource) (a : Attempt) :
    a.noteFailure ctx now r = { a with retryExhausted := (a.noteFailure ctx now r).retryExhausted } := by
  unfold Attempt.noteFailure
  split <;> rfl

theorem settledWorkspace_same (a : Attempt) (workspace : Option (Workspace × Bool)) (r : Resource) :
    settledWorkspace a workspace r = { a with workspace := (settledWorkspace a workspace r).workspace } := by
  unfold settledWorkspace
  split <;> rfl

theorem observedResource_sameRun (ctx : Context) (now : Int) (input : ObserveInput) (r : Resource) (same : Bool) :
    r.SameRun (observedResource ctx now input (some r) same) := by
  unfold observedResource
  cases same
  · exact ⟨rfl, rfl, rfl⟩
  · simp only [if_true]
    split <;> exact ⟨rfl, rfl, rfl⟩

theorem noteHumanRequest_run (now : Int) (input : ObserveInput) (key : Option String) (r : Resource) :
    ((noteHumanRequest now input key r).status.phase = .running ↔ r.status.phase = .running) ∧
      (noteHumanRequest now input key r).status.currentAttemptId = r.status.currentAttemptId ∧
      (noteHumanRequest now input key r).status.observedAttemptId = r.status.observedAttemptId := by
  unfold noteHumanRequest
  split
  · exact ⟨touchResource_running _ _ _, touchResource_currentAttemptId _ _ _, touchResource_observedAttemptId _ _ _⟩
  · exact ⟨Iff.rfl, rfl, rfl⟩

theorem recoveredAttempt_ends (now : Int) (untriggered : Bool) (a : Attempt) (hstate : a.state = .running) :
    a.Ends (recoveredAttempt now untriggered a) := by
  cases untriggered <;> exact .of_running hstate rfl rfl rfl rfl rfl rfl

variable {tr' : Option Trigger}

/-- Every change keeps, ends or grants the execution of its Task, given that an idle Task has no current
attempt and a closed one is idle. -/
theorem Change.runs {attempts : List Attempt}
    {admissions : List (String × Admission)} (h : Change ctx now call reads r tr r' tr' attempts admissions)
    (hidle : r.status.phase ≠ .running → r.status.currentAttemptId = none)
    (hclosed : reads.snapshot.isCancelled r.metadata.id = true → r.status.currentAttemptId = none) :
    Runs call reads r r' attempts := by
  cases h with
  | observe _ input key _ same =>
    have hsame := observedResource_sameRun ctx now input r same
    obtain ⟨hphase, hcurrent, hobserved⟩ := noteHumanRequest_run now input key (observedResource ctx now input (some r) same)
    exact .keeps (by rw [hphase, hsame.phase]) (hcurrent.trans hsame.current) (hobserved.trans hsame.observed) (.inl rfl)
  | record => exact .keeps Iff.rfl rfl rfl (.inl rfl)
  | wake => exact .keeps Iff.rfl rfl rfl (.inl rfl)
  | grant input _ _ previous untriggered _ _ hcall hprevious hopen _ _ hid =>
    refine .grants input previous (recoveredAttempt now untriggered) _ hcall hid hprevious
      (recoveredAttempt_ends now untriggered) ?_ hid rfl rfl ((touchResource_running _ _ _).mpr rfl) ?_ ?_ hopen
    · simp only [newAttempt, refreshAttemptLease, takeOver_generation, ClaimInput.attemptId]
    · rw [startRunning, touchResource_currentAttemptId]
      simp only [newAttempt, refreshAttemptLease, takeOver_generation, ClaimInput.attemptId]
    · rw [startRunning, touchResource_observedAttemptId]
      exact takeOver_observedAttemptId now untriggered previous r
  | backOff _ previous _ _ _ hprevious =>
    exact .ofPrevious hprevious (fun a hstate => .of_running hstate rfl rfl rfl rfl rfl rfl)
      (touchResource_stands rfl (takeOver_observedAttemptId now false previous r))
  | adopt _ _ a _ _ _ _ _ _ hlimit hstored htask hfailed _ houtcome =>
    have hsame := (inputOutcomeAdmissions_onlyWaits houtcome).sameRun
    have hended : a.state ≠ .running := by
      intro hstate
      simp [Attempt.unsuccessful, hstate] at hfailed
    have hnone : r.status.currentAttemptId = none := reachedLimit_idle hlimit
    unfold adoptedResource
    refine .idles hnone ?_ ?_ (.inl ?_) (.inr ⟨a, _, hstored, htask, hended, rfl, rfl, ?_⟩)
    · rw [Ne, touchResource_running]
      rintro ⟨⟩
    · rw [touchResource_currentAttemptId, hsame.current, hnone]
    · rw [touchResource_observedAttemptId, hsame.observed]
    · exact ⟨rfl, rfl, rfl, rfl, rfl, fun _ => rfl, fun _ => rfl, fun _ => rfl⟩
  | fail _ a _ _ _ _ _ _ _ _ hclaim houtcome =>
    refine .settles hclaim.runs ?_ (failedResource_stands _ _ _ _ _ _ _ _)
      (.inl (inputOutcomeAdmissions_onlyWaits houtcome).sameRun.observed)
    rw [failedAttempt, Attempt.noteFailure_same]
    exact .of_running hclaim.runs.state rfl rfl rfl rfl rfl rfl
  | report _ a _ _ _ _ _ _ _ _ hclaim =>
    refine .settles hclaim.runs ?_ (reportedResource_stands _ _ _ _ _ _ _ _) (.inr (congrArg some hclaim.attempt))
    rw [Attempt.noteFailure_same]
    exact .of_running hclaim.runs.state rfl rfl rfl rfl rfl rfl
  | complete _ a _ _ _ t _ _ _ _ _ _ hclaim _ _ _ _ _ hnext =>
    subst hnext
    refine .settles hclaim.runs ?_ (completedResource_stands _ _ _ _ _) (.inr (congrArg some hclaim.attempt))
    rw [settledWorkspace_same]
    exact .of_running hclaim.runs.state rfl rfl rfl rfl rfl rfl
  | defer _ a _ _ _ t _ _ _ _ _ _ _ _ _ hclaim _ _ _ _ _ _ hnext =>
    subst hnext
    exact .settles hclaim.runs (.of_running hclaim.runs.state rfl rfl rfl rfl rfl rfl)
      (deferredResource_stands _ _ _ _ _ _) (.inr (congrArg some hclaim.attempt))
  | change claim a input relinked t keys _ _ _ hclaim _ hlinks =>
    have hsame := hlinks.sameRun.trans
      (retainChangedInputs_onlyWaits reads.late claim.generation relinked t
        (input.conditions.map ConditionDecl.id) keys).sameRun
    have hruns := hclaim.runs
    refine .keeps ?_ ?_ ?_ (.inr ⟨a, _, hruns, rfl, rfl, .of_running hruns.state rfl rfl rfl rfl rfl, hruns.state⟩)
    · rw [touchResource_running]
      exact iff_of_eq (congrArg (· = Phase.running) hsame.phase)
    · exact (touchResource_currentAttemptId _ _ _).trans hsame.current
    · exact (touchResource_observedAttemptId _ _ _).trans hsame.observed
  | release a _ _ _ _ hruns =>
    exact .settles hruns (.of_running hruns.state rfl rfl rfl rfl rfl rfl)
      (touchResource_stands rfl (Resource.release_observedAttemptId _ _)) (.inl rfl)
  | stop a _ _ _ _ hruns =>
    exact .settles hruns (.of_running hruns.state rfl rfl rfl rfl rfl rfl)
      (touchResource_stands rfl (Resource.release_observedAttemptId r _)) (.inl rfl)
  | unadmit _ _ _ _ _ hwaiting hlinks =>
    exact .rests (hidle (by rw [hwaiting]; decide)) (touchResource_stands rfl hlinks.sameRun.observed)
  | workspace _ a _ _ hruns =>
    refine .keeps (touchResource_running _ _ _) (touchResource_currentAttemptId _ _ _)
      (touchResource_observedAttemptId _ _ _) (.inr ⟨a, _, hruns, rfl, rfl, ?_, hruns.state⟩)
    exact .of_running hruns.state rfl rfl rfl rfl rfl
  | retry _ a _ _ _ hnone => exact .rests hnone (touchResource_stands rfl rfl)
  | cancel input previous _ hprevious =>
    have hstands := closedResource_stands now (takeOver now false previous r) input
    rw [takeOver_observedAttemptId] at hstands
    exact .ofPrevious hprevious (fun a hstate => .of_running hstate rfl rfl rfl rfl rfl rfl) hstands
  | reopen _ _ _ _ _ _ hstored =>
    have hnone : r.status.currentAttemptId = none := hclosed (by
      rw [Store.isCancelled, Table.has, hstored, Option.isSome_some])
    exact .idles hnone (by decide : Phase.pending ≠ .running) rfl (.inr rfl) (.inl rfl)

theorem Aside.runs (h : Aside now call reads r tr r' tr')
    (hidle : r.status.phase ≠ .running → r.status.currentAttemptId = none) : Runs call reads r r' [] := by
  obtain ⟨unblock, _, _, _, hunblock, _⟩ := h
  cases unblock with
  | none => exact .keeps Iff.rfl rfl rfl (.inl rfl)
  | some reason =>
    show Runs call reads r (unblockResource now reason r) []
    refine .rests (hidle ?_) (touchResource_stands rfl rfl)
    rcases (hunblock rfl).1 with hphase | hphase <;> rw [hphase] <;> decide

end Cases

end MayAgent
