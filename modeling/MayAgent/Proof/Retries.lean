import MayAgent.Proof.Execution

/-!
# What a change does to the failure sequence

A Task counts the failures in a row, and once they exhaust its allowance only a fresh human request
permits another attempt. Every change keeps that sequence, charges one failure to it, or renews it.
-/

namespace MayAgent

/-! ### Calls -/

/-- The calls that may end the failure sequence of a Task: an accepted outcome or wait, an owner's stop,
retry or reopening, and an unblock action. -/
def Call.renews (k : String) (call : Call) : Bool :=
  (unblockReason call.actions k).isSome || match call with
    | .complete c _ => c.taskId == k
    | .defer c _ => c.taskId == k
    | .stop taskId _ _ _ => taskId == k
    | .retry input => input.taskId == k
    | .reopen input => input.taskId == k
    | _ => false

def Call.admitsHuman (k : String) : Call → Bool
  | .observe input => input.intent.id == k && input.admissionKey.isSome && input.trigger.any isHumanRequest
  | _ => false

/-! ### The failure sequence -/

/-- The failures in a row, the last of them, and the exhaustion they led to. -/
structure FailureSequence where
  failures : Nat
  attempt : Option String
  exhausted : Option RetryExhaustion

def Resource.sequence (r : Resource) : FailureSequence :=
  ⟨r.status.executionFailures, r.status.executionFailureAttemptId, r.status.retryExhausted⟩

section Touch

variable (now : Int) (r : Resource) (change : Status → Status)

theorem touchResource_sequence : (touchResource now r change).sequence =
    ⟨(change r.status).executionFailures, (change r.status).executionFailureAttemptId, (change r.status).retryExhausted⟩ := by
  unfold touchResource Status.settlePhase Resource.sequence
  dsimp only
  split <;> rfl

@[simp] theorem touchResource_freshHumanInput :
    (touchResource now r change).status.freshHumanInput = (change r.status).freshHumanInput := by
  unfold touchResource Status.settlePhase
  dsimp only
  split <;> rfl

end Touch

theorem Resource.release_sequence (r : Resource) {state : AttemptState} (h : state ≠ .completed) :
    (r.release state).sequence = r.sequence := by
  rw [Resource.release, if_neg h]
  rfl

theorem Resource.release_completed_sequence (r : Resource) : (r.release .completed).sequence = ⟨0, none, none⟩ := rfl

@[simp] theorem Resource.release_freshHumanInput (r : Resource) (state : AttemptState) :
    (r.release state).status.freshHumanInput = r.status.freshHumanInput := by
  unfold Resource.release
  split <;> rfl

/-- Two states of a Task with the same failure sequence and the same claim on a human request. -/
structure Resource.SameAllowance (r r' : Resource) : Prop where
  sequence : r'.sequence = r.sequence
  fresh : r'.status.freshHumanInput = r.status.freshHumanInput

namespace Resource.SameAllowance

variable {r r' : Resource}

theorem trans {r'' : Resource} (h : r.SameAllowance r') (h' : r'.SameAllowance r'') : r.SameAllowance r'' :=
  ⟨h'.sequence.trans h.sequence, h'.fresh.trans h.fresh⟩

theorem ofWaits (h : r.OnlyWaits r') : r.SameAllowance r' := by
  unfold Resource.OnlyWaits at h
  constructor <;> rw [h]
  rfl

theorem ofRelinks (h : r.Relinks r') : r.SameAllowance r' := by
  constructor <;> rw [h.rest]
  rfl

theorem ofInterrupted (r : Resource) : r.SameAllowance (r.release .interrupted) :=
  ⟨r.release_sequence (by decide), r.release_freshHumanInput _⟩

end Resource.SameAllowance

theorem takeOver_allowance (now : Int) (untriggered : Bool) (previous : Option Attempt) (r : Resource) :
    r.SameAllowance (takeOver now untriggered previous r) := by
  have hrelease := Resource.SameAllowance.ofInterrupted r
  have hrequeue : r.SameAllowance (requeueUntriggered now r) :=
    ⟨(touchResource_sequence _ _ _).trans hrelease.sequence, (touchResource_freshHumanInput _ _ _).trans hrelease.fresh⟩
  unfold takeOver
  cases untriggered <;> cases previous
  · exact ⟨rfl, rfl⟩
  · exact hrelease
  · exact hrequeue
  · exact hrequeue.trans (.ofInterrupted _)

theorem observedResource_allowance (ctx : Context) (now : Int) (input : ObserveInput) (r : Resource) (same : Bool) :
    r.SameAllowance (observedResource ctx now input (some r) same) := by
  unfold observedResource
  cases same
  · exact ⟨rfl, rfl⟩
  · simp only [if_true]
    split <;> exact ⟨rfl, rfl⟩

/-! ### The effect of a change -/

/-- Attempts of which none ends unsuccessfully now. -/
def Uncounted (reads : Reads) (r : Resource) (attempts : List Attempt) : Prop :=
  ∀ b ∈ attempts, b.unsuccessful = true → ∃ a, reads.late.attempts.get b.id = some a ∧ a.taskId = r.metadata.id ∧
    a.unsuccessful = true

section Uncounted

variable {reads : Reads} {r : Resource} {attempts : List Attempt}

theorem Uncounted.of_forall (h : ∀ b ∈ attempts, b.unsuccessful = false) : Uncounted reads r attempts := by
  intro b hb hfailed
  rw [h b hb] at hfailed
  cases hfailed

theorem Uncounted.nil : Uncounted reads r [] := .of_forall (by simp)

theorem Uncounted.one {a : Attempt} (h : a.unsuccessful = false) : Uncounted reads r [a] := .of_forall (by simpa using h)

theorem Uncounted.interrupted (h : ∀ b ∈ attempts, b.state = .interrupted ∨ b.state = .running) :
    Uncounted reads r attempts := by
  refine .of_forall fun b hb => ?_
  rcases h b hb with hstate | hstate <;> simp [Attempt.unsuccessful, hstate]

end Uncounted

/-- What a change makes of the failure sequence of a Task, with the attempts it writes. -/
inductive Spends (ctx : Context) (now : Int) (call : Call) (reads : Reads) (r r' : Resource) (attempts : List Attempt) :
    Prop
  | keeps (hsequence : r'.sequence = r.sequence)
      (hfresh : r'.status.freshHumanInput = true → r.status.freshHumanInput = true)
      (hcurrent : r'.status.currentAttemptId = r.status.currentAttemptId ∨ r'.status.currentAttemptId = none)
      (hattempts : Uncounted reads r attempts)
  | admits (hcall : call.admitsHuman r.metadata.id = true) (hsequence : r'.sequence = r.sequence)
      (hcurrent : r'.status.currentAttemptId = r.status.currentAttemptId) (hattempts : attempts = [])
  | grants (input : ClaimInput) (hcall : call = .claim input) (hallowed : taskExecutionRetryExhausted r = false)
      (hlimit : reachedLimit ctx r = none) (hsequence : r'.sequence = r.sequence)
      (hfresh : r'.status.freshHumanInput = false) (hattempts : Uncounted reads r attempts)
  | fails (a a' : Attempt) (hruns : a.RunsFor reads r) (hattempts : attempts = [a']) (hid : a'.id = a.id)
      (hfailed : a'.unsuccessful = true)
      (hsequence : r'.sequence =
        ⟨r.status.executionFailures + 1, some a.id, (a.noteFailure ctx now r).retryExhausted⟩)
      (hfresh : r'.status.freshHumanInput = r.status.freshHumanInput) (hcurrent : r'.status.currentAttemptId = none)
  | adopts (limit : Nat) (hlimit : reachedLimit ctx r = some limit)
  | renews (hcall : call.renews r.metadata.id = true)
      (hsequence : r'.sequence = ⟨0, none, none⟩ ∨ (r'.sequence = r.sequence ∧ r.status.retryExhausted.isSome = true))
      (hcurrent : r'.status.currentAttemptId = none) (hattempts : Uncounted reads r attempts)

section Cases

variable {ctx : Context} {now : Int} {call : Call} {reads : Reads} {r r' : Resource} {tr tr' : Option Trigger}

variable {attempts : List Attempt} {admissions : List (String × Admission)}

theorem recoveredAttempt_state (now : Int) (untriggered : Bool) (a : Attempt) :
    (recoveredAttempt now untriggered a).state = .interrupted := by
  cases untriggered <;> rfl

theorem previous_interrupted {previous : Option Attempt} {ended : Attempt → Attempt}
    (hended : ∀ a, (ended a).state = .interrupted) : ∀ b ∈ (previous.map ended).toList, b.state = .interrupted := by
  intro b hb
  rw [Option.mem_toList, Option.map_eq_some_iff] at hb
  obtain ⟨a, -, rfl⟩ := hb
  exact hended a

/-- An edit of a Task that keeps its failure sequence. -/
theorem Spends.touched {q : Resource} {change : Status → Status} (hsame : r.SameAllowance q)
    (hsequence : (⟨(change q.status).executionFailures, (change q.status).executionFailureAttemptId,
      (change q.status).retryExhausted⟩ : FailureSequence) = q.sequence)
    (hfresh : (change q.status).freshHumanInput = true → q.status.freshHumanInput = true)
    (hcurrent : (change q.status).currentAttemptId = r.status.currentAttemptId ∨ (change q.status).currentAttemptId = none)
    (hattempts : Uncounted reads r attempts) : Spends ctx now call reads r (touchResource now q change) attempts := by
  refine .keeps ((touchResource_sequence _ _ _).trans (hsequence.trans hsame.sequence)) ?_ ?_ hattempts
  · rw [touchResource_freshHumanInput, ← hsame.fresh]
    exact hfresh
  · rw [touchResource_currentAttemptId]
    exact hcurrent

/-- An attempt charged to its Task as one more failure. -/
theorem Spends.failed {q : Resource} {change : Status → Status} {a a' : Attempt} (hruns : a.RunsFor reads r)
    (hid : a'.id = a.id) (hfailed : a'.unsuccessful = true) (hsame : r.status.freshHumanInput = q.status.freshHumanInput)
    (hsequence : (⟨(change q.status).executionFailures, (change q.status).executionFailureAttemptId,
      (change q.status).retryExhausted⟩ : FailureSequence) =
      ⟨r.status.executionFailures + 1, some a.id, (a.noteFailure ctx now r).retryExhausted⟩)
    (hfresh : (change q.status).freshHumanInput = q.status.freshHumanInput)
    (hcurrent : (change q.status).currentAttemptId = none) :
    Spends ctx now call reads r (touchResource now q change) [a'] :=
  .fails a a' hruns rfl hid hfailed ((touchResource_sequence _ _ _).trans hsequence)
    (by rw [touchResource_freshHumanInput, hfresh, hsame]) ((touchResource_currentAttemptId _ _ _).trans hcurrent)

theorem Change.spends
    (h : Change ctx now call reads r tr r' tr' attempts admissions) : Spends ctx now call reads r r' attempts := by
  cases h with
  | observe _ input _ _ same _ hcall hgiven _ hid =>
    have hsame := observedResource_allowance ctx now input r same
    have hrun := observedResource_sameRun ctx now input r same
    unfold noteHumanRequest
    split
    · rename_i hhuman
      refine .admits ?_ ?_ ?_ rfl
      · rw [hgiven.key, Option.isSome_map, hgiven.trigger] at hhuman
        simp [hcall, Call.admitsHuman, ← hgiven.id, hid, hhuman.1, hhuman.2]
      · exact (touchResource_sequence _ _ _).trans hsame.sequence
      · exact (touchResource_currentAttemptId _ _ _).trans hrun.current
    · exact .keeps hsame.sequence (fun hfresh => hsame.fresh ▸ hfresh) (.inl hrun.current) .nil
  | record => exact .keeps rfl id (.inl rfl) .nil
  | wake => exact .keeps rfl id (.inl rfl) .nil
  | grant input _ _ previous untriggered _ _ hcall _ _ hallowed hlimit =>
    refine .grants input hcall hallowed hlimit ?_ ?_ (.interrupted fun b hb => ?_)
    · rw [startRunning, touchResource_sequence]
      exact (takeOver_allowance now untriggered previous r).sequence
    · rw [startRunning, touchResource_freshHumanInput]
    · rcases List.mem_append.mp hb with hb | hb
      · exact .inl (previous_interrupted (recoveredAttempt_state now untriggered) b hb)
      · rw [List.mem_singleton.mp hb]
        exact .inr rfl
  | backOff _ previous =>
    exact .touched (takeOver_allowance now false previous r) rfl (by rintro ⟨⟩) (.inr rfl)
      (.interrupted fun b hb => .inl (previous_interrupted (fun _ => rfl) b hb))
  | adopt _ limit a _ _ _ _ _ _ hlimit =>
    exact .adopts limit hlimit
  | fail _ a _ _ _ _ _ _ _ _ hclaim houtcome =>
    have hwaits := Resource.SameAllowance.ofWaits (inputOutcomeAdmissions_onlyWaits houtcome)
    refine .failed hclaim.runs ?_ ?_ hwaits.fresh.symm rfl (Resource.release_freshHumanInput _ _) rfl
    · rw [failedAttempt, Attempt.noteFailure_same]
      rfl
    · simp [Attempt.unsuccessful, failedAttempt, Attempt.finish]
  | report claim a _ _ _ retained keys _ _ _ hclaim _ houtcome haccepted =>
    have hwaits := (Resource.SameAllowance.ofWaits (inputOutcomeAdmissions_onlyWaits houtcome)).trans
      (.ofWaits (retainPendingInputs_onlyWaits reads.late claim.generation retained keys))
    refine .failed hclaim.runs ?_ ?_ hwaits.fresh.symm rfl (Resource.release_freshHumanInput _ _) rfl
    · rw [Attempt.noteFailure_same]
      rfl
    · simp [Attempt.unsuccessful, Attempt.finish, haccepted, acceptedAttemptResult]
  | complete _ a _ _ _ t _ _ _ _ _ hcall hclaim _ _ _ haccepted _ hnext =>
    refine .renews (by simp [hcall, Call.renews, hclaim.own.symm]) (.inl ?_) ?_ (.one ?_)
    · rw [hnext, completedResource, touchResource_sequence]
      rfl
    · rw [hnext, completedResource, touchResource_currentAttemptId]
    · rw [settledWorkspace_same]
      simp [Attempt.unsuccessful, Attempt.finish, haccepted, acceptedAttemptResult]
  | defer claim a input _ relinked t _ keys _ _ reviewAt _ _ _ hcall hclaim _ _ _ _ hlinks haccepted hnext =>
    have hrelinked := Resource.SameAllowance.ofRelinks hlinks
    have hwaits := Resource.SameAllowance.ofWaits (retainDeferredInputs_onlyWaits reads.late claim.generation relinked t
      input.continue_ (input.conditions.map ConditionDecl.id) reviewAt keys)
    refine .renews (by simp [hcall, Call.renews, hclaim.own.symm]) (.inl ?_) ?_ (.one ?_)
    · rw [hnext, deferredResource, touchResource_sequence]
      exact hwaits.sequence.trans (hrelinked.sequence.trans (Resource.release_completed_sequence _))
    · rw [hnext, deferredResource, touchResource_currentAttemptId]
    · simp [Attempt.unsuccessful, Attempt.finish, haccepted.1]
  | change claim a input relinked t keys _ _ _ hclaim _ hlinks =>
    have hwaits := retainChangedInputs_onlyWaits reads.late claim.generation relinked t
      (input.conditions.map ConditionDecl.id) keys
    refine .touched ((Resource.SameAllowance.ofRelinks hlinks).trans (.ofWaits hwaits)) rfl id
      (.inl (hlinks.sameRun.trans hwaits.sameRun).current) (.one ?_)
    simp [Attempt.unsuccessful, recordChange, hclaim.runs.state]
  | release => exact .touched (.ofInterrupted r) rfl id (.inr rfl) (.one rfl)
  | stop a _ _ _ hcall =>
    refine .renews (by simp [hcall, Call.renews]) ?_ (touchResource_currentAttemptId _ _ _) (.one rfl)
    rw [stoppedResource, touchResource_sequence]
    cases hexhausted : r.status.retryExhausted with
    | none => exact .inl (by simp [dropInputWaits, Resource.release, hexhausted])
    | some => exact .inr ⟨by simp [dropInputWaits, Resource.release, hexhausted, Resource.sequence], rfl⟩
  | unadmit _ _ _ _ _ _ hlinks => exact .touched (.ofRelinks hlinks) rfl id (.inr rfl) .nil
  | workspace _ a _ _ hruns =>
    exact .touched (q := r) ⟨rfl, rfl⟩ rfl id (.inl rfl) (.one (by simp [Attempt.unsuccessful, hruns.state]))
  | retry _ a hcall hid =>
    exact .renews (by simp [hcall, Call.renews, hid]) (.inl (touchResource_sequence _ _ _))
      (touchResource_currentAttemptId _ _ _) .nil
  | cancel _ previous =>
    exact .touched (takeOver_allowance now false previous r) rfl id (.inr rfl)
      (.interrupted fun b hb => .inl (previous_interrupted (fun _ => rfl) b hb))
  | reopen _ _ _ hcall hid => exact .renews (by simp [hcall, Call.renews, hid]) (.inl rfl) rfl .nil

theorem Aside.spends (h : Aside now call reads r tr r' tr') : Spends ctx now call reads r r' [] := by
  obtain ⟨unblock, _, hcall, _, _, _⟩ := h
  cases unblock with
  | none => exact .keeps rfl id (.inl rfl) .nil
  | some reason =>
    show Spends ctx now call reads r (unblockResource now reason r) []
    refine .renews ?_ (.inl (touchResource_sequence _ _ _)) (touchResource_currentAttemptId _ _ _) .nil
    simp [Call.renews, ← hcall]

/-! ### Exhausted Tasks do not queue -/

/-- A Task whose allowance is exhausted is not pending. -/
def Resource.Rested (r : Resource) : Prop :=
  r.status.retryExhausted.isSome = true → r.status.currentAttemptId = none → r.status.phase ≠ .pending

theorem touchResource_rested (now : Int) (r : Resource) (change : Status → Status) :
    (touchResource now r change).Rested := by
  unfold Resource.Rested touchResource Status.settlePhase
  dsimp only
  split
  · intro _ _
    simp
  · rename_i hpending
    intro hexhausted hidle hphase
    exact hpending ⟨hexhausted, hphase, hidle⟩

theorem Resource.Rested.congr {q q' : Resource} (h : q.Rested) (hsequence : q'.sequence = q.sequence)
    (hrun : q.SameRun q') : q'.Rested := by
  intro hexhausted hidle
  rw [hrun.phase]
  refine h ?_ (hrun.current ▸ hidle)
  have : q'.status.retryExhausted = q.status.retryExhausted := congrArg FailureSequence.exhausted hsequence
  rwa [this] at hexhausted

/-- A lawful change keeps a Task rested. -/
theorem Change.rested
    (h : Change ctx now call reads r tr r' tr' attempts admissions) (hr : r.Rested) : r'.Rested := by
  cases h with
  | observe _ input _ _ same =>
    unfold noteHumanRequest
    split
    · exact touchResource_rested _ _ _
    · exact hr.congr (observedResource_allowance ctx now input r same).sequence
        (observedResource_sameRun ctx now input r same)
  | record => exact hr
  | wake => exact hr
  | complete _ a _ _ _ t _ _ _ _ _ _ _ _ _ _ _ _ hnext =>
    rw [hnext]
    exact touchResource_rested _ _ _
  | defer _ a _ _ _ t _ _ _ _ _ _ _ _ _ _ _ _ _ _ _ _ hnext =>
    rw [hnext]
    exact touchResource_rested _ _ _
  | reopen =>
    intro hexhausted
    cases hexhausted
  | _ => exact touchResource_rested _ _ _

theorem Aside.rested (h : Aside now call reads r tr r' tr') (hr : r.Rested) : r'.Rested := by
  obtain ⟨unblock, _, _, _, _, _⟩ := h
  cases unblock with
  | none => exact hr
  | some reason =>
    show (unblockResource now reason r).Rested
    exact touchResource_rested _ _ _

/-! ### Running attempts carry no exhaustion -/

theorem Change.unexhausted
    (h : Change ctx now call reads r tr r' tr' attempts admissions) {b : Attempt} (hb : b ∈ attempts)
    (hstate : b.state = .running) :
    b.retryExhausted = none ∨ ∃ a : Attempt, a.RunsFor reads r ∧ a.id = b.id ∧ b.retryExhausted = a.retryExhausted := by
  cases h with
  | observe | record | wake | unadmit | retry | reopen => cases hb
  | grant _ _ _ _ untriggered =>
    rcases List.mem_append.mp hb with hb | hb
    · rw [previous_interrupted (recoveredAttempt_state now untriggered) b hb] at hstate
      cases hstate
    · rw [List.mem_singleton.mp hb]
      exact .inl rfl
  | backOff =>
    rw [previous_interrupted (fun _ => rfl) b hb] at hstate
    cases hstate
  | cancel =>
    rw [previous_interrupted (fun _ => rfl) b hb] at hstate
    cases hstate
  | adopt _ _ a _ _ _ _ _ _ _ _ _ hfailed =>
    rw [List.mem_singleton.mp hb] at hstate
    have hrunning : a.state = .running := hstate
    simp [Attempt.unsuccessful, hrunning] at hfailed
  | complete =>
    rw [List.mem_singleton.mp hb, settledWorkspace_same] at hstate
    cases hstate
  | change _ a _ _ t _ _ _ _ hclaim =>
    rw [List.mem_singleton.mp hb]
    exact .inr ⟨a, hclaim.runs, rfl, rfl⟩
  | workspace _ a _ _ hruns =>
    rw [List.mem_singleton.mp hb]
    exact .inr ⟨a, hruns, rfl, rfl⟩
  | _ =>
    rw [List.mem_singleton.mp hb] at hstate
    cases hstate

end Cases

end MayAgent
