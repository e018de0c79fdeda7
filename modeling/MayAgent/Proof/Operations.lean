import MayAgent.Proof.LawfulControl
import MayAgent.Proof.LawfulIntake
import MayAgent.Proof.LawfulSettle

/-!
# Every operation is lawful

Whatever a call plans to commit is a lawful mutation, if the stores it read were well formed.
-/

namespace MayAgent

theorem Plan.effect_eq_commit {ρ : Type} {plan : Plan ρ} {m : Mutation} (h : plan.effect = .commit m) :
    ∃ result, plan = .commit m result := by
  cases plan with
  | commit _ result =>
    cases h
    exact ⟨result, rfl⟩
  | _ => cases h

/-- Whatever a call commits is lawful. -/
theorem Call.effect_lawful {ctx : Context} {now : Int} {reads : Reads} {call : Call} {m : Mutation}
    (hs : reads.snapshot.WellFormed) (hlate : reads.late.WellFormed)
    (hatomic : call.atomic = true → reads.late = reads.snapshot) (h : call.effect ctx now reads = .commit m) :
    m.Lawful ctx now call reads := by
  cases call with
  | observe =>
    obtain ⟨_, h⟩ := Plan.effect_eq_commit h
    exact observeAppTaskIntent_lawful hs h
  | record =>
    obtain ⟨_, h⟩ := Plan.effect_eq_commit h
    exact recordAppTaskTrigger_lawful hs h
  | track =>
    obtain ⟨_, h⟩ := Plan.effect_eq_commit h
    exact trackAppTaskConditionEventForTasks_lawful hs h
  | claim =>
    obtain ⟨_, h⟩ := Plan.effect_eq_commit h
    exact claimObservedAppTask_lawful hs hlate h
  | fail =>
    obtain ⟨_, h⟩ := Plan.effect_eq_commit h
    exact failAppTaskAttempt_lawful hs h
  | report =>
    obtain ⟨_, h⟩ := Plan.effect_eq_commit h
    exact reportAppTaskFailure_lawful hs h
  | complete =>
    obtain ⟨_, h⟩ := Plan.effect_eq_commit h
    exact completeAppTask_lawful hs h
  | defer =>
    obtain ⟨_, h⟩ := Plan.effect_eq_commit h
    exact deferAppTask_lawful hs h
  | change =>
    obtain ⟨_, h⟩ := Plan.effect_eq_commit h
    exact applyRunningTaskChanges_lawful hs h
  | releaseInterrupted =>
    obtain ⟨_, h⟩ := Plan.effect_eq_commit h
    exact releaseInterruptedAppTaskAttempt_lawful hs h
  | releaseTerminal =>
    obtain ⟨_, h⟩ := Plan.effect_eq_commit h
    exact releaseTerminalSessionExpiredAppTaskAttempt_lawful hs h
  | releaseLate =>
    obtain ⟨_, h⟩ := Plan.effect_eq_commit h
    exact releaseLateTerminalWorkflowAppTaskAttempt_lawful hs h
  | releaseStale =>
    obtain ⟨_, h⟩ := Plan.effect_eq_commit h
    exact releaseStaleAppTaskResult_lawful hs h
  | stop =>
    obtain ⟨_, h⟩ := Plan.effect_eq_commit h
    exact stopAppTaskAttempt_lawful hs h
  | repairUnadmitted =>
    obtain ⟨_, h⟩ := Plan.effect_eq_commit h
    exact repairUnadmittedAppDependencyWaits_lawful hs h
  | repairRunning =>
    obtain ⟨_, h⟩ := Plan.effect_eq_commit h
    exact absurd h (repairRunningAppTasksWithoutAttempt_idle hs)
  | workspace =>
    obtain ⟨_, h⟩ := Plan.effect_eq_commit h
    exact recordAppTaskAttemptWorkspace_lawful hs h
  | releasedWorkspace =>
    obtain ⟨_, h⟩ := Plan.effect_eq_commit h
    exact recordReleasedAppTaskWorkspace_lawful hlate (hatomic rfl) h
  | renewLease =>
    obtain ⟨_, h⟩ := Plan.effect_eq_commit h
    exact renewAppTaskAttemptLease_lawful hs h
  | session =>
    obtain ⟨_, h⟩ := Plan.effect_eq_commit h
    exact recordAppTaskAttemptSession_lawful hs h
  | associate =>
    obtain ⟨_, h⟩ := Plan.effect_eq_commit h
    exact associateAppTaskSession_lawful hs h
  | retry =>
    obtain ⟨_, h⟩ := Plan.effect_eq_commit h
    exact retryFailedAppTask_lawful hs hlate h
  | close =>
    obtain ⟨_, h⟩ := Plan.effect_eq_commit h
    exact closeAppTask_lawful hs h
  | cancel =>
    obtain ⟨_, h⟩ := Plan.effect_eq_commit h
    exact closeTask_lawful hs h rfl
  | reopen =>
    obtain ⟨_, h⟩ := Plan.effect_eq_commit h
    exact reopenAppTask_lawful hs h

end MayAgent
