import MayAgent.Property.Answers

/-!
# What a version and a closure stand for

The version of a Task identifies the Task, its closure and what was executed for it, and never returns. While a Task is
closed nothing is executed for it, whatever a process read before the closure: no claim is granted and no result of an
earlier claim is accepted until the Task is reopened.
-/

namespace MayAgent

/-- The attempts of a Task with their state and outcome, apart from their versions, sessions, leases and workspaces. -/
def Store.executions (s : Store) (k : String) (id : String) : Option Attempt :=
  ((s.attempts.get id).filter fun a => a.taskId == k).map Attempt.core

/-- In every history a Task is never lost and its version never decreases; with the same version it is the same Task, with
the same closure, and for which the same was executed. -/
theorem version_identifies {ok : Store → Action → Prop} {h : List Store} (hrun : History ok h) :
    Ordered (fun o s => ∀ k r tr, o.task k = some (r, tr) → ∃ r' tr', s.task k = some (r', tr') ∧
      r.metadata.resourceVersion ≤ r'.metadata.resourceVersion ∧
      (r'.metadata.resourceVersion = r.metadata.resourceVersion →
        r' = r ∧ s.cancellations.get k = o.cancellations.get k ∧ s.executions k = o.executions k)) h := by
  intro s past hsuffix o ho k r tr hr
  have hlineage := (History.sound hrun).2 s past hsuffix o ho
  obtain ⟨r', tr', hr', hle⟩ := hlineage.task hr
  refine ⟨r', tr', hr', hle, fun hversion => ?_⟩
  have hsame := hlineage.unchanged hr hr' hversion
  rw [Store.standing_of_task hr, Store.standing_of_task hr', Option.some.injEq, Standing.mk.injEq] at hsame
  exact ⟨hsame.1.symm, hsame.2.1.symm, hsame.2.2.symm⟩

variable {ok : Store → Action → Prop} {s : Store} {past : List Store} {now : Int} {reads : Reads} {k : String}

namespace Sample.Closing

/-- The Task `a` is closed after its first attempt, an event is journaled, and the Task is reopened. -/
def closed : Store := (cancel "a" 1 3).perform context 4 failed
def journaled : Store := Action.next closed (.journal 5)
def reopened : Store := (reopen "a" 1 4 "r").perform context 5 journaled

theorem reopened_history : ∃ past, History (fun _ _ => True) (reopened :: journaled :: closed :: past) := by
  obtain ⟨past, hrun⟩ := failed_reachable.history
  have hclosed : History (fun _ _ => True) (closed :: failed :: past) := hrun.call context 4 trivial trivial
  have hjournaled : History (fun _ _ => True) (journaled :: closed :: failed :: past) :=
    .next hclosed ⟨closed, _, .journal 5, rfl, show closed.lastEventId < 5 by decide +kernel, trivial, trivial, rfl⟩
  exact ⟨failed :: past, hjournaled.call context 5 trivial trivial⟩

theorem closed_executed : (closed.task "a").isSome = true ∧ (closed.executions "a" "r_1_u1").isSome = true := by
  decide +kernel

end Sample.Closing

open Sample.Closing in
/-- An event that is journaled while the Task is closed leaves its version, and with it the Task and its attempt. -/
theorem version_identifies_journaled : ∃ r tr tr', closed.task "a" = some (r, tr) ∧ journaled.task "a" = some (r, tr') ∧
    (closed.executions "a" "r_1_u1").isSome = true ∧ journaled.executions "a" = closed.executions "a" := by
  obtain ⟨_, hrun⟩ := reopened_history
  obtain ⟨⟨r, tr⟩, hr⟩ := Option.isSome_iff_exists.mp closed_executed.1
  obtain ⟨r', tr', hr', -, hsame⟩ := version_identifies hrun _ _ (List.suffix_cons _ _) closed
    (List.mem_cons_of_mem _ List.mem_cons_self) "a" r tr hr
  have hversion : r'.metadata.resourceVersion = r.metadata.resourceVersion := by
    cases hr'.symm.trans hr
    rfl
  obtain ⟨rfl, -, hexecutions⟩ := hsame hversion
  exact ⟨r', tr, tr', hr, hr', closed_executed.2, hexecutions⟩

/-! ### Closed Tasks -/

/-- A closed Task has no attempt that could be settled, and a claim looks for the closure behind everything else it reads. -/
theorem Change.closed_attempts {ctx : Context} {call : Call} {r r' : Resource}
    {tr tr' : Option Trigger} {attempts : List Attempt} {admissions : List (String × Admission)}
    (h : Change ctx now call reads r tr r' tr' attempts admissions)
    (hclosed : reads.late.isCancelled r.metadata.id = true) (hidle : r.status.currentAttemptId = none) :
    attempts = [] := by
  have hopen : reads.late.isCancelled r.metadata.id ≠ false := by
    rw [hclosed]
    decide
  have hstopped : ∀ a : Attempt, ¬a.RunsFor reads r := by
    intro a hruns
    exact Option.some_ne_none a.id (hruns.current.symm.trans hidle)
  cases h with
  | grant _ _ _ _ _ _ _ _ _ h => exact absurd h hopen
  | backOff _ _ _ _ _ _ h => exact absurd h hopen
  | adopt _ _ _ _ _ _ _ _ h => exact absurd h hopen
  | fail _ a _ _ _ _ _ _ _ _ hclaim => exact absurd hclaim.runs (hstopped a)
  | report _ a _ _ _ _ _ _ _ _ hclaim => exact absurd hclaim.runs (hstopped a)
  | complete _ a _ _ _ _ _ _ _ _ _ _ hclaim => exact absurd hclaim.runs (hstopped a)
  | defer _ a _ _ _ _ _ _ _ _ _ _ _ _ _ hclaim => exact absurd hclaim.runs (hstopped a)
  | change _ a _ _ _ _ _ _ _ hclaim => exact absurd hclaim.runs (hstopped a)
  | release a _ _ _ _ hruns => exact absurd hruns (hstopped a)
  | stop a _ _ _ _ hruns => exact absurd hruns (hstopped a)
  | workspace _ a _ _ hruns => exact absurd hruns (hstopped a)
  | cancel _ previous _ hprevious =>
    cases previous with
    | none => rfl
    | some a => exact absurd hprevious (hstopped a)
  | _ => rfl

theorem Landed.closed_executions {ctx : Context} {call : Call} {m : Mutation}
    (h : Landed ctx now call reads s m) (landedAt : Int) (hclosed : s.isCancelled k = true) :
    (s.applyMutation landedAt m).executions k = s.executions k := by
  refine funext (h.attempts_core landedAt fun a' ha' htask => ?_)
  by_cases hwritten : ∃ w ∈ m.tasks, w.resource.metadata.id = a'.taskId
  · obtain ⟨w, hw, hwid⟩ := hwritten
    have hwk := hwid.trans htask
    have hmem : a' ∈ m.attempts.filter fun a => a.taskId == w.resource.metadata.id := by simp [ha', hwid]
    rcases h.lawful.task w hw with ⟨r, _, hr, hfence, hchange | ⟨hnone, -⟩⟩ | ⟨-, hnone, -⟩
    · have hown := h.snapshot.taskId _ _ _ hr
      have hfound := h.found hr hfence hown rfl
      rw [hwk] at hfound hown
      obtain ⟨_, hstored⟩ := hfound.stored
      rw [hchange.closed_attempts (by rw [hown, ← hfound.late_closure, hclosed])
        (h.sound.closedIdle _ _ _ hstored hclosed)] at hmem
      cases hmem
    · rw [hnone] at hmem
      cases hmem
    · rw [hnone] at ha'
      cases ha'
  · push Not at hwritten
    exact h.annotated ha' hwritten

theorem History.closed_step {s' : Store} (hrun : History ok (s' :: s :: past))
    (hclosed : s.isCancelled k = true) : s'.executions k = s.executions k := by
  cases hrun with
  | next hrun hstep =>
    obtain ⟨_, -, -, hidle | ⟨_, _, _, _, _, -, -, hwake⟩ | ⟨landing, m, -, -, -, hlanded, rfl⟩⟩ :=
      History.step_cases hrun hstep
    · funext id
      simp only [Store.executions, hidle.attempts]
    · funext id
      simp only [Store.executions, (persistExactTaskWake_bumps hwake).attempts]
    · exact hlanded.closed_executions landing.landedAt hclosed

/-- In every history, from a store in which a Task is closed up to the store in which it is reopened: nothing is executed
for it, and none of its attempts is running while it is closed. -/
theorem closed_executes_nothing {ok : Store → Action → Prop} {h : List Store} (hrun : History ok h) {k : String} {s : Store}
    {closed past : List Store} (hsuffix : s :: (closed ++ past) <:+ h) (hclosed : ∀ o ∈ closed, o.isCancelled k = true) :
    ∀ o ∈ closed, s.executions k = o.executions k ∧
      ∀ id a, o.attempts.get id = some a → a.taskId = k → a.state ≠ .running := by
  induction closed generalizing s with
  | nil => exact fun o ho => absurd ho List.not_mem_nil
  | cons s₁ closed ih =>
    have hlater := hrun.suffix hsuffix
    have hstep := History.closed_step hlater (hclosed s₁ List.mem_cons_self)
    have hearlier : s₁ :: (closed ++ past) <:+ h := (List.suffix_cons s _).trans hsuffix
    intro o ho
    have hsound := (History.sound hlater).1 o (List.mem_cons_of_mem _ (List.mem_append_left _ ho))
    refine ⟨?_, fun id a ha htask hstate => ?_⟩
    · rcases List.mem_cons.mp ho with rfl | ho
      · exact hstep
      · exact hstep.trans (ih hearlier (fun o ho => hclosed o (List.mem_cons_of_mem _ ho)) o ho).1
    · obtain ⟨r, _, hr, hcurrent⟩ := hsound.exclusive id a ha hstate
      rw [hsound.closedIdle _ _ _ hr (htask ▸ hclosed o ho)] at hcurrent
      cases hcurrent

open Sample.Closing in
/-- The reopening finds the attempt that had been executed when the Task was closed. -/
theorem closed_executes_nothing_reopened : reopened.executions "a" = closed.executions "a" ∧
    (closed.executions "a" "r_1_u1").isSome = true ∧ closed.isCancelled "a" = true ∧ reopened.isCancelled "a" = false := by
  obtain ⟨past, hrun⟩ := reopened_history
  have hclosed : closed.isCancelled "a" = true ∧ journaled.isCancelled "a" = true ∧ reopened.isCancelled "a" = false := by
    decide +kernel
  have hall : ∀ o ∈ [journaled, closed], o.isCancelled "a" = true := by
    simpa using ⟨hclosed.2.1, hclosed.1⟩
  exact ⟨(closed_executes_nothing hrun (List.suffix_refl (_ :: ([_, _] ++ past))) hall closed (by simp)).1,
    closed_executed.2, hclosed.1, hclosed.2.2⟩

end MayAgent
