import MayAgent.Property.Closures
import MayAgent.Property.Containment

/-!
# Generations of Tasks and attempts

A Task has a generation that a revision of its specification and a reopening raise, and an attempt is started for the
generation its Task has then. The claim reads the Task some time before it lands; the fence on the version makes the
generation it read the stored one.
-/

namespace MayAgent

/-- From `o` to `s` no generation decreases, and an attempt that was started in between is for a generation between those
that its Task had. -/
structure Advances (o s : Store) : Prop extends Lineage o s where
  generation : ∀ k r tr, o.task k = some (r, tr) →
    ∃ r' tr', s.task k = some (r', tr') ∧ r.metadata.generation ≤ r'.metadata.generation
  started : ∀ id a, o.attempts.get id = none → s.attempts.get id = some a →
    (∀ r tr, o.task a.taskId = some (r, tr) → r.metadata.generation ≤ a.taskGeneration) ∧
      ∃ r' tr', s.task a.taskId = some (r', tr') ∧ a.taskGeneration ≤ r'.metadata.generation

namespace Advances

theorem refl (s : Store) : Advances s s := by
  refine ⟨.refl s, fun k r tr hr => ⟨r, tr, hr, le_rfl⟩, fun id a hnone ha => ?_⟩
  cases hnone.symm.trans ha

theorem trans {o s s' : Store} (h : Advances o s) (h' : Advances s s') : Advances o s' := by
  refine ⟨h.toLineage.trans h'.toLineage, fun k r tr hr => ?_, fun id a hnone ha => ?_⟩
  · obtain ⟨r₁, tr₁, hr₁, hle₁⟩ := h.generation k r tr hr
    obtain ⟨r₂, tr₂, hr₂, hle₂⟩ := h'.generation k r₁ tr₁ hr₁
    exact ⟨r₂, tr₂, hr₂, hle₁.trans hle₂⟩
  · -- Either way the bound on one side is known, and the other one follows from the generations of the Task.
    cases hmiddle : s.attempts.get id with
    | none =>
      obtain ⟨hlower, hupper⟩ := h'.started id a hmiddle ha
      refine ⟨fun r tr hr => ?_, hupper⟩
      obtain ⟨r₁, tr₁, hr₁, hle⟩ := h.generation _ r tr hr
      exact hle.trans (hlower r₁ tr₁ hr₁)
    | some b =>
      obtain ⟨_, ha', hcontinues⟩ := h'.attempts id b hmiddle
      cases ha.symm.trans ha'
      rw [hcontinues.task, hcontinues.generation]
      obtain ⟨hlower, r₁, tr₁, hr₁, hupper⟩ := h.started id b hnone hmiddle
      obtain ⟨r₂, tr₂, hr₂, hle⟩ := h'.generation _ r₁ tr₁ hr₁
      exact ⟨hlower, r₂, tr₂, hr₂, hupper.trans hle⟩

end Advances

/-! ### What one change does -/

theorem observedResource_generation_le (ctx : Context) (now : Int) (input : ObserveInput) (r : Resource) (same : Bool) :
    r.metadata.generation ≤ (observedResource ctx now input (some r) same).metadata.generation := by
  unfold observedResource
  simp only
  split
  · split <;> exact le_rfl
  · exact (Nat.le_succ _).trans (le_max_right _ _)

theorem noteHumanRequest_generation (now : Int) (input : ObserveInput) (key : Option String) (r : Resource) :
    (noteHumanRequest now input key r).metadata.generation = r.metadata.generation := by
  unfold noteHumanRequest
  split <;> rfl

section Changes

variable {ctx : Context} {now : Int} {call : Call} {reads : Reads} {r r' : Resource} {tr tr' : Option Trigger}

theorem Change.generation_le {attempts : List Attempt} {admissions : List (String × Admission)}
    (h : Change ctx now call reads r tr r' tr' attempts admissions) :
    r.metadata.generation ≤ r'.metadata.generation := by
  cases h with
  | observe _ input _ _ same =>
    rw [noteHumanRequest_generation]
    exact observedResource_generation_le ctx now input r same
  | grant => exact (takeOver_generation _ _ _ _).ge
  | backOff => exact (takeOver_generation _ _ _ _).ge
  | cancel => exact (takeOver_generation _ _ _ _).ge
  | adopt _ _ _ _ _ _ _ _ _ _ _ _ _ _ houtcome =>
    exact (congrArg Metadata.generation (inputOutcomeAdmissions_onlyWaits houtcome).metadata).ge
  | fail _ _ _ _ _ _ _ _ _ _ _ houtcome =>
    exact (congrArg Metadata.generation (inputOutcomeAdmissions_onlyWaits houtcome).metadata).ge
  | report _ _ _ _ _ _ _ _ _ _ _ _ houtcome =>
    exact (congrArg Metadata.generation
      ((retainPendingInputs_onlyWaits _ _ _ _).metadata.trans (inputOutcomeAdmissions_onlyWaits houtcome).metadata)).ge
  | complete _ _ _ _ _ _ _ _ _ _ _ _ _ _ houtcome hlinks _ _ hnext =>
    subst hnext
    exact (hlinks.generation.trans (congrArg Metadata.generation (inputOutcomeAdmissions_onlyWaits houtcome).metadata)).ge
  | defer _ _ _ _ _ _ _ _ _ _ _ _ _ _ _ _ _ _ houtcome _ hlinks _ hnext =>
    subst hnext
    exact ((congrArg Metadata.generation (retainDeferredInputs_onlyWaits _ _ _ _ _ _ _ _).metadata).trans
      (hlinks.generation.trans (congrArg Metadata.generation (inputOutcomeAdmissions_onlyWaits houtcome).metadata))).ge
  | change _ _ _ _ _ _ _ _ _ _ _ hlinks =>
    exact ((congrArg Metadata.generation (retainChangedInputs_onlyWaits _ _ _ _ _ _).metadata).trans hlinks.generation).ge
  | unadmit _ _ _ _ _ _ hlinks => exact hlinks.generation.ge
  | reopen => exact Nat.le_succ _
  | _ => exact le_rfl

theorem Aside.generation_le (h : Aside now call reads r tr r' tr') : r.metadata.generation ≤ r'.metadata.generation := by
  obtain ⟨unblock, _, _, _, _, _⟩ := h
  cases unblock <;> exact le_rfl

end Changes

/-! ### Runs -/

section Landing

variable {ctx : Context} {now : Int} {call : Call} {reads : Reads} {s : Store} {m : Mutation}

theorem Landed.generation (h : Landed ctx now call reads s m) (landedAt : Int) {k : String} {r : Resource}
    {tr : Option Trigger} (hr : s.task k = some (r, tr)) :
    ∃ r' tr', (s.applyMutation landedAt m).task k = some (r', tr') ∧ r.metadata.generation ≤ r'.metadata.generation := by
  obtain ⟨r', tr', hr', -⟩ := (h.lineage landedAt).task hr
  refine ⟨r', tr', hr', ?_⟩
  rcases h.task_cases landedAt hr' with ⟨hsame, -⟩ | ⟨_, _, hfound, -, hchange⟩ | ⟨hnone, -, -⟩
  · cases hr.symm.trans hsame
    exact le_rfl
  · obtain ⟨_, hstored⟩ := hfound.stored
    cases hr.symm.trans hstored
    exact hchange.elim Change.generation_le fun haside => haside.2.generation_le
  · cases hr.symm.trans hnone

theorem Starts.generation {input : ClaimInput} {r : Resource} {tr tr' : Option Trigger} {a : Attempt}
    (h : Starts ctx now input reads r tr tr' a) : a.taskGeneration = r.metadata.generation := by
  cases h with
  | start => exact takeOver_generation _ _ _ _

/-- A claim that lands starts its attempt for the generation that is stored. -/
theorem Landed.started_generation (h : Landed ctx now call reads s m) {a : Attempt} (ha : a ∈ m.attempts)
    (hnone : s.attempts.get a.id = none) :
    ∃ r tr, s.task a.taskId = some (r, tr) ∧ a.taskGeneration = r.metadata.generation := by
  obtain ⟨_, r, tr, w, -, hread, hw, hwid, htask, hstarts⟩ := h.started ha hnone
  rcases h.write hw with ⟨_, hfound, -⟩ | ⟨-, hempty, -⟩
  · rw [hwid] at hfound
    obtain ⟨_, hread₀⟩ := hfound.read
    obtain ⟨tr₁, hstored⟩ := hfound.stored
    cases hread.symm.trans hread₀
    exact ⟨r, tr₁, htask ▸ hstored, hstarts.generation⟩
  · rw [hempty] at ha
    cases ha

theorem Landed.advances (h : Landed ctx now call reads s m) (landedAt : Int) :
    Advances s (s.applyMutation landedAt m) := by
  refine ⟨h.lineage landedAt, fun k r tr => h.generation landedAt, fun id a hnone ha => ?_⟩
  rcases Landed.attempts_cases ha with ⟨hv, rfl⟩ | ⟨-, hget⟩
  · obtain ⟨r, tr, hr, hgeneration⟩ := h.started_generation hv hnone
    rw [hgeneration]
    refine ⟨fun r₀ tr₀ hr₀ => ?_, h.generation landedAt hr⟩
    cases hr.symm.trans hr₀
    exact le_rfl
  · cases hget.symm.trans hnone

end Landing

theorem Store.Bumps.advances {s s' : Store} (h : s.Bumps s') : Advances s s' := by
  refine ⟨h.lineage, fun k r tr hr => ?_, fun id a hnone ha => ?_⟩
  · obtain ⟨r', tr', hr', ⟨rfl, -⟩ | rfl⟩ := h.after hr
    · exact ⟨r', tr', hr', le_rfl⟩
    · exact ⟨r.bump, tr', hr', le_rfl⟩
  · rw [h.attempts, hnone] at ha
    cases ha

/-- In every history of any number of processes, from a store to every later one: generations do not decrease, and an
attempt that was started in between is for a generation between those that its Task had in the two stores. -/
theorem generations_advance {ok : Store → Action → Prop} {h : List Store} (hrun : History ok h) : Ordered Advances h := by
  refine (Run.invariant (I := fun _ => True) Advances.refl (fun _ _ _ => Advances.trans) (fun _ _ => trivial)
    (fun s past s' hrun _ _ hstep => ⟨trivial, ?_⟩) hrun).2
  obtain ⟨_, -, -, hidle | ⟨_, _, _, _, _, -, -, hwake⟩ | ⟨landing, m, -, -, -, hlanded, rfl⟩⟩ :=
    History.step_cases hrun hstep
  · exact hidle.bumps.advances
  · exact (persistExactTaskWake_bumps hwake).advances
  · exact hlanded.advances landing.landedAt

/-- A Task that was observed and then claimed. -/
theorem generations_advance_claimed : (Sample.observed.task "a").isSome = true ∧
    (Sample.claimed.attempts.get "r_1_u1").isSome = true ∧ Advances Sample.observed Sample.claimed := by
  obtain ⟨past, hobserved⟩ := (@Sample.observed_reachable (fun _ _ => True) trivial).history
  have hclaimed : History (fun _ _ => True) (Sample.claimed :: Sample.observed :: past) :=
    hobserved.call Sample.context 2 (ClaimInput.fresh_of_suffix (by decide +kernel)) trivial
  exact ⟨by decide +kernel, by decide +kernel, generations_advance hclaimed _ _ (List.suffix_refl _) _
    (List.mem_cons_of_mem _ List.mem_cons_self)⟩

end MayAgent
