import MayAgent.Proof.Histories

/-!
# Exclusive execution

Under any interleaving of processes a Task runs if and only if it names a running attempt of its own,
it has at most one, an ended attempt stays as it ended, and the settlements of a claim that is no
longer current write nothing.
-/

namespace MayAgent

def Call.settles : Call → Option Claim
  | .complete c _ => some c
  | .defer c _ => some c
  | .report c _ => some c
  | .change c _ => some c
  | _ => none

def Claim.Stale (claim : Claim) (s : Store) : Prop :=
  ∀ r tr, s.task claim.taskId = some (r, tr) →
    r.status.currentAttemptId ≠ some claim.attemptId ∨ r.metadata.generation ≠ claim.generation

/-! ### Settlements either commit or do nothing -/

variable {taskId : String} {nextCheckAt : Option Int} {revision : Nat} {ctx : Context} {now : Int} {reads : Reads}
  {call : Call} {claim : Claim} {s : Store}

theorem Plan.check_eq_acknowledge {α ρ : Type} {x : Except TaskError α} {next : α → Plan ρ}
    {result : ρ} :
    Plan.check x next = .acknowledge taskId nextCheckAt revision result ↔
      ∃ a, x = .ok a ∧ next a = .acknowledge taskId nextCheckAt revision result := by
  cases x with
  | error => simp [Plan.check]
  | ok => simp [Plan.check]

theorem Plan.effect_eq_acknowledge {ρ : Type} {plan : Plan ρ}
    (h : plan.effect = .acknowledge taskId nextCheckAt revision) :
    ∃ result, plan = .acknowledge taskId nextCheckAt revision result := by
  cases plan with
  | acknowledge _ _ _ result =>
    cases h
    exact ⟨result, rfl⟩
  | _ => cases h

theorem Call.settles_ne_acknowledge
    (hsettles : call.settles = some claim) :
    call.effect ctx now reads ≠ .acknowledge taskId nextCheckAt revision := by
  intro h
  cases call with
  | complete =>
    obtain ⟨_, h⟩ := Plan.effect_eq_acknowledge h
    unfold completeAppTask at h
    simp only at h
    split at h
    · cases h
    · simp only [Plan.check_eq_acknowledge] at h
      obtain ⟨_, -, _, -, _, -, h⟩ := h
      cases h
  | defer =>
    obtain ⟨_, h⟩ := Plan.effect_eq_acknowledge h
    unfold deferAppTask at h
    simp only at h
    split at h
    · cases h
    · simp only [Plan.check_eq_acknowledge] at h
      obtain ⟨_, -, _, -, _, -, _, -, _, -, _, -, _, -, _, -, h⟩ := h
      cases h
  | report =>
    obtain ⟨_, h⟩ := Plan.effect_eq_acknowledge h
    unfold reportAppTaskFailure at h
    simp only at h
    split at h
    · cases h
    · simp only [Plan.check_eq_acknowledge] at h
      obtain ⟨_, -, _, -, _, -, h⟩ := h
      cases h
  | change =>
    obtain ⟨_, h⟩ := Plan.effect_eq_acknowledge h
    unfold applyRunningTaskChanges at h
    simp only at h
    split at h
    · cases h
    · simp only [Plan.check_eq_acknowledge] at h
      obtain ⟨_, -, _, -, _, -, _, -, _, -, h⟩ := h
      cases h
  | _ => cases hsettles

/-! ### A settlement that lands was current -/

theorem Call.settles_only (h : call.settles = some claim) :
    call.releases = false ∧ call.closes = none ∧ call.taskless = false := by
  cases call <;> first | exact ⟨rfl, rfl, rfl⟩ | cases h

theorem Change.settled {r r' : Resource}
    {tr tr' : Option Trigger} {attempts : List Attempt} {admissions : List (String × Admission)}
    (h : Change ctx now call reads r tr r' tr' attempts admissions) (hsettles : call.settles = some claim) :
    claim.taskId = r.metadata.id ∧ r.status.currentAttemptId = some claim.attemptId ∧
      r.metadata.generation = claim.generation := by
  cases h with
  | report _ a _ _ _ _ _ _ _ hcall hclaim hcurrent =>
    subst hcall
    cases hsettles
    exact ⟨hclaim.own.symm, by rw [hclaim.runs.current, hclaim.attempt], hcurrent⟩
  | complete _ a _ _ _ t _ _ _ _ _ hcall hclaim hcurrent =>
    subst hcall
    cases hsettles
    exact ⟨hclaim.own.symm, by rw [hclaim.runs.current, hclaim.attempt], hcurrent⟩
  | defer _ a _ _ _ t _ _ _ _ _ _ _ _ hcall hclaim hcurrent =>
    subst hcall
    cases hsettles
    exact ⟨hclaim.own.symm, by rw [hclaim.runs.current, hclaim.attempt], hcurrent⟩
  | change _ a _ _ t _ _ _ hcall hclaim hcurrent =>
    subst hcall
    cases hsettles
    exact ⟨hclaim.own.symm, by rw [hclaim.runs.current, hclaim.attempt], hcurrent⟩
  | release a _ _ _ hcall => simp [(Call.settles_only hsettles).1] at hcall
  | cancel _ _ hcall => simp [(Call.settles_only hsettles).2.1] at hcall
  | _ =>
    subst_vars
    cases hsettles

/-- A settlement lands only on the Task that still runs the attempt of its claim at its generation. -/
theorem Landed.settled {m : Mutation}
    (h : Landed ctx now call reads s m) (hsettles : call.settles = some claim) :
    ∃ r, s.Found reads claim.taskId r ∧ r.status.currentAttemptId = some claim.attemptId ∧
      r.metadata.generation = claim.generation := by
  have htasks : m.tasks ≠ [] := by
    intro hnone
    have htaskless := h.lawful.writes hnone
    simp [(Call.settles_only hsettles).2.2] at htaskless
  obtain ⟨w, hw, ⟨-, hcreated⟩ | ⟨r, _, hr, hchange⟩⟩ := h.lawful.acts (.inl htasks)
  · obtain ⟨_, rfl⟩ := hcreated.observes
    cases hsettles
  · obtain ⟨htask, hcurrent, hgeneration⟩ := hchange.settled hsettles
    have hown := h.snapshot.taskId _ _ _ hr
    refine ⟨r, ?_, hcurrent, hgeneration⟩
    rw [htask, hown]
    rcases h.write hw with ⟨_, hfound, -, -⟩ | ⟨hnone, -, -⟩
    · obtain ⟨_, hr₀⟩ := hfound.read
      rw [hr] at hr₀
      cases hr₀
      exact hfound
    · obtain ⟨_, _, hr₁, -⟩ := (h.between.trans h.since).task hr
      rw [hnone] at hr₁
      cases hr₁

theorem Landing.next_of_stale {landing : Landing} (hs : s.Sound) (hpast : landing.reads.Past s)
    (hadmissible : (Action.call landing).Admissible s) (hsettles : landing.call.settles = some claim)
    (hstale : claim.Stale s ∨ claim.Stale landing.reads.snapshot) : landing.next s = s := by
  rcases Landing.next_cases hs hpast hadmissible with hsame | ⟨_, _, _, heffect, -⟩ | ⟨m, -, hlanded, -⟩
  · exact hsame
  · exact absurd heffect (Call.settles_ne_acknowledge hsettles)
  · obtain ⟨r, hfound, hcurrent, hgeneration⟩ := hlanded.settled hsettles
    obtain ⟨tr, hr⟩ := hfound.stored
    obtain ⟨tr', hr'⟩ := hfound.read
    rcases hstale with hstale | hstale
    · rcases hstale r tr hr with hne | hne
      · exact absurd hcurrent hne
      · exact absurd hgeneration hne
    · rcases hstale r tr' hr' with hne | hne
      · exact absurd hcurrent hne
      · exact absurd hgeneration hne

/-! ### The property -/

theorem Store.Sound.running_iff (hs : s.Sound) {k : String} {r : Resource} {tr : Option Trigger}
    (hr : s.task k = some (r, tr)) : r.status.phase = .running ↔
      ∃ id a, r.status.currentAttemptId = some id ∧ s.attempts.get id = some a ∧ a.taskId = k ∧ a.state = .running := by
  have hexecutes := hs.executes _ _ _ hr
  constructor
  · intro hphase
    obtain ⟨id, hid⟩ := Option.isSome_iff_exists.mp (hexecutes.running hphase)
    obtain ⟨-, a, ha, htask, hstate⟩ := hexecutes.current id hid
    exact ⟨id, a, hid, ha, htask.trans (hs.taskId _ _ _ hr), hstate⟩
  · rintro ⟨id, a, hid, -⟩
    exact (hexecutes.current id hid).1

theorem Store.Sound.running_unique (hs : s.Sound) {id id' : String} {a a' : Attempt}
    (ha : s.attempts.get id = some a) (ha' : s.attempts.get id' = some a') (htask : a.taskId = a'.taskId)
    (hstate : a.state = .running) (hstate' : a'.state = .running) : id = id' := by
  obtain ⟨r, _, hr, hcurrent⟩ := hs.exclusive id a ha hstate
  obtain ⟨_, _, hr', hcurrent'⟩ := hs.exclusive id' a' ha' hstate'
  rw [← htask, hr] at hr'
  cases hr'
  rw [hcurrent] at hcurrent'
  exact Option.some.inj hcurrent'

/-- **Exclusive execution.** In every store of every history: a Task is running if and only if its
current attempt is a running attempt of this Task, and it has at most one; an attempt that ended keeps
the state it ended in; and a settlement for a stale claim leaves the store as it is. -/
theorem exclusive_execution {h : List Store} (hrun : History (fun _ _ => True) h) :
    (∀ s ∈ h, ∀ k r tr, s.task k = some (r, tr) → (r.status.phase = .running ↔ ∃ id a,
      r.status.currentAttemptId = some id ∧ s.attempts.get id = some a ∧ a.taskId = k ∧ a.state = .running)) ∧
    (∀ s ∈ h, ∀ id id' a a', s.attempts.get id = some a → s.attempts.get id' = some a' → a.taskId = a'.taskId →
      a.state = .running → a'.state = .running → id = id') ∧
    Ordered (fun o s => ∀ id a, o.attempts.get id = some a → a.state ≠ .running →
      ∃ a', s.attempts.get id = some a' ∧ a'.state = a.state) h ∧
    (∀ s past landing claim, h = s :: past → (Action.call landing).Admissible s → landing.reads.Within h →
      landing.call.settles = some claim → (claim.Stale s ∨ claim.Stale landing.reads.snapshot) →
      landing.next s = s) := by
  obtain ⟨hsound, hordered⟩ := hrun.sound
  refine ⟨?_, ?_, ?_, ?_⟩
  · intro s hs k r tr hr
    exact (hsound s hs).running_iff hr
  · intro s hs id id' a a' ha ha' htask hstate hstate'
    exact (hsound s hs).running_unique ha ha' htask hstate hstate'
  · intro s past hsuffix o ho id a ha hstate
    obtain ⟨a', ha', hcontinues⟩ := (hordered s past hsuffix o ho).attempts id a ha
    exact ⟨a', ha', hcontinues.state hstate⟩
  · rintro s past landing claim rfl hadmissible hreads hsettles hstale
    exact Landing.next_of_stale (hsound s List.mem_cons_self) (Reads.Within.past rfl hsound hordered hreads) hadmissible
      hsettles hstale

/-- In the history of a small App whose Task was observed and claimed the Task runs its one attempt. -/
theorem exclusive_execution_claimed :
    ∃ past r tr, History (fun _ _ => True) (Sample.claimed :: past) ∧ Sample.claimed.task "a" = some (r, tr) ∧
      r.status.phase = .running ∧ ∃ id a, r.status.currentAttemptId = some id ∧
        Sample.claimed.attempts.get id = some a ∧ a.taskId = "a" ∧ a.state = .running := by
  obtain ⟨past, hrun⟩ := (Sample.claimed_reachable (@Sample.observed_reachable (fun _ _ => True) trivial)
    trivial).history
  have hphase : (Sample.claimed.task "a").map (fun row => row.1.status.phase) = some .running := by decide +kernel
  obtain ⟨⟨r, tr⟩, hr, hrunning⟩ := Option.map_eq_some_iff.mp hphase
  exact ⟨past, r, tr, hrun, hr, hrunning,
    ((exclusive_execution hrun).1 _ List.mem_cons_self "a" r tr hr).mp hrunning⟩

end MayAgent
