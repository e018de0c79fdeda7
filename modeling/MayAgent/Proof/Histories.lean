import MayAgent.Proof.Landed

/-!
# Histories

Every store an App passes through is sound, and every later store is a descendant of every earlier one,
whatever the processes read and when.
-/

namespace MayAgent

/-! ### The writers beside the reconciler -/

/-- A step that leaves attempts and closures alone and at most raises the version of Tasks, with another
pending trigger. -/
structure Store.Bumps (s s' : Store) : Prop where
  attempts : s'.attempts = s.attempts
  cancellations : s'.cancellations = s.cancellations
  task : ∀ k, s'.task k = s.task k ∨ ∃ r tr tr', s.task k = some (r, tr) ∧ s'.task k = some (r.bump, tr')

namespace Store.Bumps

variable {s s' : Store}

theorem of_eq (hattempts : s'.attempts = s.attempts) (hcancellations : s'.cancellations = s.cancellations)
    (htask : ∀ k, s'.task k = s.task k) : s.Bumps s' :=
  ⟨hattempts, hcancellations, fun k => .inl (htask k)⟩

variable {k : String}

theorem before (h : s.Bumps s') {r' : Resource} {tr' : Option Trigger} (hr' : s'.task k = some (r', tr')) :
    ∃ r tr, s.task k = some (r, tr) ∧ (r' = r ∨ r' = r.bump) := by
  rcases h.task k with heq | ⟨r, tr, _, hr, hbump⟩
  · exact ⟨r', tr', heq.symm.trans hr', .inl rfl⟩
  · rw [hr'] at hbump
    cases hbump
    exact ⟨r, tr, hr, .inr rfl⟩

theorem after (h : s.Bumps s') {r : Resource} {tr : Option Trigger} (hr : s.task k = some (r, tr)) :
    ∃ r' tr', s'.task k = some (r', tr') ∧ (r' = r ∧ tr' = tr ∨ r' = r.bump) := by
  rcases h.task k with heq | ⟨_, _, tr', hr₀, hbump⟩
  · exact ⟨r, tr, heq.trans hr, .inl ⟨rfl, rfl⟩⟩
  · rw [hr] at hr₀
    cases hr₀
    exact ⟨_, tr', hbump, .inr rfl⟩

theorem isCancelled (h : s.Bumps s') (k : String) : s'.isCancelled k = s.isCancelled k := by
  rw [Store.isCancelled, Store.isCancelled, h.cancellations]

theorem sound (h : s.Bumps s') (hs : s.Sound) : s'.Sound := by
  refine ⟨⟨?_, ?_, ?_, ?_, ?_, ?_⟩, ?_, ?_⟩
  · intro k r' tr' hr'
    obtain ⟨r, tr, hr, hcases⟩ := h.before hr'
    have hid := hs.taskId _ _ _ hr
    rcases hcases with rfl | rfl <;> exact hid
  · rcases h.task "" with heq | ⟨r, tr, tr', hr, -⟩
    · exact heq.trans hs.taskNonempty
    · rw [hs.taskNonempty] at hr
      cases hr
  · rw [h.attempts]
    exact hs.attemptId
  · intro id a ha
    obtain ⟨r, tr, hr⟩ := hs.attemptTask id a (h.attempts ▸ ha)
    obtain ⟨r', tr', hr', -⟩ := h.after hr
    exact ⟨r', tr', hr'⟩
  · intro k r' tr' hr'
    rw [h.attempts]
    obtain ⟨r, tr, hr, rfl | rfl⟩ := h.before hr'
    · exact hs.executes _ _ _ hr
    · have hexecutes := hs.executes _ _ _ hr
      exact ⟨hexecutes.current, hexecutes.running, hexecutes.observed⟩
  · intro id a ha hstate
    obtain ⟨r, tr, hr, hcurrent⟩ := hs.exclusive id a (h.attempts ▸ ha) hstate
    obtain ⟨r', tr', hr', ⟨rfl, -⟩ | rfl⟩ := h.after hr <;> exact ⟨_, tr', hr', hcurrent⟩
  · intro k hclosed
    obtain ⟨r, tr, hr⟩ := hs.closedTask k (h.isCancelled k ▸ hclosed)
    obtain ⟨r', tr', hr', -⟩ := h.after hr
    exact ⟨r', tr', hr'⟩
  · intro k r' tr' hr' hclosed
    rw [h.isCancelled] at hclosed
    obtain ⟨r, tr, hr, hcases⟩ := h.before hr'
    have hidle := hs.closedIdle _ _ _ hr hclosed
    rcases hcases with rfl | rfl <;> exact hidle

theorem lineage (h : s.Bumps s') : Lineage s s' := by
  refine ⟨fun k x hx => ?_, fun id a ha => ⟨a, h.attempts ▸ ha, .refl a⟩⟩
  obtain ⟨_, hr, _, _⟩ := Store.standing_eq_some hx
  obtain ⟨_, _, hr', ⟨rfl, -⟩ | rfl⟩ := h.after hr
  · refine ⟨x, ?_, le_refl _, fun _ => rfl⟩
    rw [Store.standing_of_task hr', h.cancellations, h.attempts, ← Store.standing_of_task hr, hx]
  · exact ⟨_, Store.standing_of_task hr', Nat.le_succ _, fun heq => absurd heq (Nat.succ_ne_self _)⟩

end Store.Bumps

theorem setRecoveryState_task (now : Int) (s : Store) (taskId : String) (nextCheckAt : Option Int) (revision : Nat)
    (k : String) : (s.setRecoveryState now taskId nextCheckAt revision).task k = s.task k := by
  unfold Store.setRecoveryState
  split
  · rfl
  · rename_i row hrow
    split
    · rfl
    · simp only [Store.task, Table.get_put]
      split
      · rename_i hk
        rw [hk, hrow]
        rfl
      · rfl

variable {s s' : Store} {action : Action} {h : List Store} {ok : Store → Action → Prop}

variable {appId taskId : String} {e : Event} {eventId observedAt : Int} {reads : Reads} {landing : Landing}
  {P : Reads → Prop}

/-- A wake stored by itself raises versions and nothing else of a row. -/
theorem persistExactTaskWake_bumps
    (h : s.persistExactTaskWake appId taskId e eventId observedAt = .ok s') : s.Bumps s' := by
  unfold Store.persistExactTaskWake at h
  split at h
  · cases h
  · rename_i row hrow
    simp only at h
    cases h
    refine ⟨rfl, rfl, fun k => ?_⟩
    simp only [Store.task, Table.get_put]
    split
    · rename_i hk
      subst hk
      exact .inr ⟨row.resource, row.trigger, _, by rw [hrow, Option.map_some], rfl⟩
    · exact .inl rfl

theorem persistExactTaskWake_frame
    (h : s.persistExactTaskWake appId taskId e eventId observedAt = .ok s') :
    s'.conditions = s.conditions ∧ s'.routes = s.routes ∧ s'.admissions = s.admissions ∧
      s'.controlReceipts = s.controlReceipts := by
  unfold Store.persistExactTaskWake at h
  split at h
  · cases h
  · simp only at h
    cases h
    exact ⟨rfl, rfl, rfl, rfl⟩

/-! ### Landings -/

/-- What a call read, seen from the store it lands on. -/
structure Reads.Past (reads : Reads) (s : Store) : Prop where
  check : reads.check.Sound
  snapshot : reads.snapshot.Sound
  late : reads.late.Sound
  checked : Lineage reads.check reads.snapshot
  between : Lineage reads.snapshot reads.late
  since : Lineage reads.late s

theorem Reads.Past.now (hs : s.Sound) : (Reads.now s).Past s :=
  ⟨hs, hs, hs, .refl s, .refl s, .refl s⟩

theorem Reads.Within.past {earlier : List Store} (hh : h = s :: earlier)
    (hsound : ∀ o ∈ h, o.Sound) (hordered : Ordered Lineage h) (hreads : reads.Within h) : reads.Past s := by
  obtain ⟨_, _, _, hlate, hsnapshot, hcheck⟩ := hreads
  have hsnapshot' := hsnapshot.trans hlate
  refine ⟨?_, ?_, ?_, ?_, ?_, ?_⟩
  · exact hsound _ ((hcheck.trans hsnapshot').subset List.mem_cons_self)
  · exact hsound _ (hsnapshot'.subset List.mem_cons_self)
  · exact hsound _ (hlate.subset List.mem_cons_self)
  · exact hordered _ _ hsnapshot' _ (hcheck.subset List.mem_cons_self)
  · exact hordered _ _ hlate _ (hsnapshot.subset List.mem_cons_self)
  · exact hordered s earlier (hh ▸ List.suffix_refl _) _ (hh ▸ hlate.subset List.mem_cons_self)

theorem Reads.Within.snapshot_mem (hreads : reads.Within h) : reads.snapshot ∈ h := by
  obtain ⟨_, _, _, hlate, hsnapshot, -⟩ := hreads
  exact (hsnapshot.trans hlate).subset List.mem_cons_self

theorem Landing.landed {m : Mutation} (hs : s.Sound)
    (hpast : landing.reads.Past s) (hadmissible : (Action.call landing).Admissible s)
    (heffect : landing.effect = .commit m) (hcommit : s.commit landing.ctx landing.landedAt m = .ok s') :
    Landed landing.ctx landing.now landing.call landing.reads s m := by
  refine ⟨?_, Store.commitGuard_ok (Store.commit_eq_ok_iff.mp hcommit).1, hs, hpast.snapshot, hpast.late,
    hpast.between, hpast.since, hadmissible.1⟩
  refine Call.effect_lawful hpast.snapshot.toWellFormed hpast.late.toWellFormed ?_ heffect
  intro hatomic
  rw [hadmissible.2 hatomic]
  rfl

theorem Landing.next_cases (hs : s.Sound) (hpast : landing.reads.Past s)
    (hadmissible : (Action.call landing).Admissible s) :
    landing.next s = s ∨
    (∃ taskId nextCheckAt revision, landing.effect = .acknowledge taskId nextCheckAt revision ∧
      landing.next s = s.setRecoveryState landing.landedAt taskId nextCheckAt revision) ∨
    (∃ m, landing.effect = .commit m ∧ Landed landing.ctx landing.now landing.call landing.reads s m ∧
      landing.next s = s.applyMutation landing.landedAt m) := by
  unfold Landing.next
  cases heffect : landing.effect with
  | none => exact .inl rfl
  | acknowledge taskId nextCheckAt revision => exact .inr (.inl ⟨taskId, nextCheckAt, revision, rfl, rfl⟩)
  | commit m =>
    rcases Store.land_commit_cases landing.ctx landing.landedAt s m with hsame | ⟨-, hcommit, hnext⟩
    · exact .inl hsame
    · exact .inr (.inr ⟨m, rfl, Landing.landed hs hpast hadmissible heffect hcommit, hnext⟩)

/-! ### Steps -/

/-- A step that leaves every Task and every other record alone: it touches recovery hints, the journal or
the host's own state at most. -/
structure Store.Idle (s s' : Store) : Prop where
  task : ∀ k, s'.task k = s.task k
  attempts : s'.attempts = s.attempts
  conditions : s'.conditions = s.conditions
  routes : s'.routes = s.routes
  admissions : s'.admissions = s.admissions
  cancellations : s'.cancellations = s.cancellations
  controlReceipts : s'.controlReceipts = s.controlReceipts
  taskEvents : s'.taskEvents = s.taskEvents
  lastEventId : s.lastEventId ≤ s'.lastEventId

theorem Store.Idle.refl (s : Store) : s.Idle s := ⟨fun _ => rfl, rfl, rfl, rfl, rfl, rfl, rfl, rfl, Int.le_refl _⟩

theorem Store.Idle.bumps (h : s.Idle s') : s.Bumps s' := .of_eq h.attempts h.cancellations h.task

theorem setRecoveryState_idle (now : Int) (s : Store) (taskId : String) (nextCheckAt : Option Int) (revision : Nat) :
    s.Idle (s.setRecoveryState now taskId nextCheckAt revision) := by
  have htask := setRecoveryState_task now s taskId nextCheckAt revision
  unfold Store.setRecoveryState at htask ⊢
  split
  · exact .refl s
  · split
    · exact .refl s
    · rename_i row hrow hskip
      simp only [hrow, if_neg hskip] at htask
      exact ⟨htask, rfl, rfl, rfl, rfl, rfl, rfl, rfl, Int.le_refl _⟩

/-- What an action makes of a store: it leaves the Tasks alone, wakes one, or lands a call whose reads
meet `P`. -/
def Action.Steps (P : Reads → Prop) (action : Action) (s s' : Store) : Prop :=
  s.Idle s' ∨
    (∃ appId taskId e eventId observedAt, action = .wake appId taskId e eventId observedAt ∧
      s.lastEventId < eventId ∧ s.persistExactTaskWake appId taskId e eventId observedAt = .ok s') ∨
    ∃ landing m, action = .call landing ∧ landing.effect = .commit m ∧ P landing.reads ∧
      Landed landing.ctx landing.now landing.call landing.reads s m ∧ s' = s.applyMutation landing.landedAt m

/-- Every action from a sound store is one of the steps. -/
theorem Action.next_cases (hs : s.Sound)
    (hpast : ∀ landing, action = .call landing → landing.reads.Past s ∧ P landing.reads)
    (hadmissible : action.Admissible s) : action.Steps P s (action.next s) := by
  cases action with
  | call landing =>
    obtain ⟨hreads, hP⟩ := hpast landing rfl
    rcases Landing.next_cases hs hreads hadmissible with hsame | ⟨_, _, _, -, hnext⟩ | ⟨m, heffect, hlanded, hnext⟩
    · rw [Action.next, hsame]
      exact .inl (.refl s)
    · rw [Action.next, hnext]
      exact .inl (setRecoveryState_idle _ _ _ _ _)
    · exact .inr (.inr ⟨landing, m, rfl, heffect, hP, hlanded, hnext⟩)
  | wake appId taskId e eventId observedAt =>
    cases hwake : s.persistExactTaskWake appId taskId e eventId observedAt with
    | ok s' =>
      have hnext : Action.next s (.wake appId taskId e eventId observedAt) = s' := by rw [Action.next, hwake]
      exact .inr (.inl ⟨appId, taskId, e, eventId, observedAt, rfl, hadmissible, by rw [hnext, hwake]⟩)
    | error =>
      have hnext : Action.next s (.wake appId taskId e eventId observedAt) = s := by rw [Action.next, hwake]
      rw [hnext]
      exact .inl (.refl s)
  | journal =>
    exact .inl ⟨fun _ => rfl, rfl, rfl, rfl, rfl, rfl, rfl, rfl, Int.le_of_lt hadmissible⟩
  | lifecycle => exact .inl ⟨fun _ => rfl, rfl, rfl, rfl, rfl, rfl, rfl, rfl, Int.le_refl _⟩
  | humanInput => exact .inl ⟨fun _ => rfl, rfl, rfl, rfl, rfl, rfl, rfl, rfl, Int.le_refl _⟩

theorem Action.Steps.sound (hs : s.Sound) (h : action.Steps P s s') : s'.Sound ∧ Lineage s s' := by
  rcases h with hidle | ⟨_, _, _, _, _, -, -, hwake⟩ | ⟨landing, m, -, -, -, hlanded, rfl⟩
  · exact ⟨hidle.bumps.sound hs, hidle.bumps.lineage⟩
  · exact ⟨(persistExactTaskWake_bumps hwake).sound hs, (persistExactTaskWake_bumps hwake).lineage⟩
  · exact ⟨hlanded.applyMutation_sound _, hlanded.lineage _⟩

theorem Store.Initial.sound (h : s.Initial) : s.Sound := by
  have htask : ∀ k, s.task k = none := by
    intro k
    rw [Store.task, h.tasks, Table.get_empty, Option.map_none]
  have hattempt : ∀ id, s.attempts.get id = none := by
    intro id
    rw [h.attempts, Table.get_empty]
  have hclosed : ∀ k, s.isCancelled k = false := by
    intro k
    rw [Store.isCancelled, h.cancellations, Table.has, Table.get_empty, Option.isSome_none]
  constructor
  · constructor <;> simp [htask, hattempt]
  · simp [hclosed]
  · simp [htask]

/-- Every observation of a history is sound, and versions only rise along it. -/
theorem History.sound (hrun : History ok h) :
    (∀ o ∈ h, o.Sound) ∧ Ordered Lineage h := by
  refine Run.invariant Lineage.refl (fun _ _ _ => Lineage.trans) (fun _ => Store.Initial.sound) ?_ hrun
  rintro s _ _ - hsound hordered ⟨_, _, _, heq, hadmissible, hreads, -, rfl⟩
  cases heq
  have hs := hsound s List.mem_cons_self
  refine (Action.next_cases (P := fun _ => True) hs ?_ hadmissible).sound hs
  rintro landing rfl
  exact ⟨Reads.Within.past rfl hsound hordered hreads, trivial⟩

theorem History.next_cases {past : List Store}
    (hrun : History ok (s :: past)) (hadmissible : action.Admissible s) (hreads : action.ReadsWithin (s :: past)) :
    action.Steps (Reads.Within (s :: past)) s (action.next s) := by
  obtain ⟨hsound, hordered⟩ := History.sound hrun
  refine Action.next_cases (hsound s List.mem_cons_self) ?_ hadmissible
  rintro landing rfl
  exact ⟨Reads.Within.past rfl hsound hordered hreads, hreads⟩

theorem History.step_cases {past : List Store}
    (hrun : History ok (s :: past)) (hstep : Interleaved ok (s :: past) s') :
    ∃ action, ok s action ∧ s' = action.next s ∧ action.Steps (Reads.Within (s :: past)) s s' := by
  obtain ⟨_, _, action, heq, hadmissible, hreads, hok, rfl⟩ := hstep
  cases heq
  exact ⟨action, hok, rfl, History.next_cases hrun hadmissible hreads⟩

/-! ### Operations one after the other -/

theorem Reachable.sound (h : Reachable ok s) : s.Sound := by
  obtain ⟨_, hrun⟩ := h.history
  exact (History.sound hrun).1 s List.mem_cons_self

theorem Sequential.step_cases (hs : s.Sound) (hstep : Sequential ok s s') :
    ∃ action, ok s action ∧ s' = action.next s ∧ action.Steps (· = Reads.now s) s s' := by
  obtain ⟨action, hadmissible, halone, hok, rfl⟩ := hstep
  refine ⟨action, hok, rfl, Action.next_cases hs ?_ hadmissible⟩
  rintro landing rfl
  have hreads : landing.reads = Reads.now s := halone
  exact ⟨hreads ▸ .now hs, hreads⟩

theorem Sequential.sound (hs : s.Sound) (hstep : Sequential ok s s') :
    s'.Sound ∧ Lineage s s' := by
  obtain ⟨_, -, -, hsteps⟩ := hstep.step_cases hs
  exact hsteps.sound hs

theorem Reachable.invariant {I : Store → Prop} (hinit : ∀ s, s.Initial → I s)
    (hstep : ∀ s s', s.Sound → I s → Sequential ok s s' → I s') (h : Reachable ok s) : I s := by
  obtain ⟨s₀, hs₀, hsteps⟩ := h
  induction hsteps with
  | refl => exact hinit s₀ hs₀
  | @tail s s' hsteps hlast ih => exact hstep s s' (Reachable.sound ⟨s₀, hs₀, hsteps⟩) ih hlast

theorem Reachable.trans (h : Reachable ok s)
    (hsteps : Relation.ReflTransGen (Sequential ok) s s') : Reachable ok s' := by
  obtain ⟨s₀, hs₀, hbefore⟩ := h
  exact ⟨s₀, hs₀, hbefore.trans hsteps⟩

theorem Reachable.lineage (h : Reachable ok s)
    (hsteps : Relation.ReflTransGen (Sequential ok) s s') : Lineage s s' := by
  induction hsteps with
  | refl => exact .refl s
  | tail hsteps hlast ih => exact ih.trans (hlast.sound (h.trans hsteps).sound).2

/-! ### Runs call by call -/

theorem Reads.Within.now (s : Store) (past : List Store) : (Reads.now s).Within (s :: past) :=
  ⟨past, past, past, List.suffix_refl _, List.suffix_refl _, List.suffix_refl _⟩

/-- A call of a process that no other process interrupts. -/
def Landing.alone (ctx : Context) (now : Int) (call : Call) (s : Store) : Landing := ⟨ctx, now, now, Reads.now s, call⟩

def Call.perform (ctx : Context) (now : Int) (s : Store) (call : Call) : Store := (Landing.alone ctx now call s).next s

theorem Reachable.initial (h : s.Initial) : Reachable ok s :=
  ⟨s, h, .refl⟩

theorem Reachable.step (h : Reachable ok s) (action : Action)
    (hadmissible : action.Admissible s) (halone : action.Alone s) (hok : ok s action) : Reachable ok (action.next s) := by
  obtain ⟨s₀, hinit, hsteps⟩ := h
  exact ⟨s₀, hinit, hsteps.tail ⟨action, hadmissible, halone, hok, rfl⟩⟩

theorem Reachable.call (h : Reachable ok s) (ctx : Context) (now : Int)
    {call : Call} (hfresh : call.Fresh s) (hok : ok s (.call (.alone ctx now call s))) :
    Reachable ok (call.perform ctx now s) :=
  h.step (.call (.alone ctx now call s)) ⟨hfresh, fun _ => rfl⟩ rfl hok

theorem ClaimInput.fresh_of_suffix {input : ClaimInput}
    (h : s.attempts.entries.all fun entry => !(input.attemptUuid.toList.isSuffixOf entry.1.toList)) :
    (Call.claim input).Fresh s := by
  intro n
  by_contra hsome
  obtain ⟨a, ha⟩ := Option.ne_none_iff_exists'.mp hsome
  have hentry := List.all_eq_true.mp h _ ((Table.get_eq_some_iff _ _ _).mp ha)
  simp only [Bool.not_eq_true', ← Bool.not_eq_true, List.isSuffixOf_iff_suffix] at hentry
  refine hentry ⟨("r_" ++ toString n ++ "_").toList, ?_⟩
  rw [ClaimInput.attemptId, ← String.toList_append]

/-! ### A small App -/

theorem History.call {ok : Store → Action → Prop} {s : Store} {past : List Store} (hrun : History ok (s :: past))
    (ctx : Context) (now : Int) {call : Call} (hfresh : call.Fresh s) (hok : ok s (.call (.alone ctx now call s))) :
    History ok (call.perform ctx now s :: s :: past) := by
  refine .next hrun ⟨s, past, .call (.alone ctx now call s), rfl, ⟨hfresh, fun _ => rfl⟩, ?_, hok, rfl⟩
  exact ⟨past, past, past, List.suffix_refl _, List.suffix_refl _, List.suffix_refl _⟩

namespace Sample

def context : Context where
  appId := "app"
  agent := "worker"
  projectId := "project"
  project := "project"
  runtimeId := "runtime-1"
  maxConsecutiveFailures := none
  dateParse := fun _ => none
  foreignAttempt := fun _ _ => none

def restarted : Context := { context with runtimeId := "runtime-2" }

/-- The store with its group of Tasks and no Task. -/
def store : Store where
  tasks := ∅
  attempts := ∅
  conditions := ∅
  routes := []
  admissions := ∅
  cancellations := ∅
  controlReceipts := ∅
  taskEvents := []
  groups := (∅ : Table String Group).put "root" ⟨"root", none, none⟩
  revision := 0
  lifecycle := .active
  humanInput := []
  lastEventId := 0

theorem store_initial : store.Initial := ⟨rfl, rfl, rfl, rfl, rfl, rfl, rfl, rfl⟩

def intent (id : String) : Intent where
  id := id
  parentId := "root"
  outcome := "outcome"
  acceptance := ["accepted"]

def event (n : Int) : Event := [("eventId", .num n), ("type", .str "input.received")]

def observe (id : String) (e : Option Event) (key : Option String) : Call :=
  .observe { intent := intent id, appAgent := "worker", trigger := e, admissionKey := key }

def claimInput (id uuid : String) : ClaimInput :=
  { taskId := id, appAgent := "worker", handler := "auto", attemptUuid := uuid, leaseUuid := uuid }

def claim (id uuid : String) : Call := .claim (claimInput id uuid)

def claimOf (s : Store) (id : String) : Claim :=
  let a := (s.tasks.get id).bind fun row => row.resource.status.currentAttemptId.bind s.attempts.get
  { taskId := id
    generation := (a.map Attempt.taskGeneration).getD 0
    resourceVersion := 0
    specHash := (a.map Attempt.specHash).getD (appTaskSpecHash (intent id) "worker")
    attemptId := (a.map Attempt.id).getD ""
    agent := "worker"
    handler := (a.map Attempt.handler).getD "auto"
    intent := intent id
    events := (a.map Attempt.events).getD []
    eventsTruncated := false
    continuedInputKeys := (a.map Attempt.continuedInputKeys).getD []
    previousAttempt := none
    trigger := none
    declaredOutputPaths := []
    handoff := none }

def result : ResultInput := { summary := "summary", facts := some ["fact"] }

/-- The Task `a` after its first observation. -/
def observed : Store := (observe "a" (some (event 1)) none).perform context 1 store

/-- The Task `a` with its first attempt. -/
def claimed : Store := (claim "a" "u1").perform context 2 observed

/-- The Task `a` after its first attempt failed. -/
def failed : Store := (Call.fail (claimOf claimed "a") "failure" {}).perform context 3 claimed

theorem observed_reachable
    (hok : ok store (.call (.alone context 1 (observe "a" (some (event 1)) none) store))) : Reachable ok observed :=
  Reachable.call (Reachable.initial store_initial) context 1 (by trivial) hok

theorem claimed_reachable (hobserved : Reachable ok observed)
    (hok : ok observed (.call (.alone context 2 (claim "a" "u1") observed))) : Reachable ok claimed :=
  Reachable.call hobserved context 2 (ClaimInput.fresh_of_suffix (by decide +kernel)) hok

theorem failed_reachable : Reachable (fun _ _ => True) failed :=
  (claimed_reachable (observed_reachable trivial) trivial).call context 3 trivial trivial

end Sample

end MayAgent
