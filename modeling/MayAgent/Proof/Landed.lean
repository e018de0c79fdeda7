import MayAgent.Proof.Lineage

/-!
# Landing a lawful mutation

A lawful mutation that the store accepts changes the Tasks it read, although it read them earlier. From
this follows that every landing keeps the store sound: a Task executes at most one attempt, the
attempt it names runs, and a closed Task executes none.
-/

namespace MayAgent

/-- The invariant of the stores of a running App. -/
structure Store.Sound (s : Store) : Prop extends s.WellFormed where
  closedTask : ∀ k, s.isCancelled k = true → ∃ r tr, s.task k = some (r, tr)
  closedIdle : ∀ k r tr, s.task k = some (r, tr) → s.isCancelled k = true → r.status.currentAttemptId = none

/-- What is known when a mutation lands. -/
structure Landed (ctx : Context) (now : Int) (call : Call) (reads : Reads) (s : Store) (m : Mutation) :
    Prop where
  lawful : m.Lawful ctx now call reads
  accepts : s.Accepts ctx m
  sound : s.Sound
  snapshot : reads.snapshot.Sound
  late : reads.late.Sound
  between : Lineage reads.snapshot reads.late
  since : Lineage reads.late s
  fresh : call.Fresh s

/-- The attempt a claim starts from the batch offered to it, and what it leaves pending. -/
inductive Starts (ctx : Context) (now : Int) (input : ClaimInput) (reads : Reads) (r : Resource) (tr : Option Trigger) :
    Option Trigger → Attempt → Prop
  | start (agent : String) (prior previous : Option Attempt) (untriggered : Bool) (continued : List String)
      (trigger : Event) (hprevious : PreviousAttempt reads r previous)
      (htrigger : ∃ reviewDue, trigger =
        claimTrigger ctx input agent (claimedEvents r (offeredEvents previous tr)) previous reviewDue) :
      Starts ctx now input reads r tr (remainingTrigger agent tr (remainingEvents r (offeredEvents previous tr)))
        (newAttempt ctx now input (takeOver now untriggered previous r) agent prior
          (claimedEvents r (offeredEvents previous tr)) (remainingEvents r (offeredEvents previous tr)) continued trigger)

variable {ctx : Context} {now : Int} {reads : Reads} {r : Resource} {tr : Option Trigger}
  {admissions : List (String × Admission)} {call : Call}

variable {r' : Resource} {attempts : List Attempt} {a' : Attempt}

theorem Change.starts {input : ClaimInput}
    {tr' : Option Trigger}
    (h : Change ctx now (.claim input) reads r tr r' tr' attempts admissions) (ha : a' ∈ attempts) :
    (∃ a, (reads.snapshot.attempts.get a.id = some a ∨ reads.late.attempts.get a.id = some a) ∧
      a.taskId = r.metadata.id ∧ a.id = a'.id) ∨ Starts ctx now input reads r tr tr' a' := by
  have hreplaced : ∀ {previous : Option Attempt} {f : Attempt → Attempt}, PreviousAttempt reads r previous →
      (∀ a, (f a).id = a.id) → a' ∈ (previous.map f).toList →
      ∃ a, (reads.snapshot.attempts.get a.id = some a ∨ reads.late.attempts.get a.id = some a) ∧
        a.taskId = r.metadata.id ∧ a.id = a'.id := by
    intro previous f hprevious hid hmem
    rw [Option.mem_toList, Option.map_eq_some_iff] at hmem
    obtain ⟨a, rfl, rfl⟩ := hmem
    have hruns : a.RunsFor reads r := hprevious
    exact ⟨a, .inl hruns.stored, hruns.task, (hid a).symm⟩
  cases h with
  | grant _ agent prior previous untriggered continued trigger hcall hprevious _ _ _ _ _ htrigger =>
    cases hcall
    rcases List.mem_append.mp ha with ha | ha
    · exact .inl (hreplaced hprevious (fun a => by cases untriggered <;> rfl) ha)
    · rw [List.mem_singleton.mp ha]
      exact .inr (.start agent prior previous untriggered continued trigger hprevious htrigger)
  | backOff _ _ summary _ _ hprevious =>
    exact .inl (hreplaced (f := fun a => supersedeAttempt a summary now) hprevious (fun _ => rfl) ha)
  | adopt _ _ a _ _ _ _ _ _ _ hstored htask =>
    rw [List.mem_singleton.mp ha]
    exact .inl ⟨a, .inr hstored, htask, rfl⟩
  | release _ _ _ _ hcall => cases hcall
  | cancel _ _ hcall => cases hcall
  | _ => contradiction

/-- A stored Task as a landing mutation finds it: what was read of it still holds. -/
structure Store.Found (s : Store) (reads : Reads) (k : String) (r : Resource) : Prop where
  snapshot : reads.snapshot.standing k = s.standing k
  late : reads.late.standing k = s.standing k
  read : ∃ tr, reads.snapshot.task k = some (r, tr)

namespace Store.Found

variable {s : Store} {reads : Reads} {k : String} {r : Resource}

theorem stored (h : s.Found reads k r) : ∃ tr, s.task k = some (r, tr) := by
  obtain ⟨tr, hr⟩ := h.read
  exact standing_resource h.snapshot hr

theorem late_closure (h : s.Found reads k r) : s.isCancelled k = reads.late.isCancelled k := by
  obtain ⟨_, hr⟩ := h.stored
  rw [Store.isCancelled, Store.isCancelled, Table.has, Table.has, standing_closure h.late.symm hr]

theorem attempt (h : s.Found reads k r) {id : String} {a : Attempt} (htask : a.taskId = k)
    (ha : reads.snapshot.attempts.get id = some a ∨ reads.late.attempts.get id = some a) :
    ∃ b, s.attempts.get id = some b ∧ b.core = a.core := by
  obtain ⟨_, hr⟩ := h.read
  rcases ha with ha | ha
  · exact standing_attempt h.snapshot hr ha htask
  · obtain ⟨_, hlate⟩ := standing_resource (h.snapshot.trans h.late.symm) hr
    exact standing_attempt h.late hlate ha htask

end Store.Found

theorem Runs.source
    (h : Runs call reads r r' attempts) (ha : a' ∈ attempts) :
    (∃ a : Attempt, (reads.snapshot.attempts.get a'.id = some a ∨ reads.late.attempts.get a'.id = some a) ∧
      a.taskId = r.metadata.id ∧ a.Continues a') ∨
    (∃ input, call = .claim input ∧ a'.id = input.attemptId r.metadata.generation ∧ a'.taskId = input.taskId ∧
      a'.taskId = r.metadata.id) := by
  cases h with
  | keeps _ _ _ hattempts =>
    rcases hattempts with rfl | ⟨a, b, hruns, rfl, hid, hcontinues, -⟩
    · cases ha
    · rw [List.mem_singleton.mp ha]
      exact .inl ⟨a, .inl (hid ▸ hruns.stored), hruns.task, hcontinues⟩
  | ends a b hruns hattempts hid hcontinues =>
    rw [hattempts] at ha
    rw [List.mem_singleton.mp ha]
    exact .inl ⟨a, .inl (hid ▸ hruns.stored), hruns.task, hcontinues⟩
  | idles _ _ _ _ hattempts =>
    rcases hattempts with rfl | ⟨a, b, hstored, htask, -, rfl, hid, hcontinues⟩
    · cases ha
    · rw [List.mem_singleton.mp ha]
      exact .inl ⟨a, .inr (hid ▸ hstored), htask, hcontinues⟩
  | grants input _ _ _ hcall hid hprevious hended hnewId hnewTask _ hattempts =>
    rw [hattempts, List.mem_append, List.mem_singleton, Option.mem_toList,
      Option.map_eq_some_iff] at ha
    rcases ha with ⟨a, rfl, rfl⟩ | rfl
    · have hruns : a.RunsFor reads r := hprevious
      obtain ⟨hid, hcontinues, -⟩ := hended a hruns.state
      exact .inl ⟨a, .inl (hid ▸ hruns.stored), hruns.task, hcontinues⟩
    · exact .inr ⟨input, hcall, hnewId, hnewTask.trans hid.symm, hnewTask⟩

section RunsFacts

variable {call : Call} {reads : Reads} {r r' : Resource} {attempts : List Attempt}

theorem Runs.current_of_written (h : Runs call reads r r' attempts) {a : Attempt} (ha : a ∈ attempts)
    (hstate : a.state = .running) : r'.status.currentAttemptId = some a.id := by
  cases h with
  | keeps _ hcurrent _ hattempts =>
    rcases hattempts with rfl | ⟨b, b', hruns, rfl, hid, -, -⟩
    · cases ha
    · rw [List.mem_singleton.mp ha, hcurrent, hruns.current, hid]
  | ends b _ _ hattempts _ _ hended =>
    rw [hattempts] at ha
    exact absurd (List.mem_singleton.mp ha ▸ hstate) hended
  | idles _ _ _ _ hattempts =>
    rcases hattempts with rfl | ⟨b, b', -, -, hended, rfl, -, hcontinues⟩
    · cases ha
    · rw [List.mem_singleton.mp ha, hcontinues.state hended] at hstate
      exact absurd hstate hended
  | grants _ _ _ _ _ _ hprevious hended _ _ _ hattempts _ hcurrent =>
    rw [hattempts, List.mem_append, List.mem_singleton, Option.mem_toList, Option.map_eq_some_iff] at ha
    rcases ha with ⟨b, rfl, rfl⟩ | rfl
    · have hruns : b.RunsFor reads r := hprevious
      exact absurd hstate (hended b hruns.state).state
    · exact hcurrent

theorem Runs.current_of_unwritten (h : Runs call reads r r' attempts) {id : String}
    (hid : r.status.currentAttemptId = some id) (hnot : ∀ a ∈ attempts, a.id ≠ id) :
    r'.status.currentAttemptId = some id := by
  cases h with
  | keeps _ hcurrent => rw [hcurrent, hid]
  | ends b b' hruns hattempts hbid =>
    rw [hruns.current, Option.some.injEq, ← hbid] at hid
    exact absurd hid (hnot b' (by simp [hattempts]))
  | idles hidle =>
    rw [hidle] at hid
    cases hid
  | grants _ previous ended _ _ _ hprevious hended _ _ _ hattempts =>
    cases previous with
    | none =>
      have hidle : r.status.currentAttemptId = none := hprevious
      rw [hidle] at hid
      cases hid
    | some b =>
      have hruns : b.RunsFor reads r := hprevious
      rw [hruns.current, Option.some.injEq, ← (hended b hruns.state).1] at hid
      exact absurd hid (hnot (ended b) (by simp [hattempts]))

theorem Runs.idle_of_idle (h : Runs call reads r r' attempts) (hidle : r.status.currentAttemptId = none)
    (hclosed : reads.late.isCancelled r.metadata.id = true) : r'.status.currentAttemptId = none := by
  cases h with
  | keeps _ hcurrent => rw [hcurrent, hidle]
  | ends b _ _ _ _ _ _ _ hcurrent => exact hcurrent
  | idles _ _ hcurrent => exact hcurrent
  | grants _ _ _ _ _ _ _ _ _ _ _ _ _ _ _ hopen =>
    rw [hclosed] at hopen
    cases hopen

end RunsFacts

theorem Created.observes
    (h : Created ctx now call reads r tr admissions) :
    ∃ given, call = .observe given := by
  obtain ⟨given, _, _, _, _, _, hcall, _, _, _⟩ := h
  exact ⟨given, hcall⟩

theorem Created.id_ne_empty
    (h : Created ctx now call reads r tr admissions) : r.metadata.id ≠ "" := by
  obtain ⟨_, input, _, _, _, _, _, _, hid, _⟩ := h
  rw [noteHumanRequest_id]
  show input.intent.id ≠ ""
  intro hempty
  rw [hempty] at hid
  exact absurd hid (by decide)

theorem Created.executes
    (h : Created ctx now call reads r tr admissions)
    (attempts : Table String Attempt) : r.Executes attempts := by
  obtain ⟨_, input, key, _, same, _, _, _, hid, _⟩ := h
  obtain ⟨hphase, hcurrent, hobserved⟩ := noteHumanRequest_run now input key (observedResource ctx now input none same)
  refine ⟨fun id hid => ?_, fun hrunning => ?_, fun id hid => ?_⟩
  · rw [hcurrent] at hid
    cases hid
  · exact absurd (hphase.mp hrunning) (by decide : Phase.pending ≠ .running)
  · rw [hobserved] at hid
    cases hid

namespace Landed

variable {ctx : Context} {now : Int} {call : Call} {reads : Reads} {s : Store} {m : Mutation}

theorem attempts_get (s : Store) (m : Mutation) (landedAt : Int) (id : String) :
    (∃ v ∈ m.attempts, v.id = id ∧ (s.applyMutation landedAt m).attempts.get id = some v) ∨
      ((∀ v ∈ m.attempts, v.id ≠ id) ∧ (s.applyMutation landedAt m).attempts.get id = s.attempts.get id) := by
  rw [Store.attempts_applyMutation]
  exact Table.get_putAll_cases s.attempts Attempt.id m.attempts id

theorem attempts_cases {landedAt : Int} {id : String} {a : Attempt}
    (ha : (s.applyMutation landedAt m).attempts.get id = some a) :
    (a ∈ m.attempts ∧ a.id = id) ∨ ((∀ v ∈ m.attempts, v.id ≠ id) ∧ s.attempts.get id = some a) := by
  rcases attempts_get s m landedAt id with ⟨v, hv, hid, hget⟩ | ⟨hne, hget⟩
  · cases hget.symm.trans ha
    exact .inl ⟨hv, hid⟩
  · exact .inr ⟨hne, hget.symm.trans ha⟩

variable (h : Landed ctx now call reads s m)

include h

theorem fresh_id {input : ClaimInput} (hcall : call = .claim input) (n : Nat) :
    s.attempts.get (input.attemptId n) = none := by
  have hfresh := h.fresh
  rw [hcall] at hfresh
  exact hfresh n

variable {k id : String} {r : Resource} {tr tr' : Option Trigger} {a' a : Attempt}

theorem found
    (hr : reads.snapshot.task k = some (r, tr)) {f : Fence} (hf : f ∈ m.fences) (htask : f.taskId = k)
    (hversion : f.resourceVersion = r.metadata.resourceVersion) : s.Found reads k r := by
  have hholds := h.accepts.fences f hf
  unfold Store.fenceHolds at hholds
  rw [htask] at hholds
  cases hrow : s.tasks.get k with
  | none => simp [hrow] at hholds
  | some row =>
    simp only [hrow, Bool.and_eq_true, decide_eq_true_eq, hversion] at hholds
    have hstored : s.task k = some (row.resource, row.trigger) := Store.task_eq_some_iff.mpr ⟨row, hrow, rfl, rfl⟩
    have hsnapshot := (h.between.trans h.since).unchanged hr hstored hholds.1.1
    have hread := Store.standing_of_task hr
    have hlate := h.between.tasks.between h.since.tasks hread (hsnapshot ▸ hread)
    exact ⟨hsnapshot, by rw [hlate, ← hsnapshot, hread], tr, hr⟩

variable {r' : Resource} {w : TaskWrite}

variable (landedAt : Int)

/-- The cases of a Task after a landing: it is not written, it is changed or written aside from the state it
was read in and is still found in, or it is created. -/
theorem task_cases
    (hr' : (s.applyMutation landedAt m).task k = some (r', tr')) :
    (s.task k = some (r', tr') ∧ ∀ w ∈ m.tasks, w.resource.metadata.id ≠ k) ∨
    (∃ r tr, s.Found reads k r ∧ reads.snapshot.task k = some (r, tr) ∧
      (Change ctx now call reads r tr r' tr' (m.attempts.filter fun a => a.taskId == k) m.admissions ∨
        (m.attempts.filter fun a => a.taskId == k) = [] ∧ Aside now call reads r tr r' tr')) ∨
    (s.task k = none ∧ m.attempts = [] ∧ Created ctx now call reads r' tr' m.admissions) := by
  rcases Store.task_applyMutation_cases landedAt s m k with ⟨w, hw, rfl, htask⟩ | ⟨hnot, htask⟩
  · rw [hr'] at htask
    cases htask
    rcases h.lawful.task w hw with ⟨r, tr, hr, hfence, hwrite⟩ | ⟨hmissing, hattempts, hcreated⟩
    · exact .inr (.inl ⟨r, tr, h.found hr hfence (h.snapshot.taskId _ _ _ hr) rfl, hr, hwrite⟩)
    · refine .inr (.inr ⟨?_, hattempts, hcreated⟩)
      rw [Store.task, h.accepts.missing _ hmissing, Option.map_none]
  · exact .inl ⟨htask.symm.trans hr', hnot⟩

theorem write (hw : w ∈ m.tasks) :
    (∃ r, s.Found reads w.resource.metadata.id r ∧
      Runs call reads r w.resource (m.attempts.filter fun a => a.taskId == w.resource.metadata.id) ∧
      (r.metadata.resourceVersion < w.resource.metadata.resourceVersion ∨
        w.resource = r ∧ (m.attempts.filter fun a => a.taskId == w.resource.metadata.id) = [])) ∨
    (s.task w.resource.metadata.id = none ∧ m.attempts = [] ∧
      Created ctx now call reads w.resource w.trigger m.admissions) := by
  rcases h.lawful.task w hw with ⟨r, _, hr, hfence, hchange⟩ | ⟨hmissing, hattempts, hcreated⟩
  · have hown := h.snapshot.taskId _ _ _ hr
    have hexecutes := h.snapshot.executes _ _ _ hr
    have hidle : r.status.phase ≠ .running → r.status.currentAttemptId = none := by
      intro hphase
      by_contra hcurrent
      obtain ⟨id, hid⟩ := Option.ne_none_iff_exists'.mp hcurrent
      exact hphase (hexecutes.current id hid).1
    refine .inl ⟨r, h.found hr hfence hown rfl, ?_⟩
    rcases hchange with hchange | ⟨hnone, haside⟩
    · refine ⟨hchange.runs hidle fun hclosed => h.snapshot.closedIdle _ _ _ hr (hown ▸ hclosed), ?_⟩
      rcases hchange.bumps with hlt | ⟨hsame, -, hnone⟩
      · exact .inl hlt
      · exact .inr ⟨hsame, hnone⟩
    · rw [hnone]
      refine ⟨haside.runs hidle, ?_⟩
      rcases haside.bumps with hlt | hsame
      · exact .inl hlt
      · exact .inr ⟨hsame, rfl⟩
  · refine .inr ⟨?_, hattempts, hcreated⟩
    rw [Store.task, h.accepts.missing _ hmissing, Option.map_none]

theorem annotated (ha : a' ∈ m.attempts)
    (hnot : ∀ w ∈ m.tasks, w.resource.metadata.id ≠ a'.taskId) :
    ∃ a, s.attempts.get a'.id = some a ∧ a'.core = a.core := by
  rcases h.lawful.attempt a' ha with ⟨w, hw, hwid⟩ | ⟨-, -, a, r, _, hr, ⟨f, hf, htask, hversion⟩, hstored, hnotes⟩
  · exact absurd hwid (hnot w hw)
  · have hfound := h.found hr hf htask hversion
    have hid : a'.id = a.id := by rw [hnotes.rest]
    have hread : reads.snapshot.attempts.get a'.id = some a ∨ reads.late.attempts.get a'.id = some a := by
      rw [hid]
      exact hstored.imp Attempt.RunsFor.stored And.left
    obtain ⟨b, hb, hcore⟩ := hfound.attempt (core_taskId hnotes.core).symm hread
    exact ⟨b, hb, hnotes.core.trans hcore.symm⟩

/-- Each attempt written continues a stored one, or a claim starts it. -/
theorem attempt (ha : a' ∈ m.attempts) :
    (∃ a, s.attempts.get a'.id = some a ∧ a.Continues a') ∨
      (∃ input, call = .claim input ∧ s.attempts.get a'.id = none ∧ a'.taskId = input.taskId) := by
  by_cases hwritten : ∃ w ∈ m.tasks, w.resource.metadata.id = a'.taskId
  · obtain ⟨w, hw, hwid⟩ := hwritten
    rcases h.write hw with ⟨r, hfound, hruns, -⟩ | ⟨-, hnone, -⟩
    · have hmem : a' ∈ m.attempts.filter fun a => a.taskId == w.resource.metadata.id := by
        simp [ha, hwid]
      obtain ⟨_, hr⟩ := hfound.read
      have hown := h.snapshot.taskId _ _ _ hr
      rcases hruns.source hmem with ⟨a, hread, htask, hcontinues⟩ | ⟨input, hcall, hid, htask, -⟩
      · obtain ⟨b, hb, hcore⟩ := hfound.attempt (htask.trans hown) hread
        exact .inl ⟨b, hb, (Attempt.Continues.of_core hcore.symm).trans hcontinues⟩
      · exact .inr ⟨input, hcall, hid ▸ h.fresh_id hcall _, htask⟩
    · rw [hnone] at ha
      cases ha
  · obtain ⟨a, hstored, hcore⟩ := h.annotated ha fun w hw hwid => hwritten ⟨w, hw, hwid⟩
    exact .inl ⟨a, hstored, .of_core hcore⟩

/-- An attempt that is not stored yet is started by a claim, with its part of the offered batch. -/
theorem started (ha : a' ∈ m.attempts)
    (hnone : s.attempts.get a'.id = none) :
    ∃ input r tr w, call = .claim input ∧ reads.snapshot.task input.taskId = some (r, tr) ∧ w ∈ m.tasks ∧
      w.resource.metadata.id = input.taskId ∧ a'.taskId = input.taskId ∧
      Starts ctx now input reads r tr w.trigger a' := by
  have hunread : ∀ {k : String} {r : Resource} {a : Attempt}, s.Found reads k r → a.taskId = k → a.id = a'.id →
      reads.snapshot.attempts.get a.id = some a ∨ reads.late.attempts.get a.id = some a → False := by
    intro k r a hfound htask hid hread
    obtain ⟨b, hb, -⟩ := hfound.attempt htask hread
    rw [hid, hnone] at hb
    cases hb
  rcases h.attempt ha with ⟨a, hstored, -⟩ | ⟨input, rfl, -, htask⟩
  · rw [hnone] at hstored
    cases hstored
  rcases h.lawful.attempt a' ha with ⟨w, hw, hwid⟩ | ⟨-, -, a, r, tr, hr, ⟨f, hf, hftask, hversion⟩, hread, hnotes⟩
  · rcases h.lawful.task w hw with ⟨r, tr, hr, hfence, hwrite⟩ | ⟨-, hempty, -⟩
    · have hown := h.snapshot.taskId _ _ _ hr
      have hmem : a' ∈ m.attempts.filter fun a => a.taskId == w.resource.metadata.id := by simp [ha, hwid]
      rcases hwrite with hchange | ⟨hempty, -⟩
      · rcases hchange.starts hmem with ⟨a, hread, htaskId, hid⟩ | hstarts
        · exact (hunread (h.found hr hfence hown rfl) (htaskId.trans hown) hid hread).elim
        · rw [hwid, htask] at hr
          exact ⟨input, r, tr, w, rfl, hr, hw, hwid.trans htask, htask, hstarts⟩
      · rw [hempty] at hmem
        cases hmem
    · rw [hempty] at ha
      cases ha
  · exact (hunread (h.found hr hf hftask hversion) (core_taskId hnotes.core).symm (by rw [hnotes.rest])
      (hread.imp Attempt.RunsFor.stored And.left)).elim

theorem attempt_taskId (ha : a' ∈ m.attempts)
    (hstored : s.attempts.get a'.id = some a) : a'.taskId = a.taskId := by
  rcases h.attempt ha with ⟨b, hb, hcontinues⟩ | ⟨_, -, hnone, -⟩
  · rw [hstored] at hb
    cases hb
    exact hcontinues.task
  · rw [hstored] at hnone
    cases hnone

theorem attempt_unique {b : Attempt} (ha : a ∈ m.attempts)
    (hb : b ∈ m.attempts) (hid : a.id = b.id) : a.taskId = b.taskId := by
  rcases h.attempt ha with ⟨c, hc, hcontinues⟩ | ⟨_, hcall, hnone, htask⟩
  · rw [hcontinues.task, h.attempt_taskId hb (hid ▸ hc)]
  · rcases h.attempt hb with ⟨c, hc, -⟩ | ⟨_, hcall', -, htask'⟩
    · rw [hid, hc] at hnone
      cases hnone
    · rw [hcall] at hcall'
      cases hcall'
      rw [htask, htask']

/-! ### Lineage of a landing -/

/-- A Task whose row is unchanged keeps its closure. -/
theorem closure
    (hsame : ∀ w ∈ m.tasks, w.resource.metadata.id = k → ∃ tr, reads.snapshot.task k = some (w.resource, tr)) :
    (s.applyMutation landedAt m).cancellations.get k = s.cancellations.get k := by
  -- Closing and reopening write the Task with a raised version.
  have hraised : ∀ (w : TaskWrite) (r : Resource) (tr : Option Trigger) (taskId : String), m.tasks = [w] →
      reads.snapshot.task taskId = some (r, tr) → w.resource.metadata.id = r.metadata.id →
      r.metadata.resourceVersion < w.resource.metadata.resourceVersion → k ≠ taskId := by
    rintro w r tr taskId htasks hr hid hlt rfl
    obtain ⟨_, hw⟩ := hsame w (by simp [htasks]) (hid.trans (h.snapshot.taskId _ _ _ hr))
    rw [hr] at hw
    cases hw
    exact lt_irrefl _ hlt
  rw [Store.cancellations_applyMutation]
  cases h.lawful.controls with
  | plain hclose hreopen => simp [hclose, hreopen, Table.dropAll]
  | close input r tr previous w htask htasks hw hclose hreopen =>
    have hne : k ≠ input.taskId := hraised w r tr _ htasks htask (by rw [hw, closedResource, touchResource_id, takeOver_id])
      (by rw [hw]; exact Nat.lt_succ_of_le (takeOver_resourceVersion_le now false previous r))
    have hput : (s.cancellations.dropAll m.reopenTaskIds).putAll Cancellation.taskId m.cancellations
        = s.cancellations.put input.taskId (closureOf now input w.resource) := by
      rw [hclose, hreopen]
      rfl
    rw [hput, Table.get_put_ne _ _ hne]
  | reopen input r tr _ _ w c _ htask htasks hw _ hclose hreopen =>
    have hne : k ≠ input.taskId := hraised w r tr _ htasks htask (by rw [hw]; rfl)
      (by rw [hw]; exact Nat.lt_succ_self _)
    rw [hclose, hreopen, Table.putAll_nil, Table.get_dropAll, if_neg (by simpa using hne)]

theorem attempts_core
    (hsame : ∀ a' ∈ m.attempts, a'.taskId = k → ∃ a, s.attempts.get a'.id = some a ∧ a'.core = a.core) (id : String) :
    (((s.applyMutation landedAt m).attempts.get id).filter fun a => a.taskId == k).map Attempt.core
      = ((s.attempts.get id).filter fun a => a.taskId == k).map Attempt.core := by
  rw [Store.attempts_applyMutation]
  rcases Table.get_putAll_cases s.attempts Attempt.id m.attempts id with ⟨v, hv, rfl, hget⟩ | ⟨-, hget⟩
  · rw [hget]
    by_cases htask : v.taskId = k
    · obtain ⟨a, ha, hcore⟩ := hsame v hv htask
      have hk : a.taskId = k := (core_taskId hcore).symm.trans htask
      simp [ha, Option.filter_some, htask, hk, hcore]
    · cases ha : s.attempts.get v.id with
      | none => simp [Option.filter_some, htask]
      | some a =>
        have hk : a.taskId ≠ k := h.attempt_taskId hv ha ▸ htask
        simp [Option.filter_some, htask, hk]
  · rw [hget]

theorem standing
    (hr : s.task k = some (r, tr))
    (hr' : (s.applyMutation landedAt m).task k = some (r, tr'))
    (htasks : ∀ w ∈ m.tasks, w.resource.metadata.id = k → ∃ tr, reads.snapshot.task k = some (w.resource, tr))
    (hattempts : ∀ a' ∈ m.attempts, a'.taskId = k → ∃ a, s.attempts.get a'.id = some a ∧ a'.core = a.core) :
    (s.applyMutation landedAt m).standing k = s.standing k := by
  rw [Store.standing_of_task hr, Store.standing_of_task hr', h.closure landedAt htasks]
  simp only [Option.some.injEq, Standing.mk.injEq, true_and]
  exact funext (h.attempts_core landedAt hattempts)

theorem lineage : Lineage s (s.applyMutation landedAt m) := by
  constructor
  · intro k x hx
    obtain ⟨_, hr, -, -⟩ := Store.standing_eq_some hx
    rcases Store.task_applyMutation_cases landedAt s m k with ⟨w, hw, hwk, htask⟩ | ⟨hnot, htask⟩
    · rcases h.write hw with ⟨r, hfound, -, hbump⟩ | ⟨hnone, -, -⟩
      · rw [hwk] at hfound hbump
        obtain ⟨_, hstored⟩ := hfound.stored
        rw [hr] at hstored
        cases hstored
        rcases hbump with hlt | ⟨hsame, hnoattempts⟩
        · exact ⟨_, Store.standing_of_task htask, le_of_lt hlt, fun heq => absurd heq (ne_of_gt hlt)⟩
        · rw [hsame] at htask
          refine ⟨x, (h.standing landedAt hr htask ?_ ?_).trans hx, le_refl _, fun _ => rfl⟩
          · intro w' hw' hwk'
            have : w' = w := List.inj_on_of_nodup_map h.lawful.nodup hw' hw (hwk'.trans hwk.symm)
            obtain ⟨tr₀, hread⟩ := hfound.read
            exact ⟨tr₀, by rw [this, hsame, hread]⟩
          · intro a' ha' htaskId
            have : a' ∈ m.attempts.filter fun a => a.taskId == k := by simp [ha', htaskId]
            rw [hnoattempts] at this
            cases this
      · rw [hwk, hr] at hnone
        cases hnone
    · rw [hr] at htask
      refine ⟨x, (h.standing landedAt hr htask ?_ ?_).trans hx, le_refl _, fun _ => rfl⟩
      · exact fun w hw hwk => absurd hwk (hnot w hw)
      · exact fun a' ha' htaskId => h.annotated ha' fun w hw => htaskId ▸ hnot w hw
  · intro id a ha
    rw [Store.attempts_applyMutation]
    rcases Table.get_putAll_cases s.attempts Attempt.id m.attempts id with ⟨v, hv, rfl, hget⟩ | ⟨-, hget⟩
    · rcases h.attempt hv with ⟨b, hb, hcontinues⟩ | ⟨-, -, hnone, -⟩
      · rw [ha] at hb
        cases hb
        exact ⟨v, hget, hcontinues⟩
      · rw [ha] at hnone
        cases hnone
    · exact ⟨a, hget.trans ha, .refl a⟩

theorem attempt_written
    (hwritten : (m.attempts.filter fun a => a.taskId == k) = [a]) :
    (s.applyMutation landedAt m).attempts.get a.id = some a := by
  have hmem : a ∈ m.attempts.filter fun a => a.taskId == k := by simp [hwritten]
  obtain ⟨ha, _⟩ := List.mem_filter.mp hmem
  rw [Store.attempts_applyMutation]
  refine Table.get_putAll_of_mem _ _ _ ha fun v hv hid => ?_
  have hk : v.taskId = a.taskId := h.attempt_unique hv ha hid
  have hv' : v ∈ m.attempts.filter fun a => a.taskId == k := List.mem_filter.mpr ⟨hv, by rwa [hk]⟩
  rw [hwritten] at hv'
  exact List.mem_singleton.mp hv'

/-! ### Soundness after a landing -/

theorem still_running
    (ha : s.attempts.get id = some a) (htask : a.taskId = k) (hstate : a.state = .running)
    (hown : ∀ v ∈ m.attempts, v.taskId = k → v.id = id → v.state = .running) :
    ∃ a', (s.applyMutation landedAt m).attempts.get id = some a' ∧ a'.taskId = k ∧ a'.state = .running := by
  rcases attempts_get s m landedAt id with ⟨v, hv, rfl, hget⟩ | ⟨-, hget⟩
  · have hk : v.taskId = k := (h.attempt_taskId hv ha).trans htask
    exact ⟨v, hget, hk, hown v hv hk rfl⟩
  · exact ⟨a, hget.trans ha, htask, hstate⟩

theorem still_observed
    (hstored : ∃ a, s.attempts.get id = some a ∧ a.taskId = k) :
    ∃ a, (s.applyMutation landedAt m).attempts.get id = some a ∧ a.taskId = k := by
  obtain ⟨a, ha, htask⟩ := hstored
  obtain ⟨a', ha', hcontinues⟩ := (h.lineage landedAt).attempts id a ha
  exact ⟨a', ha', hcontinues.task.trans htask⟩

theorem executes_unwritten
    (hr : s.task k = some (r, tr)) (hnot : ∀ w ∈ m.tasks, w.resource.metadata.id ≠ k) :
    r.Executes (s.applyMutation landedAt m).attempts := by
  have hown := h.sound.taskId _ _ _ hr
  have hexecutes := h.sound.executes _ _ _ hr
  refine ⟨fun id hid => ?_, hexecutes.running, fun id hid => h.still_observed landedAt (hexecutes.observed id hid)⟩
  obtain ⟨hphase, a, ha, htask, hstate⟩ := hexecutes.current id hid
  refine ⟨hphase, h.still_running landedAt ha htask hstate fun v hv hk hvid => ?_⟩
  obtain ⟨b, hb, hcore⟩ := h.annotated hv fun w hw => hk ▸ hown ▸ hnot w hw
  rw [hvid, ha] at hb
  cases hb
  rw [core_state hcore, hstate]

theorem executes_written
    (hfound : s.Found reads w.resource.metadata.id r)
    (hruns : Runs call reads r w.resource (m.attempts.filter fun a => a.taskId == w.resource.metadata.id)) :
    w.resource.Executes (s.applyMutation landedAt m).attempts := by
  obtain ⟨_, hr⟩ := hfound.stored
  have hown := h.sound.taskId _ _ _ hr
  have hexecutes := h.sound.executes _ _ _ hr
  have hmem : ∀ {v : Attempt}, v ∈ m.attempts → v.taskId = w.resource.metadata.id →
      v ∈ m.attempts.filter fun a => a.taskId == w.resource.metadata.id := fun hv hk => by simp [hv, hk]
  have hobserved : ∀ id, r.status.observedAttemptId = some id →
      ∃ a, (s.applyMutation landedAt m).attempts.get id = some a ∧ a.taskId = w.resource.metadata.id :=
    fun id hid => hown ▸ h.still_observed landedAt (hexecutes.observed id hid)
  cases hruns with
  | keeps hphase hcurrent hobs hattempts =>
    refine ⟨fun id hid => ?_, fun hrunning => ?_, fun id hid => hobserved id (hobs ▸ hid)⟩
    · rw [hcurrent] at hid
      obtain ⟨hrunning, a, ha, htask, hstate⟩ := hexecutes.current id hid
      refine ⟨hphase.mpr hrunning, h.still_running landedAt ha (htask.trans hown) hstate fun v hv hk hvid => ?_⟩
      have hv := hmem hv hk
      rcases hattempts with hnone | ⟨-, _, -, hone, -, -, hrun⟩
      · rw [hnone] at hv
        cases hv
      · rw [hone] at hv
        rw [List.mem_singleton.mp hv, hrun]
    · rw [hcurrent]
      exact hexecutes.running (hphase.mp hrunning)
  | ends a _ hruns' _ hid _ _ hphase hcurrent hobs =>
    refine ⟨fun id hid => ?_, fun hrunning => absurd hrunning hphase, fun id hid => ?_⟩
    · rw [hcurrent] at hid
      cases hid
    · rcases hobs with hobs | hobs
      · exact hobserved id (hobs ▸ hid)
      · rw [hobs] at hid
        cases hid
        obtain ⟨b, hb, hcore⟩ := hfound.attempt (hruns'.task.trans hown) (.inl hruns'.stored)
        exact h.still_observed landedAt ⟨b, hb, (core_taskId hcore).trans (hruns'.task.trans hown)⟩
  | idles _ hphase hcurrent hobs =>
    refine ⟨fun id hid => ?_, fun hrunning => absurd hrunning hphase, fun id hid => ?_⟩
    · rw [hcurrent] at hid
      cases hid
    · rcases hobs with hobs | hobs
      · exact hobserved id (hobs ▸ hid)
      · rw [hobs] at hid
        cases hid
  | grants _ _ _ new hcall _ hprevious hended hnewId hnewTask hnewState hattempts hphase hcurrent hobs =>
    refine ⟨fun id hid' => ?_, fun _ => by rw [hcurrent]; rfl, fun id hid' => hobserved id (hobs ▸ hid')⟩
    rw [hcurrent] at hid'
    cases hid'
    have hnew : new ∈ m.attempts.filter fun a => a.taskId == w.resource.metadata.id := by simp [hattempts]
    have hnewStored : s.attempts.get new.id = none := hnewId ▸ h.fresh_id hcall _
    refine ⟨hphase, ?_⟩
    rcases attempts_get s m landedAt new.id with ⟨v, hv, hvid, hget⟩ | ⟨hne, -⟩
    · have hk := (h.attempt_unique hv (List.mem_filter.mp hnew).1 hvid).trans (hnewTask.trans hown)
      have hvown := hmem hv hk
      refine ⟨v, hget, hk, ?_⟩
      rw [hattempts, List.mem_append, List.mem_singleton, Option.mem_toList, Option.map_eq_some_iff] at hvown
      -- The replaced attempt is stored, the new id is not.
      rcases hvown with ⟨a, rfl, rfl⟩ | rfl
      · have hruns' : a.RunsFor reads r := hprevious
        obtain ⟨b, hb, -⟩ := hfound.attempt (hruns'.task.trans hown) (.inl hruns'.stored)
        rw [← (hended a hruns'.state).1, hvid, hnewStored] at hb
        cases hb
      · exact hnewState
    · exact absurd rfl (hne new (List.mem_filter.mp hnew).1)

/-- A running attempt is still its Task's current one. -/
theorem exclusive
    (ha : (s.applyMutation landedAt m).attempts.get id = some a) (hstate : a.state = .running) :
    ∃ r tr, (s.applyMutation landedAt m).task a.taskId = some (r, tr) ∧ r.status.currentAttemptId = some id := by
  rcases Store.task_applyMutation_cases landedAt s m a.taskId with ⟨w, hw, hwid, htask⟩ | ⟨hnot, htask⟩
  · refine ⟨w.resource, w.trigger, htask, ?_⟩
    rcases h.write hw with ⟨r, hfound, hruns, -⟩ | ⟨hnone, hnoattempts, -⟩
    · obtain ⟨tr, hr⟩ := hfound.stored
      have hown := h.sound.taskId _ _ _ hr
      rcases attempts_cases ha with ⟨hv, rfl⟩ | ⟨hne, hget⟩
      · exact hruns.current_of_written (by simp [hv, hwid]) hstate
      · -- The Task could only have lost an attempt that is written as ended.
        obtain ⟨r₀, tr₀, hr₀, hcurrent⟩ := h.sound.exclusive id a hget hstate
        rw [← hwid, hr] at hr₀
        cases hr₀
        exact hruns.current_of_unwritten hcurrent fun v hv => hne v (List.mem_filter.mp hv).1
    · rw [Store.attempts_applyMutation, hnoattempts, Table.putAll_nil] at ha
      obtain ⟨r₀, tr₀, hr₀, -⟩ := h.sound.exclusive id a ha hstate
      rw [← hwid, hnone] at hr₀
      cases hr₀
  · rw [htask]
    rcases attempts_cases ha with ⟨hv, rfl⟩ | ⟨-, hget⟩
    · obtain ⟨b, hb, hcore⟩ := h.annotated hv hnot
      obtain ⟨r, tr, hr, hcurrent⟩ := h.sound.exclusive a.id b hb ((core_state hcore).symm.trans hstate)
      exact ⟨r, tr, core_taskId hcore ▸ hr, hcurrent⟩
    · exact h.sound.exclusive id a hget hstate

/-- A Task that is closed after a landing was closed before, or the landing closed it. -/
theorem closed_cases
    (hclosed : (s.applyMutation landedAt m).isCancelled k = true) :
    s.isCancelled k = true ∨ ∃ input r tr previous w, reads.snapshot.task k = some (r, tr) ∧ m.tasks = [w] ∧
      w.resource = closedResource now input (takeOver now false previous r) ∧ w.resource.metadata.id = k := by
  rw [Store.isCancelled, Table.has, Store.cancellations_applyMutation] at hclosed
  cases h.lawful.controls with
  | plain hclose hreopen =>
    rw [hclose, hreopen] at hclosed
    exact .inl hclosed
  | close input r tr previous w htask htasks hw hclose hreopen =>
    rw [hclose, hreopen, Table.putAll_cons, Table.putAll_nil, Table.get_put] at hclosed
    split at hclosed
    · rename_i hk
      obtain rfl : k = input.taskId := hk
      refine .inr ⟨input, r, tr, previous, w, htask, htasks, hw, ?_⟩
      rw [hw, closedResource, touchResource_id, takeOver_id, h.snapshot.taskId _ _ _ htask]
    · exact .inl hclosed
  | reopen _ r _ _ _ w c _ _ _ _ _ hclose hreopen =>
    rw [hclose, hreopen, Table.putAll_nil, Table.get_dropAll] at hclosed
    split at hclosed
    · cases hclosed
    · exact .inl hclosed

/-- A closed Task has no current attempt. -/
theorem closedIdle
    (hr' : (s.applyMutation landedAt m).task k = some (r', tr'))
    (hclosed : (s.applyMutation landedAt m).isCancelled k = true) : r'.status.currentAttemptId = none := by
  rcases h.closed_cases landedAt hclosed with hclosed | ⟨_, _, _, _, w, -, htasks, hw, hwid⟩
  · rcases Store.task_applyMutation_cases landedAt s m k with ⟨w, hw, hwid, htask⟩ | ⟨-, htask⟩
    · rw [hr'] at htask
      cases htask
      rcases h.write hw with ⟨r, hfound, hruns, -⟩ | ⟨hnone, -, -⟩
      · rw [hwid] at hfound
        obtain ⟨tr, hr⟩ := hfound.stored
        refine hruns.idle_of_idle (h.sound.closedIdle _ _ _ hr hclosed) ?_
        rw [h.sound.taskId _ _ _ hr, ← hfound.late_closure, hclosed]
      · obtain ⟨r, tr, hr⟩ := h.sound.closedTask k hclosed
        rw [hwid, hr] at hnone
        cases hnone
    · exact h.sound.closedIdle _ _ _ (htask.symm.trans hr') hclosed
  · rcases Store.task_applyMutation_cases landedAt s m k with ⟨_, hw', -, htask'⟩ | ⟨hnot, -⟩
    · rw [htasks, List.mem_singleton] at hw'
      rw [hr', hw'] at htask'
      cases htask'
      rw [hw]
      exact touchResource_currentAttemptId _ _ _
    · exact absurd hwid (hnot w (by simp [htasks]))

theorem closedTask
    (hclosed : (s.applyMutation landedAt m).isCancelled k = true) :
    ∃ r tr, (s.applyMutation landedAt m).task k = some (r, tr) := by
  have hstored : ∃ r tr, s.task k = some (r, tr) := by
    rcases h.closed_cases landedAt hclosed with hclosed | ⟨_, _, _, _, _, hread, -⟩
    · exact h.sound.closedTask k hclosed
    · obtain ⟨r, tr, hr, -⟩ := (h.between.trans h.since).task hread
      exact ⟨r, tr, hr⟩
  obtain ⟨_, _, hr⟩ := hstored
  obtain ⟨r', tr', hr', -⟩ := (h.lineage landedAt).task hr
  exact ⟨r', tr', hr'⟩

/-- A lawful commit keeps the store sound. -/
theorem applyMutation_sound :
    (s.applyMutation landedAt m).Sound := by
  refine ⟨⟨?_, ?_, ?_, ?_, ?_, fun id a => h.exclusive landedAt⟩, fun k => h.closedTask landedAt,
    fun k r tr => h.closedIdle landedAt⟩
  · intro k r tr hr
    rcases Store.task_applyMutation_cases landedAt s m k with ⟨w, hw, hwid, htask⟩ | ⟨-, htask⟩
    · rw [hr] at htask
      cases htask
      exact hwid
    · exact h.sound.taskId _ _ _ (htask.symm.trans hr)
  · rcases Store.task_applyMutation_cases landedAt s m "" with ⟨w, hw, hwid, -⟩ | ⟨-, htask⟩
    · rcases h.write hw with ⟨r, hfound, -, -⟩ | ⟨-, -, hcreated⟩
      · obtain ⟨tr, hr⟩ := hfound.stored
        rw [hwid, h.sound.taskNonempty] at hr
        cases hr
      · exact absurd hwid hcreated.id_ne_empty
    · exact htask.trans h.sound.taskNonempty
  · intro id a ha
    rcases attempts_cases ha with ⟨hv, hvid⟩ | ⟨-, hget⟩
    · exact hvid
    · exact h.sound.attemptId _ _ hget
  · intro id a ha
    have hstored : ∀ r tr, s.task a.taskId = some (r, tr) →
        ∃ r' tr', (s.applyMutation landedAt m).task a.taskId = some (r', tr') := by
      intro r tr hr
      obtain ⟨r', tr', hr', -⟩ := (h.lineage landedAt).task hr
      exact ⟨r', tr', hr'⟩
    rcases attempts_cases ha with ⟨hv, rfl⟩ | ⟨-, hget⟩
    · rcases Store.task_applyMutation_cases landedAt s m a.taskId with ⟨w, -, -, htask⟩ | ⟨hnot, -⟩
      · exact ⟨_, _, htask⟩
      · obtain ⟨b, hb, hcore⟩ := h.annotated hv hnot
        obtain ⟨r, tr, hr⟩ := h.sound.attemptTask _ _ hb
        exact hstored r tr (core_taskId hcore ▸ hr)
    · obtain ⟨r, tr, hr⟩ := h.sound.attemptTask id a hget
      exact hstored r tr hr
  · intro k r tr hr
    rcases Store.task_applyMutation_cases landedAt s m k with ⟨w, hw, hwid, htask⟩ | ⟨hnot, htask⟩
    · rw [hr] at htask
      cases htask
      rcases h.write hw with ⟨_, hfound, hruns, -⟩ | ⟨-, -, hcreated⟩
      · exact h.executes_written landedAt hfound hruns
      · exact hcreated.executes _
    · exact h.executes_unwritten landedAt (htask.symm.trans hr) hnot

end Landed

end MayAgent
