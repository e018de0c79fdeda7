import MayAgent.Proof.Histories
import MayAgent.Proof.Retries

/-!
# Bounded automatic execution

Under a fixed limit the failure counter of a Task decides whether it is exhausted, and an exhausted Task
runs again only on a fresh human request. Between two renewals of the allowance the number of
unsuccessful attempts is therefore bounded by the limit and the human requests in between.
-/

namespace MayAgent

def Action.Limited (limit : Nat) : Action → Prop
  | .call landing => landing.ctx.failureLimit = .count limit
  | _ => True

/-! ### The state of the failure sequence -/

structure Resource.Paced (limit : Nat) (attempts : Table String Attempt) (r : Resource) : Prop where
  reached : r.status.retryExhausted.isSome = true ↔ limit ≤ r.status.executionFailures
  recorded : ∀ e, r.status.retryExhausted = some e → e.limit = limit
  named : r.status.retryExhausted.isSome = true → ∃ id a, r.status.executionFailureAttemptId = some id ∧
    attempts.get id = some a ∧ a.taskId = r.metadata.id ∧ a.unsuccessful = true
  rested : r.Rested

structure Store.Paced (limit : Nat) (s : Store) : Prop where
  task : ∀ k r tr, s.task k = some (r, tr) → r.Paced limit s.attempts
  running : ∀ id a, s.attempts.get id = some a → a.state = .running → a.retryExhausted = none

theorem Attempt.Continues.unsuccessful {a a' : Attempt} (h : a.Continues a') (hfailed : a.unsuccessful = true) :
    a'.unsuccessful = true := by
  have hended : a.state ≠ .running := by
    intro hstate
    simp [Attempt.unsuccessful, hstate] at hfailed
  simpa [Attempt.unsuccessful, h.state hended, h.accepted hended] using hfailed

theorem core_retryExhausted {a b : Attempt} (h : a.core = b.core) : a.retryExhausted = b.retryExhausted := by
  have : a.core.retryExhausted = b.core.retryExhausted := by rw [h]
  exact this

section Step

variable {ctx : Context} {now : Int} {call : Call} {reads : Reads} {s s' : Store} {m : Mutation} {limit : Nat}

variable {r r' : Resource} {attempts : Table String Attempt} {a : Attempt} {k : String}

theorem Resource.Paced.kept (h : r.Paced limit s.attempts) (hlineage : Lineage s s')
    (hid : r'.metadata.id = r.metadata.id) (hsequence : r'.sequence = r.sequence) (hrested : r'.Rested) :
    r'.Paced limit s'.attempts := by
  obtain ⟨hfailures, hattempt, hexhausted⟩ : r'.status.executionFailures = r.status.executionFailures ∧
      r'.status.executionFailureAttemptId = r.status.executionFailureAttemptId ∧
      r'.status.retryExhausted = r.status.retryExhausted := by
    simpa [Resource.sequence] using hsequence
  refine ⟨?_, ?_, ?_, hrested⟩
  · rw [hexhausted, hfailures]
    exact h.reached
  · rw [hexhausted]
    exact h.recorded
  · rw [hexhausted, hattempt, hid]
    intro hsome
    obtain ⟨id, a, hnamed, ha, htask, hfailed⟩ := h.named hsome
    obtain ⟨a', ha', hcontinues⟩ := hlineage.attempts id a ha
    exact ⟨id, a', hnamed, ha', hcontinues.task.trans htask, hcontinues.unsuccessful hfailed⟩

theorem Resource.Paced.renewed (hlimit : 0 < limit) (hsequence : r.sequence = ⟨0, none, none⟩)
    (hrested : r.Rested) (attempts : Table String Attempt) : r.Paced limit attempts := by
  obtain ⟨hfailures, -, hexhausted⟩ : r.status.executionFailures = 0 ∧ r.status.executionFailureAttemptId = none ∧
      r.status.retryExhausted = none := by
    simpa [Resource.sequence] using hsequence
  refine ⟨?_, ?_, ?_, hrested⟩
  · simp [hexhausted, hfailures, Nat.pos_iff_ne_zero.mp hlimit]
  · simp [hexhausted]
  · simp [hexhausted]

theorem Resource.Paced.not_reached (h : r.Paced limit attempts)
    (hctx : ctx.failureLimit = .count limit) {n : Nat} : reachedLimit ctx r ≠ some n := by
  unfold reachedLimit
  split
  · simp
  · rename_i hnone
    simp only [Bool.or_eq_true, not_or, Bool.not_eq_true] at hnone
    have hlt : r.status.executionFailures < limit := by
      rw [← not_le, ← h.reached]
      simp [hnone.1]
    simp [hctx, hlt]

theorem Resource.Paced.exhaustedLimit (h : r.Paced limit attempts)
    (hctx : ctx.failureLimit = .count limit) :
    exhaustedLimit ctx r = if limit ≤ r.status.executionFailures + 1 then some limit else none := by
  unfold MayAgent.exhaustedLimit
  cases hexhausted : r.status.retryExhausted with
  | none => simp [hctx]
  | some e => simp [h.recorded e hexhausted]

theorem Resource.Paced.failed {a' : Attempt} {attempts' : Table String Attempt}
    (h : r.Paced limit attempts) (hctx : ctx.failureLimit = .count limit) (hclean : a.retryExhausted = none)
    (hsequence : r'.sequence = ⟨r.status.executionFailures + 1, some a.id, (a.noteFailure ctx now r).retryExhausted⟩)
    (hstored : attempts'.get a.id = some a') (htask : a'.taskId = r'.metadata.id) (hfailed : a'.unsuccessful = true)
    (hrested : r'.Rested) : r'.Paced limit attempts' := by
  obtain ⟨hfailures, hattempt, hexhausted⟩ : r'.status.executionFailures = r.status.executionFailures + 1 ∧
      r'.status.executionFailureAttemptId = some a.id ∧
      r'.status.retryExhausted = (a.noteFailure ctx now r).retryExhausted := by
    simpa [Resource.sequence] using hsequence
  have hnoted : (a.noteFailure ctx now r).retryExhausted = if limit ≤ r.status.executionFailures + 1
      then some (exhaustionOf a (r.status.executionFailures + 1) limit now) else none := by
    unfold Attempt.noteFailure
    rw [h.exhaustedLimit hctx]
    by_cases hle : limit ≤ r.status.executionFailures + 1 <;> simp [hle, hclean]
  rw [hnoted] at hexhausted
  refine ⟨?_, ?_, fun _ => ⟨a.id, a', hattempt, hstored, htask, hfailed⟩, hrested⟩
  · rw [hexhausted, hfailures]
    by_cases hle : limit ≤ r.status.executionFailures + 1 <;> simp [hle]
  · intro e he
    rw [hexhausted] at he
    split at he
    · cases he
      rfl
    · cases he

theorem Created.sequence {tr : Option Trigger} {admissions : List (String × Admission)}
    (h : Created ctx now call reads r tr admissions) : r.sequence = ⟨0, none, none⟩ := by
  obtain ⟨_, _, _, _, _, _, _, _, _, _⟩ := h
  unfold noteHumanRequest
  split
  · exact touchResource_sequence _ _ _
  · rfl

theorem Landed.spends (h : Landed ctx now call reads s m) (landedAt : Int)
    {tr' : Option Trigger} (hr' : (s.applyMutation landedAt m).task k = some (r', tr')) :
    (s.task k = some (r', tr') ∧ ∀ w ∈ m.tasks, w.resource.metadata.id ≠ k) ∨
    (∃ r, s.Found reads k r ∧ Spends ctx now call reads r r' (m.attempts.filter fun a => a.taskId == k) ∧
      (r.Rested → r'.Rested)) ∨
    (s.task k = none ∧ m.attempts = [] ∧ Created ctx now call reads r' tr' m.admissions) := by
  rcases h.task_cases landedAt hr' with hsame | ⟨r, _, hfound, -, hwrite⟩ | hcreated
  · exact .inl hsame
  · refine .inr (.inl ⟨r, hfound, ?_⟩)
    rcases hwrite with hchange | ⟨hnone, haside⟩
    · exact ⟨hchange.spends, hchange.rested⟩
    · rw [hnone]
      exact ⟨haside.spends, haside.rested⟩
  · exact .inr (.inr hcreated)

theorem Landed.clean (h : Landed ctx now call reads s m) (hs : s.Paced limit)
    (hfound : s.Found reads k r) (hruns : a.RunsFor reads r) : a.retryExhausted = none := by
  obtain ⟨_, hr⟩ := hfound.read
  obtain ⟨b, hb, hcore⟩ := hfound.attempt (hruns.task.trans (h.snapshot.taskId _ _ _ hr)) (.inl hruns.stored)
  rw [← core_retryExhausted hcore]
  exact hs.running _ b hb ((core_state hcore).trans hruns.state)

theorem Landed.paced_task (h : Landed ctx now call reads s m) (landedAt : Int) (hlimit : 0 < limit)
    (hctx : ctx.failureLimit = .count limit) (hs : s.Paced limit) {tr' : Option Trigger}
    (hr' : (s.applyMutation landedAt m).task k = some (r', tr')) :
    r'.Paced limit (s.applyMutation landedAt m).attempts := by
  have hown' := (h.applyMutation_sound landedAt).taskId _ _ _ hr'
  rcases h.spends landedAt hr' with ⟨hsame, -⟩ | ⟨r, hfound, hspends, hrested⟩ | ⟨-, -, hcreated⟩
  · exact (hs.task _ _ _ hsame).kept (h.lineage landedAt) rfl rfl (hs.task _ _ _ hsame).rested
  · obtain ⟨_, hr⟩ := hfound.stored
    have hpaced := hs.task _ _ _ hr
    have hrested' := hrested hpaced.rested
    have hown : r'.metadata.id = r.metadata.id := by rw [hown', h.sound.taskId _ _ _ hr]
    cases hspends with
    | keeps hsequence => exact hpaced.kept (h.lineage landedAt) hown hsequence hrested'
    | admits _ hsequence => exact hpaced.kept (h.lineage landedAt) hown hsequence hrested'
    | grants _ _ _ _ hsequence =>
      exact hpaced.kept (h.lineage landedAt) hown hsequence hrested'
    | fails a a' hruns hattempts hid hfailed hsequence =>
      have hmem : a' ∈ m.attempts.filter fun a => a.taskId == k := by simp [hattempts]
      refine hpaced.failed hctx (h.clean hs hfound hruns) hsequence ?_ ?_ hfailed hrested'
      · exact hid ▸ h.attempt_written landedAt hattempts
      · rw [hown']
        simpa using (List.mem_filter.mp hmem).2
    | adopts n hreached => exact absurd hreached (hpaced.not_reached hctx)
    | renews _ hsequence =>
      rcases hsequence with hsequence | ⟨hsequence, -⟩
      · exact .renewed hlimit hsequence hrested' _
      · exact hpaced.kept (h.lineage landedAt) hown hsequence hrested'
  · refine .renewed hlimit hcreated.sequence ?_ _
    have hnone : r'.status.retryExhausted = none := congrArg FailureSequence.exhausted hcreated.sequence
    intro hexhausted
    rw [hnone] at hexhausted
    cases hexhausted

theorem Landed.paced_running (h : Landed ctx now call reads s m) (landedAt : Int) (hs : s.Paced limit) {id : String}
    (ha : (s.applyMutation landedAt m).attempts.get id = some a) (hstate : a.state = .running) :
    a.retryExhausted = none := by
  rcases attempts_cases ha with ⟨hv, rfl⟩ | ⟨-, hget⟩
  · by_cases hwritten : ∃ w ∈ m.tasks, w.resource.metadata.id = a.taskId
    · obtain ⟨w, hw, hwid⟩ := hwritten
      have hmem : a ∈ m.attempts.filter fun b => b.taskId == a.taskId := by simp [hv]
      have htask : (s.applyMutation landedAt m).task a.taskId = some (w.resource, w.trigger) := by
        rcases Store.task_applyMutation_cases landedAt s m a.taskId with ⟨_, hw', hwid', htask⟩ | ⟨hnot, -⟩
        · rw [htask, List.inj_on_of_nodup_map h.lawful.nodup hw' hw (hwid'.trans hwid.symm)]
        · exact absurd hwid (hnot w hw)
      rcases h.task_cases landedAt htask with ⟨-, hnot⟩ | ⟨r, _, hfound, -, hchange | ⟨hnone, -⟩⟩ | ⟨-, hnone, -⟩
      · exact absurd hwid (hnot w hw)
      · rcases hchange.unexhausted hmem hstate with hnone | ⟨b, hruns, -, hsame⟩
        · exact hnone
        · rw [hsame, h.clean hs hfound hruns]
      · rw [hnone] at hmem
        cases hmem
      · rw [hnone] at hv
        cases hv
    · push Not at hwritten
      obtain ⟨b, hb, hcore⟩ := h.annotated hv hwritten
      rw [core_retryExhausted hcore]
      exact hs.running _ b hb ((core_state hcore).symm.trans hstate)
  · exact hs.running _ a hget hstate

theorem Store.Bumps.paced (h : s.Bumps s') (hs : s.Paced limit) : s'.Paced limit := by
  refine ⟨fun k r' tr' hr' => ?_, fun id a ha => hs.running id a (h.attempts ▸ ha)⟩
  rw [h.attempts]
  obtain ⟨r, _, hr, rfl | rfl⟩ := h.before hr'
  · exact hs.task _ _ _ hr
  · have hpaced := hs.task _ _ _ hr
    exact ⟨hpaced.reached, hpaced.recorded, hpaced.named, hpaced.rested⟩

end Step

theorem History.paced {limit : Nat} (hlimit : 0 < limit) {h : List Store}
    (hrun : History (fun _ action => action.Limited limit) h) : ∀ s ∈ h, s.Paced limit := by
  refine (Run.invariant (R := fun _ _ => True) (fun _ => trivial) (fun _ _ _ _ _ => trivial) ?_ ?_ hrun).1
  · intro s hinit
    refine ⟨fun k r tr hr => ?_, fun id a ha => ?_⟩
    · rw [Store.task, hinit.tasks, Table.get_empty] at hr
      cases hr
    · rw [hinit.attempts, Table.get_empty] at ha
      cases ha
  · intro s past s' hpast hpaced _ hstep
    have hs := hpaced s List.mem_cons_self
    refine ⟨?_, trivial⟩
    obtain ⟨action, hctx, -, hidle | ⟨_, _, _, _, _, -, -, hwake⟩ | ⟨_, m, rfl, -, -, hlanded, rfl⟩⟩ :=
      History.step_cases hpast hstep
    · exact hidle.bumps.paced hs
    · exact (persistExactTaskWake_bumps hwake).paced hs
    · exact ⟨fun k r' tr' hr' => hlanded.paced_task _ hlimit hctx hs hr',
        fun id a ha hstate => hlanded.paced_running _ hs ha hstate⟩

/-! ### Counting unsuccessful attempts -/

/-- The attempts of a Task that ended failed or with an accepted incomplete report. -/
def Store.unsuccessful (s : Store) (k : String) : Nat := s.attempts.count fun a => a.taskId == k && a.unsuccessful

def Store.failures (s : Store) (k : String) : Nat := ((s.task k).map fun x => x.1.status.executionFailures).getD 0

/-- What a Task may still be charged for without another permission: the failures it has, the attempt
that runs, and the attempt its fresh human request permits. -/
def Resource.charge (r : Resource) : Nat :=
  r.status.executionFailures + r.status.currentAttemptId.isSome.toNat + r.status.freshHumanInput.toNat

def Store.charge (s : Store) (k : String) : Nat := ((s.task k).map fun x => x.1.charge).getD 0

theorem Store.Sound.unsuccessful_eq_zero {s : Store} (hs : s.Sound) {k : String} (hnone : s.task k = none) :
    s.unsuccessful k = 0 := by
  refine List.countP_eq_zero.mpr fun a ha hcounts => ?_
  obtain ⟨id, hid⟩ := (Table.mem_values_iff _ _).mp ha
  simp only [Bool.and_eq_true, beq_iff_eq] at hcounts
  obtain ⟨r, _, hr⟩ := hs.attemptTask id a hid
  rw [hcounts.1, hnone] at hr
  cases hr

section Count

variable {ctx : Context} {now : Int} {call : Call} {reads : Reads} {s s' : Store} {m : Mutation} {limit : Nat} {k : String}

theorem Landed.still_unsuccessful (h : Landed ctx now call reads s m) {v : Attempt} (hv : v ∈ m.attempts)
    (hstored : (s.attempts.get v.id).any (fun a => a.taskId == k && a.unsuccessful) = true) :
    (v.taskId == k && v.unsuccessful) = true := by
  rcases h.attempt hv with ⟨a, ha, hcontinues⟩ | ⟨-, -, hnone, -⟩
  · rw [ha, Option.any_some, Bool.and_eq_true, beq_iff_eq] at hstored
    simp [hcontinues.task, hstored.1, hcontinues.unsuccessful hstored.2]
  · rw [hnone] at hstored
    cases hstored

theorem Landed.unsuccessful_le (h : Landed ctx now call reads s m) (landedAt : Int)
    (hquiet : ∀ v ∈ m.attempts, v.taskId = k → v.unsuccessful = true →
      ∃ a, s.attempts.get v.id = some a ∧ a.taskId = k ∧ a.unsuccessful = true) :
    (s.applyMutation landedAt m).unsuccessful k ≤ s.unsuccessful k := by
  have hsame : ∀ v ∈ m.attempts, (v.taskId == k && v.unsuccessful) =
      (s.attempts.get v.id).any fun a => a.taskId == k && a.unsuccessful := by
    intro v hv
    rw [Bool.eq_iff_iff]
    refine ⟨fun hcounts => ?_, h.still_unsuccessful hv⟩
    rw [Bool.and_eq_true, beq_iff_eq] at hcounts
    obtain ⟨a, ha, htask, hfailed⟩ := hquiet v hv hcounts.1 hcounts.2
    simp [ha, htask, hfailed]
  have hcount := Table.count_putAll_le s.attempts (fun a => a.taskId == k && a.unsuccessful) Attempt.id m.attempts
    (fun v hv => h.still_unsuccessful hv) (fun v hv w hw hid => by rw [hsame v hv, hsame w hw, hid])
  have hzero : (m.attempts.countP fun v => (v.taskId == k && v.unsuccessful) &&
      !(s.attempts.get v.id).any fun a => a.taskId == k && a.unsuccessful) = 0 := by
    refine List.countP_eq_zero.mpr fun v hv => ?_
    rw [hsame v hv]
    simp
  rw [hzero, ← Store.attempts_applyMutation landedAt] at hcount
  exact hcount

theorem Landed.unsuccessful_le_succ (h : Landed ctx now call reads s m) (landedAt : Int) {a : Attempt}
    (hwritten : (m.attempts.filter fun a => a.taskId == k) = [a]) :
    (s.applyMutation landedAt m).unsuccessful k ≤ s.unsuccessful k + 1 := by
  have hone : ∀ v ∈ m.attempts, v.taskId = k → v = a := by
    intro v hv htask
    have hmem : v ∈ m.attempts.filter fun a => a.taskId == k := by simp [hv, htask]
    rw [hwritten] at hmem
    exact List.mem_singleton.mp hmem
  have hcount := Table.count_putAll_le s.attempts (fun a => a.taskId == k && a.unsuccessful) Attempt.id m.attempts
    (fun v hv => h.still_unsuccessful hv) (by
      intro v hv w hw hid
      have htask := h.attempt_unique hv hw hid
      by_cases hk : v.taskId = k
      · rw [hone v hv hk, hone w hw (htask ▸ hk)]
      · have hv' : (v.taskId == k) = false := beq_eq_false_iff_ne.mpr hk
        have hw' : (w.taskId == k) = false := htask ▸ hv'
        rw [hv', hw', Bool.false_and, Bool.false_and])
  have hle : (m.attempts.countP fun v => (v.taskId == k && v.unsuccessful) &&
      !(s.attempts.get v.id).any fun a => a.taskId == k && a.unsuccessful) ≤ 1 := by
    calc _ ≤ m.attempts.countP fun v => v.taskId == k :=
          List.countP_mono_left fun v _ hcounts => by
            simp only [Bool.and_eq_true] at hcounts
            exact hcounts.1.1
      _ = 1 := by rw [List.countP_eq_length_filter, hwritten, List.length_singleton]
  rw [← Store.attempts_applyMutation landedAt] at hcount
  exact hcount.trans (Nat.add_le_add_left hle _)

variable {r : Resource}

theorem Landed.uncounted (h : Landed ctx now call reads s m) (hfound : s.Found reads k r)
    (huncounted : Uncounted reads r (m.attempts.filter fun a => a.taskId == k)) (v : Attempt) (hv : v ∈ m.attempts)
    (htask : v.taskId = k) (hfailed : v.unsuccessful = true) :
    ∃ a, s.attempts.get v.id = some a ∧ a.taskId = k ∧ a.unsuccessful = true := by
  obtain ⟨_, hr⟩ := hfound.read
  have hown := h.snapshot.taskId _ _ _ hr
  obtain ⟨a, ha, hatask, hafailed⟩ := huncounted v (by simp [hv, htask]) hfailed
  obtain ⟨b, hb, hcore⟩ := hfound.attempt (hatask.trans hown) (.inr ha)
  refine ⟨b, hb, (core_taskId hcore).trans (hatask.trans hown), ?_⟩
  exact (Attempt.Continues.of_core hcore).unsuccessful hafailed

/-- A step that does not renew the allowance of a Task: every unsuccessful attempt is charged to the
failure sequence, and the charge passes the limit only by a human request. -/
structure Store.Charged (limit : Nat) (k : String) (requests : Nat) (s s' : Store) : Prop where
  counted : s'.unsuccessful k + s.failures k ≤ s.unsuccessful k + s'.failures k
  bounded : s'.charge k ≤ max limit (s.charge k) + requests

theorem Store.charge_of_task {tr : Option Trigger} (hr : s.task k = some (r, tr)) :
    s.charge k = r.charge ∧ s.failures k = r.status.executionFailures := by
  rw [Store.charge, Store.failures, hr]
  exact ⟨rfl, rfl⟩

theorem Store.charge_of_none (hnone : s.task k = none) : s.charge k = 0 ∧ s.failures k = 0 := by
  rw [Store.charge, Store.failures, hnone]
  exact ⟨rfl, rfl⟩

theorem Spends.charged {r' : Resource} {attempts : List Attempt} (h : Spends ctx now call reads r r' attempts)
    (hpaced : r.Paced limit s.attempts) (hctx : ctx.failureLimit = .count limit)
    (hrenews : call.renews r.metadata.id = false) :
    r'.charge ≤ max limit r.charge + (if call.admitsHuman r.metadata.id then 1 else 0) ∧
      (r'.status.executionFailures = r.status.executionFailures ∧ Uncounted reads r attempts ∨
        r'.status.executionFailures = r.status.executionFailures + 1 ∧ ∃ a', attempts = [a']) := by
  cases h with
  | keeps hsequence hfresh hcurrent hattempts =>
    have hfailures : r'.status.executionFailures = r.status.executionFailures :=
      congrArg FailureSequence.failures hsequence
    refine ⟨?_, .inl ⟨hfailures, hattempts⟩⟩
    have hfresh' : r'.status.freshHumanInput.toNat ≤ r.status.freshHumanInput.toNat := by
      cases hinput : r'.status.freshHumanInput with
      | false => exact Nat.zero_le _
      | true => rw [hfresh hinput]
    have hle : r'.charge ≤ r.charge := by
      unfold Resource.charge
      rw [hfailures]
      rcases hcurrent with hcurrent | hcurrent <;> rw [hcurrent] <;> simp <;> omega
    omega
  | admits hcall hsequence hcurrent hattempts =>
    have hfailures : r'.status.executionFailures = r.status.executionFailures :=
      congrArg FailureSequence.failures hsequence
    refine ⟨?_, .inl ⟨hfailures, hattempts ▸ .of_forall (by simp)⟩⟩
    have hle : r'.charge ≤ r.charge + 1 := by
      unfold Resource.charge
      rw [hfailures, hcurrent]
      have := r'.status.freshHumanInput.toNat_le
      omega
    rw [if_pos hcall]
    omega
  | grants _ _ hallowed _ hsequence hfresh hattempts =>
    have hfailures : r'.status.executionFailures = r.status.executionFailures :=
      congrArg FailureSequence.failures hsequence
    refine ⟨?_, .inl ⟨hfailures, hattempts⟩⟩
    have hgranted : r'.charge ≤ r.status.executionFailures + 1 := by
      unfold Resource.charge
      rw [hfailures, hfresh]
      have := r'.status.currentAttemptId.isSome.toNat_le
      simp only [Bool.toNat_false]
      omega
    -- An exhausted Task spends its human request, another one is below the limit.
    have hpermitted : r.status.executionFailures + 1 ≤ max limit r.charge := by
      by_cases hexhausted : r.status.retryExhausted.isSome = true
      · have hhuman : r.status.freshHumanInput = true := by
          simpa [taskExecutionRetryExhausted, hexhausted] using hallowed
        have : r.charge = r.status.executionFailures + r.status.currentAttemptId.isSome.toNat + 1 := by
          rw [Resource.charge, hhuman, Bool.toNat_true]
        omega
      · have hlt : r.status.executionFailures < limit := by
          rw [← not_le, ← hpaced.reached]
          exact hexhausted
        omega
    omega
  | fails a a' hruns hattempts _ _ hsequence hfresh hcurrent =>
    have hfailures : r'.status.executionFailures = r.status.executionFailures + 1 :=
      congrArg FailureSequence.failures hsequence
    refine ⟨?_, .inr ⟨hfailures, a', hattempts⟩⟩
    have hsame : r'.charge = r.charge := by
      unfold Resource.charge
      rw [hfailures, hcurrent, hfresh, hruns.current]
      simp
    omega
  | adopts n hreached => exact absurd hreached (hpaced.not_reached hctx)
  | renews hcall =>
    rw [hrenews] at hcall
    cases hcall

theorem Created.charge_le {tr : Option Trigger} {admissions : List (String × Admission)}
    (h : Created ctx now call reads r tr admissions) : r.charge ≤ 1 ∧ r.status.executionFailures = 0 := by
  have hfailures : r.status.executionFailures = 0 := congrArg FailureSequence.failures h.sequence
  refine ⟨?_, hfailures⟩
  obtain ⟨_, input, key, _, same, _, _, _, _, _⟩ := h
  have hcurrent := (noteHumanRequest_run now input key (observedResource ctx now input none same)).2.1
  have hidle : (observedResource ctx now input none same).status.currentAttemptId = none := rfl
  rw [Resource.charge, hfailures, hcurrent, hidle]
  simpa using Bool.toNat_le _

theorem Landed.charged (h : Landed ctx now call reads s m) (landedAt : Int) (hlimit : 0 < limit)
    (hctx : ctx.failureLimit = .count limit) (hs : s.Paced limit) (hrenews : call.renews k = false) :
    s.Charged limit k (if call.admitsHuman k then 1 else 0) (s.applyMutation landedAt m) := by
  cases hr' : (s.applyMutation landedAt m).task k with
  | none =>
    have hcount := (h.applyMutation_sound landedAt).unsuccessful_eq_zero hr'
    have hnone : s.task k = none := by
      rw [← Option.not_isSome_iff_eq_none, Option.isSome_iff_exists]
      rintro ⟨⟨r, tr⟩, hr⟩
      obtain ⟨r', tr', hsome, -⟩ := (h.lineage landedAt).task hr
      rw [hr'] at hsome
      cases hsome
    exact ⟨by rw [hcount, (Store.charge_of_none hnone).2]; omega, by rw [(Store.charge_of_none hr').1]; omega⟩
  | some row =>
    obtain ⟨r', tr'⟩ := row
    obtain ⟨_, _⟩ := Store.charge_of_task hr'
    rcases h.spends landedAt hr' with ⟨hsame, hnot⟩ | ⟨r, hfound, hspends, -⟩ | ⟨hnone, hattempts, hcreated⟩
    · obtain ⟨hcharge, hfailures⟩ := Store.charge_of_task hsame
      have hcount := h.unsuccessful_le landedAt (k := k) (by
        rintro v hv rfl hfailed
        obtain ⟨b, hb, hcore⟩ := h.annotated hv hnot
        exact ⟨b, hb, (core_taskId hcore).symm, (Attempt.Continues.of_core hcore.symm).unsuccessful hfailed⟩)
      exact ⟨by omega, by omega⟩
    · obtain ⟨tr, hr⟩ := hfound.stored
      have hown := h.sound.taskId _ _ _ hr
      obtain ⟨hcharge, hfailures⟩ := Store.charge_of_task hr
      obtain ⟨hbounded, hcases⟩ := hspends.charged (hs.task _ _ _ hr) hctx (hown ▸ hrenews)
      rw [hown] at hbounded
      refine ⟨?_, by omega⟩
      rcases hcases with ⟨_, huncounted⟩ | ⟨_, _, hwritten⟩
      · have hcount := h.unsuccessful_le landedAt (h.uncounted hfound huncounted)
        omega
      · have hcount := h.unsuccessful_le_succ landedAt hwritten
        omega
    · obtain ⟨hcharge, hfailures⟩ := Store.charge_of_none hnone
      obtain ⟨_, _⟩ := hcreated.charge_le
      have hcount := h.unsuccessful_le landedAt (k := k) (by simp [hattempts])
      exact ⟨by omega, by omega⟩

theorem Store.Bumps.charged (h : s.Bumps s') : s.Charged limit k 0 s' := by
  have hcount : s'.unsuccessful k = s.unsuccessful k := by rw [Store.unsuccessful, h.attempts, Store.unsuccessful]
  have hsame : s'.charge k = s.charge k ∧ s'.failures k = s.failures k := by
    rcases h.task k with heq | ⟨r, _, _, hr, hbump⟩
    · rw [Store.charge, Store.failures, heq]
      exact ⟨rfl, rfl⟩
    · rw [(Store.charge_of_task hr).1, (Store.charge_of_task hr).2, (Store.charge_of_task hbump).1,
        (Store.charge_of_task hbump).2]
      exact ⟨rfl, rfl⟩
  exact ⟨by omega, by omega⟩

end Count

/-! ### Stretches without renewal -/

def Action.renews (k : String) : Action → Bool
  | .call landing => landing.call.renews k
  | _ => false

def Action.admitsHuman (k : String) : Action → Bool
  | .call landing => landing.call.admitsHuman k
  | _ => false

/-- `Stretch limit k h₀ n h`: the history `h₀` goes on to `h` without renewing the allowance of the Task
`k`, and `n` human requests are admitted to it on the way. -/
inductive Stretch (limit : Nat) (k : String) (h₀ : List Store) : Nat → List Store → Prop
  | start : Stretch limit k h₀ 0 h₀
  | quiet {n : Nat} {s : Store} {past : List Store} (action : Action) (hstretch : Stretch limit k h₀ n (s :: past))
      (hadmissible : action.Admissible s) (hreads : action.ReadsWithin (s :: past)) (hlimited : action.Limited limit)
      (hquiet : action.next s = s ∨ action.renews k = false ∧ action.admitsHuman k = false) :
      Stretch limit k h₀ n (action.next s :: s :: past)
  | request {n : Nat} {s : Store} {past : List Store} (action : Action) (hstretch : Stretch limit k h₀ n (s :: past))
      (hadmissible : action.Admissible s) (hreads : action.ReadsWithin (s :: past)) (hlimited : action.Limited limit)
      (hrequest : action.admitsHuman k = true) : Stretch limit k h₀ (n + 1) (action.next s :: s :: past)

section Stretch

variable {limit n : Nat} {k : String} {h₀ h : List Store}

theorem Stretch.history (hstretch : Stretch limit k h₀ n h)
    (hrun : History (fun _ action => action.Limited limit) h₀) : History (fun _ action => action.Limited limit) h := by
  induction hstretch with
  | start => exact hrun
  | quiet action _ hadmissible hreads hlimited _ ih =>
    exact .next ih ⟨_, _, action, rfl, hadmissible, hreads, hlimited, rfl⟩
  | request action _ hadmissible hreads hlimited _ ih =>
    exact .next ih ⟨_, _, action, rfl, hadmissible, hreads, hlimited, rfl⟩

theorem Call.renews_of_admitsHuman {call : Call} (h : call.admitsHuman k = true) : call.renews k = false := by
  cases call <;> first | rfl | cases h

variable {s : Store} {past : List Store}

theorem Action.charged {action : Action} (hlimit : 0 < limit)
    (hrun : History (fun _ action => action.Limited limit) (s :: past)) (hadmissible : action.Admissible s)
    (hreads : action.ReadsWithin (s :: past)) (hlimited : action.Limited limit) (hrenews : action.renews k = false) :
    s.Charged limit k (if action.admitsHuman k then 1 else 0) (action.next s) := by
  have hs := History.paced hlimit hrun s List.mem_cons_self
  have hweaken : s.Bumps (action.next s) →
      s.Charged limit k (if action.admitsHuman k then 1 else 0) (action.next s) := by
    intro hbumps
    have hcharged : s.Charged limit k 0 (action.next s) := hbumps.charged
    obtain ⟨hcounted, _⟩ := hcharged
    exact ⟨hcounted, by omega⟩
  rcases History.next_cases hrun hadmissible hreads with
    hidle | ⟨_, _, _, _, _, -, -, hwake⟩ | ⟨_, m, rfl, -, -, hlanded, hnext⟩
  · exact hweaken hidle.bumps
  · exact hweaken (persistExactTaskWake_bumps hwake)
  · rw [hnext]
    exact hlanded.charged _ hlimit hlimited hs hrenews

theorem Stretch.charged (hlimit : 0 < limit) {s₀ : Store} {past₀ : List Store}
    (hrun : History (fun _ action => action.Limited limit) (s₀ :: past₀))
    (hstretch : Stretch limit k (s₀ :: past₀) n (s :: past)) : s₀.Charged limit k n s := by
  generalize hh : s :: past = h at hstretch
  induction hstretch generalizing s past with
  | start =>
    cases hh
    exact ⟨by omega, by omega⟩
  | quiet _ hstretch hadmissible hreads hlimited hquiet ih =>
    cases hh
    obtain ⟨hcounted, hbounded⟩ := ih rfl
    rcases hquiet with hsame | ⟨hrenews, hrequest⟩
    · rw [hsame]
      exact ⟨hcounted, hbounded⟩
    · obtain ⟨hcounted', hbounded'⟩ := Action.charged hlimit (hstretch.history hrun) hadmissible hreads hlimited hrenews
      rw [hrequest] at hbounded'
      simp only [Bool.false_eq_true, if_false] at hbounded'
      exact ⟨by omega, by omega⟩
  | request action hstretch hadmissible hreads hlimited hrequest ih =>
    cases hh
    obtain ⟨hcounted, hbounded⟩ := ih rfl
    have hrenews : action.renews k = false := by
      cases action with
      | call => exact Call.renews_of_admitsHuman hrequest
      | _ => rfl
    obtain ⟨hcounted', hbounded'⟩ := Action.charged hlimit (hstretch.history hrun) hadmissible hreads hlimited hrenews
    rw [hrequest, if_pos rfl] at hbounded'
    exact ⟨by omega, by omega⟩

theorem Action.grants_exhausted {action : Action} (hlimit : 0 < limit)
    (hrun : History (fun _ action => action.Limited limit) (s :: past)) (hadmissible : action.Admissible s)
    (hreads : action.ReadsWithin (s :: past)) (hlimited : action.Limited limit) {r r' : Resource} {tr tr' : Option Trigger}
    {id : String} (hr : s.task k = some (r, tr)) (hexhausted : r.status.retryExhausted.isSome = true)
    (hr' : (action.next s).task k = some (r', tr')) (hid : r'.status.currentAttemptId = some id)
    (hnew : r.status.currentAttemptId ≠ some id) :
    (∃ landing input, action = .call landing ∧ landing.call = .claim input) ∧ r.status.freshHumanInput = true ∧
      r'.status.freshHumanInput = false := by
  have hs := History.paced hlimit hrun s List.mem_cons_self
  have hbumps : ¬ s.Bumps (action.next s) := by
    intro hbumps
    obtain ⟨r₀, tr₀, hr₀, hcases⟩ := hbumps.before hr'
    rw [hr] at hr₀
    cases hr₀
    rcases hcases with rfl | rfl <;> exact hnew hid
  rcases History.next_cases hrun hadmissible hreads with
    hidle | ⟨_, _, _, _, _, -, -, hwake⟩ | ⟨landing, m, rfl, -, -, hlanded, hnext⟩
  · exact absurd hidle.bumps hbumps
  · exact absurd (persistExactTaskWake_bumps hwake) hbumps
  · rw [hnext] at hr'
    rcases hlanded.spends _ hr' with ⟨hsame, -⟩ | ⟨r₀, hfound, hspends, -⟩ | ⟨hnone, -, -⟩
    · rw [hr] at hsame
      cases hsame
      exact absurd hid hnew
    · obtain ⟨tr₀, hr₀⟩ := hfound.stored
      rw [hr] at hr₀
      cases hr₀
      cases hspends with
      | grants input hcall hallowed _ _ hfresh =>
        refine ⟨⟨landing, input, rfl, hcall⟩, ?_, hfresh⟩
        simpa [taskExecutionRetryExhausted, hexhausted] using hallowed
      | keeps _ _ hcurrent =>
        rcases hcurrent with hcurrent | hcurrent
        · exact absurd (hcurrent ▸ hid) hnew
        · rw [hcurrent] at hid
          cases hid
      | admits _ _ hcurrent => exact absurd (hcurrent ▸ hid) hnew
      | fails a _ _ _ _ _ _ _ hcurrent =>
        rw [hcurrent] at hid
        cases hid
      | adopts n hreached => exact absurd hreached ((hs.task _ _ _ hr).not_reached hlimited)
      | renews _ _ hcurrent =>
        rw [hcurrent] at hid
        cases hid
    · rw [hr] at hnone
      cases hnone

end Stretch

/-! ### The property -/

/-- **Bounded automatic execution.** Under a fixed limit, along every stretch that does not renew the
allowance of a Task, at most `limit` of its attempts end unsuccessfully besides the human requests
admitted on the way. An exhausted Task does not queue and gets another attempt only from a claim that
spends a fresh human request. At the limit one, a stretch may not begin with a request that waits behind
a running attempt. -/
theorem bounded_execution {limit n : Nat} {k : String} (hlimit : 0 < limit) {s₀ s : Store} {past₀ past : List Store}
    (hrun : History (fun _ action => action.Limited limit) (s₀ :: past₀))
    (hstretch : Stretch limit k (s₀ :: past₀) n (s :: past)) :
    ((2 ≤ limit ∨ ∀ r tr, s₀.task k = some (r, tr) → r.status.currentAttemptId = none ∨ r.status.freshHumanInput = false) →
      s.unsuccessful k ≤ s₀.unsuccessful k + (limit + n)) ∧
    (∀ r tr, s.task k = some (r, tr) →
      (r.status.retryExhausted.isSome = true ↔ limit ≤ r.status.executionFailures) ∧
      (r.status.retryExhausted.isSome = true →
        (∃ id a, r.status.executionFailureAttemptId = some id ∧ s.attempts.get id = some a ∧ a.taskId = k ∧
          a.unsuccessful = true) ∧
        (r.status.currentAttemptId = none → r.status.phase ≠ .pending) ∧
        ∀ (action : Action) (r' : Resource) tr' id, action.Admissible s → action.ReadsWithin (s :: past) → action.Limited limit →
          (action.next s).task k = some (r', tr') → r'.status.currentAttemptId = some id →
          r.status.currentAttemptId ≠ some id →
          (∃ landing input, action = .call landing ∧ landing.call = .claim input) ∧
            r.status.freshHumanInput = true ∧ r'.status.freshHumanInput = false)) := by
  have hrun' := hstretch.history hrun
  obtain ⟨hsound, -⟩ := History.sound hrun'
  constructor
  · intro hstart
    obtain ⟨_, _⟩ := hstretch.charged hlimit hrun
    have hfailures : s.failures k ≤ s.charge k := by
      unfold Store.failures Store.charge
      cases s.task k with
      | none => exact le_refl _
      | some => simp only [Option.map_some, Option.getD_some, Resource.charge]; omega
    have hinitial : s₀.charge k ≤ s₀.failures k + limit := by
      unfold Store.failures Store.charge
      cases hr : s₀.task k with
      | none => exact Nat.zero_le _
      | some x =>
        simp only [Option.map_some, Option.getD_some, Resource.charge]
        have hrunning := x.1.status.currentAttemptId.isSome.toNat_le
        have hfresh := x.1.status.freshHumanInput.toNat_le
        rcases hstart with htwo | hidle
        · omega
        · rcases hidle x.1 x.2 hr with hnone | hnone
          · simp only [hnone, Option.isSome_none, Bool.toNat_false]
            omega
          · simp only [hnone, Bool.toNat_false]
            omega
    omega
  · intro r tr hr
    have hpaced := (History.paced hlimit hrun' s List.mem_cons_self).task _ _ _ hr
    refine ⟨hpaced.reached, fun hexhausted => ⟨?_, hpaced.rested hexhausted, ?_⟩⟩
    · rw [← (hsound s List.mem_cons_self).taskId _ _ _ hr]
      exact hpaced.named hexhausted
    · intro action r' tr' id hadmissible hreads hlimited hr' hid hnew
      exact Action.grants_exhausted hlimit hrun' hadmissible hreads hlimited hr hexhausted hr' hid hnew

/-- From the empty store on, the first failure of a Task counts within the default limit. -/
theorem bounded_execution_failed :
    Sample.failed.unsuccessful "a" = 1 ∧ Sample.failed.unsuccessful "a" ≤ Sample.store.unsuccessful "a" + (3 + 0) := by
  have h₀ : Stretch 3 "a" [Sample.store] 0 [Sample.store] := .start
  have h₁ : Stretch 3 "a" [Sample.store] 0 [Sample.observed, Sample.store] :=
    .quiet (.call (.alone Sample.context 1 (Sample.observe "a" (some (Sample.event 1)) none) Sample.store)) h₀
      ⟨trivial, fun _ => rfl⟩ (Reads.Within.now _ _) rfl (.inr ⟨rfl, rfl⟩)
  have h₂ : Stretch 3 "a" [Sample.store] 0 [Sample.claimed, Sample.observed, Sample.store] :=
    .quiet (.call (.alone Sample.context 2 (Sample.claim "a" "u1") Sample.observed)) h₁
      ⟨ClaimInput.fresh_of_suffix (by decide +kernel), fun _ => rfl⟩ (Reads.Within.now _ _) rfl (.inr ⟨rfl, rfl⟩)
  have h₃ : Stretch 3 "a" [Sample.store] 0 [Sample.failed, Sample.claimed, Sample.observed, Sample.store] :=
    .quiet (.call (.alone Sample.context 3 (.fail (Sample.claimOf Sample.claimed "a") "failure" {}) Sample.claimed)) h₂
      ⟨trivial, fun _ => rfl⟩ (Reads.Within.now _ _) rfl (.inr ⟨rfl, rfl⟩)
  exact ⟨by decide +kernel, (bounded_execution (by decide) (.start Sample.store_initial) h₃).1 (.inl (by decide))⟩

end MayAgent
