import MayAgent.Host.Deadlines
import MayAgent.Lib.Reach

/-!
# Deadlines of Tasks

The due timer is armed for the nearest deadline, unless the last recovery has seen it pass. So a Task is enqueued at its
deadline as long as no other Task is left overdue by a recovery when the deadline passes; a Task that is left overdue
hides the deadlines of all the others until the next safety scan.
-/

namespace MayAgent

/-! ### The index -/

namespace TaskIndex

variable {rows : TaskIndex} {taskId : String} {d m : Int}

def Awaits (rows : TaskIndex) (taskId : String) (d : Int) : Prop :=
  ∃ row, rows.get taskId = some row ∧ row.cancelled = false ∧ row.nextCheckAt = some d

theorem Awaits.mem_deadlines (h : rows.Awaits taskId d) : d ∈ rows.deadlines := by
  obtain ⟨row, hget, hopen, hdue⟩ := h
  refine List.mem_filterMap.mpr ⟨⟨taskId, row⟩, (rows.get_eq_some_iff taskId row).mp hget, ?_⟩
  simp [hopen, hdue]

theorem mem_of_nextDueAt (h : rows.nextDueAt = some m) : m ∈ rows.deadlines := List.min?_mem h

theorem nextDueAt_le (h : rows.nextDueAt = some m) (hd : d ∈ rows.deadlines) : m ≤ d :=
  (List.min?_eq_some_iff.mp h).2 d hd

theorem exists_nextDueAt (hd : d ∈ rows.deadlines) : ∃ m, rows.nextDueAt = some m := by
  cases h : rows.nextDueAt with
  | some m => exact ⟨m, rfl⟩
  | none =>
    rw [nextDueAt, List.min?_eq_none_iff] at h
    rw [h] at hd
    cases hd

theorem listRecoveryCandidates_of_few {now : Int} {limit : Nat} (hfew : rows.entries.length < limit) :
    (rows.listRecoveryCandidates now limit none).2 = none ∧
      ∀ item ∈ rows.candidates now, item ∈ (rows.listRecoveryCandidates now limit none).1 := by
  have hcard : (rows.candidates now).card < limit := by
    refine lt_of_le_of_lt ((List.toFinset_card_le _).trans ?_) hfew
    rw [List.length_map]
    exact List.length_filter_le _ _
  have hall : Keyset.page (rows.candidates now) none limit = (rows.candidates now).sort (· ≤ ·) := by
    rw [Keyset.page, Keyset.ahead_none]
    exact List.take_of_length_le (by rw [Finset.length_sort]; exact hcard.le)
  constructor
  · rw [listRecoveryCandidates, hall]
    refine if_neg ?_
    rw [Finset.length_sort]
    exact hcard.ne
  · intro item hitem
    rw [listRecoveryCandidates, hall]
    exact (Finset.mem_sort (· ≤ ·)).mpr hitem

theorem Awaits.mem_candidates (h : rows.Awaits taskId d) {now : Int} (hdue : d ≤ now) :
    ∃ item ∈ rows.candidates now, item.2.2 = taskId := by
  obtain ⟨row, hget, hopen, hcheck⟩ := h
  refine ⟨row.cursor taskId, ?_, rfl⟩
  rw [candidates, List.mem_toFinset]
  refine List.mem_map.mpr ⟨⟨taskId, row⟩, List.mem_filter.mpr ⟨(rows.get_eq_some_iff taskId row).mp hget, ?_⟩, rfl⟩
  simp [TaskIndexRow.isCandidate, hopen, hcheck, hdue]

end TaskIndex

namespace RecoveryScheduler

/-! ### What the timer serves -/

/-- No recovery has run at the time or after it. -/
def Unseen (s : RecoveryScheduler) (d : Int) : Prop := ∀ t ∈ s.lastRecoveryAt, t < d

/-- What holds between any two statements of the scheduler. -/
structure Settled (limit : Nat) (s : RecoveryScheduler) : Prop where
  few : s.rows.entries.length < limit
  first : s.recoveryCursor = none
  past : ∀ t ∈ s.lastRecoveryAt, t ≤ s.now
  timer : ∀ f due, s.dueTimer = some f → s.dueAt = some due → f ≤ max due (s.now + 1)

/-- The timer is armed for the nearest deadline and for every deadline that has passed, unless a recovery has seen it. -/
structure Serves (s : RecoveryScheduler) : Prop where
  nearest : s.closed = false → ∀ m, s.rows.nextDueAt = some m → s.Unseen m →
    ∃ f, s.dueTimer = some f ∧ f ≤ max m (s.now + 1)
  passed : s.closed = false → ∀ d ∈ s.rows.deadlines, d ≤ s.now → s.Unseen d →
    ∃ f, s.dueTimer = some f ∧ f ≤ s.now + 1

/-- When a deadline passes between the two times, no deadline is left that a recovery has seen pass. -/
def Prompt (rows : TaskIndex) (lastRecoveryAt : Option Int) (t t' : Int) : Prop :=
  ∀ d ∈ rows.deadlines, t < d → d ≤ t' → ∀ a ∈ rows.deadlines, ∀ r ∈ lastRecoveryAt, r < a

variable {limit : Nat} {s : RecoveryScheduler}

theorem Settled.tick (h : s.Settled limit) (elapsed : Nat) : (s.tick elapsed).Settled limit where
  few := h.few
  first := h.first
  past t ht := by
    have := h.past t ht
    show t ≤ s.now + elapsed
    omega
  timer f due hf hdue := by
    have := h.timer f due hf hdue
    show f ≤ max due (s.now + elapsed + 1)
    omega

theorem Settled.recover (h : s.Settled limit) : (s.recover limit).Settled limit := by
  unfold RecoveryScheduler.recover
  split
  · exact h
  · refine ⟨h.few, ?_, ?_, h.timer⟩
    · dsimp only
      rw [h.first]
      exact (TaskIndex.listRecoveryCandidates_of_few h.few).1
    · rintro t ⟨⟩
      exact le_refl _

theorem Settled.armNearestDue (h : s.Settled limit) (force : Bool) : (s.armNearestDue force).Settled limit := by
  unfold RecoveryScheduler.armNearestDue
  split
  · exact ⟨h.few, h.first, h.past, nofun⟩
  · split
    · exact h
    split
    · exact h
    · refine ⟨h.few, h.first, h.past, ?_⟩
      rintro f _ ⟨⟩ ⟨⟩
      dsimp only
      omega

/-- After the timer is armed it serves all deadlines, if the ones that passed since the last recovery are not hidden. -/
theorem Settled.serves_armNearestDue (h : s.Settled limit) {force : Bool}
    (hclear : force = false → ∀ d ∈ s.rows.deadlines, d ≤ s.now → s.Unseen d → ∀ a ∈ s.rows.deadlines, s.Unseen a) :
    (s.armNearestDue force).Serves := by
  unfold RecoveryScheduler.armNearestDue
  cases hnext : s.rows.nextDueAt with
  | none =>
    refine ⟨fun _ m hm => absurd (hnext.symm.trans hm) (by simp), fun _ d hd => ?_⟩
    obtain ⟨m, hm⟩ := TaskIndex.exists_nextDueAt hd
    exact absurd (hnext.symm.trans hm) (by simp)
  | some m =>
    have hmem := TaskIndex.mem_of_nextDueAt hnext
    dsimp only
    split
    case isTrue hseen =>
      -- The recovery has seen the nearest deadline pass, and no deadline after that is hidden.
      simp only [Bool.and_eq_true, decide_eq_true_eq, Bool.not_eq_true', Option.any_eq_true] at hseen
      obtain ⟨⟨-, hforce⟩, t, ht, hle⟩ := hseen
      have hnot : ¬s.Unseen m := fun hunseen => absurd (hunseen t ht) (by omega)
      refine ⟨fun _ m' hm' hunseen => ?_, fun _ d hd hpassed hunseen => absurd (hclear hforce d hd hpassed hunseen m hmem) hnot⟩
      cases hnext.symm.trans hm'
      exact absurd hunseen hnot
    case isFalse =>
      have harmed {s' : RecoveryScheduler} {f : Int} (hrows : s'.rows = s.rows) (hnow : s'.now = s.now)
          (hf : s'.dueTimer = some f) (hle : f ≤ max m (s.now + 1)) : s'.Serves := by
        refine ⟨fun _ m' hm' _ => ⟨f, hf, ?_⟩, fun _ d hd hpassed _ => ⟨f, hf, ?_⟩⟩
        · rw [hrows, hnext] at hm'
          cases hm'
          rwa [hnow]
        · rw [hrows] at hd
          have := TaskIndex.nextDueAt_le hnext hd
          omega
      split
      case isTrue hsame =>
        simp only [Bool.and_eq_true, Option.isSome_iff_exists, beq_iff_eq] at hsame
        obtain ⟨⟨-, f, hf⟩, hdue⟩ := hsame
        exact harmed rfl rfl hf (h.timer f m hf hdue)
      case isFalse =>
        refine harmed rfl rfl rfl ?_
        omega

theorem Serves.recover (hserves : s.Serves) (h : s.Settled limit) : (s.recover limit).Serves := by
  unfold RecoveryScheduler.recover
  split
  · exact hserves
  · refine ⟨fun hclosed m hm hunseen => hserves.nearest hclosed m hm fun t ht => ?_, fun _ d _ hpassed hunseen => ?_⟩
    · exact lt_of_le_of_lt (h.past t ht) (hunseen s.now rfl)
    · have := hunseen s.now rfl
      dsimp only at hpassed
      omega

theorem Serves.tick (hserves : s.Serves) {elapsed : Nat} (hprompt : Prompt s.rows s.lastRecoveryAt s.now (s.now + elapsed)) :
    (s.tick elapsed).Serves := by
  refine ⟨fun hclosed m hm hunseen => ?_, fun hclosed d hd hpassed hunseen => ?_⟩
  · obtain ⟨f, hf, hle⟩ := hserves.nearest hclosed m hm hunseen
    refine ⟨f, hf, ?_⟩
    show f ≤ max m (s.now + elapsed + 1)
    omega
  · have hpassed : d ≤ s.now + elapsed := hpassed
    by_cases hbefore : d ≤ s.now
    · obtain ⟨f, hf, hle⟩ := hserves.passed hclosed d hd hbefore hunseen
      refine ⟨f, hf, ?_⟩
      show f ≤ s.now + elapsed + 1
      omega
    · -- The deadline passes now, and the timer is armed for the nearest one.
      obtain ⟨m, hm⟩ := TaskIndex.exists_nextDueAt hd
      have hall := hprompt d hd (by omega) hpassed m (TaskIndex.mem_of_nextDueAt hm)
      obtain ⟨f, hf, hle⟩ := hserves.nearest hclosed m hm hall
      have := TaskIndex.nextDueAt_le hm hd
      refine ⟨f, hf, ?_⟩
      show f ≤ s.now + elapsed + 1
      omega

/-! ### Steps -/

/-- The rows fit on a page, and no deadline passes while another one is left that a recovery has seen pass. -/
def Ok (limit : Nat) (s : RecoveryScheduler) : Action → Prop
  | .change rows => rows.entries.length < limit
  | .advance elapsed => Prompt s.rows s.lastRecoveryAt s.now (s.now + elapsed)
  | .timer drift | .safety drift => Prompt s.rows (some s.now) s.now (s.now + drift)
  | _ => True

theorem recover_rows (limit : Nat) (s : RecoveryScheduler) : (s.recover limit).rows = s.rows := by
  unfold recover
  split <;> rfl

theorem recover_now (limit : Nat) (s : RecoveryScheduler) : (s.recover limit).now = s.now := by
  unfold recover
  split <;> rfl

theorem recover_lastRecoveryAt (hclosed : s.closed = false) : (s.recover limit).lastRecoveryAt = some s.now := by
  unfold recover
  rw [hclosed]
  rfl

theorem armNearestDue_fields (force : Bool) (s : RecoveryScheduler) :
    (s.armNearestDue force).rows = s.rows ∧ (s.armNearestDue force).enqueued = s.enqueued ∧
      (s.armNearestDue force).lastRecoveryAt = s.lastRecoveryAt ∧ (s.armNearestDue force).closed = s.closed := by
  unfold armNearestDue
  split
  · exact ⟨rfl, rfl, rfl, rfl⟩
  · split
    · exact ⟨rfl, rfl, rfl, rfl⟩
    split <;> exact ⟨rfl, rfl, rfl, rfl⟩

theorem Settled.recoverAndArm (h : s.Settled limit) (hclosed : s.closed = false) {drift : Nat}
    (hprompt : Prompt s.rows (some s.now) s.now (s.now + drift)) :
    (s.recoverAndArm limit drift).Settled limit ∧ (s.recoverAndArm limit drift).Serves := by
  refine ⟨(h.recover.tick drift).armNearestDue false, (h.recover.tick drift).serves_armNearestDue fun _ d hd hpassed hunseen => ?_⟩
  have hrows : ((s.recover limit).tick drift).rows = s.rows := recover_rows limit s
  have hnow : ((s.recover limit).tick drift).now = s.now + drift := by
    rw [← recover_now limit s]
    rfl
  have hlast : ((s.recover limit).tick drift).lastRecoveryAt = some s.now := recover_lastRecoveryAt hclosed
  rw [hrows] at hd
  rw [hnow] at hpassed
  intro a ha t ht
  rw [hrows] at ha
  rw [hlast] at ht
  exact hprompt d hd (hunseen s.now hlast) hpassed a ha t ht

theorem rows_recoverAndArm (limit drift : Nat) (s : RecoveryScheduler) : (s.recoverAndArm limit drift).rows = s.rows :=
  (armNearestDue_fields false _).1.trans (recover_rows limit s)

theorem rows_next (limit : Nat) (s : RecoveryScheduler) (a : Action) :
    (s.next limit a).rows = match a with
      | .change rows => rows
      | _ => s.rows := by
  have hchanged (s : RecoveryScheduler) : s.stateChanged.rows = s.rows := by
    unfold stateChanged
    split
    · rfl
    · exact (armNearestDue_fields true s).1
  cases a with
  | change rows => exact hchanged { s with rows := rows }
  | stateChanged => exact hchanged s
  | recover => exact recover_rows limit s
  | advance | close => rfl
  | safety drift =>
    rw [next, fireSafety]
    split
    · rfl
    · exact rows_recoverAndArm limit drift s
  | timer drift =>
    rw [next, fireDue]
    split
    · rfl
    · exact rows_recoverAndArm limit drift _

def Stopped (s : RecoveryScheduler) : Prop := s.closed = true → s.dueTimer = none

/-- What holds in every state. -/
structure Good (limit : Nat) (s : RecoveryScheduler) : Prop where
  settled : s.Settled limit
  serves : s.Serves
  stopped : s.Stopped

theorem Serves.of_closed (h : s.closed = true) : s.Serves :=
  ⟨fun hopen => absurd (h.symm.trans hopen) (by decide), fun hopen => absurd (h.symm.trans hopen) (by decide)⟩

theorem Settled.stateChanged (h : s.Settled limit) (hstopped : s.Stopped) : s.stateChanged.Good limit := by
  unfold RecoveryScheduler.stateChanged
  split
  case isTrue hclosed => exact ⟨h, .of_closed hclosed, hstopped⟩
  case isFalse hclosed =>
    refine ⟨h.armNearestDue true, h.serves_armNearestDue (by simp), fun hclosed' => ?_⟩
    rw [(armNearestDue_fields true s).2.2.2] at hclosed'
    exact absurd hclosed' hclosed

theorem closed_recover (limit : Nat) (s : RecoveryScheduler) : (s.recover limit).closed = s.closed := by
  unfold recover
  split <;> rfl

theorem closed_recoverAndArm (limit drift : Nat) (s : RecoveryScheduler) : (s.recoverAndArm limit drift).closed = s.closed :=
  (armNearestDue_fields false _).2.2.2.trans (closed_recover limit s)

theorem Good.next (h : s.Good limit) {a : Action} (hok : Ok limit s a) : (s.next limit a).Good limit := by
  have hopen {s' : RecoveryScheduler} (hclosed : s'.closed = false) : s'.Stopped := fun h =>
    absurd (hclosed.symm.trans h) (by decide)
  cases a with
  | change => exact Settled.stateChanged ⟨hok, h.settled.first, h.settled.past, h.settled.timer⟩ h.stopped
  | stateChanged => exact h.settled.stateChanged h.stopped
  | recover =>
    refine ⟨h.settled.recover, h.serves.recover h.settled, fun hclosed => ?_⟩
    rw [RecoveryScheduler.next, closed_recover] at hclosed
    rw [RecoveryScheduler.next, RecoveryScheduler.recover, if_pos hclosed]
    exact h.stopped hclosed
  | advance elapsed => exact ⟨h.settled.tick elapsed, h.serves.tick hok, h.stopped⟩
  | close => exact ⟨⟨h.settled.few, h.settled.first, h.settled.past, nofun⟩, .of_closed rfl, fun _ => rfl⟩
  | safety drift =>
    rw [RecoveryScheduler.next, fireSafety]
    split
    · exact h
    case isFalse hclosed =>
      have hclosed : s.closed = false := by simpa using hclosed
      obtain ⟨hsettled, hserves⟩ := h.settled.recoverAndArm hclosed hok
      exact ⟨hsettled, hserves, hopen ((closed_recoverAndArm limit drift s).trans hclosed)⟩
  | timer drift =>
    rw [RecoveryScheduler.next, fireDue]
    split
    · exact h
    case isFalse harmed =>
      have hclosed : s.closed = false := by
        cases hclosed : s.closed with
        | false => rfl
        | true => exact absurd (by rw [h.stopped hclosed]; rfl) harmed
      have hfired : { s with dueTimer := none, dueAt := none }.Settled limit :=
        ⟨h.settled.few, h.settled.first, h.settled.past, nofun⟩
      obtain ⟨hsettled, hserves⟩ := hfired.recoverAndArm hclosed hok
      exact ⟨hsettled, hserves, hopen ((closed_recoverAndArm limit drift _).trans hclosed)⟩

/-! ### Runs -/

def Initial (limit : Nat) (s : RecoveryScheduler) : Prop :=
  ∃ drift rows now, rows.entries.length < limit ∧ Prompt rows (some now) now (now + (drift : Nat)) ∧
    s = started limit drift rows now

def Reachable (limit : Nat) (s : RecoveryScheduler) : Prop := Reaches (Initial limit) (next limit) (Ok limit) s

theorem Reachable.good (h : s.Reachable limit) : s.Good limit := by
  refine Reaches.invariant ?_ (fun s a hs hok => hs.next hok) h
  rintro s ⟨_, rows, now, hfew, hprompt, rfl⟩
  have hnew : RecoveryScheduler.Settled limit { rows := rows, now := now } := ⟨hfew, rfl, nofun, nofun⟩
  obtain ⟨hsettled, hserves⟩ := hnew.recoverAndArm rfl hprompt
  refine ⟨hsettled, hserves, fun hclosed => ?_⟩
  rw [started, closed_recoverAndArm] at hclosed
  cases hclosed

def Enqueued (s : RecoveryScheduler) (taskId : String) (d : Int) : Prop :=
  ∃ e ∈ s.enqueued, e.taskId = taskId ∧ d ≤ e.recoveryAt

section Enqueued

variable {taskId : String} {d : Int}

theorem Settled.enqueued_recover (h : s.Settled limit) (hclosed : s.closed = false) (hawaits : s.rows.Awaits taskId d)
    (hdue : d ≤ s.now) : (s.recover limit).Enqueued taskId d := by
  obtain ⟨item, hitem, hid⟩ := hawaits.mem_candidates hdue
  have hpage : item ∈ (s.rows.listRecoveryCandidates s.now limit none).1 :=
    (TaskIndex.listRecoveryCandidates_of_few h.few).2 item hitem
  refine ⟨⟨item.2.2, if item.1 = 0 then .human else .normal, s.now⟩, ?_, hid, hdue⟩
  rw [RecoveryScheduler.recover, if_neg (by simp [hclosed])]
  dsimp only
  rw [h.first]
  exact List.mem_append_right _ (List.mem_map_of_mem hpage)

theorem next_recovers (limit : Nat) (s : RecoveryScheduler) (a : Action) :
    ((s.next limit a).lastRecoveryAt = s.lastRecoveryAt ∧ (s.next limit a).enqueued = s.enqueued) ∨
      ((s.next limit a).lastRecoveryAt = (s.recover limit).lastRecoveryAt ∧
        (s.next limit a).enqueued = (s.recover limit).enqueued) := by
  have hchanged (s : RecoveryScheduler) :
      s.stateChanged.lastRecoveryAt = s.lastRecoveryAt ∧ s.stateChanged.enqueued = s.enqueued := by
    unfold RecoveryScheduler.stateChanged
    split
    · exact ⟨rfl, rfl⟩
    · exact ⟨(armNearestDue_fields true s).2.2.1, (armNearestDue_fields true s).2.1⟩
  have harms (s : RecoveryScheduler) (drift : Nat) :
      (s.recoverAndArm limit drift).lastRecoveryAt = (s.recover limit).lastRecoveryAt ∧
        (s.recoverAndArm limit drift).enqueued = (s.recover limit).enqueued :=
    ⟨(armNearestDue_fields false _).2.2.1, (armNearestDue_fields false _).2.1⟩
  cases a with
  | change rows => exact .inl (hchanged { s with rows := rows })
  | stateChanged => exact .inl (hchanged s)
  | recover => exact .inr ⟨rfl, rfl⟩
  | advance | close => exact .inl ⟨rfl, rfl⟩
  | safety drift =>
    rw [RecoveryScheduler.next, fireSafety]
    split
    · exact .inl ⟨rfl, rfl⟩
    · exact .inr (harms s drift)
  | timer drift =>
    rw [RecoveryScheduler.next, fireDue]
    split
    · exact .inl ⟨rfl, rfl⟩
    · refine .inr ⟨(harms _ drift).1.trans ?_, (harms _ drift).2.trans ?_⟩ <;> unfold recover <;> split <;> rfl

theorem Settled.unseen_or_enqueued (h : s.Settled limit) (hawaits : s.rows.Awaits taskId d)
    (hbefore : s.Unseen d ∨ s.Enqueued taskId d) (a : Action) :
    (s.next limit a).Unseen d ∨ (s.next limit a).Enqueued taskId d := by
  have hsame {s' : RecoveryScheduler} (hlast : s'.lastRecoveryAt = s.lastRecoveryAt) (henqueued : s'.enqueued = s.enqueued) :
      s'.Unseen d ∨ s'.Enqueued taskId d := by
    unfold Unseen Enqueued at *
    rwa [hlast, henqueued]
  rcases next_recovers limit s a with ⟨hlast, henqueued⟩ | ⟨hlast, henqueued⟩
  · exact hsame hlast henqueued
  cases hclosed : s.closed with
  | true =>
    have hidle : s.recover limit = s := if_pos hclosed
    rw [hidle] at hlast henqueued
    exact hsame hlast henqueued
  | false =>
    by_cases hdue : d ≤ s.now
    · refine .inr ?_
      unfold Enqueued
      rw [henqueued]
      exact h.enqueued_recover hclosed hawaits hdue
    · refine .inl fun t ht => ?_
      rw [hlast, recover_lastRecoveryAt hclosed] at ht
      cases ht
      omega

/-- A step that meets the condition and leaves the Task open with its deadline. -/
def Keeps (limit : Nat) (taskId : String) (d : Int) (s : RecoveryScheduler) (a : Action) : Prop :=
  Ok limit s a ∧ (s.next limit a).rows.Awaits taskId d

/-- Where no deadline passes while a recovery has left another Task overdue, a Task that stays open with a deadline that
was in the future is enqueued at the deadline: once the deadline has passed, a recovery has enqueued the Task since, or
the due timer fires within a millisecond and its recovery enqueues the Task. -/
theorem deadline_served (pageSize : Option Nat) {s₀ s : RecoveryScheduler} (hs₀ : s₀.Reachable (recoveryPageSize pageSize))
    (hawaits : s₀.rows.Awaits taskId d) (hfuture : s₀.now < d)
    (hsteps : Relation.ReflTransGen (Takes (next (recoveryPageSize pageSize)) (Keeps (recoveryPageSize pageSize) taskId d)) s₀ s)
    (hclosed : s.closed = false) (hdue : d ≤ s.now) :
    s.Enqueued taskId d ∨ ∃ f, s.dueTimer = some f ∧ f ≤ s.now + 1 ∧
      ∀ drift, (s.next (recoveryPageSize pageSize) (.timer drift)).Enqueued taskId d := by
  have hrun : s.Good (recoveryPageSize pageSize) ∧ s.rows.Awaits taskId d ∧ (s.Unseen d ∨ s.Enqueued taskId d) := by
    clear hclosed hdue
    induction hsteps with
    | refl =>
      have hgood := hs₀.good
      exact ⟨hgood, hawaits, .inl fun t ht => lt_of_le_of_lt (hgood.settled.past t ht) hfuture⟩
    | tail _ hlast ih =>
      obtain ⟨a, ⟨hok, hkept⟩, rfl⟩ := hlast
      obtain ⟨hgood, hawaits, hbefore⟩ := ih
      exact ⟨hgood.next hok, hkept, hgood.settled.unseen_or_enqueued hawaits hbefore a⟩
  obtain ⟨hgood, hawaits, hunseen | henqueued⟩ := hrun
  · obtain ⟨f, hf, hle⟩ := hgood.serves.passed hclosed d hawaits.mem_deadlines hdue hunseen
    refine .inr ⟨f, hf, hle, fun drift => ?_⟩
    have hfired : { s with dueTimer := none, dueAt := none }.Settled (recoveryPageSize pageSize) :=
      ⟨hgood.settled.few, hgood.settled.first, hgood.settled.past, nofun⟩
    have hrecovered := hfired.enqueued_recover hclosed hawaits hdue
    unfold Enqueued at hrecovered ⊢
    rw [RecoveryScheduler.next, fireDue, if_neg (by simp [hf])]
    rwa [recoverAndArm, (armNearestDue_fields false _).2.1]
  · exact .inl henqueued

end Enqueued

/-! ### A Task that stays overdue -/

namespace Sample

/-- Task `b` is to be checked at 20. -/
def later : TaskIndex := (∅ : TaskIndex).put "b" { lane := .normal, nextCheckAt := some 20 }

/-- Task `a` is to be checked at 10 and Task `b` at 20. -/
def both : TaskIndex := later.put "a" { lane := .normal, nextCheckAt := some 10 }

def size : Nat := recoveryPageSize none

def initial : RecoveryScheduler := started size 0 both 0

def due : RecoveryScheduler := initial.next size (.advance 10)

/-- The scheduler after the timer for `a` has fired at 10. -/
def fired : RecoveryScheduler := due.next size (.timer 0)

def settled : RecoveryScheduler := fired.next size (.change later)

/-- Task `a` is settled, and it is 20. -/
def cleared : RecoveryScheduler := settled.next size (.advance 10)

/-- Task `a` stays overdue for 40 seconds. -/
def overdue : RecoveryScheduler := fired.next size (.advance 40000)

theorem awaits_both : both.Awaits "b" 20 := ⟨{ lane := .normal, nextCheckAt := some 20 }, by decide, rfl, rfl⟩

theorem awaits_later : later.Awaits "b" 20 := ⟨{ lane := .normal, nextCheckAt := some 20 }, by decide, rfl, rfl⟩

theorem rows_initial : initial.rows = both := rows_recoverAndArm size 0 _

theorem rows_due : due.rows = both := (rows_next size initial _).trans rows_initial

theorem rows_fired : fired.rows = both := (rows_next size due _).trans rows_due

theorem rows_settled : settled.rows = later := rows_next size fired _

theorem rows_cleared : cleared.rows = later := (rows_next size settled _).trans rows_settled

theorem rows_overdue : overdue.rows = both := (rows_next size fired _).trans rows_fired

theorem reachable_initial : initial.Reachable size :=
  Reaches.start ⟨0, both, 0, by decide, fun d _ hlt hle => absurd hle (by omega), rfl⟩

end Sample

open RecoveryScheduler.Sample in
theorem deadline_served_cleared :
    ∃ f, cleared.dueTimer = some f ∧ f ≤ cleared.now + 1 ∧ ∀ drift, (cleared.next size (.timer drift)).Enqueued "b" 20 := by
  have hdue : Takes (next size) (Keeps size "b" 20) initial due :=
    ⟨.advance 10, ⟨by unfold Ok Prompt; decide +kernel, rows_due ▸ awaits_both⟩, rfl⟩
  have hfired : Takes (next size) (Keeps size "b" 20) due fired :=
    ⟨.timer 0, ⟨by unfold Ok Prompt; decide +kernel, rows_fired ▸ awaits_both⟩, rfl⟩
  have hsettled : Takes (next size) (Keeps size "b" 20) fired settled :=
    ⟨.change later, ⟨by unfold Ok; decide +kernel, rows_settled ▸ awaits_later⟩, rfl⟩
  have hcleared : Takes (next size) (Keeps size "b" 20) settled cleared :=
    ⟨.advance 10, ⟨by unfold Ok Prompt; decide +kernel, rows_cleared ▸ awaits_later⟩, rfl⟩
  exact (deadline_served none reachable_initial (rows_initial ▸ awaits_both) (by decide)
    (.tail (.tail (.tail (.single hdue) hfired) hsettled) hcleared)
    (by decide +kernel) (by decide +kernel)).resolve_left (by unfold Enqueued; decide +kernel)

open RecoveryScheduler.Sample in
/-- The timer for `a` fires and enqueues it. While `a` stays overdue, the timer is not armed again, and 40 seconds later `b`
is overdue as well, has not been enqueued, and only the safety scan is left. -/
theorem deadline_hidden :
    initial.Reachable size ∧ initial.rows.Awaits "b" 20 ∧ initial.now < 20 ∧
      Relation.ReflTransGen (Takes (next size) fun s a => (s.next size a).rows.Awaits "b" 20 ∧
        (s.next size a).rows.entries.length < size) initial overdue ∧
      overdue.closed = false ∧ 20 ≤ overdue.now ∧ ¬overdue.Enqueued "b" 20 ∧ overdue.dueTimer = none := by
  refine ⟨reachable_initial, rows_initial ▸ awaits_both, by decide, ?_, by decide +kernel, by decide +kernel,
    by unfold Enqueued; decide +kernel, by decide +kernel⟩
  have hkeeps {s : RecoveryScheduler} (h : s.rows = both) : s.rows.Awaits "b" 20 ∧ s.rows.entries.length < size := by
    rw [h]
    exact ⟨awaits_both, by decide⟩
  exact .tail (.tail (.single ⟨.advance 10, hkeeps rows_due, rfl⟩) ⟨.timer 0, hkeeps rows_fired, rfl⟩)
    ⟨.advance 40000, hkeeps rows_overdue, rfl⟩

end RecoveryScheduler

end MayAgent
