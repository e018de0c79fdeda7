import MayAgent.Property.Batch

/-!
# Explicit retry

The failure sequence of a Task names the attempt that failed last. `retryFailedAppTask` looks that attempt up by
its start time instead, among the attempts of the current generation that the snapshot shows, and restores the
input of the one it finds if it failed. This agrees with the named attempt only while the clock does.
-/

namespace MayAgent

/-! ### The attempt that started last -/

/-- The first entry of a list with the greatest start time. -/
def StartedLast (l : List Attempt) (a : Attempt) : Prop :=
  ∃ before after, l = before ++ a :: after ∧ (∀ b ∈ before, b.startedAt < a.startedAt) ∧
    ∀ b ∈ after, b.startedAt ≤ a.startedAt

theorem scan_startedLast (l : List Attempt) :
    (l = [] ∧ l.foldl (fun best a => match best with
      | none => some a
      | some b => if b.startedAt < a.startedAt then some a else some b) none = none) ∨
    ∃ a, l.foldl (fun best a => match best with
      | none => some a
      | some b => if b.startedAt < a.startedAt then some a else some b) none = some a ∧ StartedLast l a := by
  refine foldl_passed (P := fun passed best => (passed = [] ∧ best = none) ∨ ∃ a, best = some a ∧ StartedLast passed a)
    (.inl ⟨rfl, rfl⟩) ?_
  rintro passed x _ best - (⟨rfl, rfl⟩ | ⟨b, rfl, before, after, rfl, hbefore, hafter⟩)
  · exact .inr ⟨x, rfl, [], [], rfl, by simp, by simp⟩
  · right
    dsimp only
    split_ifs with hlater
    · refine ⟨x, rfl, before ++ b :: after, [], by simp, fun c hc => ?_, by simp⟩
      rcases List.mem_append.mp hc with hc | hc
      · exact lt_trans (hbefore c hc) hlater
      · rcases List.mem_cons.mp hc with rfl | hc
        · exact hlater
        · exact lt_of_le_of_lt (hafter c hc) hlater
    · refine ⟨b, rfl, before, after ++ [x], by simp, hbefore, fun c hc => ?_⟩
      rcases List.mem_append.mp hc with hc | hc
      · exact hafter c hc
      · rw [List.mem_singleton.mp hc]
        exact not_lt.mp hlater

variable {a : Attempt} {k : String} {s : Store} {r : Resource}

variable {b : Attempt} {events batch : List TriggerEvent}

theorem StartedLast.unique {l : List Attempt} (ha : StartedLast l a) (hb : StartedLast l b) : a = b := by
  obtain ⟨_, _, rfl, hbefore, hafter⟩ := ha
  obtain ⟨_, _, heq, hbefore', hafter'⟩ := hb
  rcases List.append_eq_append_iff.mp heq with ⟨gap, rfl, hrest⟩ | ⟨gap, rfl, hrest⟩
  · cases gap with
    | nil => exact (List.cons.inj hrest).1
    | cons =>
      obtain ⟨rfl, rfl⟩ := List.cons.inj hrest
      have hlt := hbefore' a (by simp)
      have hle := hafter b (by simp)
      omega
  · cases gap with
    | nil => exact (List.cons.inj hrest).1.symm
    | cons =>
      obtain ⟨rfl, rfl⟩ := List.cons.inj hrest
      have hlt := hbefore b (by simp)
      have hle := hafter' a (by simp)
      omega

theorem latestTaskAttempt_eq_some_iff {t : Tree} {generation : Nat} :
    latestTaskAttempt t k (some generation) = some a ↔ StartedLast (t.attempts.values.filter fun a =>
      a.taskId == k && decide (a.taskGeneration = generation)) a := by
  rcases scan_startedLast (t.attempts.values.filter fun a => a.taskId == k && decide (a.taskGeneration = generation)) with
    ⟨hnil, hscan⟩ | ⟨b, hscan, hlast⟩
  · have hlatest : latestTaskAttempt t k (some generation) = none := hscan
    rw [hlatest, hnil]
    refine iff_of_false (by simp) ?_
    rintro ⟨_, _, hsplit, -⟩
    simp at hsplit
  · have hlatest : latestTaskAttempt t k (some generation) = some b := hscan
    rw [hlatest]
    constructor
    · rintro ⟨⟩
      exact hlast
    · intro ha
      rw [hlast.unique ha]

/-! ### The retry -/

/-- The attempts of the current generation, in the order the snapshot lists them. -/
def Store.shownAttempts (s : Store) (k : String) (generation : Nat) : List Attempt :=
  (s.readTaskContext { taskIds := [k] }).attempts.values.filter fun a =>
    a.taskId == k && decide (a.taskGeneration = generation)

/-- A retry finds the attempt that exhausted the allowance, or the one of the current generation that started
last by its start time. -/
inductive Store.Finds (s : Store) (k : String) (r : Resource) (a : Attempt) : Prop
  | exhausted (e : RetryExhaustion) (he : r.status.retryExhausted = some e) (ha : s.attempts.get e.attemptId = some a)
  | latest (hnone : r.status.retryExhausted = none) (ha : StartedLast (s.shownAttempts k r.metadata.generation) a)

theorem retriedAttempt_eq_some_iff :
    retriedAttempt s (s.readTaskContext { taskIds := [k] }) r k r.metadata.generation = some a ↔ s.Finds k r a := by
  unfold retriedAttempt
  split
  · rename_i e he
    refine ⟨fun ha => .exhausted e he ha, fun h => ?_⟩
    cases h with
    | exhausted _ he' ha =>
      rw [he] at he'
      cases he'
      exact ha
    | latest hnone =>
      rw [he] at hnone
      cases hnone
  · rename_i hnone
    rw [latestTaskAttempt_eq_some_iff]
    refine ⟨fun ha => .latest hnone ha, fun h => ?_⟩
    cases h with
    | exhausted e he =>
      rw [hnone] at he
      cases he
    | latest _ ha => exact ha

structure RetryInput.Current (input : RetryInput) (ctx : Context) (s : Store) (r : Resource) : Prop where
  app : input.appId = ctx.appId
  generation : input.expectedGeneration = r.metadata.generation
  version : input.expectedResourceVersion = r.metadata.resourceVersion
  unused : ∀ key, input.controlKey = some key → s.controlReceipts.get key = none

section Retry

variable {s : Store} {ctx : Context} {now : Int} {input : RetryInput} {r : Resource} {tr : Option Trigger} {a : Attempt}

theorem RetryInput.Current.fresh (h : input.Current ctx s r) :
    ((usedControlKey input.controlKey).bind fun key => (s.readControlReceipt key).map fun prior => (key, prior)) = none := by
  cases hkey : input.controlKey with
  | none => rfl
  | some key =>
    have hunused : s.readControlReceipt key = none := h.unused key hkey
    unfold usedControlKey
    rw [Option.filter_some]
    split_ifs
    · simp [hunused]
    · rfl

end Retry

theorem Store.Finds.unique (ha : s.Finds k r a)
    (hb : s.Finds k r b) : a = b := by
  rw [← retriedAttempt_eq_some_iff] at ha hb
  exact Option.some.inj (ha.symm.trans hb)

theorem Store.Finds.stored (h : s.Finds k r a) :
    ∃ id, s.attempts.get id = some a := by
  cases h with
  | exhausted e _ ha => exact ⟨_, ha⟩
  | latest _ ha =>
    obtain ⟨_, _, heq, -⟩ := ha
    have hmem : a ∈ s.shownAttempts k r.metadata.generation := heq ▸ List.mem_append_right _ List.mem_cons_self
    obtain ⟨id, hget⟩ := (Table.mem_values_iff _ _).mp (List.mem_filter.mp hmem).1
    exact ⟨id, Store.attempts_of_readTaskContext hget⟩

/-! ### What a retry restores -/

/-- Every event is found, or a clock wake. -/
def Covered (events batch : List TriggerEvent) : Prop :=
  ∀ entry ∈ events, ∃ kept ∈ batch, taskEventIdentity kept.event = taskEventIdentity entry.event ∨ isTick kept.event = true

theorem Deduplicates.covered (h : Deduplicates events batch) : Covered events batch := by
  intro entry hentry
  obtain ⟨kept, hkept, hsame⟩ := h.covers entry hentry
  exact ⟨kept, hkept, hsame.imp_right And.left⟩

theorem Covered.mono {events' batch' : List TriggerEvent} (h : Covered events batch) (hevents : events' ⊆ events)
    (hbatch : batch ⊆ batch') : Covered events' batch' := by
  intro entry hentry
  obtain ⟨kept, hkept, hsame⟩ := h entry (hevents hentry)
  exact ⟨kept, hbatch hkept, hsame⟩

theorem Attempt.Batched.restored {f : Attempt} (h : f.Batched) (r : Resource) (tr : Option Trigger) (now : Int) :
    Deduplicates (attemptInput f ++ pendingTriggerEvents tr) (pendingTriggerEvents (restoreAttemptEvents r f tr now)) := by
  have hbatch := (Deduplicates.refl h.input.2).appendAll (pendingTriggerEvents tr)
  have hne : appendTaskTriggerEvents (attemptInput f) (pendingTriggerEvents tr) ≠ [] := by
    obtain ⟨entry, hentry⟩ := List.exists_mem_of_ne_nil _ h.input_ne_nil
    obtain ⟨_, hkept, -⟩ := hbatch.covers entry (List.mem_append_left _ hentry)
    exact List.ne_nil_of_mem hkept
  rw [restoreAttemptEvents, if_neg (by simpa using h.input_ne_nil), pendingTriggerEvents_of_events hne]
  exact hbatch

/-- The retry succeeds, and what is pending then is the input of the attempt `a` and what was pending, without duplicates. -/
def RetryInput.Restores (input : RetryInput) (ctx : Context) (now : Int) (s : Store) (tr : Option Trigger) (a : Attempt) :
    Prop :=
  ∃ m receipt s' r' tr', retryFailedAppTask now (Reads.now s) input = .commit m receipt ∧ s.commit ctx now m = .ok s' ∧
    s'.task input.taskId = some (r', tr') ∧ Deduplicates (attemptInput a ++ pendingTriggerEvents tr) (pendingTriggerEvents tr')

section Outcome

variable {s : Store} {ctx : Context} {input : RetryInput} {r : Resource} {tr : Option Trigger} {a : Attempt}

end Outcome

namespace Sample.Clock

/-- The Task `a` claimed at 100. -/
def first : Store := (claim "a" "u1").perform context 100 observed

/-- The process restarts with a clock that is behind, and recovers the attempt at 50. -/
def second : Store := (claim "a" "u2").perform restarted 50 first

def failed : Store := (Call.fail (claimOf second "a") "failure" {}).perform restarted 51 second

theorem failed_reachable : Reachable (fun _ _ => True) failed := by
  have hobserved : Reachable (fun _ _ => True) observed := observed_reachable trivial
  have hfirst : Reachable (fun _ _ => True) first :=
    hobserved.call context 100 (ClaimInput.fresh_of_suffix (by decide +kernel)) trivial
  have hsecond : Reachable (fun _ _ => True) second :=
    hfirst.call restarted 50 (ClaimInput.fresh_of_suffix (by decide +kernel)) trivial
  exact hsecond.call restarted 51 (by trivial) trivial

def input (s : Store) : RetryInput where
  appId := "app"
  taskId := "a"
  expectedGeneration := ((s.task "a").map fun x => x.1.metadata.generation).getD 0
  expectedResourceVersion := ((s.task "a").map fun x => x.1.metadata.resourceVersion).getD 0
  receiptUuid := "receipt"

end Sample.Clock

end MayAgent
