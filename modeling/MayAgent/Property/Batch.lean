import MayAgent.Lib.Select
import MayAgent.Proof.Triggers
import MayAgent.Proof.Histories

/-!
# The batch of an attempt

A claim offers its attempt the input of the attempt it replaces and then the pending trigger, without
duplicates. It splits the offered batch: a bounded part goes to the attempt, human input first, and the rest
stays pending.
-/

namespace MayAgent

/-! ### The split -/

/-- The input of an attempt that a claim offers again. -/
def unacceptedEvents (previousAttempt : Option Attempt) : List TriggerEvent :=
  match previousAttempt with
  | some a => if a.state ≠ .completed ∧ a.failureReason ≠ some "owner-stopped" then attemptInput a else []
  | none => []

def isHumanTaskRequest (entry : TriggerEvent) : Bool :=
  entry.event.field "type" == some (.str "app.task.requested") && decide (taskTriggerLane entry.event = .human)

/-- The split of a batch into the part an attempt takes and the part that stays: both in the order of the
batch, the taken part bounded and human input first. -/
structure FairSplit (r : Resource) (batch claimed remaining : List TriggerEvent) : Prop where
  parts : (claimed ++ remaining).Perm batch
  claimedOrder : claimed.Sublist batch
  remainingOrder : remaining.Sublist batch
  bounded : claimed.length ≤ 32
  human : (∃ entry ∈ remaining, taskTriggerLane entry.event = .human) →
    ∀ entry ∈ claimed, taskTriggerLane entry.event = .human
  correction : r.status.retryExhausted.isSome = true → r.status.freshHumanInput = true →
    ∀ before newest after, batch = before ++ newest :: after → isHumanTaskRequest newest = true →
      (∀ entry ∈ after, isHumanTaskRequest entry = false) → newest ∈ claimed

def requiredIndex (r : Resource) (events : List TriggerEvent) : Option Nat :=
  if r.status.retryExhausted.isSome && r.status.freshHumanInput then correctionIndex events else none

theorem selectedIndices_eq (r : Resource) (events : List TriggerEvent) :
    selectedIndices r events = boundedSelection (selectionOrder events) MAX_TASK_EVENTS_PER_ATTEMPT (requiredIndex r events) := by
  unfold selectedIndices boundedSelection requiredIndex
  generalize (if r.status.retryExhausted.isSome && r.status.freshHumanInput then correctionIndex events else none) = must
  cases must <;> rfl

theorem selectionOrder_eq (events : List TriggerEvent) :
    selectionOrder events = positionsFirst (fun entry => decide (taskTriggerLane entry.event = .human)) events := by
  unfold selectionOrder positionsFirst
  simp

theorem selectionOrder_append (events : List TriggerEvent) :
    selectionOrder events =
      ((events.zipIdx.filter fun e => decide (taskTriggerLane e.1.event = .human)).map Prod.snd) ++
      ((events.zipIdx.filter fun e => decide (taskTriggerLane e.1.event ≠ .human)).map Prod.snd) := by
  rw [selectionOrder, List.map_append]

variable {events : List TriggerEvent} {i : Nat} {r : Resource}

theorem mem_humanPositions :
    i ∈ (events.zipIdx.filter fun e => decide (taskTriggerLane e.1.event = .human)).map Prod.snd ↔
      ∃ entry, events[i]? = some entry ∧ taskTriggerLane entry.event = .human := by
  simp only [List.mem_map, List.mem_filter, decide_eq_true_eq, Prod.exists, exists_eq_right,
    List.mk_mem_zipIdx_iff_getElem?]

theorem correctionIndex_human (h : correctionIndex events = some i) :
    ∃ entry, events[i]? = some entry ∧ taskTriggerLane entry.event = .human := by
  unfold correctionIndex at h
  obtain ⟨⟨entry, j⟩, hfind, rfl⟩ := Option.map_eq_some_iff.mp h
  have hmem := List.mem_of_find?_eq_some hfind
  have hp := List.find?_some hfind
  rw [List.mem_reverse, List.mk_mem_zipIdx_iff_getElem?] at hmem
  simp only [Bool.and_eq_true, decide_eq_true_eq] at hp
  exact ⟨entry, hmem, hp.2⟩

theorem correctionIndex_newest {before after : List TriggerEvent} {newest : TriggerEvent}
    (hnewest : isHumanTaskRequest newest = true) (hafter : ∀ entry ∈ after, isHumanTaskRequest entry = false) :
    correctionIndex (before ++ newest :: after) = some before.length := by
  unfold correctionIndex
  rw [List.zipIdx_append, List.zipIdx_cons, List.reverse_append, List.reverse_cons, List.append_assoc,
    List.find?_append]
  have hnone : (List.zipIdx after (0 + before.length + 1)).reverse.find? (fun e =>
      e.1.event.field "type" == some (.str "app.task.requested") && decide (taskTriggerLane e.1.event = .human)) = none := by
    rw [List.find?_eq_none]
    rintro ⟨entry, i⟩ hmem htrue
    rw [List.mem_reverse] at hmem
    have hfalse := hafter entry (List.fst_mem_of_mem_zipIdx hmem)
    rw [isHumanTaskRequest] at hfalse
    rw [hfalse] at htrue
    cases htrue
  rw [hnone, Option.none_or]
  rw [isHumanTaskRequest] at hnewest
  simp only [List.singleton_append, List.find?_cons, hnewest, Option.map_some, Nat.zero_add]

theorem requiredIndex_human (h : requiredIndex r events = some i) :
    ∃ entry, events[i]? = some entry ∧ taskTriggerLane entry.event = .human := by
  unfold requiredIndex at h
  split_ifs at h
  exact correctionIndex_human h

theorem claimedEvents_fairSplit (r : Resource) (events : List TriggerEvent) :
    FairSplit r events (claimedEvents r events) (remainingEvents r events) := by
  have hclaimed : claimedEvents r events = atPositions events (selectedIndices r events) := rfl
  have hremaining : remainingEvents r events = offPositions events (selectedIndices r events) := rfl
  rw [hclaimed, hremaining]
  refine ⟨atPositions_append_perm _ _, atPositions_sublist _ _, offPositions_sublist _ _, ?_, ?_, ?_⟩
  · calc (atPositions events (selectedIndices r events)).length
        ≤ (selectedIndices r events).length := length_atPositions_le _ _
      _ ≤ MAX_TASK_EVENTS_PER_ATTEMPT := by
        rw [selectedIndices_eq]
        exact boundedSelection_length_le _ (by decide) _
  · rintro ⟨left, hleft, hleftHuman⟩ _ hentry
    obtain ⟨i, hi, hat⟩ := mem_offPositions.mp hleft
    obtain ⟨j, hj, hat'⟩ := mem_atPositions.mp hentry
    rw [selectedIndices_eq, selectionOrder_append] at hi hj
    obtain ⟨_, hentry', hhuman⟩ := mem_humanPositions.mp (boundedSelection_first
      (fun k hk => mem_humanPositions.mpr (requiredIndex_human hk)) (mem_humanPositions.mpr ⟨left, hat, hleftHuman⟩) hi hj)
    rw [hat'] at hentry'
    cases hentry'
    exact hhuman
  · rintro hexhausted hfresh before newest after rfl hnewest hafter
    have hrequired : requiredIndex r (before ++ newest :: after) = some before.length := by
      rw [requiredIndex, hexhausted, hfresh]
      exact correctionIndex_newest hnewest hafter
    refine mem_atPositions.mpr ⟨before.length, ?_, by simp⟩
    rw [selectedIndices_eq]
    exact mem_boundedSelection_must hrequired

theorem remainingEvents_eq_nil (h : events.length ≤ MAX_TASK_EVENTS_PER_ATTEMPT) :
    remainingEvents r events = [] := by
  refine offPositions_eq_nil fun i hi => ?_
  rw [selectedIndices_eq, selectionOrder_eq, boundedSelection_eq]
  · exact (mem_positionsFirst _ _).mpr hi
  · rwa [length_positionsFirst]
  · intro j hj
    obtain ⟨_, hentry, -⟩ := requiredIndex_human hj
    exact (mem_positionsFirst _ _).mpr (List.getElem?_eq_some_iff.mp hentry).1

/-! ### The batches of a run -/

/-- The batch of an attempt is bounded and holds no event twice; an attempt without a batch keeps the trigger
it was shown. -/
structure Attempt.Batched (a : Attempt) : Prop where
  given : a.events.isEmpty = true → a.trigger.isSome = true
  bounded : a.events.length ≤ MAX_TASK_EVENTS_PER_ATTEMPT
  distinct : (a.events.map fun entry => taskEventIdentity entry.event).Nodup

namespace Attempt.Batched

variable {a : Attempt} {reads : Reads} {r : Resource} {previous : Option Attempt}

theorem input_ne_nil (h : a.Batched) : attemptInput a ≠ [] := by
  unfold attemptInput
  split_ifs with hempty
  · obtain ⟨e, he⟩ := Option.isSome_iff_exists.mp (h.given hempty)
    rw [he]
    exact List.cons_ne_nil _ _
  · exact fun hnil => hempty (List.isEmpty_iff.mpr hnil)

theorem input (h : a.Batched) : (attemptInput a).length ≤ MAX_TASK_EVENTS_PER_ATTEMPT ∧
    ((attemptInput a).map fun entry => taskEventIdentity entry.event).Nodup := by
  unfold attemptInput
  split_ifs
  · split
    · exact ⟨by rw [List.length_singleton]; decide, List.nodup_singleton _⟩
    · exact ⟨Nat.zero_le _, List.nodup_nil⟩
  · exact ⟨h.bounded, h.distinct⟩

theorem unaccepted (h : ∀ id a, reads.snapshot.attempts.get id = some a → a.Batched)
    (hprevious : PreviousAttempt reads r previous) :
    (unacceptedEvents previous).length ≤ MAX_TASK_EVENTS_PER_ATTEMPT ∧
      ((unacceptedEvents previous).map fun entry => taskEventIdentity entry.event).Nodup := by
  cases previous with
  | none => exact ⟨Nat.zero_le _, List.nodup_nil⟩
  | some a =>
    have hruns : a.RunsFor reads r := hprevious
    unfold unacceptedEvents
    dsimp only
    split_ifs
    · exact (h a.id a hruns.stored).input
    · exact ⟨Nat.zero_le _, List.nodup_nil⟩

/-- What a claim offers its attempt is the input of the attempt it replaces and the pending trigger, without
duplicates. -/
theorem offered (h : ∀ id a, reads.snapshot.attempts.get id = some a → a.Batched)
    (hprevious : PreviousAttempt reads r previous) (tr : Option Trigger) :
    Deduplicates (unacceptedEvents previous ++ pendingTriggerEvents tr) (offeredEvents previous tr) :=
  (Deduplicates.refl (unaccepted h hprevious).2).appendAll (pendingTriggerEvents tr)

end Attempt.Batched

theorem Starts.batched {ctx : Context} {now : Int} {input : ClaimInput} {reads : Reads}
    {tr tr' : Option Trigger} {a : Attempt} (h : Starts ctx now input reads r tr tr' a)
    (hread : ∀ id a, reads.snapshot.attempts.get id = some a → a.Batched) : a.Batched := by
  cases h with
  | start _ _ previous _ _ _ hprevious =>
    have hsplit := claimedEvents_fairSplit r (offeredEvents previous tr)
    refine ⟨fun hempty => ?_, hsplit.bounded,
      (hsplit.claimedOrder.map _).nodup (Attempt.Batched.offered hread hprevious tr).distinct⟩
    have hclaimed : (claimedEvents r (offeredEvents previous tr)).isEmpty = true := hempty
    simp [newAttempt, refreshAttemptLease, hclaimed]

theorem History.batched {ok : Store → Action → Prop} {h : List Store} (hrun : History ok h) :
    ∀ o ∈ h, ∀ id a, o.attempts.get id = some a → a.Batched := by
  refine (Run.invariant (R := fun _ _ => True) (fun _ => trivial) (fun _ _ _ _ _ => trivial) ?_ ?_ hrun).1
  · intro s hinit id a ha
    rw [hinit.attempts, Table.get_empty] at ha
    cases ha
  · rintro s past s' hpast hI - hstep
    refine ⟨fun id a ha => ?_, trivial⟩
    have hs := hI s List.mem_cons_self
    obtain ⟨_, -, -, hidle | ⟨_, _, _, _, _, -, -, hwake⟩ | ⟨landing, m, -, -, hreads, hlanded, rfl⟩⟩ :=
      History.step_cases hpast hstep
    · exact hs id a (hidle.attempts ▸ ha)
    · exact hs id a ((persistExactTaskWake_bumps hwake).attempts ▸ ha)
    · rcases Landed.attempts_cases ha with ⟨hv, rfl⟩ | ⟨-, hget⟩
      · rcases hlanded.attempt hv with ⟨b, hb, hcontinues⟩ | ⟨-, -, hnone, -⟩
        · obtain ⟨hgiven, hbounded, hdistinct⟩ := hs _ b hb
          rw [← hcontinues.events] at hgiven hbounded hdistinct
          rw [← hcontinues.trigger] at hgiven
          exact ⟨hgiven, hbounded, hdistinct⟩
        · obtain ⟨_, r, _, w, -, -, -, -, -, hstarts⟩ := hlanded.started hv hnone
          exact hstarts.batched (hI _ hreads.snapshot_mem)
      · exact hs id a hget

theorem pendingTriggerEvents_remaining (agent : String) (r : Resource) {previous : Option Attempt} (tr : Option Trigger)
    (h : (unacceptedEvents previous).length ≤ MAX_TASK_EVENTS_PER_ATTEMPT) :
    pendingTriggerEvents (remainingTrigger agent tr (remainingEvents r (offeredEvents previous tr))) =
      remainingEvents r (offeredEvents previous tr) := by
  cases tr with
  | none =>
    have hnone : remainingEvents r (offeredEvents previous none) = [] := remainingEvents_eq_nil h
    rw [hnone]
    rfl
  | some t =>
    cases hlast : (remainingEvents r (offeredEvents previous (some t))).getLast? with
    | none =>
      rw [List.getLast?_eq_none_iff] at hlast
      rw [hlast]
      rfl
    | some =>
      have hne : (remainingEvents r (offeredEvents previous (some t))).isEmpty = false := by
        cases hlist : remainingEvents r (offeredEvents previous (some t)) with
        | nil =>
          rw [hlist] at hlast
          cases hlast
        | cons => rfl
      simp only [remainingTrigger, hlast, pendingTriggerEvents, taskTriggerEvents, hne]
      rfl

/-- Every granted claim splits the deduplicated batch of the attempt it replaces and the pending trigger
fairly, and what it does not take stays stored as the pending trigger. -/
theorem History.claimed_batch {ok : Store → Action → Prop} {h : List Store} (hrun : History ok h) {ctx : Context}
    {now : Int} {reads : Reads} (hreads : reads.Within h) {input : ClaimInput} {m : Mutation} {claim : Claim}
    (hclaim : claimObservedAppTask ctx now reads input = .commit m (.claimed claim)) :
    ∃ r tr previous attempt w batch,
      reads.snapshot.task input.taskId = some (r, tr) ∧ PreviousAttempt reads r previous ∧
      attempt ∈ m.attempts ∧ attempt.id = claim.attemptId ∧
      m.tasks = [w] ∧ w.resource.metadata.id = input.taskId ∧
      Deduplicates (unacceptedEvents previous ++ pendingTriggerEvents tr) batch ∧
      FairSplit r batch attempt.events (pendingTriggerEvents w.trigger) ∧
      (attempt.eventsTruncated = true ↔ pendingTriggerEvents w.trigger ≠ []) ∧
      claim.events = attempt.events ∧ claim.eventsTruncated = attempt.eventsTruncated := by
  have hsound := (History.sound hrun).1 _ hreads.snapshot_mem
  have hbatched := History.batched hrun _ hreads.snapshot_mem
  obtain ⟨r, tr, previous, untriggered, t, agent, _, _, _, _, htask, hprevious, htrigger, hgrant⟩ :=
    claimObservedAppTask_claimed hsound.toWellFormed hclaim
  have hown : (takeOver now untriggered previous r).metadata.id = input.taskId := by
    rw [takeOver_id, hsound.taskId _ _ _ htask]
  obtain ⟨a, w, ha, hid, hevents, htruncated, hclaimed, hclaimTruncated, htasks, hwid, hw⟩ :=
    grantClaim_eq_claimed hown htrigger hgrant
  have hstored := pendingTriggerEvents_remaining agent r tr
    (Attempt.Batched.unaccepted hbatched hprevious).1
  refine ⟨r, tr, previous, a, w, offeredEvents previous tr, htask, hprevious, ha, hid, htasks, hwid,
    Attempt.Batched.offered hbatched hprevious tr, ?_, ?_, hclaimed.trans hevents.symm,
    hclaimTruncated.trans htruncated.symm⟩
  · rw [hw, hstored, hevents]
    exact claimedEvents_fairSplit r (offeredEvents previous tr)
  · rw [hw, hstored, htruncated]
    simp

namespace Sample.Batch

def human (n : Int) : Event := [("eventId", .num n), ("source", .str "human"), ("type", .str "message.created")]

def note (s : Store) (n : Nat) : Store := (Call.record "a" (if n % 3 = 0 then human n else event n)).perform context n s

/-- While the first attempt of Task `a` runs, 32 events are recorded, every third one from a person. -/
@[irreducible] def backlog : Store := (List.range' 3 32).foldl note claimed

theorem backlog_reachable : Reachable (fun _ _ => True) backlog := by
  unfold backlog
  suffices hfold : ∀ (ns : List Nat) (s : Store), Reachable (fun _ _ => True) s →
      Reachable (fun _ _ => True) (ns.foldl note s) from
    hfold _ _ (claimed_reachable (observed_reachable trivial) trivial)
  intro ns
  induction ns with
  | nil => exact fun _ h => h
  | cons n ns ih => exact fun s h => ih _ (h.call context n trivial trivial)

def truncates : Plan ClaimResult → Bool
  | .commit _ (.claimed claim) => claim.eventsTruncated
  | _ => false

theorem truncates_backlog :
    truncates (claimObservedAppTask restarted 100 (Reads.now backlog) (claimInput "a" "u2")) = true := by
  decide +kernel

theorem granted : ∃ m claim, claimObservedAppTask restarted 100 (Reads.now backlog) (claimInput "a" "u2")
    = .commit m (.claimed claim) ∧ claim.eventsTruncated = true := by
  have hplan := truncates_backlog
  unfold truncates at hplan
  split at hplan
  · rename_i m claim heq
    exact ⟨m, claim, heq, hplan⟩
  · cases hplan

end Sample.Batch

open Sample Sample.Batch in
/-- The next process takes over the attempt and leaves a part of the backlog. -/
theorem History.claimed_batch_backlog : ∃ m claim,
    claimObservedAppTask restarted 100 (Reads.now backlog) (claimInput "a" "u2") = .commit m (.claimed claim) ∧
    ∃ r tr previous attempt w batch, backlog.task "a" = some (r, tr) ∧ PreviousAttempt (Reads.now backlog) r previous ∧
      attempt ∈ m.attempts ∧ m.tasks = [w] ∧ pendingTriggerEvents w.trigger ≠ [] ∧
      Deduplicates (unacceptedEvents previous ++ pendingTriggerEvents tr) batch ∧
      FairSplit r batch attempt.events (pendingTriggerEvents w.trigger) := by
  obtain ⟨m, claim, hclaim, htruncated⟩ := granted
  obtain ⟨_, hrun⟩ := backlog_reachable.history
  obtain ⟨r, tr, previous, attempt, w, batch, htask, hprevious, hattempt, -, htasks, -, hbatch, hsplit, hleft, -, hsame⟩ :=
    History.claimed_batch hrun (Reads.Within.now _ _) hclaim
  exact ⟨m, claim, hclaim, r, tr, previous, attempt, w, batch, htask, hprevious, hattempt, htasks,
    hleft.mp (hsame.symm.trans htruncated), hbatch, hsplit⟩

end MayAgent
