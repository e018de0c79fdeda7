import Mathlib.Order.Nat
import MayAgent.Lib.Versions
import MayAgent.Proof.Execution

/-!
# What earlier reads say about the current store

The version of a Task stands for the Task, its closure and its attempts: as long as the version is
unchanged so are they. An operation that lands under the fence of its Task therefore changes the very
state it read, whatever other processes wrote in the meantime.
-/

namespace MayAgent

/-! ### The version of a Task -/

@[simp] theorem touchResource_resourceVersion (now : Int) (r : Resource) (change : Status → Status) :
    (touchResource now r change).metadata.resourceVersion = r.metadata.resourceVersion + 1 := rfl

theorem Resource.release_resourceVersion (r : Resource) (state : AttemptState) :
    (r.release state).metadata.resourceVersion = r.metadata.resourceVersion := rfl

theorem takeOver_resourceVersion_le (now : Int) (untriggered : Bool) (previous : Option Attempt) (r : Resource) :
    r.metadata.resourceVersion ≤ (takeOver now untriggered previous r).metadata.resourceVersion := by
  unfold takeOver
  cases untriggered <;> cases previous <;>
    simp [requeueUntriggered, touchResource_resourceVersion]

section Bumps

variable {ctx : Context} {now : Int} {call : Call} {reads : Reads} {r r' : Resource}
  {tr tr' : Option Trigger}

theorem observe_bumps (ctx : Context) (now : Int) (input : ObserveInput) (key : Option String) (agent : String)
    (same : Bool) (r : Resource) (tr : Option Trigger) :
    r.metadata.resourceVersion
        < (noteHumanRequest now input key (observedResource ctx now input (some r) same)).metadata.resourceVersion ∨
      (noteHumanRequest now input key (observedResource ctx now input (some r) same) = r ∧
        observedTrigger now agent (observedResource ctx now input (some r) same).metadata.generation
          r.metadata.generation r.metadata.id tr input.trigger = tr) := by
  have hnote : ∀ q : Resource, q.metadata.resourceVersion ≤ (noteHumanRequest now input key q).metadata.resourceVersion := by
    intro q
    unfold noteHumanRequest
    split
    · simp
    · exact le_refl _
  by_cases hbump : r.metadata.resourceVersion < (observedResource ctx now input (some r) same).metadata.resourceVersion
  · exact .inl (lt_of_lt_of_le hbump (hnote _))
  · -- Only an unchanged specification without an event keeps the version.
    right
    unfold observedResource at hbump ⊢
    cases same with
    | false => simp at hbump
    | true =>
      simp only [if_true] at hbump ⊢
      split at hbump
      · simp at hbump
      · rename_i hquiet
        have htrigger : input.trigger = none := by
          cases htrigger : input.trigger with
          | none => rfl
          | some => simp [htrigger] at hquiet
        rw [if_neg hquiet]
        refine ⟨by simp [noteHumanRequest, htrigger], ?_⟩
        cases tr <;> simp [observedTrigger, htrigger]

/-- A lawful change raises the version unless it changes nothing. -/
theorem Change.bumps {attempts : List Attempt} {admissions : List (String × Admission)}
    (h : Change ctx now call reads r tr r' tr' attempts admissions) :
    r.metadata.resourceVersion < r'.metadata.resourceVersion ∨ (r' = r ∧ tr' = tr ∧ attempts = []) := by
  cases h with
  | observe _ input key agent same =>
    rcases observe_bumps ctx now input key agent same r tr with hlt | ⟨hsame, htrigger⟩
    · exact .inl hlt
    · exact .inr ⟨hsame, htrigger, rfl⟩
  | grant _ _ _ previous untriggered =>
    exact .inl (Nat.lt_succ_of_le (takeOver_resourceVersion_le now untriggered previous r))
  | backOff _ previous =>
    exact .inl (Nat.lt_succ_of_le (takeOver_resourceVersion_le now false previous r))
  | adopt _ _ a _ _ _ _ _ _ _ _ _ _ _ houtcome =>
    rw [adoptedResource, touchResource_resourceVersion, (inputOutcomeAdmissions_onlyWaits houtcome).metadata]
    exact .inl (Nat.lt_succ_self _)
  | fail _ a _ _ _ _ _ _ _ _ _ houtcome =>
    rw [failedResource, touchResource_resourceVersion, Resource.release_resourceVersion,
      (inputOutcomeAdmissions_onlyWaits houtcome).metadata]
    exact .inl (Nat.lt_succ_self _)
  | report _ a _ _ _ _ _ _ _ _ _ _ houtcome =>
    rw [reportedResource, touchResource_resourceVersion, Resource.release_resourceVersion,
      (retainPendingInputs_onlyWaits _ _ _ _).metadata, (inputOutcomeAdmissions_onlyWaits houtcome).metadata]
    exact .inl (Nat.lt_succ_self _)
  | complete _ a _ _ _ t _ _ _ _ _ _ _ _ houtcome hlinks _ _ hnext =>
    have hversion := hlinks.version
    rw [(inputOutcomeAdmissions_onlyWaits houtcome).metadata] at hversion
    rw [hnext, completedResource, touchResource_resourceVersion, Resource.release_resourceVersion]
    exact .inl (Nat.lt_succ_of_le hversion)
  | defer _ a _ _ _ t _ _ _ _ _ _ _ _ _ _ _ _ houtcome _ hlinks _ hnext =>
    have hversion := hlinks.version
    rw [Resource.release_resourceVersion, (inputOutcomeAdmissions_onlyWaits houtcome).metadata] at hversion
    rw [hnext, deferredResource, touchResource_resourceVersion, (retainDeferredInputs_onlyWaits _ _ _ _ _ _ _ _).metadata]
    exact .inl (Nat.lt_succ_of_le hversion)
  | change _ a _ _ t _ _ _ _ _ _ hlinks =>
    rw [touchResource_resourceVersion, (retainChangedInputs_onlyWaits _ _ _ _ _ _).metadata]
    exact .inl (Nat.lt_succ_of_le hlinks.version)
  | unadmit _ _ _ _ _ _ hlinks => exact .inl (Nat.lt_succ_of_le hlinks.version)
  | cancel _ previous =>
    exact .inl (Nat.lt_succ_of_le (takeOver_resourceVersion_le now false previous r))
  | _ => exact .inl (Nat.lt_succ_self _)

theorem Aside.bumps (h : Aside now call reads r tr r' tr') :
    r.metadata.resourceVersion < r'.metadata.resourceVersion ∨ r' = r := by
  obtain ⟨unblock, _, _, _, _, _⟩ := h
  cases unblock with
  | none => exact .inr rfl
  | some => exact .inl (Nat.lt_succ_self r.metadata.resourceVersion)

end Bumps

/-! ### Lineage -/

/-- What the version of a Task stands for. -/
structure Standing where
  resource : Resource
  closure : Option Cancellation
  attempts : String → Option Attempt

def Store.standing (s : Store) (k : String) : Option Standing :=
  (s.task k).map fun row => {
    resource := row.1
    closure := s.cancellations.get k
    attempts := fun id => ((s.attempts.get id).filter fun a => a.taskId == k).map Attempt.core }

variable {s o : Store} {k : String} {r : Resource} {tr : Option Trigger}

theorem Store.standing_of_task
    (h : s.task k = some (r, tr)) :
    s.standing k = some ⟨r, s.cancellations.get k,
      fun id => ((s.attempts.get id).filter fun a => a.taskId == k).map Attempt.core⟩ := by
  rw [Store.standing, h, Option.map_some]

theorem Store.standing_eq_some {x : Standing} (h : s.standing k = some x) :
    ∃ tr, s.task k = some (x.resource, tr) ∧ s.cancellations.get k = x.closure ∧
      (fun id => ((s.attempts.get id).filter fun a => a.taskId == k).map Attempt.core) = x.attempts := by
  rw [Store.standing, Option.map_eq_some_iff] at h
  obtain ⟨⟨r, tr⟩, htask, rfl⟩ := h
  exact ⟨tr, htask, rfl, rfl⟩

/-- The relation of an earlier store to a later one: Tasks and attempts are never lost, the standing of
a Task changes only with its version, and an attempt keeps its assignment and its outcome. -/
structure Lineage (o s : Store) : Prop where
  tasks : Versioned Store.standing (fun x => x.resource.metadata.resourceVersion) o s
  attempts : ∀ id a, o.attempts.get id = some a → ∃ a', s.attempts.get id = some a' ∧ a.Continues a'

namespace Lineage

theorem refl (s : Store) : Lineage s s :=
  ⟨Versioned.refl _ _ s, fun _ a h => ⟨a, h, .refl a⟩⟩

theorem trans {a b c : Store} (h : Lineage a b) (h' : Lineage b c) : Lineage a c := by
  refine ⟨h.tasks.trans h'.tasks, fun id x hx => ?_⟩
  obtain ⟨y, hy, hxy⟩ := h.attempts id x hx
  obtain ⟨z, hz, hyz⟩ := h'.attempts id y hy
  exact ⟨z, hz, hxy.trans hyz⟩

variable {o s : Store} {k : String} {r r' : Resource} {tr tr' : Option Trigger}

theorem task (h : Lineage o s) (hr : o.task k = some (r, tr)) :
    ∃ r' tr', s.task k = some (r', tr') ∧ r.metadata.resourceVersion ≤ r'.metadata.resourceVersion := by
  obtain ⟨x, hx, hle, -⟩ := h.tasks k _ (Store.standing_of_task hr)
  obtain ⟨tr', htask, -⟩ := Store.standing_eq_some hx
  exact ⟨x.resource, tr', htask, hle⟩

/-- A Task at the same version stands as it stood. -/
theorem unchanged (h : Lineage o s) (hr : o.task k = some (r, tr)) (hr' : s.task k = some (r', tr'))
    (hversion : r'.metadata.resourceVersion = r.metadata.resourceVersion) : o.standing k = s.standing k := by
  have ho := Store.standing_of_task hr
  have hs := Store.standing_of_task hr'
  rw [ho, hs, h.tasks.fenced ho hs hversion]

end Lineage

theorem standing_resource
    (h : o.standing k = s.standing k) (hr : o.task k = some (r, tr)) : ∃ tr', s.task k = some (r, tr') := by
  rw [Store.standing_of_task hr] at h
  obtain ⟨tr', htask, -⟩ := Store.standing_eq_some h.symm
  exact ⟨tr', htask⟩

theorem standing_closure
    (h : o.standing k = s.standing k) (hr : o.task k = some (r, tr)) :
    s.cancellations.get k = o.cancellations.get k := by
  rw [Store.standing_of_task hr] at h
  obtain ⟨-, -, hclosure, -⟩ := Store.standing_eq_some h.symm
  exact hclosure

theorem standing_attempt
    (h : o.standing k = s.standing k) (hr : o.task k = some (r, tr)) {id : String} {a : Attempt}
    (ha : o.attempts.get id = some a) (htask : a.taskId = k) : ∃ b, s.attempts.get id = some b ∧ b.core = a.core := by
  rw [Store.standing_of_task hr] at h
  obtain ⟨-, -, -, hattempts⟩ := Store.standing_eq_some h.symm
  have hid := congrFun hattempts id
  simp only [ha, Option.filter_some, htask, beq_self_eq_true, if_true, Option.map_some, Option.map_eq_some_iff,
    Option.filter_eq_some_iff] at hid
  obtain ⟨b, ⟨hb, -⟩, hcore⟩ := hid
  exact ⟨b, hb, hcore⟩

end MayAgent
