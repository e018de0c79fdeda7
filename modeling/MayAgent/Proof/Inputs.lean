import MayAgent.Proof.Lawful

/-!
# Waits and admissions of a settlement

What `inputOutcomeAdmissions` and the other edits of a Task's waits leave alone, and which admissions
a settlement writes.
-/

namespace MayAgent

/-- An edit of a Task that leaves everything but its waits alone. -/
def Resource.OnlyWaits (r r' : Resource) : Prop :=
  r' = { r with status := { r.status with inputWaits := r'.status.inputWaits } }

namespace Resource.OnlyWaits

theorem refl (r : Resource) : r.OnlyWaits r := rfl

theorem trans {r r' r'' : Resource} (h : r.OnlyWaits r') (h' : r'.OnlyWaits r'') : r.OnlyWaits r'' := by
  unfold Resource.OnlyWaits at *
  rw [h] at h'
  exact h'

theorem foldl {α : Type} {f : Resource → α → Resource} (hf : ∀ (r : Resource) x, r.OnlyWaits (f r x))
    (l : List α) (r : Resource) : r.OnlyWaits (l.foldl f r) := by
  induction l generalizing r with
  | nil => exact refl r
  | cons x l ih => exact (hf r x).trans (ih (f r x))

variable {r r' : Resource}

theorem metadata (h : r.OnlyWaits r') : r'.metadata = r.metadata := by rw [h]

theorem spec (h : r.OnlyWaits r') : r'.spec = r.spec := by rw [h]

theorem fence (h : r.OnlyWaits r') : r'.fence = r.fence := by rw [h]; rfl

end Resource.OnlyWaits

section Retain

variable (s : Store) (generation : Nat) (r : Resource)

theorem retainTaskInputWait_onlyWaits (key : String) (wait : InputWait) :
    r.OnlyWaits (retainTaskInputWait s r key wait) := by
  unfold retainTaskInputWait
  split <;> rfl

theorem retainAssignedInputs_onlyWaits (keys assigned : List String) :
    r.OnlyWaits (retainAssignedInputs s generation keys r assigned) := by
  refine Resource.OnlyWaits.foldl ?_ assigned r
  intro r key
  simp only
  split
  · exact retainTaskInputWait_onlyWaits s r key _
  · exact Resource.OnlyWaits.refl r

theorem retainPendingInputs_onlyWaits (keys : List String) :
    r.OnlyWaits (retainPendingInputs s generation r keys) :=
  Resource.OnlyWaits.foldl (fun r key => retainTaskInputWait_onlyWaits s r key _) keys r

theorem retainDeferredInputs_onlyWaits (t : Tree) (continue_ : Bool) (declared : List String) (reviewAt : Option Int)
    (keys : List String) : r.OnlyWaits (retainDeferredInputs s t generation continue_ declared reviewAt r keys) :=
  Resource.OnlyWaits.foldl (fun r key => retainTaskInputWait_onlyWaits s r key _) keys r

theorem retainChangedInputs_onlyWaits (t : Tree) (declared keys : List String) :
    r.OnlyWaits (retainChangedInputs s t generation declared r keys) :=
  Resource.OnlyWaits.foldl (fun r key => retainTaskInputWait_onlyWaits s r key _) keys r

end Retain

section Outcome

variable {s : Store} {r retained : Resource} {a : Option Attempt} {tr : Option Trigger} {generation : Nat}
  {attemptId : String} {input : ResultInput} {kind : OutcomeKind} {keys : List String}
  {admissions : List (String × Admission)}

theorem inputOutcomeAdmissions_eq_ok
    (h : inputOutcomeAdmissions s r a tr generation attemptId input kind = .ok (retained, keys, admissions)) :
    resultInputKeys s a tr r.metadata.id generation input.acceptedLiveEventIds input.inputKeys = .ok keys ∧
      admissions = keys.filterMap (outcomeAdmission s r.metadata.id generation attemptId input.report kind) ∧
      retained = (if kind = .answer then
        dropInputWaits (retainAssignedInputs s generation keys r (assignedInputKeys a tr input.acceptedLiveEventIds))
          (admissions.map Prod.fst)
        else retainAssignedInputs s generation keys r (assignedInputKeys a tr input.acceptedLiveEventIds)) := by
  unfold inputOutcomeAdmissions at h
  split at h
  · cases h
  · rename_i keys' hkeys
    simp only [Except.ok.injEq, Prod.mk.injEq] at h
    obtain ⟨hretained, rfl, hwrites⟩ := h
    have hid : (retainAssignedInputs s generation keys' r
        (assignedInputKeys a tr input.acceptedLiveEventIds)).metadata.id = r.metadata.id := by
      rw [(retainAssignedInputs_onlyWaits s generation r keys' _).metadata]
    rw [hid] at hwrites hretained
    rw [hwrites] at hretained
    exact ⟨hkeys, hwrites.symm, hretained.symm⟩

theorem inputOutcomeAdmissions_onlyWaits
    (h : inputOutcomeAdmissions s r a tr generation attemptId input kind = .ok (retained, keys, admissions)) :
    r.OnlyWaits retained := by
  obtain ⟨-, -, hretained⟩ := inputOutcomeAdmissions_eq_ok h
  have hassigned := retainAssignedInputs_onlyWaits s generation r keys
    (assignedInputKeys a tr input.acceptedLiveEventIds)
  split at hretained
  · refine hassigned.trans ?_
    rw [hretained]
    rfl
  · rw [hretained]
    exact hassigned

end Outcome

end MayAgent
