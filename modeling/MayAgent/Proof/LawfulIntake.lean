import MayAgent.Proof.Actions
import MayAgent.Proof.Wakes

/-!
# Intake

Admitting an intent and applying an event to Conditions, as changes of the Tasks they write.
-/

namespace MayAgent

section Observe

variable {ctx : Context} {now : Int} {call : Call} {reads : Reads} {m : Mutation}

variable {scope : Store.Scope} {result : Observation}

theorem Store.taskTriggers_get_of_resources_none {s : Store} {k : String}
    (h : (s.readTaskContext scope).resources.get k = none) : (s.readTaskContext scope).taskTriggers.get k = none := by
  rw [Store.readTaskContext_resources_get] at h
  rw [Store.readTaskContext_taskTriggers_get]
  cases htask : s.task k with
  | none => rfl
  | some =>
    rw [htask, Option.bind_some] at h
    rw [Option.bind_some]
    split at h
    · cases h
    · rename_i hk
      rw [if_neg hk]

theorem noteHumanRequest_id (now : Int) (input : ObserveInput) (key : Option String) (r : Resource) :
    (noteHumanRequest now input key r).metadata.id = r.metadata.id := by
  unfold noteHumanRequest
  split <;> rfl

theorem observedResource_id (ctx : Context) (now : Int) (input : ObserveInput) (existing : Option Resource)
    (same : Bool) (h : ∀ r, existing = some r → r.metadata.id = input.intent.id) :
    (observedResource ctx now input existing same).metadata.id = input.intent.id := by
  unfold observedResource
  cases existing with
  | none => rfl
  | some r =>
    simp only
    split
    · split
      · exact h r rfl
      · exact h r rfl
    · exact h r rfl

theorem validateIntent_ok {intent : Intent} {u : Unit} (h : validateIntent intent = .ok u) :
    Text.nonEmpty intent.id = true := by
  unfold validateIntent at h
  simp only [Store.ite_error_eq_ok] at h
  simpa using h.1

variable {input given : ObserveInput} {key : Option String}

variable (hs : reads.snapshot.WellFormed)

include hs

theorem observePlan_lawful (hgiven : given.Admits input key)
    (hid : Text.nonEmpty input.intent.id = true)
    (hopen : reads.check.isCancelled input.intent.id = false)
    (hrecent : ∀ r e, (reads.snapshot.readTaskContext scope).resources.get input.intent.id = some r →
      input.trigger = some e → taskEventPredatesReopening r e = false)
    (hkey : ∀ k a, key = some k → reads.snapshot.admissions.get k = some a → a.taskId = input.intent.id ∧
      (reads.snapshot.readTaskContext scope).resources.get input.intent.id = none)
    (h : observePlan ctx now input key (reads.snapshot.readTaskContext scope) = .commit m result) :
    m.Lawful ctx now (.observe given) reads := by
  unfold observePlan at h
  simp only [Plan.check_eq_commit] at h
  obtain ⟨-, -, h⟩ := h
  cases hr : (reads.snapshot.readTaskContext scope).resources.get input.intent.id with
  | some r =>
    have htask := Store.task_of_resources_get hr
    have hown := hs.taskId _ _ _ htask
    simp only [hr] at h
    cases h
    have hnext : (noteHumanRequest now input key (observedResource ctx now input (some r)
        ((some r).any fun r => sameSpec (reads.snapshot.readTaskContext scope) r input.appAgent
          (appTaskSpecHash input.intent (resolvedAgent (reads.snapshot.readTaskContext scope) input.intent
            input.appAgent))))).metadata.id = input.intent.id := by
      rw [noteHumanRequest_id]
      exact observedResource_id _ _ _ _ _ (by rintro _ ⟨⟩; exact hown)
    refine Mutation.Lawful.one htask (by simp) rfl hnext _ (resourceWrite_trigger_setTrigger hnext) (by simp)
      (.none rfl rfl rfl) ?_
    have hchange := @Change.observe ctx now (.observe given) reads r
      ((reads.snapshot.readTaskContext scope).taskTriggers.get input.intent.id) given input key
      (resolvedAgent (reads.snapshot.readTaskContext scope) input.intent input.appAgent)
      ((some r).any fun r => sameSpec (reads.snapshot.readTaskContext scope) r input.appAgent
        (appTaskSpecHash input.intent (resolvedAgent (reads.snapshot.readTaskContext scope) input.intent
          input.appAgent)))
      (appTaskSpecHash input.intent (resolvedAgent (reads.snapshot.readTaskContext scope) input.intent input.appAgent))
      rfl hgiven (by rw [hown]; exact hopen) hown.symm (fun e he => hrecent r e hr he) (by
        intro k hk
        by_contra hsome
        obtain ⟨a, ha⟩ := Option.ne_none_iff_exists'.mp hsome
        rw [(hkey k a hk ha).2] at hr
        cases hr)
    rw [hown] at hchange
    exact hchange
  | none =>
    simp only [hr, Option.any_none, Option.map_none, Option.getD_none] at h
    cases h
    have hnext : (noteHumanRequest now input key (observedResource ctx now input none false)).metadata.id =
        input.intent.id := by
      rw [noteHumanRequest_id]
      exact observedResource_id _ _ _ _ _ (by rintro _ ⟨⟩)
    have hcreated := @Created.observe ctx now (.observe given) reads given input key
      (resolvedAgent (reads.snapshot.readTaskContext scope) input.intent input.appAgent) false
      (appTaskSpecHash input.intent (resolvedAgent (reads.snapshot.readTaskContext scope) input.intent input.appAgent))
      rfl hgiven hid (fun k a hk ha => (hkey k a hk ha).1)
    refine ⟨by simp, ?_, by simp, ?_, by simp, .none rfl rfl rfl⟩
    · intro w hw
      rw [List.mem_singleton] at hw
      subst hw
      right
      refine ⟨?_, rfl, ?_⟩
      · simpa [resourceWrite] using hnext
      · rw [resourceWrite_trigger_setTrigger hnext, Store.taskTriggers_get_of_resources_none hr]
        exact hcreated
    · intro _
      refine ⟨_, List.mem_singleton.mpr rfl, Or.inl ⟨?_, ?_⟩⟩
      · simpa [resourceWrite] using hnext
      · rw [resourceWrite_trigger_setTrigger hnext, Store.taskTriggers_get_of_resources_none hr]
        exact hcreated

/-- The observation after the check against a reopening. An admission found under the key ends it,
unless its Task is missing. -/
theorem observeAdmitted_lawful (input : ObserveInput) (hgiven : given.Admits input key)
    (hid : Text.nonEmpty input.intent.id = true)
    (hopen : reads.check.isCancelled input.intent.id = false)
    (hrecent : ∀ r e, (reads.snapshot.readTaskContext scope).resources.get input.intent.id = some r →
      input.trigger = some e → taskEventPredatesReopening r e = false)
    (hscope : scope.admissionIds = key.toList)
    (h : observeAppTaskIntent.observeAdmitted ctx now (reads.snapshot.readTaskContext scope) key input
      = .commit m result) : m.Lawful ctx now (.observe given) reads := by
  have hfound : ∀ k a, key = some k → reads.snapshot.admissions.get k = some a →
      (reads.snapshot.readTaskContext scope).appTaskAdmissions.get k = some a := by
    intro k a hk ha
    rw [Store.appTaskAdmissions_get, ha, hscope, hk]
    simp
  unfold observeAppTaskIntent.observeAdmitted at h
  simp only [Plan.check_eq_commit] at h
  obtain ⟨_, -, h⟩ := h
  split at h
  · rename_i hnone
    refine observePlan_lawful hs hgiven hid hopen hrecent ?_ h
    intro k a hk ha
    rw [hk, Option.bind_some, hfound k a hk ha] at hnone
    cases hnone
  · rename_i k₀ admission hsome
    split at h
    · cases h
    · rename_i hmatch
      push Not at hmatch
      split at h
      · cases h
      · rename_i hmissing
        rw [hmatch.1] at hmissing
        refine observePlan_lawful hs hgiven hid hopen hrecent ?_ h
        intro k a hk ha
        rw [hk, Option.bind_some, hfound k a hk ha] at hsome
        cases hsome
        exact ⟨hmatch.1, hmissing⟩

theorem observeAppTaskIntent_lawful
    (h : observeAppTaskIntent ctx now reads input = .commit m result) : m.Lawful ctx now (.observe input) reads := by
  unfold observeAppTaskIntent at h
  simp only [Plan.check_eq_commit] at h
  obtain ⟨intent, hintent, _, hvalid, h⟩ := h
  have hid := validateIntent_ok hvalid
  split at h
  · cases h
  · rename_i hopen
    split at h
    · cases h
    · split at h
      · rename_i r e hr he
        split at h
        · cases h
        · rename_i hrecent
          refine observeAdmitted_lawful hs { input with intent := intent } ⟨hintent, rfl, rfl⟩ hid (by simpa using hopen) ?_ rfl h
          intro r' e' hr' he'
          rw [hr] at hr'
          cases hr'
          have hsame : some e = some e' := he.symm.trans he'
          cases hsame
          simpa using hrecent
      · rename_i hneither
        refine observeAdmitted_lawful hs { input with intent := intent } ⟨hintent, rfl, rfl⟩ hid (by simpa using hopen) ?_ rfl h
        intro r e hr he
        exact (hneither r e hr he).elim

theorem trackAppTaskConditionEventForTasks_lawful {e : Event} {taskIds : List String} {result : List (String × String)}
    (h : trackAppTaskConditionEventForTasks ctx now reads e taskIds = .commit m result) :
    m.Lawful ctx now (.track e taskIds) reads := by
  unfold trackAppTaskConditionEventForTasks at h
  simp only at h
  set scope : Store.Scope := { taskIds := taskIds, includeHistory := false, children := false }
  split_ifs at h
  rcases happly : applyConditionEvent ctx (reads.late.attemptLookup ctx) now (reads.snapshot.readTaskContext scope) e
    (some (taskIds.eraseDups.filter (stillEligible ctx reads.late (reads.snapshot.readTaskContext scope) e)))
    with ⟨t, wakes, changed⟩
  simp only [happly] at h
  cases h
  have hkeyed := hs.snapshot_keyed scope
  obtain ⟨hwoken, hwakes, hscan⟩ := applyConditionEvent_spec hkeyed happly
  have hentry : ∀ entry ∈ t.resources.entries, (reads.snapshot.readTaskContext scope).resources.get entry.1
      = some entry.2 := by
    intro entry hentry
    rw [← hwoken.resources]
    exact (Table.get_eq_some_iff _ _ _).mpr hentry
  have hwrite : ∀ w ∈ (saveConditionMutation t result changed).tasks, ∃ r tr,
      reads.snapshot.task w.resource.metadata.id = some (r, tr) ∧
      r.fence ∈ (saveConditionMutation t result changed).fences ∧
      Change ctx now (.track e taskIds) reads r tr w.resource w.trigger [] [] := by
    intro w hw
    simp only [saveConditionMutation, List.mem_map, List.mem_filter, List.contains_iff_mem] at hw
    obtain ⟨entry, ⟨⟨hmem, _⟩, hwake⟩, rfl⟩ := hw
    have hr := hentry entry hmem
    have hown := hkeyed _ _ hr
    obtain ⟨r, hr', hby, htrigger⟩ := hwakes entry.1 (by simpa using hwake)
    rw [hr] at hr'
    cases hr'
    refine ⟨entry.2, (reads.snapshot.readTaskContext scope).taskTriggers.get entry.1, ?_, ?_, ?_⟩
    · simp only [hown]
      exact Store.task_of_resources_get hr
    · simp only [saveConditionMutation, List.mem_map, List.mem_filter]
      exact ⟨entry, ⟨hmem, by simpa using Or.inl hwake⟩, rfl⟩
    · simp only [htrigger]
      refine Change.wake e taskIds rfl hby ?_
      obtain ⟨wake, hmem', hfst⟩ := hwake
      obtain ⟨c, _, -, -, hwaiter, hid, -⟩ := hscan.wakes wake hmem'
      have hallowed := (mem_conditionWaiters hwaiter).2.2.2.2 _ rfl
      rw [← hid, hfst, List.mem_filter, List.mem_eraseDups] at hallowed
      rw [hown]
      exact hallowed.1
  refine ⟨?_, fun w hw => ?_, by simp [saveConditionMutation], fun hsome => ?_, fun _ => rfl, .none rfl rfl rfl⟩
  · simp only [saveConditionMutation, List.map_map]
    have hids : ∀ entries : List (Sigma fun _ : String => Resource), (∀ entry ∈ entries, entry ∈ t.resources.entries) →
        entries.map ((fun w : TaskWrite => w.resource.metadata.id) ∘ fun entry : (Sigma fun _ : String => Resource) =>
          { resource := { entry.2 with metadata := { entry.2.metadata with
              resourceVersion := entry.2.metadata.resourceVersion + 1 } }
            trigger := t.taskTriggers.get entry.1
            ready := true }) = entries.map Sigma.fst := by
      intro entries hentries
      apply List.map_congr_left
      intro entry hmem
      have hown := hkeyed _ _ (hentry entry (hentries entry hmem))
      exact hown
    rw [hids _ (fun entry hmem => (List.mem_filter.mp (List.mem_filter.mp hmem).1).1)]
    exact List.Nodup.sublist (List.Sublist.map _ (List.filter_sublist.trans List.filter_sublist)) t.resources.nodupKeys
  · obtain ⟨r, tr, htask, hfence, hchange⟩ := hwrite w hw
    exact Or.inl ⟨r, tr, htask, hfence, Or.inl hchange⟩
  · rcases hsome with hsome | hsome
    · obtain ⟨w, hw⟩ := List.exists_mem_of_ne_nil _ hsome
      obtain ⟨r, tr, htask, -, hchange⟩ := hwrite w hw
      exact ⟨w, hw, Or.inr ⟨r, tr, htask, hchange⟩⟩
    · exact absurd rfl hsome

end Observe

end MayAgent
