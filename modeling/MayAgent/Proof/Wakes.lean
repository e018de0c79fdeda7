import MayAgent.Proof.Inputs

/-!
# Events on Conditions

What `applyConditionEvent` makes of a snapshot: the Conditions an event concerns record it, and each
waiter of such a Condition receives it once as pending input.
-/

namespace MayAgent

section Scan

variable {ctx : Context} {lookup : AttemptLookup} {now : Int} {t : Tree} {e : Event} {allowed : Option (List String)}

variable {id : String} {c : Condition}

theorem mem_conditionWaiters {r : Resource}
    (h : r ∈ conditionWaiters ctx t allowed id c e) :
    r ∈ t.resources.values ∧ r.observesConditions = true ∧ id ∈ r.status.conditionIds ∧
      taskEventPredatesReopening r e = false ∧ ∀ ids, allowed = some ids → r.metadata.id ∈ ids := by
  simp only [conditionWaiters, List.mem_filter, Bool.and_eq_true, Bool.not_eq_true', List.contains_iff_mem] at h
  obtain ⟨hmem, ⟨⟨⟨hobserves, hlinked⟩, hrecent⟩, hallowed⟩, -⟩ := h
  refine ⟨hmem, hobserves, hlinked, hrecent, ?_⟩
  rintro ids rfl
  simpa using hallowed

/-- The scan of an event keeps this: an entry of a changed Condition records the event, and every wake
is owed to a waiter of a Condition that the event concerns. -/
structure ConditionScan.Sound (ctx : Context) (lookup : AttemptLookup) (now : Int) (t : Tree) (e : Event)
    (allowed : Option (List String)) (scan : ConditionScan) : Prop where
  conditions : ∀ id, (scan.conditions.get id = t.conditions.get id ∧ id ∉ scan.changed) ∨
    ∃ c r, t.conditions.get id = some c ∧ c.state ≠ .met ∧ conditionConcerned ctx lookup c e = true ∧
      r ∈ conditionWaiters ctx t allowed id c e ∧ scan.conditions.get id = some (c.observe lookup e now) ∧
      id ∈ scan.changed
  wakes : ∀ wake ∈ scan.wakes, ∃ c r, t.conditions.get wake.2 = some c ∧ conditionConcerned ctx lookup c e = true ∧
    r ∈ conditionWaiters ctx t allowed wake.2 c e ∧ wake.1 = r.metadata.id ∧
    (pendingTriggerEvents (t.taskTriggers.get r.metadata.id)).any (fun entry => sameEvent entry.event e) = false
  nodup : (scan.wakes.map Prod.fst).Nodup

theorem addWakes_cons (id : String) (wakes : List (String × String)) (r : Resource) (waiters : List Resource) :
    addWakes t e id wakes (r :: waiters) = addWakes t e id
      (if wakes.any (fun wake => wake.1 == r.metadata.id) then wakes
        else if (pendingTriggerEvents (t.taskTriggers.get r.metadata.id)).any (fun entry => sameEvent entry.event e)
          then wakes
        else wakes ++ [(r.metadata.id, id)]) waiters := rfl

theorem addWakes_invariant {P : String × String → Prop} (id : String) (waiters : List Resource)
    {wakes : List (String × String)} (hwakes : ∀ wake ∈ wakes, P wake) (hnodup : (wakes.map Prod.fst).Nodup)
    (hnew : ∀ r ∈ waiters, (pendingTriggerEvents (t.taskTriggers.get r.metadata.id)).any
      (fun entry => sameEvent entry.event e) = false → P (r.metadata.id, id)) :
    (∀ wake ∈ addWakes t e id wakes waiters, P wake) ∧ ((addWakes t e id wakes waiters).map Prod.fst).Nodup := by
  induction waiters generalizing wakes with
  | nil => exact ⟨hwakes, hnodup⟩
  | cons r _ ih =>
    rw [addWakes_cons]
    have hrest := fun r' hr' => hnew r' (List.mem_cons_of_mem r hr')
    split
    · exact ih hwakes hnodup hrest
    · rename_i hfresh
      split
      · exact ih hwakes hnodup hrest
      · rename_i hpending
        apply ih
        · intro wake hwake
          rcases List.mem_append.mp hwake with hwake | hwake
          · exact hwakes wake hwake
          · rw [List.mem_singleton.mp hwake]
            exact hnew r List.mem_cons_self (by simpa using hpending)
        · rw [List.map_append, List.nodup_append]
          refine ⟨hnodup, by simp, ?_⟩
          intro k hk k' hk'
          simp only [List.map_cons, List.map_nil, List.mem_singleton] at hk'
          rintro rfl
          obtain ⟨wake, hwake, hid⟩ := List.mem_map.mp hk
          exact hfresh (List.any_eq_true.mpr ⟨wake, hwake, by simp [hid, hk']⟩)
        · exact hrest

theorem scanCondition_sound {scan : ConditionScan}
    (hscan : scan.Sound ctx lookup now t e allowed) (hc : t.conditions.get id = some c) :
    (scanCondition ctx lookup now t e allowed scan id c).Sound ctx lookup now t e allowed := by
  unfold scanCondition
  simp only
  split
  · exact hscan
  · rename_i hconcerned
    simp only [Bool.or_eq_true, Bool.not_eq_true', not_or, Bool.not_eq_false, List.isEmpty_iff] at hconcerned
    obtain ⟨hconcerned, hwaiters⟩ := hconcerned
    obtain ⟨waiter, hwaiter⟩ := List.exists_mem_of_ne_nil _ hwaiters
    -- The Condition records the event unless it is satisfied already.
    set observed : ConditionScan := if c.state = .met then scan
      else { scan with conditions := scan.conditions.put id (c.observe lookup e now), changed := scan.changed ++ [id] }
      with hobserved
    have hwakes : observed.wakes = scan.wakes := by
      rw [hobserved]
      split <;> rfl
    have hsound : observed.Sound ctx lookup now t e allowed := by
      by_cases hmet : c.state = .met
      · rw [hobserved, if_pos hmet]
        exact hscan
      · rw [hobserved, if_neg hmet]
        refine ⟨?_, hscan.wakes, hscan.nodup⟩
        intro id'
        by_cases hid : id' = id
        · subst hid
          exact Or.inr ⟨c, waiter, hc, hmet, hconcerned, hwaiter, by simp, by simp⟩
        · simp only [Table.get_put_ne _ _ hid, List.mem_append, List.mem_singleton, hid, or_false]
          exact hscan.conditions id'
    split
    · exact hsound
    · obtain ⟨hnew, hnodup⟩ := addWakes_invariant (t := t) (e := e) id
        (P := fun wake => ∃ c r, t.conditions.get wake.2 = some c ∧ conditionConcerned ctx lookup c e = true ∧
          r ∈ conditionWaiters ctx t allowed wake.2 c e ∧ wake.1 = r.metadata.id ∧
          (pendingTriggerEvents (t.taskTriggers.get r.metadata.id)).any (fun entry => sameEvent entry.event e) = false)
        (conditionWaiters ctx t allowed id c e) hsound.wakes hsound.nodup
        (fun r hr hpending => ⟨c, r, hc, hconcerned, hr, rfl, hpending⟩)
      exact ⟨hsound.conditions, hnew, hnodup⟩

/-- The scan wakes and changes only what its conditions match. -/
theorem scanConditions_sound (ctx : Context) (lookup : AttemptLookup) (now : Int) (t : Tree) (e : Event)
    (allowed : Option (List String)) : (t.conditions.entries.foldl
    (fun scan entry => scanCondition ctx lookup now t e allowed scan entry.1 entry.2)
    { conditions := t.conditions, changed := [], wakes := [] }).Sound ctx lookup now t e allowed := by
  suffices hgeneral : ∀ (entries : List (Sigma fun _ : String => Condition)) (scan : ConditionScan),
      (∀ entry ∈ entries, t.conditions.get entry.1 = some entry.2) → scan.Sound ctx lookup now t e allowed →
      (entries.foldl (fun scan entry => scanCondition ctx lookup now t e allowed scan entry.1 entry.2) scan).Sound
        ctx lookup now t e allowed by
    refine hgeneral _ _ (fun entry hentry => (Table.get_eq_some_iff _ _ _).mpr hentry) ⟨?_, by simp, by simp⟩
    intro id
    exact Or.inl ⟨rfl, by simp⟩
  intro entries
  induction entries with
  | nil => exact fun scan _ hscan => hscan
  | cons entry _ ih =>
    intro scan hentries hscan
    exact ih _ (fun entry' hentry' => hentries entry' (List.mem_cons_of_mem entry hentry'))
      (scanCondition_sound hscan (hentries entry List.mem_cons_self))

end Scan

/-! ### Applied wakes -/

section Apply

variable {ctx : Context} {lookup : AttemptLookup} {now : Int} {t : Tree} {e : Event} {allowed : Option (List String)}

variable {wake : String × String} {t' : Tree}

theorem applyWakes_cons_none (h : t.resources.get wake.1 = none) (wakes : List (String × String)) :
    applyWakes t e now (wake :: wakes) = applyWakes t e now wakes := by
  rw [applyWakes, List.foldl_cons, h]
  rfl

theorem applyWakes_cons_some {r : Resource} (h : t.resources.get wake.1 = some r)
    (wakes : List (String × String)) : applyWakes t e now (wake :: wakes) =
      applyWakes (t.setTrigger wake.1 (some (wakeTrigger r (t.taskTriggers.get wake.1) e now))) e now wakes := by
  rw [applyWakes, List.foldl_cons, h]
  rfl

theorem applyWakes_frame (t : Tree) (e : Event) (now : Int) (wakes : List (String × String)) :
    (applyWakes t e now wakes).resources = t.resources ∧ (applyWakes t e now wakes).attempts = t.attempts ∧
      (applyWakes t e now wakes).conditions = t.conditions ∧
      (applyWakes t e now wakes).cancellations = t.cancellations := by
  induction wakes generalizing t with
  | nil => exact ⟨rfl, rfl, rfl, rfl⟩
  | cons wake _ ih =>
    cases hr : t.resources.get wake.1 with
    | none =>
      rw [applyWakes_cons_none hr]
      exact ih t
    | some r =>
      rw [applyWakes_cons_some hr]
      exact ih (t.setTrigger wake.1 (some (wakeTrigger r (t.taskTriggers.get wake.1) e now)))

theorem applyWakes_trigger (t : Tree) (e : Event) (now : Int) (wakes : List (String × String))
    (hnodup : (wakes.map Prod.fst).Nodup) (k : String) :
    (applyWakes t e now wakes).taskTriggers.get k = (match t.resources.get k with
      | some r => if k ∈ wakes.map Prod.fst then some (wakeTrigger r (t.taskTriggers.get k) e now)
        else t.taskTriggers.get k
      | none => t.taskTriggers.get k) := by
  induction wakes generalizing t with
  | nil =>
    simp only [List.map_nil, List.not_mem_nil, if_false]
    cases t.resources.get k <;> rfl
  | cons wake _ ih =>
    rw [List.map_cons, List.nodup_cons] at hnodup
    cases hr : t.resources.get wake.1 with
    | none =>
      rw [applyWakes_cons_none hr, ih t hnodup.2]
      cases hk : t.resources.get k with
      | none => rfl
      | some =>
        have hne : k ≠ wake.1 := by
          rintro rfl
          rw [hr] at hk
          cases hk
        simp only [List.map_cons, List.mem_cons, hne, false_or]
    | some =>
      rw [applyWakes_cons_some hr, ih _ hnodup.2]
      simp only [Tree.setTrigger_resources, Tree.setTrigger_taskTriggers_get, List.map_cons, List.mem_cons]
      by_cases hk : k = wake.1
      · subst hk
        simp only [hr, hnodup.1, if_true, if_false, true_or]
      · simp only [hk, if_false, false_or]

/-- The edit of a snapshot by events on its Conditions: only Conditions and triggers change, and each
Task is woken by some of the events. -/
structure Tree.WokenBy (now : Int) (events : List Event) (t t' : Tree) : Prop where
  resources : t'.resources = t.resources
  attempts : t'.attempts = t.attempts
  cancellations : t'.cancellations = t.cancellations
  triggers : ∀ k r, t.resources.get k = some r → ∃ wakes,
    t'.taskTriggers.get k = wakeTriggers r now (t.taskTriggers.get k) wakes ∧ ∀ e ∈ wakes, e ∈ events ∧ r.WokenBy e

theorem Tree.WokenBy.refl (now : Int) (t : Tree) : t.WokenBy now [] t :=
  ⟨rfl, rfl, rfl, fun _ _ _ => ⟨[], rfl, by simp⟩⟩

theorem Tree.WokenBy.trans {events events' : List Event} {t'' : Tree} (h : t.WokenBy now events t')
    (h' : t'.WokenBy now events' t'') : t.WokenBy now (events ++ events') t'' := by
  refine ⟨h'.resources.trans h.resources, h'.attempts.trans h.attempts, h'.cancellations.trans h.cancellations, ?_⟩
  intro k r hr
  obtain ⟨wakes, htrigger, hwoken⟩ := h.triggers k r hr
  obtain ⟨wakes', htrigger', hwoken'⟩ := h'.triggers k r (by rw [h.resources]; exact hr)
  refine ⟨wakes ++ wakes', ?_, ?_⟩
  · rw [htrigger', htrigger, wakeTriggers, wakeTriggers, wakeTriggers, List.foldl_append]
  · intro e he
    rcases List.mem_append.mp he with he | he
    · exact ⟨List.mem_append_left _ (hwoken e he).1, (hwoken e he).2⟩
    · exact ⟨List.mem_append_right _ (hwoken' e he).1, (hwoken' e he).2⟩

/-- Every Task an event is reported to wake has its trigger afterwards. -/
theorem applyConditionEvent_spec (hkeyed : ∀ k r, t.resources.get k = some r → r.metadata.id = k)
    {wakes : List (String × String)} {changed : List String}
    (h : applyConditionEvent ctx lookup now t e allowed = (t', wakes, changed)) :
    t.WokenBy now [e] t' ∧
      (∀ k ∈ wakes.map Prod.fst, ∃ r, t.resources.get k = some r ∧ r.WokenBy e ∧
        t'.taskTriggers.get k = some (wakeTrigger r (t.taskTriggers.get k) e now)) ∧
      ConditionScan.Sound ctx lookup now t e allowed ⟨t'.conditions, changed, wakes⟩ := by
  unfold applyConditionEvent at h
  have hsound := scanConditions_sound ctx lookup now t e allowed
  set scan := t.conditions.entries.foldl
    (fun scan entry => scanCondition ctx lookup now t e allowed scan entry.1 entry.2)
    { conditions := t.conditions, changed := [], wakes := [] }
  simp only [Prod.mk.injEq] at h
  obtain ⟨rfl, rfl, rfl⟩ := h
  obtain ⟨hresources, hattempts, hconditions, hcancellations⟩ :=
    applyWakes_frame { t with conditions := scan.conditions } e now scan.wakes
  have htrigger := applyWakes_trigger { t with conditions := scan.conditions } e now scan.wakes hsound.nodup
  have hwoken : ∀ k ∈ scan.wakes.map Prod.fst, ∃ r, t.resources.get k = some r ∧ r.WokenBy e := by
    intro k hk
    obtain ⟨wake, hwake, rfl⟩ := List.mem_map.mp hk
    obtain ⟨c, r, -, -, hwaiter, hid, -⟩ := hsound.wakes wake hwake
    obtain ⟨hmem, hobserves, hlinked, hrecent, -⟩ := mem_conditionWaiters hwaiter
    obtain ⟨k', hk'⟩ := (Table.mem_values_iff _ _).mp hmem
    rw [hid, hkeyed k' r hk']
    exact ⟨r, hk', hobserves, List.ne_nil_of_mem hlinked, hrecent⟩
  have hget : ∀ k r, t.resources.get k = some r →
      (applyWakes { t with conditions := scan.conditions } e now scan.wakes).taskTriggers.get k =
        if k ∈ scan.wakes.map Prod.fst then some (wakeTrigger r (t.taskTriggers.get k) e now)
        else t.taskTriggers.get k := by
    intro k r hr
    rw [htrigger k]
    simp only [hr]
  refine ⟨⟨hresources, hattempts, hcancellations, ?_⟩, ?_, ?_⟩
  · intro k r hr
    by_cases hk : k ∈ scan.wakes.map Prod.fst
    · obtain ⟨_, hr', hby⟩ := hwoken k hk
      rw [hr] at hr'
      cases hr'
      refine ⟨[e], ?_, by simpa using hby⟩
      rw [hget k r hr, if_pos hk]
      rfl
    · refine ⟨[], ?_, by simp⟩
      rw [hget k r hr, if_neg hk]
      rfl
  · intro k hk
    obtain ⟨r, hr, hby⟩ := hwoken k hk
    refine ⟨r, hr, hby, ?_⟩
    rw [hget k r hr, if_pos hk]
  · rw [hconditions]
    exact hsound

theorem applyPendingEvents_spec {base : Tree} {scope scope' : MutationScope} (events : List TriggerEvent)
    (hkeyed : ∀ k r, t.resources.get k = some r → r.metadata.id = k) (htracks : scope.Tracks base)
    (htrackable : ∀ k, t.resources.has k = true → k ≠ "" ∧ ∀ r', t.resources.get k = some r' →
      (∃ f ∈ scope.fences, f.taskId = k) ∨ ∃ r, base.resources.get k = some r ∧ r'.fence = r.fence)
    (h : applyPendingEvents ctx lookup now events t scope = (t', scope')) :
    t.WokenBy now (events.map TriggerEvent.event) t' ∧ scope'.Tracks base ∧
      ∀ k ∈ scope.writeTaskIds, k ∈ scope'.writeTaskIds := by
  induction events generalizing t scope with
  | nil =>
    simp only [applyPendingEvents, Prod.mk.injEq] at h
    obtain ⟨rfl, rfl⟩ := h
    exact ⟨Tree.WokenBy.refl now t, htracks, fun k hk => hk⟩
  | cons entry _ ih =>
    rw [applyPendingEvents] at h
    rcases happly : applyConditionEvent ctx lookup now t entry.event none with ⟨t₁, wakes, _⟩
    simp only [happly] at h
    obtain ⟨hwoken, hwakes, -⟩ := applyConditionEvent_spec hkeyed happly
    obtain ⟨htracked, hmem, hfences⟩ := htracks.foldl_trackAll (t := t₁) (wakes.map Prod.fst) (by
      intro k hk
      obtain ⟨r, hr, -⟩ := hwakes k hk
      have hhas : t.resources.has k = true := by rw [Table.has, hr, Option.isSome_some]
      rw [hwoken.resources]
      exact ⟨(htrackable k hhas).1, fun _ => hhas, (htrackable k hhas).2⟩)
    obtain ⟨hwoken', htracked', hmem'⟩ := ih (by rw [hwoken.resources]; exact hkeyed) htracked (by
      rw [hwoken.resources]
      intro k hk
      refine ⟨(htrackable k hk).1, fun r' hr' => ?_⟩
      rcases (htrackable k hk).2 r' hr' with ⟨f, hf, hid⟩ | hsame
      · exact Or.inl ⟨f, hfences f hf, hid⟩
      · exact Or.inr hsame) h
    refine ⟨hwoken.trans hwoken', htracked', ?_⟩
    intro k hk
    exact hmem' k ((hmem k).mpr (Or.inl hk))

end Apply

end MayAgent
