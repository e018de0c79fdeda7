import MayAgent.Task.Claim

/-!
# The pending batch of a Task

What the functions on triggers do to the list of pending events, apart from how the trigger row stores
that list.
-/

namespace MayAgent

theorem pendingTriggerEvents_of_events {t : Trigger} (h : t.events ≠ []) : pendingTriggerEvents (some t) = t.events := by
  simp [pendingTriggerEvents, taskTriggerEvents, h]

theorem pendingTriggerEvents_consume (previous : Option Trigger) (agent : String) (live : List Int)
    (covered : List String) :
    pendingTriggerEvents (consumeSettledTaskEvents previous agent live covered) =
      (pendingTriggerEvents previous).filter (survivesSettlement live covered) := by
  cases previous with
  | none => rfl
  | some =>
    simp only [consumeSettledTaskEvents]
    split
    · rename_i hall
      exact (List.filter_sublist.eq_of_length hall).symm
    · split
      · rename_i hnone
        rw [List.getLast?_eq_none_iff] at hnone
        exact hnone.symm
      · rename_i last hlast
        rw [pendingTriggerEvents_of_events]
        · rfl
        · exact List.ne_nil_of_mem (List.mem_of_getLast? hlast)

/-! ### Appending to a batch -/

/-- An event is already in the batch, or outdated by a clock wake in it, or it is appended; a clock wake
then replaces the earlier ones. -/
theorem appendTaskTriggerEvent_cases (events : List TriggerEvent) (e : Event) (observedAt : Int) :
    (appendTaskTriggerEvent events e observedAt = events ∧ ∃ kept ∈ events,
      taskEventIdentity kept.event = taskEventIdentity e ∨ isTick e = true ∧ isTick kept.event = true ∧
        ∃ id id', eventId? e = some id ∧ eventId? kept.event = some id' ∧ id < id') ∨
    ((∀ entry ∈ events, taskEventIdentity entry.event ≠ taskEventIdentity e) ∧
      appendTaskTriggerEvent events e observedAt =
        (events.filter fun entry => !(isTick e && isTick entry.event)) ++ [⟨e, observedAt⟩] ∧
      ∀ last, (events.filter fun entry => isTick entry.event).getLast? = some last →
        ∀ id id', isTick e = true → eventId? e = some id → eventId? last.event = some id' → id' ≤ id) := by
  unfold appendTaskTriggerEvent
  by_cases hany : (events.any fun entry => taskEventIdentity entry.event == taskEventIdentity e) = true
  · rw [if_pos hany]
    obtain ⟨kept, hkept, hsame⟩ := List.any_eq_true.mp hany
    exact .inl ⟨rfl, kept, hkept, .inl (by simpa using hsame)⟩
  rw [if_neg hany]
  have hnew : ∀ entry ∈ events, taskEventIdentity entry.event ≠ taskEventIdentity e := by
    intro entry hentry hsame
    exact hany (List.any_eq_true.mpr ⟨entry, hentry, by simpa using hsame⟩)
  cases htick : isTick e with
  | false =>
    refine .inr ⟨hnew, ?_, fun _ _ _ _ hfalse => by cases hfalse⟩
    simp
  | true =>
    simp only [if_true, Bool.true_and]
    cases hlast : (events.filter fun entry => isTick entry.event).getLast? with
    | none =>
      refine .inr ⟨hnew, by simp, ?_⟩
      rintro last ⟨⟩
    | some last =>
      obtain ⟨hkept, hlastTick⟩ := List.mem_filter.mp (List.mem_of_getLast? hlast)
      simp only
      by_cases hstale : ∃ id id', eventId? e = some id ∧ eventId? last.event = some id' ∧ id < id'
      · obtain ⟨id, id', hid, hid', hlt⟩ := hstale
        exact .inl ⟨by simp [hid, hid', hlt], last, hkept, .inr ⟨trivial, hlastTick, id, id', hid, hid', hlt⟩⟩
      · refine .inr ⟨hnew, if_neg ?_, ?_⟩
        · split
          · rename_i id' id hid' hid
            exact fun hlt => hstale ⟨id, id', hid, hid', of_decide_eq_true hlt⟩
          · exact Bool.false_ne_true
        · rintro _ ⟨⟩ id id' - hid hid'
          exact Int.not_lt.mp fun hlt => hstale ⟨id, id', hid, hid', hlt⟩

/-- A deduplicated batch: a part of the events in their order, in which no identity occurs twice and every
identity is found, or a clock wake in the place of an earlier one. -/
structure Deduplicates (events batch : List TriggerEvent) : Prop where
  order : batch.Sublist events
  distinct : (batch.map fun entry => taskEventIdentity entry.event).Nodup
  covers : ∀ entry ∈ events, ∃ kept ∈ batch, taskEventIdentity kept.event = taskEventIdentity entry.event ∨
    isTick kept.event = true ∧ ∃ tick ∈ events, isTick tick.event = true ∧
      taskEventIdentity tick.event = taskEventIdentity entry.event

variable {batch events : List TriggerEvent}

theorem Deduplicates.refl
    (h : (batch.map fun entry => taskEventIdentity entry.event).Nodup) : Deduplicates batch batch :=
  ⟨List.Sublist.refl batch, h, fun entry hentry => ⟨entry, hentry, .inl rfl⟩⟩

theorem Deduplicates.append (h : Deduplicates events batch) (e : Event)
    (observedAt : Int) :
    Deduplicates (events ++ [⟨e, observedAt⟩]) (appendTaskTriggerEvent batch e observedAt) := by
  have hlast : (⟨e, observedAt⟩ : TriggerEvent) ∈ events ++ [⟨e, observedAt⟩] :=
    List.mem_append_right _ (List.mem_singleton.mpr rfl)
  have hcovers : ∀ entry ∈ events, ∃ kept ∈ batch, taskEventIdentity kept.event = taskEventIdentity entry.event ∨
      isTick kept.event = true ∧ ∃ tick ∈ events ++ [⟨e, observedAt⟩], isTick tick.event = true ∧
        taskEventIdentity tick.event = taskEventIdentity entry.event := by
    intro entry hentry
    obtain ⟨kept, hkept, hsame | ⟨hkeptTick, tick, htick, hrest⟩⟩ := h.covers entry hentry
    · exact ⟨kept, hkept, .inl hsame⟩
    · exact ⟨kept, hkept, .inr ⟨hkeptTick, tick, List.mem_append_left _ htick, hrest⟩⟩
  rcases appendTaskTriggerEvent_cases batch e observedAt with ⟨heq, kept, hkept, hkeeps⟩ | ⟨hnew, heq, -⟩
  · rw [heq]
    refine ⟨h.order.trans (List.sublist_append_left _ _), h.distinct, fun entry hentry => ?_⟩
    rcases List.mem_append.mp hentry with hentry | hentry
    · exact hcovers entry hentry
    · rw [List.mem_singleton.mp hentry]
      rcases hkeeps with hsame | ⟨htick, hkeptTick, -⟩
      · exact ⟨kept, hkept, .inl hsame⟩
      · exact ⟨kept, hkept, .inr ⟨hkeptTick, ⟨e, observedAt⟩, hlast, htick, rfl⟩⟩
  · rw [heq]
    refine ⟨(List.filter_sublist.trans h.order).append (List.Sublist.refl _), ?_, fun entry hentry => ?_⟩
    · rw [List.map_append, List.map_singleton]
      refine List.nodup_append.mpr ⟨(List.filter_sublist.map _).nodup h.distinct, List.nodup_singleton _, ?_⟩
      intro identity hidentity identity' hidentity' hsame
      obtain ⟨entry, hentry, rfl⟩ := List.mem_map.mp hidentity
      rw [List.mem_singleton.mp hidentity'] at hsame
      exact hnew entry (List.mem_filter.mp hentry).1 hsame
    · have happended : (⟨e, observedAt⟩ : TriggerEvent) ∈
          (batch.filter fun entry => !(isTick e && isTick entry.event)) ++ [⟨e, observedAt⟩] :=
        List.mem_append_right _ (List.mem_singleton.mpr rfl)
      rcases List.mem_append.mp hentry with hentry | hentry
      · obtain ⟨kept, hkept, hcovered⟩ := hcovers entry hentry
        cases hticks : isTick e && isTick kept.event with
        | false => exact ⟨kept, List.mem_append_left _ (List.mem_filter.mpr ⟨hkept, by rw [hticks]; rfl⟩), hcovered⟩
        | true =>
          -- The clock wake that covered the entry makes room for the new one.
          obtain ⟨htick, hkeptTick⟩ := (Bool.and_eq_true _ _).mp hticks
          refine ⟨⟨e, observedAt⟩, happended, .inr ⟨htick, ?_⟩⟩
          rcases hcovered with hsame | ⟨-, hrest⟩
          · exact ⟨kept, List.mem_append_left _ (h.order.subset hkept), hkeptTick, hsame⟩
          · exact hrest
      · rw [List.mem_singleton.mp hentry]
        exact ⟨⟨e, observedAt⟩, happended, .inl rfl⟩

theorem Deduplicates.appendAll (h : Deduplicates events batch)
    (more : List TriggerEvent) : Deduplicates (events ++ more) (appendTaskTriggerEvents batch more) := by
  induction more generalizing events batch with
  | nil => rwa [List.append_nil]
  | cons entry _ ih =>
    have hnext := ih (h.append entry.event entry.observedAt)
    rwa [List.append_assoc] at hnext

end MayAgent
