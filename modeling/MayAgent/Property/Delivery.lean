import MayAgent.Host.Delivery

/-!
# Failures of required routes

A recorded failure of a durable route is a receipt of its own: a storage-only acceptance does not replace
it, and a direct acceptance is final. A direct acceptance replaces it, though, and a pass that is limited
to the routes of one label may accept without running the route that failed.
-/

namespace MayAgent

/-- An acceptance by a consumer, as against one for the storage of the event. -/
def DeliveryResult.isDirect (result : DeliveryResult) : Bool := result.route != some .noop

theorem preferredDelivery_isSome (current candidate : Option DeliveryResult) :
    (preferredDelivery current candidate).isSome = (current.isSome || candidate.isSome) := by
  cases current <;> simp [preferredDelivery]

theorem preferredDelivery_isDirect (current candidate : Option DeliveryResult) :
    (preferredDelivery current candidate).any DeliveryResult.isDirect =
      (current.any DeliveryResult.isDirect || candidate.any DeliveryResult.isDirect) := by
  cases current with
  | none => simp [preferredDelivery]
  | some current =>
    cases candidate with
    | none => simp [preferredDelivery, DeliveryResult.isDirect]
    | some candidate =>
      by_cases hnoop : current.route = some .noop <;> by_cases hcandidate : candidate.route = some .noop <;>
        simp [preferredDelivery, DeliveryResult.isDirect, hnoop, hcandidate]

theorem pairTrackerFallback_isDirect (event : AgentEvent) :
    (pairTrackerFallback event).any DeliveryResult.isDirect = (pairTrackerFallback event).isSome := by
  unfold pairTrackerFallback
  split <;> rfl

/-- The delivery of a pass over `calls`. -/
def passDelivery (calls : List SubscriberCall) : Option DeliveryResult :=
  calls.foldl (fun delivery call => preferredDelivery delivery call.delivery) none

variable (calls : List SubscriberCall)

theorem passDelivery_concat (call : SubscriberCall) :
    passDelivery (calls ++ [call]) = preferredDelivery (passDelivery calls) call.delivery := by
  simp [passDelivery, List.foldl_append]

theorem passDelivery_isSome :
    (passDelivery calls).isSome = calls.any fun call => call.delivery.isSome := by
  induction calls using List.reverseRecOn with
  | nil => rfl
  | append_singleton _ _ ih => simp [passDelivery_concat, preferredDelivery_isSome, ih]

theorem passDelivery_isDirect :
    (passDelivery calls).any DeliveryResult.isDirect =
      calls.any fun call => call.delivery.any DeliveryResult.isDirect := by
  induction calls using List.reverseRecOn with
  | nil => rfl
  | append_singleton _ _ ih => simp [passDelivery_concat, preferredDelivery_isDirect, ih]

/-- The calls of a pass end with a direct acceptance: one of them accepts directly, or none accepts and the
pair tracker does. -/
def AcceptsDirectly (event : AgentEvent) (calls : List SubscriberCall) : Prop :=
  (∃ call ∈ calls, call.delivery.any DeliveryResult.isDirect) ∨
    ((∀ call ∈ calls, call.delivery = none) ∧ (pairTrackerFallback event).isSome)

theorem deliveryOutcome_cases (event : AgentEvent) (recordOnly : Bool) (routeCalls ordinary : List SubscriberCall) :
    ((∃ call ∈ routeCalls, call.isThrown) ∧
        ∃ note, deliveryOutcome event recordOnly routeCalls ordinary = some (.failed note)) ∨
      ((∀ call ∈ routeCalls, call.isThrown = false) ∧
        ∃ delivery, deliveryOutcome event recordOnly routeCalls ordinary = Option.map .accepted delivery ∧
          (delivery.any DeliveryResult.isDirect ↔ AcceptsDirectly event (routeCalls ++ ordinary))) := by
  unfold deliveryOutcome
  by_cases hthrown : routeCalls.any SubscriberCall.isThrown
  · exact .inl ⟨by simpa using hthrown, _, if_pos hthrown⟩
  · refine .inr ⟨by simpa using hthrown, _, if_neg hthrown, ?_⟩
    change (((passDelivery (routeCalls ++ ordinary)).or (pairTrackerFallback event)).or _).any
      DeliveryResult.isDirect = true ↔ _
    have hsome := passDelivery_isSome (routeCalls ++ ordinary)
    have hdirect := passDelivery_isDirect (routeCalls ++ ordinary)
    have hpair := pairTrackerFallback_isDirect event
    unfold AcceptsDirectly
    cases hdelivery : passDelivery (routeCalls ++ ordinary) with
    | some =>
      rw [hdelivery] at hsome hdirect
      obtain ⟨call, hcall, hdelivers⟩ := List.any_eq_true.mp hsome.symm
      rw [Option.some_or, Option.some_or, hdirect, List.any_eq_true]
      refine ⟨.inl, fun h => h.resolve_right fun hnone => ?_⟩
      rw [hnone.1 call hcall] at hdelivers
      cases hdelivers
    | none =>
      rw [hdelivery] at hsome
      have hnone : ∀ call ∈ routeCalls ++ ordinary, call.delivery = none := by
        intro call hcall
        simpa using List.any_eq_false.mp hsome.symm call hcall
      rw [Option.none_or]
      refine ⟨fun h => .inr ⟨hnone, ?_⟩, fun h => ?_⟩
      · cases htracked : pairTrackerFallback event with
        | some => rfl
        | none =>
          rw [htracked, Option.none_or] at h
          cases recordOnly <;> cases h
      · rcases h with ⟨call, hcall, hdelivers⟩ | ⟨-, htracked⟩
        · rw [hnone call hcall] at hdelivers
          cases hdelivers
        · obtain ⟨_, hresult⟩ := Option.isSome_iff_exists.mp htracked
          rw [htracked] at hpair
          rw [hresult] at hpair ⊢
          exact hpair

/-! ### What a receipt update does -/

theorem DeliveryStatus.eq_pending_or (status : DeliveryStatus) :
    status = .pending ∨ status = .unhandled ∨ status = .accepted := by
  cases status <;> simp

namespace DeliveryRow

variable {row : DeliveryRow}

def Failed (row : DeliveryRow) : Prop := row.status ≠ .accepted ∧ row.route = some .direct

theorem undelivered_iff : (row.status = .pending ∨ row.status = .unhandled ∨ row.AcceptedNoop) ↔ ¬row.AcceptedDirectly := by
  unfold AcceptedDirectly AcceptedNoop
  rcases row.status.eq_pending_or with h | h | h <;> simp [h]

theorem Failed.recordFailure (h : ¬row.AcceptedDirectly) (note : String) : (row.recordFailure note).Failed := by
  unfold DeliveryRow.recordFailure
  rw [if_pos (undelivered_iff.mpr h)]
  refine ⟨?_, rfl⟩
  dsimp only
  split <;> simp_all

theorem recordFailure_direct (h : row.AcceptedDirectly) (note : String) : row.recordFailure note = row :=
  if_neg fun hopen => undelivered_iff.mp hopen h

theorem recordAcceptance_receipt (row : DeliveryRow) (result : DeliveryResult) (now : Int) :
    (row.Accepts (result.route.getD .direct) ∧ (row.recordAcceptance result now).status = .accepted ∧
        (row.recordAcceptance result now).route = some (result.route.getD .direct)) ∨
      (¬row.Accepts (result.route.getD .direct) ∧ (row.recordAcceptance result now).status = row.status ∧
        (row.recordAcceptance result now).route = row.route) := by
  unfold recordAcceptance
  by_cases haccepts : row.Accepts (result.route.getD .direct)
  · refine .inl ⟨haccepts, ?_⟩
    cases result.appAdmission <;> simp [haccepts]
  · refine .inr ⟨haccepts, ?_⟩
    cases result.appAdmission <;> simp [haccepts]

variable {result : DeliveryResult}

theorem accepts_of_direct (row : DeliveryRow) (h : result.isDirect) :
    row.Accepts (result.route.getD .direct) := by
  refine .inl fun hnoop => ?_
  cases hroute : result.route with
  | none => simp [hroute] at hnoop
  | some => simp_all [DeliveryResult.isDirect]

theorem route_of_not_direct (h : result.isDirect = false) :
    result.route.getD .direct = .noop := by
  have hroute : result.route = some .noop := by simpa [DeliveryResult.isDirect] using h
  simp [hroute]

theorem AcceptedDirectly.not_accepts (h : row.AcceptedDirectly) : ¬row.Accepts .noop := by
  rintro (hne | ⟨hpending, -⟩ | hnoop | ⟨hunhandled, -⟩)
  · exact hne rfl
  · exact absurd (h.1.symm.trans hpending) (by decide)
  · exact h.2 hnoop.2
  · exact absurd (h.1.symm.trans hunhandled) (by decide)

theorem Failed.not_accepts (h : row.Failed) : ¬row.Accepts .noop := by
  rintro (hne | ⟨-, hroute⟩ | hnoop | ⟨-, hnone, -⟩)
  · exact hne rfl
  · exact hroute h.2
  · exact h.1 hnoop.1
  · exact absurd (h.2.symm.trans hnone) (by simp)

theorem Failed.recordDelivery_noop (h : row.Failed) (hnoop : result.isDirect = false)
    (now : Int) : (row.recordDelivery (.accepted result) now).Failed := by
  rcases row.recordAcceptance_receipt result now with ⟨haccepts, -⟩ | ⟨-, hstatus, hroute⟩
  · exact absurd (route_of_not_direct hnoop ▸ haccepts) h.not_accepts
  · exact ⟨fun hacc => h.1 (hstatus.symm.trans hacc), hroute.trans h.2⟩

theorem AcceptedDirectly.recordDelivery (h : row.AcceptedDirectly) (outcome : DeliveryOutcome) (now : Int) :
    (row.recordDelivery outcome now).AcceptedDirectly := by
  cases outcome with
  | failed note =>
    show (row.recordFailure note).AcceptedDirectly
    rwa [recordFailure_direct h]
  | accepted result =>
    rcases row.recordAcceptance_receipt result now with ⟨haccepts, hstatus, hroute⟩ | ⟨-, hstatus, hroute⟩
    · refine ⟨hstatus, fun hnoop => h.not_accepts ?_⟩
      rw [← Option.some.inj (hroute.symm.trans hnoop)]
      exact haccepts
    · exact ⟨hstatus.trans h.1, fun hnoop => h.2 (hroute.symm.trans hnoop)⟩

theorem Failed.not_noop_recordDelivery (h : row.Failed) (outcome : DeliveryOutcome) (now : Int) :
    ¬(row.recordDelivery outcome now).AcceptedNoop := by
  cases outcome with
  | failed note =>
    intro hnoop
    exact (Failed.recordFailure (fun hdirect => h.1 hdirect.1) note).1 hnoop.1
  | accepted result =>
    intro hnoop
    cases hdirect : result.isDirect with
    | false => exact (h.recordDelivery_noop hdirect now).1 hnoop.1
    | true =>
      rcases row.recordAcceptance_receipt result now with ⟨-, -, hroute⟩ | ⟨hnot, -⟩
      · have hroute' := Option.some.inj (hroute.symm.trans hnoop.2)
        cases hresult : result.route <;> simp_all [DeliveryResult.isDirect]
      · exact hnot (row.accepts_of_direct hdirect)

theorem sweepUnaccepted_receipt (row : DeliveryRow) (planPending : Bool) (now : Int) :
    (row.sweepUnaccepted planPending now).route = row.route ∧
      ((row.sweepUnaccepted planPending now).status = .accepted ↔ row.status = .accepted) := by
  unfold sweepUnaccepted
  split <;> simp_all

theorem recordUnroutableAddressAttempt_receipt (row : DeliveryRow) (diagnostic : String) :
    (row.recordUnroutableAddressAttempt diagnostic).route = row.route ∧
      ((row.recordUnroutableAddressAttempt diagnostic).status = .accepted → row.status = .accepted) ∧
      (row.AcceptedDirectly → (row.recordUnroutableAddressAttempt diagnostic).status = .accepted) := by
  unfold recordUnroutableAddressAttempt
  dsimp only
  split
  · split
    · split
      case isTrue hdirect => exact ⟨rfl, fun h => h, fun h => h.1⟩
      case isFalse hdirect => exact ⟨rfl, nofun, fun h => absurd h hdirect⟩
    · exact ⟨rfl, fun h => h, fun h => h.1⟩
  · exact ⟨rfl, fun h => h, fun h => h.1⟩

end DeliveryRow

/-! ### Runs -/

namespace DurableRoutes

variable {ρ : Type*} {routes : DurableRoutes ρ}

variable {marks : RetryMarks}

theorem mem_selected {durableRouteLabel : Option String} {route : ρ}
    (h : route ∈ routes.selected marks durableRouteLabel) : route ∈ routes.subscribers :=
  List.mem_of_mem_filter h

theorem selected_all (h : marks.appAdmissionRedeliveryRequired = false) :
    routes.selected marks none = routes.subscribers := by
  simp [DurableRoutes.selected, DurableRoutes.selects, h]

end DurableRoutes

theorem dispatch_row {ρ : Type*} (routes : DurableRoutes ρ) (event : AgentEvent) (marks : RetryMarks)
    (durableRouteLabel : Option String) (calls : PassCalls ρ) (row : DeliveryRow) :
    dispatch routes event marks durableRouteLabel calls row = row ∨
      ∃ outcome, dispatch routes event marks durableRouteLabel calls row = row.recordDelivery outcome calls.now := by
  unfold dispatch
  dsimp only
  split
  · exact .inl rfl
  · split
    case h_1 outcome _ => exact .inr ⟨outcome, rfl⟩
    case h_2 => exact .inl rfl

namespace EventDelivery

variable {ρ : Type*} [DecidableEq ρ] {routes : DurableRoutes ρ} {event : AgentEvent} {s : EventDelivery ρ}

/-- The routes that owe a run without a failure are those of the bus, and their failure is on the receipt. -/
structure Owing (routes : DurableRoutes ρ) (s : EventDelivery ρ) : Prop where
  mem : ∀ route ∈ s.owed, route ∈ routes.subscribers
  failed : s.owed ≠ [] → s.row.Failed

/-- A redelivery, limited to the routes of one label, that accepts the event directly while a route it does not
run still owes a run. -/
def Masks (routes : DurableRoutes ρ) (event : AgentEvent) (s : EventDelivery ρ) : DeliveryAction ρ → Prop
  | .redeliver durableRouteLabel calls =>
    (∃ route ∈ s.owed, route ∉ routes.selected ⟨true, true, false⟩ durableRouteLabel) ∧
      (∀ route ∈ routes.selected ⟨true, true, false⟩ durableRouteLabel, (calls.route route).isThrown = false) ∧
      AcceptsDirectly event ((routes.selected ⟨true, true, false⟩ durableRouteLabel).map calls.route)
  | _ => False

theorem pass_cases (routes : DurableRoutes ρ) (event : AgentEvent) (s : EventDelivery ρ) (marks : RetryMarks)
    (durableRouteLabel : Option String) (calls : PassCalls ρ) :
    ((marks.deduplicated && !marks.redeliveryRequired) = true ∧ s.pass routes event marks durableRouteLabel calls = s) ∨
      ((∃ route ∈ routes.selected marks durableRouteLabel, (calls.route route).isThrown) ∧
        ∃ note, (s.pass routes event marks durableRouteLabel calls).row = s.row.recordFailure note ∧
        ∀ route ∈ (s.pass routes event marks durableRouteLabel calls).owed, route ∈ s.owed ∨
          ¬s.row.AcceptedDirectly ∧ route ∈ routes.subscribers) ∨
      ∃ delivery : Option DeliveryResult,
        (delivery.any DeliveryResult.isDirect ↔
          AcceptsDirectly event ((routes.selected marks durableRouteLabel).map calls.route ++
            if marks.redeliveryRequired then [] else calls.ordinary)) ∧
        (∀ route ∈ routes.selected marks durableRouteLabel, (calls.route route).isThrown = false) ∧
        (s.pass routes event marks durableRouteLabel calls).row =
          delivery.elim s.row (fun result => s.row.recordDelivery (.accepted result) calls.now) ∧
        (s.pass routes event marks durableRouteLabel calls).owed =
          s.owed.filter fun route => route ∉ routes.selected marks durableRouteLabel := by
  unfold pass dispatch
  by_cases hskip : marks.deduplicated && !marks.redeliveryRequired
  · left
    simp [hskip]
  · right
    simp only [hskip]
    rcases deliveryOutcome_cases event s.row.recordOnly ((routes.selected marks durableRouteLabel).map calls.route)
      (if marks.redeliveryRequired then [] else calls.ordinary) with
        ⟨hthrown, note, houtcome⟩ | ⟨hnone, delivery, houtcome, hdirect⟩
    · left
      refine ⟨by simpa using hthrown, note, ?_, fun route hroute => ?_⟩
      · simp [houtcome, DeliveryRow.recordDelivery]
      · rcases List.mem_append.mp hroute with hold | hnew
        · exact .inl (List.mem_of_mem_filter hold)
        · by_cases hdirect : s.row.AcceptedDirectly
          · simp [hdirect] at hnew
          · rw [if_neg hdirect] at hnew
            exact .inr ⟨hdirect, DurableRoutes.mem_selected (List.mem_of_mem_filter hnew)⟩
    · right
      refine ⟨delivery, hdirect, ?_, ?_, ?_⟩
      · intro route hroute
        exact hnone _ (List.mem_map_of_mem hroute)
      · cases delivery <;> simp [houtcome]
      · have hcalls : ∀ route ∈ routes.selected marks durableRouteLabel, (calls.route route).isThrown = false :=
          fun route hroute => hnone _ (List.mem_map_of_mem hroute)
        have hnew : (routes.selected marks durableRouteLabel).filter (fun route => (calls.route route).isThrown) = [] :=
          List.filter_eq_nil_iff.mpr fun route hroute => by simp [hcalls route hroute]
        have hold : ∀ route ∈ s.owed,
            (decide (route ∉ routes.selected marks durableRouteLabel ∨ (calls.route route).isThrown = true)) =
              decide (route ∉ routes.selected marks durableRouteLabel) := by
          intro route _
          by_cases hroute : route ∈ routes.selected marks durableRouteLabel <;> simp [hroute, hcalls]
        simp only [Bool.false_eq_true, if_false, hnew, ite_self, List.append_nil]
        exact List.filter_congr hold

/-- A pass keeps `Owing` unless it accepts the event directly without running a route that owes a run. -/
theorem Owing.pass {marks : RetryMarks} {durableRouteLabel : Option String} {calls : PassCalls ρ}
    (h : Owing routes s)
    (hall : (∀ route ∈ routes.selected marks durableRouteLabel, (calls.route route).isThrown = false) →
      AcceptsDirectly event ((routes.selected marks durableRouteLabel).map calls.route ++
        if marks.redeliveryRequired then [] else calls.ordinary) →
      ∀ route ∈ s.owed, route ∈ routes.selected marks durableRouteLabel) :
    Owing routes (s.pass routes event marks durableRouteLabel calls) := by
  rcases pass_cases routes event s marks durableRouteLabel calls with
    ⟨-, hskip⟩ | ⟨-, _, hrow, howed⟩ | ⟨delivery, hdirect, hcalls, hrow, howed⟩
  · rwa [hskip]
  · refine ⟨fun route hroute => ?_, fun hne => ?_⟩
    · exact (howed route hroute).elim (h.mem route) And.right
    · rw [hrow]
      obtain ⟨route, hroute⟩ := List.exists_mem_of_ne_nil _ hne
      apply DeliveryRow.Failed.recordFailure
      rcases howed route hroute with hold | ⟨hnot, -⟩
      · exact fun hacc => (h.failed (List.ne_nil_of_mem hold)).1 hacc.1
      · exact hnot
  · refine ⟨fun route hroute => ?_, fun hne => ?_⟩
    · rw [howed] at hroute
      exact h.mem route (List.mem_of_mem_filter hroute)
    · -- A route that this pass did not run still owes, so the pass was not a direct acceptance.
      obtain ⟨route, hroute⟩ := List.exists_mem_of_ne_nil _ hne
      rw [howed, List.mem_filter, decide_eq_true_eq] at hroute
      have hfailed := h.failed (List.ne_nil_of_mem hroute.1)
      rw [hrow]
      cases delivery with
      | none => exact hfailed
      | some =>
        refine hfailed.recordDelivery_noop ?_ calls.now
        by_contra hresult
        rw [Bool.not_eq_false] at hresult
        exact hroute.2 (hall hcalls (hdirect.mp hresult) route hroute.1)

theorem Owing.next (h : Owing routes s) (action : DeliveryAction ρ) (hok : ¬s.Masks routes event action) :
    Owing routes (s.next routes event action) := by
  cases action with
  | fanout =>
    refine h.pass fun _ _ route hroute => ?_
    rw [DurableRoutes.selected_all rfl]
    exact h.mem route hroute
  | keyedEmit =>
    refine h.pass fun _ _ route hroute => ?_
    have hfailed := h.failed (List.ne_nil_of_mem hroute)
    rw [DurableRoutes.selected_all]
    · exact h.mem route hroute
    · unfold DeliveryRow.retryMarks
      rw [if_neg fun hdirect => hfailed.1 hdirect.2.1]
  | redeliver =>
    refine h.pass fun hcalls hdirect route hroute => ?_
    by_contra hnot
    exact hok ⟨⟨route, hroute, hnot⟩, hcalls, by simpa using hdirect⟩
  | sweep planPending now =>
    obtain ⟨hroute, hstatus⟩ := s.row.sweepUnaccepted_receipt planPending now
    refine ⟨h.mem, fun hne => ⟨fun hacc => (h.failed hne).1 (hstatus.mp hacc), hroute.trans (h.failed hne).2⟩⟩
  | unroutable diagnostic =>
    obtain ⟨hroute, hstatus, -⟩ := s.row.recordUnroutableAddressAttempt_receipt diagnostic
    refine ⟨h.mem, fun hne => ⟨fun hacc => (h.failed hne).1 (hstatus hacc), hroute.trans (h.failed hne).2⟩⟩

theorem masked_of_masks {action : DeliveryAction ρ} (h : s.Masks routes event action) :
    (s.next routes event action).owed ≠ [] ∧ (s.next routes event action).row.status = .accepted := by
  cases action with
  | redeliver durableRouteLabel calls =>
    obtain ⟨⟨route, hroute, hnot⟩, hcalls, hdirect⟩ := h
    show (s.pass routes event ⟨true, true, false⟩ durableRouteLabel calls).owed ≠ [] ∧
      (s.pass routes event ⟨true, true, false⟩ durableRouteLabel calls).row.status = .accepted
    rcases pass_cases routes event s ⟨true, true, false⟩ durableRouteLabel calls with
      ⟨hskip, -⟩ | ⟨⟨other, hother, hthrown⟩, -⟩ | ⟨delivery, hdelivery, -, hrow, howed⟩
    · cases hskip
    · rw [hcalls other hother] at hthrown
      cases hthrown
    · have hkept : route ∈ s.owed.filter fun route => route ∉ routes.selected ⟨true, true, false⟩ durableRouteLabel :=
        List.mem_filter.mpr ⟨hroute, decide_eq_true hnot⟩
      rw [howed, hrow]
      refine ⟨List.ne_nil_of_mem hkept, ?_⟩
      cases delivery with
      | none => simp [hdirect] at hdelivery
      | some result =>
        have hresult : result.isDirect := hdelivery.mpr (by simpa using hdirect)
        rcases s.row.recordAcceptance_receipt result calls.now with ⟨-, hstatus, -⟩ | ⟨hnot, -⟩
        · exact hstatus
        · exact absurd (s.row.accepts_of_direct hresult) hnot
  | fanout | keyedEmit | sweep | unroutable => exact h.elim

theorem acceptedDirectly_next (h : s.row.AcceptedDirectly) (action : DeliveryAction ρ) :
    (s.next routes event action).row.AcceptedDirectly := by
  have hpass : ∀ marks label calls, (s.pass routes event marks label calls).row.AcceptedDirectly := by
    intro marks label calls
    show (dispatch routes event marks label calls s.row).AcceptedDirectly
    rcases dispatch_row routes event marks label calls s.row with hsame | ⟨outcome, hrecorded⟩
    · rwa [hsame]
    · rw [hrecorded]
      exact h.recordDelivery outcome calls.now
  cases action with
  | fanout calls => exact hpass _ _ calls
  | keyedEmit calls => exact hpass _ _ calls
  | redeliver _ calls => exact hpass _ _ calls
  | sweep planPending now =>
    obtain ⟨hroute, hstatus⟩ := s.row.sweepUnaccepted_receipt planPending now
    exact ⟨hstatus.mpr h.1, fun hnoop => h.2 (hroute.symm.trans hnoop)⟩
  | unroutable diagnostic =>
    obtain ⟨hroute, -, hstatus⟩ := s.row.recordUnroutableAddressAttempt_receipt diagnostic
    exact ⟨hstatus h, fun hnoop => h.2 (hroute.symm.trans hnoop)⟩

theorem not_acceptedNoop_next (h : s.row.Failed) (action : DeliveryAction ρ) :
    ¬(s.next routes event action).row.AcceptedNoop := by
  have hpass : ∀ marks label calls, ¬(s.pass routes event marks label calls).row.AcceptedNoop := by
    intro marks label calls
    show ¬(dispatch routes event marks label calls s.row).AcceptedNoop
    rcases dispatch_row routes event marks label calls s.row with hsame | ⟨outcome, hrecorded⟩
    · rw [hsame]
      exact fun hnoop => h.1 hnoop.1
    · rw [hrecorded]
      exact h.not_noop_recordDelivery outcome calls.now
  cases action with
  | fanout calls => exact hpass _ _ calls
  | keyedEmit calls => exact hpass _ _ calls
  | redeliver _ calls => exact hpass _ _ calls
  | sweep planPending now =>
    exact fun hnoop => h.1 ((s.row.sweepUnaccepted_receipt planPending now).2.mp hnoop.1)
  | unroutable diagnostic =>
    exact fun hnoop => h.1 ((s.row.recordUnroutableAddressAttempt_receipt diagnostic).2.1 hnoop.1)

theorem Reachable.owing (h : Reachable routes event (fun s action => ¬s.Masks routes event action) s) :
    Owing routes s := by
  refine Reaches.invariant (fun s hinit => ?_) (fun s action hs hok => hs.next action hok) h
  refine ⟨fun route hroute => ?_, fun hne => absurd hinit.1 hne⟩
  rw [hinit.1] at hroute
  cases hroute

end EventDelivery

open EventDelivery in
/-- In every run without a masking redelivery, an event is not accepted while a durable route that failed owes a
run without a failure; a storage-only acceptance follows neither a failure nor a direct acceptance, and a direct
acceptance stays. The first masking redelivery breaks the first of these. -/
theorem route_failure_not_masked {ρ : Type*} [DecidableEq ρ] (routes : DurableRoutes ρ) (event : AgentEvent)
    {s : EventDelivery ρ}
    (h : EventDelivery.Reachable routes event (fun s action => ¬s.Masks routes event action) s) :
    (s.owed ≠ [] → s.row.status ≠ .accepted) ∧
      (∀ action, s.row.Failed ∨ s.row.AcceptedDirectly → ¬(s.next routes event action).row.AcceptedNoop) ∧
      (∀ action, s.row.AcceptedDirectly → (s.next routes event action).row.AcceptedDirectly) ∧
      ∀ action, ((s.next routes event action).owed ≠ [] → (s.next routes event action).row.status ≠ .accepted) ↔
        ¬s.Masks routes event action := by
  refine ⟨fun hne => (h.owing.failed hne).1, fun action hreceipt => ?_, fun action hdirect => ?_, fun action => ?_⟩
  · rcases hreceipt with hfailed | hdirect
    · exact not_acceptedNoop_next hfailed action
    · exact fun hnoop => (acceptedDirectly_next hdirect action).2 hnoop.2
  · exact acceptedDirectly_next hdirect action
  · refine ⟨fun hkept hmasks => ?_, fun hok hne => ((h.owing.next action hok).failed hne).1⟩
    obtain ⟨hne, haccepted⟩ := masked_of_masks hmasks
    exact hkept hne haccepted

/-! ### Two routes, one of which fails -/

namespace EventDelivery.Sample

def routes : DurableRoutes Bool where
  subscribers := [false, true]
  label inbox := if inbox then some "app-inbox-route" else none

def event : AgentEvent where
  type := "fixture.observed"
  envelope := [("data", .obj []), ("owner", .str "app:producer"), ("source", .str "fixture"),
    ("type", .str "fixture.observed")]
  rowId := some 1
  typed := by decide

def failing : PassCalls Bool where
  route inbox := if inbox then .returned none else .threw "Required consumer unavailable"
  ordinary := []
  now := 10

def accepting : PassCalls Bool where
  route _ := .returned (some ⟨"app-runtime:events", some .direct, none, true⟩)
  ordinary := []
  now := 20

def start : EventDelivery Bool := ⟨.inserted false 0 none, []⟩

def failed : EventDelivery Bool := start.next routes event (.fanout failing)

def recovered : EventDelivery Bool := failed.next routes event (.redeliver (some "app-inbox-route") accepting)

theorem reachable_failed (ok : EventDelivery Bool → DeliveryAction Bool → Prop) (hok : ok start (.fanout failing)) :
    Reachable routes event ok failed :=
  (Reaches.start ⟨rfl, false, 0, none, rfl⟩).step hok

end EventDelivery.Sample

open EventDelivery in
theorem route_failure_not_masked_failed :
    Sample.failed.owed = [false] ∧ Sample.failed.row.status ≠ .accepted :=
  ⟨by decide, (route_failure_not_masked Sample.routes Sample.event (Sample.reachable_failed _ id)).1 (by decide)⟩

open EventDelivery in
/-- The recovery of App admissions runs the App inbox alone; it accepts, and the event counts as accepted though
the route that threw was not run again. -/
theorem app_recovery_masks_failure :
    EventDelivery.Reachable Sample.routes Sample.event (fun _ _ => True) Sample.recovered ∧
      Sample.recovered.owed = [false] ∧ Sample.recovered.row.status = .accepted :=
  ⟨(Sample.reachable_failed _ trivial).step trivial, by decide, by decide⟩

end MayAgent
