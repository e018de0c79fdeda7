import MayAgent.Host.Retention

/-!
# What retention releases

An event with a live obligation is never deleted. Repeated passes end with nothing expired that no live obligation
keeps, directly, through a child in its trace, or through a link, as long as fewer retired sessions have an
active directory than fit into a batch: those are taken out of a batch only after it was cut, so that they fill it.
-/

namespace MayAgent

namespace Retention

/-! ### Rows -/

section Rows

variable {α : Type} [DecidableEq α] {eligible : α → Bool} {orderBy : α → Int} {n : Nat} {rows : List α}

omit [DecidableEq α] in
theorem eligible_of_mem_oldest {row : α} (h : row ∈ oldest orderBy n (rows.filter eligible)) :
    row ∈ rows ∧ eligible row = true :=
  List.mem_filter.mp (mem_of_mem_oldest h)

omit [DecidableEq α] in
theorem exists_selected (hn : 1 ≤ n) {row : α} (hrow : row ∈ rows) (h : ¬eligible row = false) :
    ∃ first ∈ oldest orderBy n (rows.filter eligible), first ∈ rows ∧ eligible first = true := by
  obtain ⟨first, hfirst⟩ : ∃ first, first ∈ oldest orderBy n (rows.filter eligible) :=
    exists_mem_oldest hn (List.mem_filter.mpr ⟨hrow, Bool.eq_true_of_not_eq_false h⟩)
  exact ⟨first, hfirst, eligible_of_mem_oldest hfirst⟩

theorem mem_removeEligibleRows {row : α} (hrow : row ∈ rows) (h : eligible row = false) :
    row ∈ removeEligibleRows eligible orderBy n rows :=
  List.mem_filter.mpr ⟨hrow, by simp [h]⟩

theorem not_eligible_of_remove (hn : 1 ≤ n) (h : removeEligibleRows eligible orderBy n rows = rows) :
    ∀ row ∈ rows, eligible row = false := by
  intro row hrow
  by_contra heligible
  obtain ⟨_, hfirst, hmem, hfirstok⟩ := exists_selected hn hrow heligible
  rw [← h] at hmem
  have hkept := (List.mem_filter.mp hmem).2
  rw [List.contains_iff_mem.mpr hfirst, hfirstok] at hkept
  exact absurd hkept (by decide)

theorem mem_updateEligibleRows {f : α → α} {row : α} (hrow : row ∈ rows) (h : eligible row = false) :
    row ∈ updateEligibleRows eligible orderBy n f rows := by
  refine List.mem_map.mpr ⟨row, hrow, if_neg fun hcontains => ?_⟩
  have := (eligible_of_mem_oldest (List.contains_iff_mem.mp hcontains)).2
  rw [h] at this
  cases this

theorem not_eligible_of_update {f : α → α} (hf : ∀ row, eligible row = true → f row ≠ row) (hn : 1 ≤ n)
    (h : updateEligibleRows eligible orderBy n f rows = rows) : ∀ row ∈ rows, eligible row = false := by
  intro row hrow
  by_contra heligible
  obtain ⟨first, hfirst, hmem, hfirstok⟩ := exists_selected hn hrow heligible
  have hsame := eq_of_map_eq h first hmem
  rw [if_pos (List.contains_iff_mem.mpr hfirst)] at hsame
  exact hf first hfirstok hsame

omit [DecidableEq α] in
theorem filter_eq_or_length_lt (p : α → Bool) (rows : List α) : rows.filter p = rows ∨ (rows.filter p).length < rows.length := by
  rcases (List.length_filter_le p rows).lt_or_eq with hless | hsame
  · exact .inr hless
  · exact .inl (List.filter_sublist.eq_of_length hsame)

theorem removeEligibleRows_eq_or_lt (eligible : α → Bool) (orderBy : α → Int) (n : Nat) (rows : List α) :
    removeEligibleRows eligible orderBy n rows = rows ∨ (removeEligibleRows eligible orderBy n rows).length < rows.length :=
  filter_eq_or_length_lt _ rows

end Rows

/-! ### Every step shrinks the tables -/

/-- An open pair is given up and then retired. -/
def weight (run : PairRun) : Nat :=
  match run.status with
  | .opened => 3
  | .orphan => 2
  | .closed => 1

def size (t : Tables) : Nat :=
  t.events.length + t.traces.length + t.links.length + t.sessions.length + (t.pairs.map weight).sum

theorem shrinks_update {eligible : PairRun → Bool} {orderBy : PairRun → Int} {n : Nat} {f : PairRun → PairRun}
    (h : ∀ run, eligible run = true → weight (f run) < weight run) :
    Shrinks size fun t => { t with pairs := updateEligibleRows eligible orderBy n f t.pairs } := by
  intro t
  have hrow : ∀ run, (if (oldest orderBy n (t.pairs.filter eligible)).contains run then f run else run) = run ∨
      weight (if (oldest orderBy n (t.pairs.filter eligible)).contains run then f run else run) < weight run := by
    intro run
    split
    case isTrue hcontains => exact .inr (h run (eligible_of_mem_oldest (List.contains_iff_mem.mp hcontains)).2)
    case isFalse => exact .inl rfl
  rcases map_eq_or_sum_lt hrow t.pairs with hsame | hless
  · exact .inl (congrArg (fun pairs => { t with pairs := pairs }) hsame)
  · exact .inr (Nat.add_lt_add_left hless _)

theorem weight_pos (run : PairRun) : 0 < weight run := by
  unfold weight
  split <;> decide

theorem shrinks_removePairs (now : Int) : Shrinks size (removePairs now) := by
  intro t
  rcases filter_eq_or_sum_lt weight_pos _ t.pairs with hsame | hless
  · exact .inl (congrArg (fun pairs => { t with pairs := pairs }) hsame)
  · exact .inr (Nat.add_lt_add_left hless _)

theorem shrinks_links (eligible : Tables → TraceLink → Bool) (orderBy : TraceLink → Int) (n : Nat) :
    Shrinks size fun t => { t with links := removeEligibleRows (eligible t) orderBy n t.links } := by
  intro t
  rcases removeEligibleRows_eq_or_lt (eligible t) orderBy n t.links with hsame | hless
  · exact .inl (congrArg (fun links => { t with links := links }) hsame)
  · exact .inr (by simp only [size]; omega)

theorem shrinks_removeEvents (now : Int) (n : Nat) : Shrinks size (removeEvents now n) := by
  intro t
  rcases removeEligibleRows_eq_or_lt (fun event => event.timestamp < now - 5 * dayMs && !event.isApproval &&
    !t.isReferenced event) StoredEvent.timestamp n t.events with hsame | hless
  · exact .inl (congrArg (fun events => { t with events := events }) hsame)
  · exact .inr (by simp only [size, removeEvents]; omega)

theorem shrinks_removeTraces (n : Nat) : Shrinks size (removeTraces n) := by
  intro t
  rcases removeEligibleRows_eq_or_lt (fun trace => !t.hasEvent trace.eventId) (fun trace => (trace.eventId : Int)) n
    t.traces with hsame | hless
  · exact .inl (congrArg (fun traces => { t with traces := traces }) hsame)
  · exact .inr (by simp only [size, removeTraces]; omega)

theorem shrinks_removeRetiredSessions (now : Int) (n : Nat) : Shrinks size (removeRetiredSessions now n) := by
  intro t
  rcases filter_eq_or_length_lt _ t.sessions with hsame | hless
  · exact .inl (congrArg (fun sessions => { t with sessions := sessions }) hsame)
  · exact .inr (by simp only [size, removeRetiredSessions]; omega)

theorem shrinks_passSteps (now : Int) (n : Nat) : ∀ step ∈ passSteps now n, Shrinks size step := by
  have horphan : Shrinks size (orphanPairs now n) := by
    refine shrinks_update fun run heligible => ?_
    simp only [Bool.and_eq_true, beq_iff_eq] at heligible
    simp [weight, orphaned, heligible.1]
  have hretire : Shrinks size (retireOrphans now n) := by
    refine shrinks_update fun run heligible => ?_
    simp only [Bool.and_eq_true, beq_iff_eq] at heligible
    simp [weight, retired, heligible.1.1]
  have hexpired : Shrinks size (removeExpiredLinks now n) := shrinks_links _ _ n
  have horphaned : Shrinks size (removeOrphanedLinks n) := shrinks_links _ _ n
  simp only [passSteps, List.forall_mem_cons]
  exact ⟨horphan, hretire, shrinks_removePairs now, hexpired, shrinks_removeEvents now n, shrinks_removeTraces n, horphaned,
    shrinks_removeRetiredSessions now n, fun _ h => absurd h List.not_mem_nil⟩

/-! ### Obligations -/

namespace Tables

variable {t t' : Tables} {now : Int} {event : StoredEvent}

/-- The live obligations: a durable approval outcome, a pair that is open and not overdue, a running or idle session, a
pending admission, and an unfinished input. -/
inductive Obliged (t : Tables) (now : Int) (event : StoredEvent) : Prop where
  | approval (h : event.isApproval = true)
  | pair (run : PairRun) (hrun : run ∈ t.pairs) (hevent : run.openEventId = event.id) (hopen : run.status = .opened)
      (hdue : now ≤ run.expectedCloseAt)
  | session (session : StoredSession) (hsession : session ∈ t.sessions) (hlive : session.status.isLive = true)
      (hevent : event.sessionId = some session.sessionId)
  | plan (h : event.id ∈ t.pendingPlans)
  | input (h : event.id ∈ t.openInputs)
  | admission (h : event.appAdmissionPending = true)

/-- The events that obligations keep: those they are for, their ancestors and the partners of their links. -/
inductive Retained (t : Tables) (now : Int) : Nat → Prop where
  | obliged {event : StoredEvent} (hevent : event ∈ t.events) (h : t.Obliged now event) : Retained t now event.id
  | ancestor {trace : TraceRow} {id : Nat} (htrace : trace ∈ t.traces) (hparent : trace.parentEventId = some id)
      (h : Retained t now trace.eventId) : Retained t now id
  | partner {link : TraceLink} (hlink : link ∈ t.links) (h : Retained t now link.fromEventId) : Retained t now link.toEventId
  | partnerOf {link : TraceLink} (hlink : link ∈ t.links) (h : Retained t now link.toEventId) : Retained t now link.fromEventId

/-- Nothing is left that could be released. -/
structure Released (t : Tables) (now : Int) : Prop where
  events : ∀ event ∈ t.events, t.Retained now event.id
  traces : ∀ trace ∈ t.traces, t.Retained now trace.eventId
  links : ∀ link ∈ t.links, t.Retained now link.fromEventId ∧ t.Retained now link.toEventId
  sessions : ∀ session ∈ t.sessions, session.status.isLive = true ∨ t.sessionDirectoryIsActive session.sessionId = true

theorem Obliged.isReferenced (h : t.Obliged now event) : event.isApproval = true ∨ t.isReferenced event = true := by
  cases h with
  | approval h => exact .inl h
  | pair run hrun hevent hopen =>
    have hpair : t.hasPair event.id = true := List.any_eq_true.mpr ⟨run, hrun, by simp [hevent, isUnsettled, hopen]⟩
    exact .inr (by simp [Tables.isReferenced, hpair])
  | session session hsession hlive hevent =>
    have hany : (t.sessions.any fun session => session.status.isLive && event.sessionId == some session.sessionId) = true :=
      List.any_eq_true.mpr ⟨session, hsession, by simp [hlive, hevent]⟩
    exact .inr (by simp only [Tables.isReferenced, hany, Bool.or_true, Bool.true_or])
  | plan h => exact .inr (by simp [Tables.isReferenced, h])
  | input h => exact .inr (by simp [Tables.isReferenced, h])
  | admission h => exact .inr (by simp [Tables.isReferenced, h])

theorem Obliged.congr (h : t.Obliged now event)
    (hpairs : ∀ run ∈ t.pairs, run.status = .opened → now ≤ run.expectedCloseAt → run ∈ t'.pairs)
    (hsessions : ∀ session ∈ t.sessions, session.status.isLive = true → session ∈ t'.sessions)
    (hplans : t'.pendingPlans = t.pendingPlans) (hinputs : t'.openInputs = t.openInputs) : t'.Obliged now event := by
  cases h with
  | approval h => exact .approval h
  | pair run hrun hevent hopen hdue => exact .pair run (hpairs run hrun hopen hdue) hevent hopen hdue
  | session session hsession hlive hevent => exact .session session (hsessions session hsession hlive) hlive hevent
  | plan h => exact .plan (hplans ▸ h)
  | input h => exact .input (hinputs ▸ h)
  | admission h => exact .admission h

/-- An event with a live obligation. -/
def Holds (t : Tables) (now : Int) (event : StoredEvent) : Prop := event ∈ t.events ∧ t.Obliged now event

theorem Holds.step (h : t.Holds now event) (n : Nat) : ∀ step ∈ passSteps now n, (step t).Holds now event := by
  obtain ⟨hevent, hobliged⟩ := h
  have hframe : ∀ (traces : List TraceRow) (links : List TraceLink),
      Holds { t with traces := traces, links := links } now event := fun traces links =>
    ⟨hevent, hobliged.congr (fun _ hrun _ _ => hrun) (fun _ hsession _ => hsession) rfl rfl⟩
  have hpairs : ∀ pairs : List PairRun,
      (∀ run ∈ t.pairs, run.status = .opened → now ≤ run.expectedCloseAt → run ∈ pairs) →
      Holds { t with pairs := pairs } now event := fun pairs hkept =>
    ⟨hevent, hobliged.congr hkept (fun _ hsession _ => hsession) rfl rfl⟩
  simp only [passSteps, List.forall_mem_cons]
  refine ⟨?_, ?_, ?_, hframe _ _, ?_, hframe _ _, hframe _ _, ?_, fun _ h => absurd h List.not_mem_nil⟩
  · refine hpairs _ fun run hrun _ hdue => mem_updateEligibleRows hrun ?_
    simp [hdue]
  · refine hpairs _ fun run hrun hopen _ => mem_updateEligibleRows hrun ?_
    simp [hopen]
  · refine hpairs _ fun run hrun hopen _ => mem_removeEligibleRows hrun ?_
    simp [hopen]
  · refine ⟨mem_removeEligibleRows hevent ?_, hobliged.congr (fun _ hrun _ _ => hrun) (fun _ hsession _ => hsession) rfl rfl⟩
    rcases hobliged.isReferenced with h | h <;> simp [h]
  · refine ⟨hevent, hobliged.congr (fun _ hrun _ _ => hrun) (fun session hsession hlive => ?_) rfl rfl⟩
    exact List.mem_filter.mpr ⟨hsession, by simp [StoredSession.isRetired, hlive]⟩

theorem Holds.pass (h : t.Holds now event) (batchSize : Nat) : (runDbMaintenancePass now batchSize t).Holds now event :=
  runSteps_invariant (I := fun t : Tables => t.Holds now event) (fun step hstep _ ht => ht.step _ step hstep) h

theorem young_pass (hevent : event ∈ t.events) (hyoung : now - 5 * dayMs ≤ event.timestamp) (batchSize : Nat) :
    event ∈ (runDbMaintenancePass now batchSize t).events := by
  refine runSteps_invariant (I := fun t : Tables => event ∈ t.events) (fun step hstep t hmem => ?_) hevent
  have hkept : event ∈ (removeEvents now (effectiveBatchSize batchSize) t).events :=
    mem_removeEligibleRows hmem (by simp [hyoung])
  simp only [passSteps, List.mem_cons, List.not_mem_nil, or_false] at hstep
  rcases hstep with rfl | rfl | rfl | rfl | rfl | rfl | rfl | rfl
  case inr.inr.inr.inr.inl => exact hkept
  all_goals exact hmem

/-! ### What stays during passes -/

/-- Rows were only removed, and pairs settled. -/
structure Within (t' t : Tables) : Prop where
  events : t'.events ⊆ t.events
  traces : t'.traces ⊆ t.traces
  links : t'.links ⊆ t.links
  sessions : t'.sessions.Sublist t.sessions
  directories : t'.activeDirectories = t.activeDirectories
  pairs : ∀ run ∈ t'.pairs, ∃ run₀ ∈ t.pairs, run₀.openedAt = run.openedAt

theorem Within.refl (t : Tables) : t.Within t :=
  ⟨List.Subset.refl _, List.Subset.refl _, List.Subset.refl _, List.Sublist.refl _, rfl, fun run hrun => ⟨run, hrun, rfl⟩⟩

theorem Within.trans {t'' : Tables} (h' : t''.Within t') (h : t'.Within t) : t''.Within t := by
  refine ⟨List.Subset.trans h'.events h.events, List.Subset.trans h'.traces h.traces, List.Subset.trans h'.links h.links,
    h'.sessions.trans h.sessions, h'.directories.trans h.directories, fun run hrun => ?_⟩
  obtain ⟨run₁, hrun₁, heq₁⟩ := h'.pairs run hrun
  obtain ⟨run₀, hrun₀, heq₀⟩ := h.pairs run₁ hrun₁
  exact ⟨run₀, hrun₀, heq₀.trans heq₁⟩

theorem within_step (t : Tables) (now : Int) (n : Nat) : ∀ step ∈ passSteps now n, (step t).Within t := by
  have hpairs : ∀ pairs : List PairRun, (∀ run ∈ pairs, ∃ run₀ ∈ t.pairs, run₀.openedAt = run.openedAt) →
      Within { t with pairs := pairs } t := fun pairs h => { Within.refl t with pairs := h }
  have hupdated : ∀ (eligible : PairRun → Bool) (orderBy : PairRun → Int) (f : PairRun → PairRun),
      (∀ run, (f run).openedAt = run.openedAt) →
      Within { t with pairs := updateEligibleRows eligible orderBy n f t.pairs } t := by
    intro eligible orderBy f hf
    refine hpairs _ fun run hrun => ?_
    obtain ⟨run₀, hrun₀, rfl⟩ := List.mem_map.mp hrun
    refine ⟨run₀, hrun₀, ?_⟩
    split
    · exact (hf run₀).symm
    · rfl
  have hlinks : ∀ (eligible : TraceLink → Bool) (orderBy : TraceLink → Int),
      Within { t with links := removeEligibleRows eligible orderBy n t.links } t := fun _ _ =>
    { Within.refl t with links := List.filter_sublist.subset }
  simp only [passSteps, List.forall_mem_cons]
  refine ⟨hupdated _ _ _ fun _ => rfl, hupdated _ _ _ fun _ => rfl, ?_, hlinks _ _, ?_, ?_, hlinks _ _, ?_,
    fun _ h => absurd h List.not_mem_nil⟩
  · exact hpairs _ fun run hrun => ⟨run, (List.mem_filter.mp hrun).1, rfl⟩
  · exact { Within.refl t with events := List.filter_sublist.subset }
  · exact { Within.refl t with traces := List.filter_sublist.subset }
  · exact { Within.refl t with sessions := List.filter_sublist }

theorem within_passes (now : Int) (batchSize m : Nat) (t : Tables) :
    ((runDbMaintenancePass now batchSize)^[m] t).Within t := by
  induction m with
  | zero => exact .refl t
  | succ m ih =>
    rw [Function.iterate_succ_apply']
    exact runSteps_invariant (I := fun t' : Tables => t'.Within t)
      (fun step hstep t' ht' => (within_step t' now _ step hstep).trans ht') ih

/-- The clock is after all windows. -/
structure Expired (t : Tables) (now : Int) : Prop where
  events : ∀ event ∈ t.events, event.timestamp < now - 5 * dayMs
  links : ∀ link ∈ t.links, link.createdAt < now - 5 * dayMs
  pairs : ∀ run ∈ t.pairs, run.openedAt < now - 3 * dayMs
  sessions : ∀ session ∈ t.sessions, session.startedAt < now - 14 * dayMs

def Ordered (t : Tables) : Prop := ∀ trace ∈ t.traces, ∀ parent, trace.parentEventId = some parent → parent < trace.eventId

def detained (t : Tables) (now : Int) : List StoredSession :=
  (t.sessions.filter (StoredSession.isRetired (now - 14 * dayMs))).filter fun session =>
    t.sessionDirectoryIsActive session.sessionId

theorem Within.expired (h : t'.Within t) (hexpired : t.Expired now) : t'.Expired now := by
  refine ⟨fun event hevent => hexpired.events event (h.events hevent), fun link hlink => hexpired.links link (h.links hlink),
    fun run hrun => ?_, fun session hsession => hexpired.sessions session (h.sessions.subset hsession)⟩
  obtain ⟨run₀, hrun₀, heq⟩ := h.pairs run hrun
  exact heq ▸ hexpired.pairs run₀ hrun₀

theorem Within.detained_le (h : t'.Within t) : (t'.detained now).length ≤ (t.detained now).length := by
  have hactive : (fun session : StoredSession => t'.sessionDirectoryIsActive session.sessionId) =
      fun session => t.sessionDirectoryIsActive session.sessionId := by
    funext session
    simp only [References.sessionDirectoryIsActive, h.directories]
  unfold detained
  rw [hactive]
  exact ((h.sessions.filter _).filter _).length_le

/-! ### Tables that a pass leaves -/

theorem fixed_step {n : Nat} (hfixed : MayAgent.runSteps (passSteps now n) t = t) : ∀ step ∈ passSteps now n, step t = t :=
  eq_of_runSteps_eq (shrinks_passSteps now n) hfixed

section Fixed

variable {n : Nat} (hn : 1 ≤ n) (hexpired : t.Expired now) (hfixed : ∀ step ∈ passSteps now n, step t = t)

include hn hexpired hfixed

theorem open_of_fixed {run : PairRun} (hrun : run ∈ t.pairs) : run.status = .opened ∧ now ≤ run.expectedCloseAt := by
  have horphan : orphanPairs now n t = t := hfixed _ (by simp [passSteps])
  have hremove : removePairs now t = t := hfixed _ (by simp [passSteps])
  have hstatus : run.status = .opened := by
    have := not_eligible_of_remove (by decide) (congrArg Tables.pairs hremove) run hrun
    simpa [hexpired.pairs run hrun] using this
  have hchanges : ∀ run : PairRun, (run.status == .opened && decide (run.expectedCloseAt < now)) = true →
      orphaned run ≠ run := by
    intro run heligible hsame
    simp only [Bool.and_eq_true, beq_iff_eq] at heligible
    have hboth := congrArg PairRun.status hsame
    rw [heligible.1] at hboth
    cases hboth
  have hdue := not_eligible_of_update hchanges hn (congrArg Tables.pairs horphan) run hrun
  exact ⟨hstatus, by simpa [hstatus] using hdue⟩

theorem retained_of_hasPair {id : Nat} (hevent : t.hasEvent id = true) (hpair : t.hasPair id = true) : t.Retained now id := by
  obtain ⟨event, hmem, hid⟩ := List.any_eq_true.mp hevent
  obtain ⟨run, hrun, hopens⟩ := List.any_eq_true.mp hpair
  simp only [Bool.and_eq_true, beq_iff_eq] at hopens hid
  obtain ⟨hopen, hdue⟩ := open_of_fixed hn hexpired hfixed hrun
  have hobliged : t.Obliged now event := .pair run hrun (hopens.1.trans hid.symm) hopen hdue
  exact hid ▸ .obliged hmem hobliged

theorem retained_link {link : TraceLink} (hlink : link ∈ t.links) :
    t.Retained now link.fromEventId ∧ t.Retained now link.toEventId := by
  have hlinks : removeExpiredLinks now n t = t := hfixed _ (by simp [passSteps])
  have horphaned : removeOrphanedLinks n t = t := hfixed _ (by simp [passSteps])
  have hends := not_eligible_of_remove hn (congrArg (fun t : Tables => t.links) horphaned) link hlink
  simp only [Bool.or_eq_false_iff, Bool.not_eq_false'] at hends
  have hexpiredEnd : ∀ {id : Nat}, t.hasEvent id = true → t.isExpired (now - 5 * dayMs) id = true := by
    intro id hevent
    obtain ⟨event, hmem, hid⟩ := List.any_eq_true.mp hevent
    exact List.any_eq_true.mpr ⟨event, hmem, by simpa [hid] using hexpired.events event hmem⟩
  have hkept := not_eligible_of_remove hn (congrArg (fun t : Tables => t.links) hlinks) link hlink
  simp only [hexpired.links link hlink, hexpiredEnd hends.1, hexpiredEnd hends.2, decide_true, Bool.true_and,
    Bool.not_eq_false', Bool.or_eq_true] at hkept
  rcases hkept with hpair | hpair
  · have hfrom := retained_of_hasPair hn hexpired hfixed hends.1 hpair
    exact ⟨hfrom, .partner hlink hfrom⟩
  · have hto := retained_of_hasPair hn hexpired hfixed hends.2 hpair
    exact ⟨.partnerOf hlink hto, hto⟩

omit hexpired in
theorem hasEvent_trace {trace : TraceRow} (htrace : trace ∈ t.traces) : t.hasEvent trace.eventId = true := by
  have htraces : removeTraces n t = t := hfixed _ (by simp [passSteps])
  simpa using not_eligible_of_remove hn (congrArg (fun t : Tables => t.traces) htraces) trace htrace

omit hn hexpired hfixed in
theorem exists_bound (traces : List TraceRow) : ∃ bound, ∀ trace ∈ traces, trace.eventId < bound := by
  induction traces with
  | nil => exact ⟨0, fun _ h => absurd h List.not_mem_nil⟩
  | cons first _ ih =>
    obtain ⟨bound, hbound⟩ := ih
    refine ⟨bound + first.eventId + 1, fun trace htrace => ?_⟩
    rcases List.mem_cons.mp htrace with rfl | htrace
    · omega
    · have := hbound trace htrace
      omega

theorem retained_or_child {event : StoredEvent} (hevent : event ∈ t.events) : t.Retained now event.id ∨
    ∃ trace ∈ t.traces, trace.parentEventId = some event.id ∧ trace.eventId ≠ event.id := by
  have hremove : removeEvents now n t = t := hfixed _ (by simp [passSteps])
  have hkept := not_eligible_of_remove hn (congrArg Tables.events hremove) event hevent
  simp only [hexpired.events event hevent, decide_true, Bool.true_and, Bool.and_eq_false_iff, Bool.not_eq_false',
    isReferenced, Bool.or_eq_true] at hkept
  have hthere : t.hasEvent event.id = true := List.any_eq_true.mpr ⟨event, hevent, beq_self_eq_true _⟩
  rcases hkept with happroval | (((((hpair | htrace) | hlink) | hsession) | hplan) | hinput) | hadmission
  · exact .inl (.obliged hevent (.approval happroval))
  · exact .inl (retained_of_hasPair hn hexpired hfixed hthere hpair)
  · obtain ⟨trace, hmem, hchild⟩ := List.any_eq_true.mp htrace
    simp only [Bool.and_eq_true, beq_iff_eq, bne_iff_ne] at hchild
    exact .inr ⟨trace, hmem, hchild⟩
  · obtain ⟨_, hmem, hends⟩ := List.any_eq_true.mp hlink
    have hretained := retained_link hn hexpired hfixed hmem
    simp only [Bool.or_eq_true, beq_iff_eq] at hends
    rcases hends with hfrom | hto
    · exact .inl (hfrom ▸ hretained.1)
    · exact .inl (hto ▸ hretained.2)
  · obtain ⟨session, hmem, hlive⟩ := List.any_eq_true.mp hsession
    simp only [Bool.and_eq_true, beq_iff_eq] at hlive
    exact .inl (.obliged hevent (.session session hmem hlive.1 hlive.2))
  · exact .inl (.obliged hevent (.plan (List.contains_iff_mem.mp hplan)))
  · exact .inl (.obliged hevent (.input (List.contains_iff_mem.mp hinput)))
  · exact .inl (.obliged hevent (.admission hadmission))

theorem retained_event (hordered : t.Ordered) {event : StoredEvent} (hevent : event ∈ t.events) :
    t.Retained now event.id := by
  -- A child is a younger event, so the induction is on the number of younger ids that traces name.
  obtain ⟨bound, hbound⟩ := exists_bound t.traces
  induction hfar : bound - event.id using Nat.strong_induction_on generalizing event with
  | _ _ ih =>
    rcases retained_or_child hn hexpired hfixed hevent with hretained | ⟨trace, htrace, hparent, -⟩
    · exact hretained
    · obtain ⟨child, hchild, hid⟩ := List.any_eq_true.mp (hasEvent_trace hn hfixed htrace)
      have hid : child.id = trace.eventId := by simpa using hid
      have hyounger : event.id < trace.eventId := hordered trace htrace event.id hparent
      have hbelow := hbound trace htrace
      have hretained := ih (bound - child.id) (by omega) hchild rfl
      exact .ancestor htrace hparent (hid ▸ hretained)

omit hn in
theorem session_of_fixed (hfew : (t.detained now).length < n) {session : StoredSession} (hsession : session ∈ t.sessions) :
    session.status.isLive = true ∨ t.sessionDirectoryIsActive session.sessionId = true := by
  by_contra hnone
  rw [not_or, Bool.not_eq_true, Bool.not_eq_true] at hnone
  have hfilter : (removeRetiredSessions now n t).sessions = t.sessions := by
    rw [hfixed (removeRetiredSessions now n) (by simp [passSteps])]
  have hretired : session ∈ t.sessions.filter (StoredSession.isRetired (now - 14 * dayMs)) :=
    List.mem_filter.mpr ⟨hsession, by simp [StoredSession.isRetired, hexpired.sessions session hsession, hnone.1]⟩
  obtain ⟨first, hfirst, hinactive⟩ : ∃ first ∈ oldest StoredSession.startedAt n
      (t.sessions.filter (StoredSession.isRetired (now - 14 * dayMs))), t.sessionDirectoryIsActive first.sessionId = false :=
    exists_mem_oldest_not hfew hretired hnone.2
  obtain ⟨hmem, hfirstretired⟩ := List.mem_filter.mp (mem_of_mem_oldest hfirst)
  rw [← hfilter] at hmem
  have hkept := (List.mem_filter.mp hmem).2
  have hchosen : first.sessionId ∈ (((oldest StoredSession.startedAt n
      (t.sessions.filter (StoredSession.isRetired (now - 14 * dayMs)))).filter fun session =>
        !t.sessionDirectoryIsActive session.sessionId).map StoredSession.sessionId) :=
    List.mem_map_of_mem (List.mem_filter.mpr ⟨hfirst, by simp [hinactive]⟩)
  rw [List.contains_iff_mem.mpr hchosen, hfirstretired] at hkept
  exact absurd hkept (by decide)

end Fixed

/-- A pass deletes no event with a live obligation. If the parents of traces are older events, everything has expired, and
fewer retired sessions have an active directory than fit into a batch, then from some pass on nothing is left that could
be released. -/
theorem retention_releases (now : Int) (batchSize : Nat) (t : Tables) :
    (∀ event ∈ t.events, t.Obliged now event → event ∈ (runDbMaintenancePass now batchSize t).events) ∧
      (t.Ordered → t.Expired now → (t.detained now).length < effectiveBatchSize batchSize →
        ∃ n, ∀ m, n ≤ m → ((runDbMaintenancePass now batchSize)^[m] t).Released now) := by
  refine ⟨fun event hevent hobliged => (Holds.pass ⟨hevent, hobliged⟩ batchSize).1, fun hordered hexpired hfew => ?_⟩
  have hn : 1 ≤ effectiveBatchSize batchSize := Nat.le_max_left 1 _
  obtain ⟨n, hsettled⟩ := (Shrinks.runSteps (shrinks_passSteps now (effectiveBatchSize batchSize))).settles t
  refine ⟨n, fun m hm => ?_⟩
  have hwithin := within_passes now batchSize m t
  have hexpired' := hwithin.expired hexpired
  have hfixed := fixed_step (hsettled m hm)
  have hordered' : ((runDbMaintenancePass now batchSize)^[m] t).Ordered := fun trace htrace =>
    hordered trace (hwithin.traces htrace)
  have hevents : ∀ event ∈ ((runDbMaintenancePass now batchSize)^[m] t).events, _ := fun event hevent =>
    retained_event hn hexpired' hfixed hordered' hevent
  refine ⟨hevents, fun trace htrace => ?_, fun link hlink => retained_link hn hexpired' hfixed hlink, fun session hsession => ?_⟩
  · obtain ⟨event, hevent, hid⟩ := List.any_eq_true.mp (hasEvent_trace hn hfixed htrace)
    have hid : event.id = trace.eventId := by simpa using hid
    exact hid ▸ hevents event hevent
  · exact session_of_fixed hexpired' hfixed (hwithin.detained_le.trans_lt hfew) hsession

end Tables

end Retention

namespace Sample.Retention

open MayAgent.Retention

def abandoned : Tables where
  events := []
  traces := []
  links := []
  pairs := []
  sessions := [⟨"crashed", .interrupted, 0⟩, ⟨"done", .done, 1⟩]
  pendingPlans := []
  openInputs := []
  activeDirectories := ["crashed"]

def traced : Tables where
  events := [⟨1, "report.ready", none, 0, false⟩, ⟨2, "report.read", none, 1, false⟩]
  traces := [⟨1, none⟩, ⟨2, some 1⟩]
  links := []
  pairs := []
  sessions := []
  pendingPlans := []
  openInputs := []
  activeDirectories := []

def later : Int := 20 * dayMs

theorem ordered_traced : traced.Ordered := by
  intro trace htrace parent hparent
  rcases List.mem_cons.mp htrace with rfl | htrace
  · cases hparent
  · rw [List.mem_singleton.mp htrace] at hparent ⊢
    cases hparent
    exact Nat.one_lt_two

end Sample.Retention

open Sample.Retention Retention in
theorem Retention.Tables.retention_releases_traced :
    ∃ n, ∀ m, n ≤ m → ((runDbMaintenancePass later 1)^[m] traced).Released later :=
  (Tables.retention_releases later 1 traced).2 ordered_traced
    ⟨by decide, by decide, by decide, by decide⟩ (by decide)

open Sample.Retention Retention in
/-- With batches of one session no pass removes the younger session. -/
theorem Retention.sessions_starved :
    abandoned.Ordered ∧ abandoned.Expired later ∧
      ∀ n, (runDbMaintenancePass later 1)^[n] abandoned = abandoned ∧ ¬abandoned.Released later := by
  refine ⟨fun _ h => absurd h List.not_mem_nil, ⟨by decide, by decide, by decide, by decide⟩, fun n => ⟨?_, fun hreleased => ?_⟩⟩
  · have hsame : runDbMaintenancePass later 1 abandoned = abandoned := by decide
    exact Function.iterate_fixed hsame n
  · have hdone := hreleased.sessions ⟨"done", .done, 1⟩ (by decide)
    exact absurd hdone (by decide)

end MayAgent
