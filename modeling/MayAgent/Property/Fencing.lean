import MayAgent.Proof.Histories

/-!
# Fenced updates

A commit compares the version of a Task, not its content. It overwrites exactly what it read as long as
every write of a Task or of its pending trigger raises the version. One writer does not: a deferral hands
the events pending on its own Task to other Tasks it read, and writes their triggers at the version they
have. Without such a hand-over no update is lost; with it a concurrent write erases the event.
-/

namespace MayAgent

/-- A call that hands no event on: no event pending on a deferred Task can wake another Task that the
deferral reads. -/
def Landing.ForwardsNothing (landing : Landing) : Prop :=
  ∀ claim input r tr, landing.call = .defer claim input → landing.reads.snapshot.task claim.taskId = some (r, tr) →
    ∀ entry ∈ pendingTriggerEvents tr, ∀ k ∈ landing.reads.snapshot.contextTaskIds (input.scope claim),
      k ≠ claim.taskId → ∀ r' tr', landing.reads.snapshot.task k = some (r', tr') → ¬ r'.WokenBy entry.event

def Action.ForwardsNothing : Action → Prop
  | .call landing => landing.ForwardsNothing
  | _ => True

abbrev Store.Fenced (o s : Store) : Prop := Versioned Store.task (fun x => x.1.metadata.resourceVersion) o s

theorem Store.Bumps.fenced {s s' : Store} (h : s.Bumps s') : s.Fenced s' := by
  rintro k ⟨r, _⟩ hr
  obtain ⟨_, _, hr', ⟨rfl, rfl⟩ | rfl⟩ := h.after hr
  · exact ⟨_, hr', le_refl _, fun _ => rfl⟩
  · exact ⟨_, hr', Nat.le_succ _, fun heq => absurd heq (Nat.succ_ne_self _)⟩

theorem Aside.fenced {now : Int} {call : Call} {reads : Reads} {r r' : Resource} {tr tr' : Option Trigger}
    (h : Aside now call reads r tr r' tr') (hquiet : ∀ e, call.Forwards reads r.metadata.id e → ¬ r.WokenBy e) :
    r.metadata.resourceVersion < r'.metadata.resourceVersion ∨ (r', tr') = (r, tr) := by
  obtain ⟨unblock, wakes, _, hwakes, _, hwoken⟩ := h
  cases unblock with
  | some => exact .inl (Nat.lt_succ_self r.metadata.resourceVersion)
  | none =>
    have hnone : wakes = [] := by
      rw [List.eq_nil_iff_forall_not_mem]
      exact fun e he => hquiet e (hwakes e he) (hwoken e he)
    subst hnone
    exact .inr rfl

namespace Landed

variable {ctx : Context} {now : Int} {call : Call} {reads : Reads} {s : Store} {m : Mutation}

theorem overwrites_read (h : Landed ctx now call reads s m) (hfenced : reads.snapshot.Fenced s) {w : TaskWrite}
    (hw : w ∈ m.tasks) {x : Resource × Option Trigger} (hx : s.task w.resource.metadata.id = some x) :
    reads.snapshot.task w.resource.metadata.id = some x := by
  rcases h.lawful.task w hw with ⟨r, _, hr, hfence, -⟩ | ⟨hmissing, -, -⟩
  · obtain ⟨_, hstored⟩ := (h.found hr hfence (h.snapshot.taskId _ _ _ hr) rfl).stored
    rw [hx] at hstored
    cases hstored
    rw [hfenced.fenced hr hx rfl, hr]
  · rw [Store.task, h.accepts.missing _ hmissing, Option.map_none] at hx
    cases hx

theorem fenced (h : Landed ctx now call reads s m) (landedAt : Int) (hfenced : reads.snapshot.Fenced s)
    (hquiet : ∀ k r tr e, reads.snapshot.task k = some (r, tr) → call.Forwards reads k e → ¬ r.WokenBy e) :
    s.Fenced (s.applyMutation landedAt m) := by
  intro k x hx
  rcases Store.task_applyMutation_cases landedAt s m k with ⟨w, hw, hwid, htask⟩ | ⟨-, htask⟩
  · subst hwid
    have hread := h.overwrites_read hfenced hw hx
    rcases h.lawful.task w hw with ⟨r, tr, hr, -, hwrite⟩ | ⟨hmissing, -, -⟩
    · rw [hread] at hr
      cases hr
      have hraised : r.metadata.resourceVersion < w.resource.metadata.resourceVersion ∨
          (w.resource, w.trigger) = (r, tr) := by
        rcases hwrite with hchange | ⟨-, haside⟩
        · rcases hchange.bumps with hlt | ⟨hresource, htrigger, -⟩
          · exact .inl hlt
          · exact .inr (by rw [hresource, htrigger])
        · refine haside.fenced fun e he => hquiet _ r tr e ?_ he
          rw [h.snapshot.taskId _ _ _ hread, hread]
      refine ⟨_, htask, ?_⟩
      rcases hraised with hlt | heq
      · exact ⟨le_of_lt hlt, fun hversion => absurd hversion (ne_of_gt hlt)⟩
      · rw [heq]
        exact ⟨le_refl _, fun _ => rfl⟩
    · rw [Store.task, h.accepts.missing _ hmissing, Option.map_none] at hx
      cases hx
  · exact ⟨x, htask.trans hx, le_refl _, fun _ => rfl⟩

end Landed

theorem Landing.ForwardsNothing.quiet {landing : Landing} (h : landing.ForwardsNothing) (k : String) (r : Resource)
    (tr : Option Trigger) (e : Event) (hr : landing.reads.snapshot.task k = some (r, tr))
    (hforwards : landing.call.Forwards landing.reads k e) : ¬ r.WokenBy e := by
  obtain ⟨claim, input, r₀, tr₀, hcall, hne, hcontext, hr₀, entry, hentry, rfl⟩ := hforwards
  exact h claim input r₀ tr₀ hcall hr₀ entry hentry k hcontext hne.symm r tr hr

/-- In a history whose calls forward nothing, Tasks and triggers change only with their version. -/
theorem History.fenced {h : List Store} (hrun : History (fun _ action => action.ForwardsNothing) h) :
    Ordered Store.Fenced h := by
  refine (Run.invariant (I := fun _ => True) (Versioned.refl _ _) (fun _ _ _ => Versioned.trans)
    (fun _ _ => trivial) ?_ hrun).2
  intro s past s' hpast _ hordered hstep
  refine ⟨trivial, ?_⟩
  obtain ⟨action, hquiet, -, hidle | ⟨_, _, _, _, _, -, -, hwake⟩ | ⟨_, m, rfl, -, hreads, hlanded, rfl⟩⟩ :=
    History.step_cases hpast hstep
  · exact hidle.bumps.fenced
  · exact (persistExactTaskWake_bumps hwake).fenced
  · refine hlanded.fenced _ ?_ (Landing.ForwardsNothing.quiet hquiet)
    exact hordered s past (List.suffix_refl _) _ hreads.snapshot_mem

/-! ### The property -/

/-- **No lost update.** In every history whose deferrals forward nothing: an accepted commit finds each
stored Task it overwrites, with its pending trigger, exactly as its mutation was computed from; and a Task
or trigger that differs from an earlier one has a higher version. -/
theorem no_lost_update {s : Store} {past : List Store}
    (hrun : History (fun _ action => action.ForwardsNothing) (s :: past)) :
    (∀ landing m s', (Action.call landing).Admissible s → landing.reads.Within (s :: past) →
      landing.effect = .commit m → s.commit landing.ctx landing.landedAt m = .ok s' →
      ∀ w ∈ m.tasks, ∀ x, s.task w.resource.metadata.id = some x →
        landing.reads.snapshot.task w.resource.metadata.id = some x) ∧
    Ordered (fun o s => ∀ k x x', o.task k = some x → s.task k = some x' → x' ≠ x →
      x.1.metadata.resourceVersion < x'.1.metadata.resourceVersion) (s :: past) := by
  have hfenced := History.fenced hrun
  obtain ⟨hsound, hlineage⟩ := History.sound hrun
  constructor
  · intro landing m s' hadmissible hreads heffect hcommit w hw x hx
    have hlanded := Landing.landed (hsound s List.mem_cons_self) (Reads.Within.past rfl hsound hlineage hreads) hadmissible
      heffect hcommit
    exact hlanded.overwrites_read (hfenced s past (List.suffix_refl _) _ hreads.snapshot_mem) hw hx
  · intro s' past' hsuffix o ho k x x' hx hx' hne
    obtain ⟨_, hx'', hle, hsame⟩ := hfenced s' past' hsuffix o ho k x hx
    rw [hx'] at hx''
    cases hx''
    exact lt_of_le_of_ne hle fun hversion => hne (hsame hversion.symm)

/-- The landing commits, and `p` holds of what it writes. -/
def Landing.writes (landing : Landing) (s : Store) (p : Mutation → Store → Bool) : Bool :=
  match landing.effect with
  | .commit m => (s.commit landing.ctx landing.landedAt m).toOption.any (p m)
  | _ => false

theorem Landing.writes_eq_true {landing : Landing} {s : Store} {p : Mutation → Store → Bool}
    (h : landing.writes s p = true) :
    ∃ m s', landing.effect = .commit m ∧ s.commit landing.ctx landing.landedAt m = .ok s' ∧ p m s' = true := by
  unfold Landing.writes at h
  split at h
  · rename_i m heffect
    cases hcommit : s.commit landing.ctx landing.landedAt m with
    | error =>
      rw [hcommit] at h
      cases h
    | ok s' =>
      rw [hcommit] at h
      exact ⟨m, s', heffect, hcommit, h⟩
  · cases h

/-- A second event recorded for the claimed Task of a small App overwrites the row it read. -/
theorem no_lost_update_recorded :
    ∃ past m s' w x, History (fun _ action => action.ForwardsNothing) (Sample.claimed :: past) ∧
      (Landing.alone Sample.context 3 (.record "a" (Sample.event 2)) Sample.claimed).effect = .commit m ∧
      Sample.claimed.commit Sample.context 3 m = .ok s' ∧ w ∈ m.tasks ∧
      Sample.claimed.task w.resource.metadata.id = some x ∧
      (Reads.now Sample.claimed).snapshot.task w.resource.metadata.id = some x := by
  obtain ⟨past, hrun⟩ := (Sample.claimed_reachable (@Sample.observed_reachable (fun _ action => action.ForwardsNothing)
    (by rintro _ _ _ _ ⟨⟩)) (by rintro _ _ _ _ ⟨⟩)).history
  obtain ⟨m, s', heffect, hcommit, hwrites⟩ := Landing.writes_eq_true (show (Landing.alone Sample.context 3
    (.record "a" (Sample.event 2)) Sample.claimed).writes Sample.claimed (fun m _ =>
      m.tasks.any fun w => (Sample.claimed.task w.resource.metadata.id).isSome) = true by decide +kernel)
  obtain ⟨w, hw, hsome⟩ := List.any_eq_true.mp hwrites
  obtain ⟨x, hx⟩ := Option.isSome_iff_exists.mp hsome
  refine ⟨past, m, s', w, x, hrun, heffect, hcommit, hw, hx, ?_⟩
  exact (no_lost_update hrun).1 (.alone Sample.context 3 (.record "a" (Sample.event 2)) Sample.claimed) m s'
    ⟨trivial, fun _ => rfl⟩ (Reads.Within.now _ _) heffect hcommit w hw x hx

/-! ### A lost wake -/

namespace Sample

/-- A Condition on events of the type `x.done`. -/
def doneCondition (id : String) : ConditionDecl where
  id := id
  type := "x.done"
  subject := "id:1"
  expected := .obj []
  owner := some "human"

/-- An event that such a Condition waits for. -/
def done (n : Int) : Event := [("data", .obj [("id", .str "1")]), ("eventId", .num n), ("type", .str "x.done")]

def defer (s : Store) (id : String) (conditions : List ConditionDecl) (reviewAt : Option Int) : Call :=
  .defer (claimOf s id) { result := { result with reviewAt := reviewAt }, conditions := conditions }

/-- The Task `b` below `a`. -/
def observeChild : Call := .observe { intent := { intent "b" with parentId := "a" }, appAgent := "worker" }

def parentObserved : Store := (observe "a" none none).perform context 1 store
def childObserved : Store := observeChild.perform context 2 parentObserved
def childClaimed : Store := (claim "b" "u1").perform context 3 childObserved
def childWaiting : Store := (defer childClaimed "b" [doneCondition "c"] none).perform context 4 childClaimed
def parentClaimed : Store := (claim "a" "u2").perform context 5 childWaiting
/-- The event that the child waits for is pending on its running parent. -/
def parentTriggered : Store := (Call.record "a" (done 1)).perform context 6 parentClaimed
def parentDeferred : Store := (defer parentTriggered "a" [] (some 1000000)).perform context 7 parentTriggered

/-- A process that read the child before the parent was deferred records another event for it. -/
def lateRecord : Landing where
  ctx := context
  now := 8
  landedAt := 8
  reads := Reads.now parentTriggered
  call := .record "b" (event 5)

theorem parentTriggered_reachable : Reachable (fun _ _ => True) parentTriggered := by
  have h₁ : Reachable (fun _ _ => True) parentObserved :=
    Reachable.call (Reachable.initial store_initial) context 1 trivial trivial
  have h₂ : Reachable (fun _ _ => True) childObserved := h₁.call context 2 trivial trivial
  have h₃ : Reachable (fun _ _ => True) childClaimed :=
    h₂.call context 3 (ClaimInput.fresh_of_suffix (by decide +kernel)) trivial
  have h₄ : Reachable (fun _ _ => True) childWaiting := h₃.call context 4 trivial trivial
  have h₅ : Reachable (fun _ _ => True) parentClaimed :=
    h₄.call context 5 (ClaimInput.fresh_of_suffix (by decide +kernel)) trivial
  exact h₅.call context 6 trivial trivial

end Sample

def Store.pendingIds (s : Store) (k : String) : List (Option Int) :=
  ((s.task k).map fun x => (pendingTriggerEvents x.2).map fun entry => eventId? entry.event).getD []

/-- The commit of a process that read a waiting child before its parent was deferred is accepted. It
overwrites the trigger by which the deferral woke the child, and the event is gone. -/
theorem lost_wake :
    ∃ past m s' w x, History (fun _ _ => True) (Sample.parentDeferred :: past) ∧
      (Action.call Sample.lateRecord).Admissible Sample.parentDeferred ∧
      Sample.lateRecord.reads.Within (Sample.parentDeferred :: past) ∧ Sample.lateRecord.effect = .commit m ∧
      Sample.parentDeferred.commit Sample.context 8 m = .ok s' ∧ w ∈ m.tasks ∧
      Sample.parentDeferred.task w.resource.metadata.id = some x ∧
      Sample.lateRecord.reads.snapshot.task w.resource.metadata.id ≠ some x ∧
      Sample.parentDeferred.pendingIds "b" = [some 1] ∧ s'.pendingIds "b" = [some 5] := by
  obtain ⟨past, hrun⟩ := Sample.parentTriggered_reachable.history
  have hwithin : ∀ h, Sample.parentTriggered :: past <:+ h → (Reads.now Sample.parentTriggered).Within h :=
    fun h hsuffix => ⟨past, past, past, hsuffix, List.suffix_refl _, List.suffix_refl _⟩
  have hrun' : History (fun _ _ => True) (Sample.parentDeferred :: Sample.parentTriggered :: past) :=
    .next hrun ⟨_, past, .call (.alone Sample.context 7 (Sample.defer Sample.parentTriggered "a" [] (some 1000000))
      Sample.parentTriggered), rfl, ⟨trivial, fun _ => rfl⟩, hwithin _ (List.suffix_refl _), trivial, rfl⟩
  obtain ⟨m, s', heffect, hcommit, hlost⟩ := Landing.writes_eq_true (show Sample.lateRecord.writes Sample.parentDeferred
    (fun m s' => (m.tasks.map fun w => w.resource.metadata.id) == ["b"] && s'.pendingIds "b" == [some 5]) = true by
      decide +kernel)
  simp only [Bool.and_eq_true, beq_iff_eq] at hlost
  obtain ⟨w, hw, hid⟩ := List.mem_map.mp (hlost.1 ▸ List.mem_singleton_self "b")
  have hbefore : Sample.parentTriggered.pendingIds "b" = [] := by decide +kernel
  have hafter : Sample.parentDeferred.pendingIds "b" = [some 1] := by decide +kernel
  have hstored : (Sample.parentDeferred.task "b").isSome = true := by decide +kernel
  obtain ⟨x, hx⟩ := Option.isSome_iff_exists.mp hstored
  refine ⟨_, m, s', w, x, hrun', ⟨trivial, by rintro ⟨⟩⟩, hwithin _ (List.suffix_cons _ _), heffect, hcommit, hw,
    by rw [hid, hx], ?_, hafter, hlost.2⟩
  rw [hid]
  intro hsame
  have hsame' : Sample.parentTriggered.task "b" = some x := hsame
  rw [Store.pendingIds, hx] at hafter
  rw [Store.pendingIds, hsame', hafter] at hbefore
  cases hbefore

end MayAgent
