import MayAgent.Lib.Ancestry
import MayAgent.Proof.Histories

/-!
# Containment

`validateParentReference` follows the parents of the new parent in one snapshot. The commit fences the
written Task only, so nothing keeps the links the check followed until the write lands, and the snapshot
itself may end before the chain does. As long as the followed links are the stored ones when the write
lands, containment stays a forest.
-/

namespace MayAgent

open Ancestry

def Store.parent (s : Store) (id : String) : Option String := (s.readTask id).map fun r => r.spec.parentId

def Store.up (s : Store) (id : String) : Option String :=
  ((s.parent id).or ((s.groups.get id).bind Group.parentId)).filter (· != "")

/-- The parent of a Task or group in a snapshot, as the check follows it. -/
def Tree.up (t : Tree) (id : String) : Option String := (t.parentOf id).filter (· != "")

/-- Following the parents of a Task never returns to it. -/
def Store.Forest (s : Store) : Prop := ∀ k, (s.parent k).isSome = true → ¬Returns s.up k

/-- The parents an observation follows are the stored ones, unless it leaves the parent of its Task as it is. -/
def ObserveInput.ChainCurrent (s : Store) (reads : Reads) (input : ObserveInput) : Prop :=
  s.parent input.intent.id = some input.intent.parentId ∨
    ∀ id, Leads (reads.snapshot.readTaskContext
        { taskIds := input.intent.id :: input.intent.parentId :: input.intent.dependsOn.getD [] }).up
        input.intent.parentId id →
      s.up id = (reads.snapshot.readTaskContext
        { taskIds := input.intent.id :: input.intent.parentId :: input.intent.dependsOn.getD [] }).up id

/-- The condition on a step. -/
def Action.ChainCurrent (s : Store) : Action → Prop
  | .call landing =>
    match landing.call with
    | .observe input => input.ChainCurrent s landing.reads
    | _ => True
  | _ => True

/-! ### The check -/

variable {p k : String} {t : Tree} {given : ObserveInput} {m : Mutation} {s : Store} {landing : Landing}

theorem up_eq_some {parent : Option String} : parent.filter (· != "") = some p ↔ parent = some p ∧ p ≠ "" := by
  simp [Option.filter_eq_some_iff]

def Tree.ids (t : Tree) : Finset String := t.resources.keys.toFinset ∪ t.groups.keys.toFinset

theorem Tree.mem_ids_of_parent {id : String} (h : t.parentOf id = some p) : id ∈ t.ids := by
  have hkey : ∀ {α : Type} {rows : Table String α} {row : α}, rows.get id = some row → id ∈ rows.keys.toFinset := by
    intro α rows row hrow
    rw [List.mem_toFinset]
    exact List.mem_map.mpr ⟨⟨id, row⟩, (Table.get_eq_some_iff _ _ _).mp hrow, rfl⟩
  unfold Tree.parentOf at h
  rw [Tree.ids, Finset.mem_union]
  split at h
  · rename_i r hr
    exact .inl (hkey hr)
  · obtain ⟨g, hg, -⟩ := Option.bind_eq_some_iff.mp h
    exact .inr (hkey hg)

theorem Tree.card_ids_le (t : Tree) : t.ids.card ≤ t.resources.entries.length + t.groups.entries.length := by
  have hlength : ∀ {α : Type} (rows : Table String α), rows.keys.toFinset.card ≤ rows.entries.length := by
    intro α rows
    refine (List.toFinset_card_le _).trans ?_
    simp [AList.keys, List.keys]
  exact (Finset.card_union_le _ _).trans (Nat.add_le_add (hlength _) (hlength _))

/-- A walk that finds no error does not meet the Task. The ids seen so far have a parent in the snapshot, so
the fuel outlasts them. -/
theorem containmentError_none (fuel : Nat) (seen : List String) (cursor : String)
    (hfuel : (t.ids \ seen.toFinset).card < fuel) (hcursor : cursor ≠ "")
    (h : containmentError t k fuel seen (some cursor) = none) : ¬Leads t.up cursor k := by
  induction fuel generalizing seen cursor with
  | zero => omega
  | succ _ ih =>
    rw [containmentError] at h
    simp only [if_neg hcursor] at h
    split_ifs at h with hseen hk
    intro hleads
    cases hup : t.up cursor with
    | none => exact hk (hleads.eq_of_root hup).symm
    | some p =>
      obtain ⟨hparent, hp⟩ := up_eq_some.mp hup
      rw [hparent] at h
      have hless : (t.ids \ (cursor :: seen).toFinset).card < (t.ids \ seen.toFinset).card := by
        refine Finset.card_lt_card ⟨Finset.sdiff_subset_sdiff (Finset.Subset.refl _) ?_, fun hsub => ?_⟩
        · intro id hid
          exact List.mem_toFinset.mpr (List.mem_cons_of_mem _ (List.mem_toFinset.mp hid))
        · have hmem := hsub (Finset.mem_sdiff.mpr ⟨Tree.mem_ids_of_parent hparent, fun hin => hseen ?_⟩)
          · exact (Finset.mem_sdiff.mp hmem).2 (List.mem_toFinset.mpr List.mem_cons_self)
          · exact List.contains_iff_mem.mpr (List.mem_toFinset.mp hin)
      exact ih (cursor :: seen) p (by omega) hp h (hleads.parent hk hup)

theorem validateParentReference_ok {parentId : String} {u : Unit} (hparent : parentId ≠ "")
    (h : validateParentReference t k parentId = .ok u) : ¬Leads t.up parentId k := by
  unfold validateParentReference at h
  split_ifs at h
  split at h
  · cases h
  · rename_i hwalk
    refine containmentError_none _ [] parentId ?_ hparent hwalk
    have hcard := t.card_ids_le
    simp only [List.toFinset_nil, Finset.sdiff_empty]
    omega

/-! ### What a step does to the parents -/

theorem normalizeTaskAgent_scope {intent normalized : Intent} (h : normalizeTaskAgent intent = .ok normalized) :
    normalized.parentId = intent.parentId ∧ normalized.dependsOn = intent.dependsOn := by
  unfold normalizeTaskAgent at h
  simp only at h
  split_ifs at h
  split at h
  · split at h
    · cases h
    · cases h
      exact ⟨rfl, rfl⟩
  all_goals
    cases h
    exact ⟨rfl, rfl⟩

theorem validateIntent_parent {intent : Intent} {u : Unit} (h : validateIntent intent = .ok u) : intent.parentId ≠ "" := by
  unfold validateIntent at h
  simp only [Store.ite_error_eq_ok] at h
  rintro hempty
  rw [hempty] at h
  exact absurd h.2.1 (by decide)

theorem observedResource_spec (ctx : Context) (now : Int) (input : ObserveInput) (existing : Option Resource)
    (same : Bool) : (observedResource ctx now input existing same).spec = resourceSpec input.intent := by
  unfold observedResource
  cases existing with
  | none => rfl
  | some =>
    simp only
    split
    · split
      · rfl
      · rename_i hnothing
        push Not at hnothing
        exact hnothing.1
    · rfl

theorem noteHumanRequest_spec (now : Int) (input : ObserveInput) (key : Option String) (r : Resource) :
    (noteHumanRequest now input key r).spec = r.spec := by
  unfold noteHumanRequest
  split <;> rfl

theorem observed_parent (ctx : Context) (now : Int) {input : ObserveInput} {key : Option String}
    (hgiven : given.Admits input key) (existing : Option Resource) (same : Bool) :
    (noteHumanRequest now input key (observedResource ctx now input existing same)).spec.parentId =
      given.intent.parentId := by
  rw [noteHumanRequest_spec, observedResource_spec]
  exact (normalizeTaskAgent_scope hgiven.intent).1

theorem observeAppTaskIntent_checked {ctx : Context} {now : Int} {reads : Reads}
    {result : Observation} (h : observeAppTaskIntent ctx now reads given = .commit m result) :
    ¬Leads (reads.snapshot.readTaskContext
      { taskIds := given.intent.id :: given.intent.parentId :: given.intent.dependsOn.getD [] }).up
      given.intent.parentId given.intent.id := by
  unfold observeAppTaskIntent at h
  simp only [Plan.check_eq_commit] at h
  obtain ⟨intent, hintent, _, hvalid, h⟩ := h
  obtain ⟨hparent, hdepends⟩ := normalizeTaskAgent_scope hintent
  -- Both ways on lead through the check, and the admissions of a snapshot show no parents.
  have hadmitted : observeAppTaskIntent.observeAdmitted ctx now (reads.snapshot.readTaskContext {
      taskIds := intent.id :: intent.parentId :: intent.dependsOn.getD []
      admissionIds := (given.admissionKey.map Text.trim).toList }) (given.admissionKey.map Text.trim)
      { given with intent := intent } = .commit m result := by
    split at h
    · cases h
    · split at h
      · cases h
      · split at h
        · split at h
          · cases h
          · exact h
        · exact h
  unfold observeAppTaskIntent.observeAdmitted at hadmitted
  simp only [Plan.check_eq_commit] at hadmitted
  obtain ⟨_, hchecked, -⟩ := hadmitted
  have hleads := validateParentReference_ok (validateIntent_parent hvalid) hchecked
  rw [hparent, hdepends, normalizeTaskAgent_id hintent] at hleads
  exact hleads

theorem reopenedSpec_parent {input : ReopenInput} {spec next : Spec} (h : reopenedSpec input spec = .ok next) :
    next.parentId = spec.parentId := by
  unfold reopenedSpec at h
  split at h
  · cases h
    rfl
  · split at h
    · cases h
    · rename_i intent hintent
      split at h
      · cases h
      · split at h
        · cases h
        · cases h
          exact (normalizeTaskAgent_scope hintent).1

theorem takeOver_spec (now : Int) (untriggered : Bool) (previous : Option Attempt) (r : Resource) :
    (takeOver now untriggered previous r).spec = r.spec := by
  unfold takeOver
  cases untriggered <;> cases previous <;> rfl

section Changes

variable {ctx : Context} {now : Int} {call : Call} {reads : Reads} {r r' : Resource} {tr tr' : Option Trigger}

variable {admissions : List (String × Admission)}

theorem Change.parent {attempts : List Attempt}
    (h : Change ctx now call reads r tr r' tr' attempts admissions) :
    (∃ given, call = .observe given ∧ given.intent.id = r.metadata.id ∧ r'.spec.parentId = given.intent.parentId) ∨
      (∃ input, call = .reopen input) ∨ r'.spec = r.spec := by
  cases h with
  | observe given _ _ _ same _ hcall hgiven _ hid =>
    exact .inl ⟨given, hcall, hgiven.id.symm.trans hid, observed_parent ctx now hgiven (some r) same⟩
  | reopen input _ _ hcall => exact .inr (.inl ⟨input, hcall⟩)
  | grant => exact .inr (.inr (takeOver_spec _ _ _ _))
  | backOff => exact .inr (.inr (takeOver_spec _ _ _ _))
  | cancel => exact .inr (.inr (takeOver_spec _ _ _ _))
  | adopt _ _ _ _ _ _ _ _ _ _ _ _ _ _ houtcome =>
    exact .inr (.inr (inputOutcomeAdmissions_onlyWaits houtcome).spec)
  | fail _ _ _ _ _ _ _ _ _ _ _ houtcome =>
    exact .inr (.inr (inputOutcomeAdmissions_onlyWaits houtcome).spec)
  | report _ _ _ _ _ _ _ _ _ _ _ _ houtcome =>
    refine .inr (.inr ?_)
    exact (retainPendingInputs_onlyWaits _ _ _ _).spec.trans (inputOutcomeAdmissions_onlyWaits houtcome).spec
  | complete _ _ _ _ _ _ _ _ _ _ _ _ _ _ houtcome hlinks _ _ hnext =>
    subst hnext
    exact .inr (.inr (hlinks.spec.trans (inputOutcomeAdmissions_onlyWaits houtcome).spec))
  | defer _ _ _ _ _ _ _ _ _ _ _ _ _ _ _ _ _ _ houtcome _ hlinks _ hnext =>
    subst hnext
    refine .inr (.inr ?_)
    refine (retainDeferredInputs_onlyWaits _ _ _ _ _ _ _ _).spec.trans (hlinks.spec.trans ?_)
    exact (inputOutcomeAdmissions_onlyWaits houtcome).spec
  | change _ _ _ _ _ _ _ _ _ _ _ hlinks =>
    exact .inr (.inr ((retainChangedInputs_onlyWaits _ _ _ _ _ _).spec.trans hlinks.spec))
  | unadmit _ _ _ _ _ _ hlinks => exact .inr (.inr hlinks.spec)
  | _ => exact .inr (.inr rfl)

theorem Aside.spec (h : Aside now call reads r tr r' tr') : r'.spec = r.spec := by
  cases h with
  | aside unblock =>
    cases unblock <;> rfl

theorem Created.parent (h : Created ctx now call reads r tr admissions) :
    ∃ given, call = .observe given ∧ given.intent.id = r.metadata.id ∧ r.spec.parentId = given.intent.parentId := by
  cases h with
  | observe given _ _ _ same _ hcall hgiven =>
    refine ⟨given, hcall, ?_, observed_parent ctx now hgiven none same⟩
    rw [noteHumanRequest_id, observedResource_id _ _ _ _ _ (by rintro _ ⟨⟩)]
    exact hgiven.id.symm

theorem reopenAppTask_parent (hs : reads.snapshot.WellFormed) {input : ReopenInput} {m : Mutation}
    {result : ReopenReceipt} (h : reopenAppTask ctx now reads input = .commit m result) :
    ∀ w ∈ m.tasks, ∀ r tr, reads.snapshot.task w.resource.metadata.id = some (r, tr) →
      w.resource.spec.parentId = r.spec.parentId := by
  unfold reopenAppTask at h
  simp only [Plan.check_eq_commit] at h
  obtain ⟨_, -, _, -, h⟩ := h
  split at h
  · cases h
  · split at h
    · unfold replayReopen at h
      simp only at h
      split at h
      · split at h <;> cases h
      · cases h
    · split at h
      · rename_i r closure hr hclosed
        have hown := hs.taskId _ _ _ (Store.task_of_resources_get hr)
        split_ifs at h
        simp only [Plan.check_eq_commit] at h
        obtain ⟨spec, hspec, h⟩ := h
        unfold reopenPlan at h
        cases h
        intro w hw r₀ tr₀ hr₀
        have hwrite : w ∈ (finishResourceMutationScope now
            (beginResourceMutationScopeForTasks (reads.snapshot.readTaskContext { taskIds := [input.taskId] })
              [input.taskId]) _).tasks := hw
        have hone := fun t => @MutationScope.finish_single now reads input.taskId r _ t hs hr
          (reopenedResource now input reads.late.lastEventId spec r) hown
        rw [hone, List.mem_singleton] at hwrite
        · subst hwrite
          have hsame : reads.snapshot.task input.taskId = some (r₀, tr₀) := hown ▸ hr₀
          rw [Store.task_of_resources_get hr] at hsame
          cases hsame
          exact reopenedSpec_parent hspec
        · rfl
      · cases h

end Changes

/-! ### Steps -/

theorem Action.next_groups (s : Store) (action : Action) : (action.next s).groups = s.groups := by
  cases action with
  | call landing =>
    show (landing.effect.land landing.ctx landing.landedAt s).groups = s.groups
    cases landing.effect with
    | none => rfl
    | commit m =>
      rcases Store.land_commit_cases landing.ctx landing.landedAt s m with hsame | ⟨-, -, hnext⟩
      · rw [hsame]
      · rw [hnext]
        exact (Store.environment_applyMutation landing.landedAt s m).1
    | acknowledge taskId nextCheckAt revision =>
      show (s.setRecoveryState landing.landedAt taskId nextCheckAt revision).groups = s.groups
      unfold Store.setRecoveryState
      split
      · rfl
      · split <;> rfl
  | wake _ taskId =>
    simp only [Action.next, Store.persistExactTaskWake]
    cases s.tasks.get taskId <;> rfl
  | _ => rfl

theorem Store.parent_eq_task (s : Store) (k : String) : s.parent k = (s.task k).map fun x => x.1.spec.parentId := by
  rw [Store.parent, Store.readTask_eq_task, Option.map_map]
  rfl

theorem Store.Forest.of_parent {s' : Store} (h : s.Forest) (hparent : ∀ k, s'.parent k = s.parent k)
    (hgroups : s'.groups = s.groups) : s'.Forest := by
  have hup : s'.up = s.up := by
    funext k
    rw [Store.up, Store.up, hparent k, hgroups]
  intro k hk
  rw [hup]
  exact h k (hparent k ▸ hk)

theorem Landed.parent_cases (heffect : landing.effect = .commit m)
    (h : Landed landing.ctx landing.now landing.call landing.reads s m) (k : String) :
    (s.applyMutation landing.landedAt m).parent k = s.parent k ∨
      ∃ given, landing.call = .observe given ∧ given.intent.id = k ∧
        (s.applyMutation landing.landedAt m).parent k = some given.intent.parentId := by
  rw [Store.parent_eq_task, Store.parent_eq_task]
  rcases Store.task_applyMutation_cases landing.landedAt s m k with ⟨w, hw, rfl, htask⟩ | ⟨-, htask⟩
  · rw [htask]
    rcases h.lawful.task w hw with ⟨r, tr, hr, hfence, hwrite⟩ | ⟨-, -, hcreated⟩
    · have hown := h.snapshot.taskId _ _ _ hr
      obtain ⟨_, hstored⟩ := (h.found hr hfence hown rfl).stored
      have hkept : w.resource.spec.parentId = r.spec.parentId →
          (some (w.resource, w.trigger)).map (fun x => x.1.spec.parentId) =
            (s.task w.resource.metadata.id).map fun x => x.1.spec.parentId := by
        intro hparent
        rw [hstored, Option.map_some, Option.map_some, hparent]
      rcases hwrite with hchange | ⟨-, haside⟩
      · rcases hchange.parent with ⟨given, hcall, hid, hparent⟩ | ⟨_, hcall⟩ | hspec
        · exact .inr ⟨given, hcall, hid.trans hown, by rw [Option.map_some, hparent]⟩
        · rw [Landing.effect, hcall] at heffect
          obtain ⟨_, hplan⟩ := Plan.effect_eq_commit heffect
          exact .inl (hkept (reopenAppTask_parent h.snapshot.toWellFormed hplan w hw r tr hr))
        · exact .inl (hkept (by rw [hspec]))
      · exact .inl (hkept (by rw [haside.spec]))
    · obtain ⟨given, hcall, hid, hparent⟩ := hcreated.parent
      exact .inr ⟨given, hcall, hid, by rw [Option.map_some, hparent]⟩
  · rw [htask]
    exact .inl rfl

theorem Landed.forest (heffect : landing.effect = .commit m)
    (h : Landed landing.ctx landing.now landing.call landing.reads s m)
    (hcurrent : (Action.call landing).ChainCurrent s) (hforest : s.Forest) :
    (s.applyMutation landing.landedAt m).Forest := by
  have hgroups := (Store.environment_applyMutation landing.landedAt s m).1
  by_cases hkept : ∀ k, (s.applyMutation landing.landedAt m).parent k = s.parent k
  · exact hforest.of_parent hkept hgroups
  · push Not at hkept
    obtain ⟨k, hk⟩ := hkept
    obtain ⟨given, hcall, rfl, hparent⟩ := (h.parent_cases heffect k).resolve_left hk
    have hothers : ∀ j, j ≠ given.intent.id → (s.applyMutation landing.landedAt m).parent j = s.parent j := by
      intro j hj
      refine (h.parent_cases heffect j).resolve_right ?_
      rintro ⟨_, hcall', rfl, -⟩
      cases hcall.symm.trans hcall'
      exact hj rfl
    have hchain : given.ChainCurrent s landing.reads := by
      unfold Action.ChainCurrent at hcurrent
      simpa only [hcall] using hcurrent
    have hlinks := hchain.resolve_left (fun hsame => hk (hparent.trans hsame.symm))
    rw [Landing.effect, hcall] at heffect
    obtain ⟨_, hplan⟩ := Plan.effect_eq_commit heffect
    have hchecked := observeAppTaskIntent_checked hplan
    intro a ha hreturns
    obtain ⟨hne, hold⟩ := @Returns.of_moved _ s.up _ a given.intent.id (by
        intro j hj
        rw [Store.up, Store.up, hothers j hj, hgroups]) (by
        intro p hp hleads
        rw [Store.up, hparent, Option.some_or] at hp
        cases (up_eq_some.mp hp).1
        exact hchecked (hleads.congr hlinks)) hreturns
    exact hforest a (hothers a hne ▸ ha) hold

/-- In every history of the App whose observations land while the parents they followed are the stored
ones, containment is a forest. -/
theorem containment_forest {h : List Store} (hrun : History (fun s action => action.ChainCurrent s) h) :
    ∀ s ∈ h, s.Forest := by
  refine (Run.invariant (R := fun _ _ => True) (fun _ => trivial) (fun _ _ _ _ _ => trivial) ?_ ?_ hrun).1
  · intro s hinit k hk
    rw [Store.parent, Store.readTask, hinit.tasks, Table.get_empty] at hk
    cases hk
  · intro s past s' hrun hforest _ hstep
    refine ⟨?_, trivial⟩
    have hs := hforest s List.mem_cons_self
    obtain ⟨action, hok, hnext, hcases⟩ := History.step_cases hrun hstep
    have hgroups : s'.groups = s.groups := hnext ▸ Action.next_groups s action
    rcases hcases with hidle | ⟨_, _, _, _, _, -, -, hwake⟩ | ⟨_, m, rfl, heffect, -, hlanded, rfl⟩
    · refine hs.of_parent (fun k => ?_) hgroups
      rw [Store.parent_eq_task, Store.parent_eq_task, hidle.task k]
    · refine hs.of_parent (fun k => ?_) hgroups
      rw [Store.parent_eq_task, Store.parent_eq_task]
      rcases (persistExactTaskWake_bumps hwake).task k with heq | ⟨r, _, _, hr, hbump⟩
      · rw [heq]
      · rw [hr, hbump]
        rfl
    · exact hlanded.forest heffect hok hs

namespace Sample

def putBelow (id parentId : String) : Call :=
  .observe { intent := { intent id with parentId := parentId }, appAgent := "worker" }

def siblings : Store := (observe "b" none none).perform context 2 observed

/-- The Task `a` is put below `b`. -/
def nested : Store := (putBelow "a" "b").perform context 3 siblings

theorem nested_history : History (fun s action => action.ChainCurrent s) [nested, siblings, observed, store] := by
  have hobserved : History (fun s action => action.ChainCurrent s) [observed, store] :=
    .call (.start store_initial) context 1 trivial (.inr fun id hleads => by
      obtain rfl := hleads.eq_of_root (by decide +kernel)
      decide +kernel)
  have hsiblings : History (fun s action => action.ChainCurrent s) [siblings, observed, store] :=
    hobserved.call context 2 trivial (.inr fun id hleads => by
      obtain rfl := hleads.eq_of_root (by decide +kernel)
      decide +kernel)
  refine hsiblings.call context 3 trivial (.inr fun id hleads => ?_)
  by_cases hid : "b" = id
  · subst hid
    decide +kernel
  · obtain rfl := (hleads.parent hid (k := "root") (by decide +kernel)).eq_of_root (by decide +kernel)
    decide +kernel

/-- Another process puts `b` below `a`, having read the two as siblings. -/
def crossing : Landing := ⟨context, 3, 4, Reads.now siblings, putBelow "b" "a"⟩

def crossed : Store := crossing.next nested

theorem crossed_history : History (fun _ _ => True) [crossed, nested, siblings, observed, store] := by
  have hobserved : History (fun _ _ => True) [observed, store] := .call (.start store_initial) context 1 trivial trivial
  have hsiblings : History (fun _ _ => True) [siblings, observed, store] := hobserved.call context 2 trivial trivial
  have hnested : History (fun _ _ => True) [nested, siblings, observed, store] := hsiblings.call context 3 trivial trivial
  refine .next hnested ⟨nested, _, .call crossing, rfl, ⟨trivial, fun hatomic => nomatch hatomic⟩, ?_, trivial, rfl⟩
  exact ⟨[observed, store], [observed, store], [observed, store], List.suffix_cons _ _, List.suffix_refl _,
    List.suffix_refl _⟩

end Sample

/-- A Task is put below its sibling. -/
theorem containment_forest_nested : Sample.nested.parent "a" = some "b" ∧ Sample.nested.Forest :=
  ⟨by decide +kernel, containment_forest Sample.nested_history _ List.mem_cons_self⟩

/-- Two processes that read two Tasks as siblings and put each below the other close a cycle. -/
theorem crossed_parents_cycle : History (fun _ _ => True)
      [Sample.crossed, Sample.nested, Sample.siblings, Sample.observed, Sample.store] ∧
    Sample.crossed.parent "a" = some "b" ∧ Sample.crossed.parent "b" = some "a" ∧ ¬Sample.crossed.Forest := by
  have ha : Link Sample.crossed.up "a" "b" := by
    show Sample.crossed.up "a" = some "b"
    decide +kernel
  have hb : Link Sample.crossed.up "b" "a" := by
    show Sample.crossed.up "b" = some "a"
    decide +kernel
  refine ⟨Sample.crossed_history, by decide +kernel, by decide +kernel, fun hforest => ?_⟩
  exact hforest "a" (by decide +kernel) ((Relation.TransGen.single ha).tail hb)

end MayAgent
