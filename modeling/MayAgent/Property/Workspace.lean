import MayAgent.Host.Workspace
import MayAgent.Lib.Except

/-!
# Removing a workspace

The integration test of `finalizeAppTaskWorkspace` looks at the head of the worktree, the deletion
names the Task branch. Work is lost exactly when the two differ and only the head is integrated.
-/

namespace MayAgent

open Git

/-- The commit adds nothing to the base: its tree is that of the recorded base commit, or it is an
ancestor of the base ref, or merging it into the base ref leaves the base tree unchanged. -/
def Integrated (repo : Repository) (prepared : PreparedWorkspace) (c : String) : Prop :=
  (∃ tree, repo.treeOf c = some tree ∧ repo.treeOf prepared.metadata.baseCommit = some tree) ∨
  (∃ target, repo.revParse prepared.repoDir prepared.metadata.baseRef = some target ∧ repo.Ancestor c target) ∨
  ∃ target tree, repo.revParse prepared.repoDir prepared.metadata.baseRef = some target ∧
    repo.mergeTree target c = some tree ∧ repo.treeOf target = some tree

section Integration

variable {repo : Repository} {prepared : PreparedWorkspace} {metadata : Workspace}

theorem diffQuiet_iff (repo : Repository) (a b : String) :
    repo.diffQuiet a b = true ↔ ∃ tree, repo.treeOf b = some tree ∧ repo.treeOf a = some tree := by
  rw [Repository.diffQuiet, Option.any_eq_true]
  refine exists_congr fun tree => ?_
  rw [beq_iff_eq, and_comm]

theorem isIntegrated_iff (hbaseCommit : metadata.baseCommit = prepared.metadata.baseCommit)
    (hbaseRef : metadata.baseRef = prepared.metadata.baseRef) (hstored : repo.commits.has metadata.headCommit = true) :
    isIntegrated repo prepared.repoDir metadata = .ok true ↔ Integrated repo prepared metadata.headCommit := by
  have hsame : metadata.headCommit = metadata.baseCommit →
      repo.diffQuiet metadata.baseCommit metadata.headCommit = true := by
    intro heq
    obtain ⟨object, hobject⟩ := Option.isSome_iff_exists.mp hstored
    rw [diffQuiet_iff, ← heq]
    exact ⟨object.tree, by simp [Repository.treeOf, hobject]⟩
  have hancestor : (repo.revParse prepared.repoDir metadata.baseRef).any (repo.isAncestor metadata.headCommit) = true ↔
      ∃ target, repo.revParse prepared.repoDir prepared.metadata.baseRef = some target ∧
        repo.Ancestor metadata.headCommit target := by
    simp only [Option.any_eq_true, Repository.isAncestor_iff, hbaseRef]
  unfold isIntegrated Integrated
  rw [← hbaseCommit, ← diffQuiet_iff, ← hancestor, ← hbaseRef]
  split
  · rename_i hplain
    refine iff_of_true rfl ?_
    rcases hplain with heq | hquiet | hreached
    · exact .inl (hsame heq)
    · exact .inl hquiet
    · exact .inr (.inl hreached)
  · rename_i hplain
    simp only [not_or] at hplain
    obtain ⟨-, hquiet, hreached⟩ := hplain
    rw [or_iff_right hquiet, or_iff_right hreached]
    cases hparse : repo.revParse prepared.repoDir metadata.baseRef with
    | none => simp
    | some target =>
      cases hmerge : repo.mergeTree target metadata.headCommit with
      | none => simp [hmerge]
      | some merged =>
        cases htree : repo.treeOf target with
        | none => simp [hmerge, htree]
        | some =>
          simp only [hmerge, htree, Except.ok.injEq, beq_iff_eq, Option.some.injEq]
          constructor
          · rintro rfl
            exact ⟨target, merged, rfl, hmerge, htree⟩
          · rintro ⟨_, _, rfl, hmerge', htree'⟩
            cases hmerge.symm.trans hmerge'
            cases htree.symm.trans htree'
            rfl

end Integration

/-! ### What finalizing does -/

section Finalize

variable {repo : Repository} {prepared : PreparedWorkspace} {outcome : WorkspaceOutcome}

/-- What must hold for the workspace to count as removable. -/
def Removable (repo : Repository) (prepared : PreparedWorkspace) : Prop :=
  if repo.existsAt prepared.metadata.path then
    ∃ head, repo.headAt prepared.metadata.path = some head ∧ repo.statusAt prepared.metadata.path = some [] ∧
      isIntegrated repo prepared.repoDir { prepared.metadata with headCommit := head, disposition := .active } = .ok true
  else
    ∀ tip, repo.refs.get (branchRef prepared.metadata.branch) = some tip →
      isIntegrated repo prepared.repoDir { prepared.metadata with headCommit := tip, disposition := .branchRetained } =
        .ok true

theorem removeWorkspace_congr {repoDir : String} {m m' : Workspace} (hpath : m.path = m'.path)
    (hbranch : m.branch = m'.branch) : (removeWorkspace repo repoDir m).1 = (removeWorkspace repo repoDir m').1 := by
  unfold removeWorkspace removeBranch removeWorkspaceRefs
  rw [hpath, hbranch]
  split
  · rfl
  · split <;> rfl

theorem inspectWorkspace_accepted (repo : Repository) (prepared : PreparedWorkspace) :
    match inspectWorkspace repo prepared true with
    | .error _ => ¬ Removable repo prepared
    | .ok inspected => inspected.ok = true ∧ inspected.metadata.path = prepared.metadata.path ∧
        inspected.metadata.branch = prepared.metadata.branch ∧
        (inspected.removable = true ↔ Removable repo prepared) := by
  unfold inspectWorkspace Removable
  by_cases hexists : repo.existsAt prepared.metadata.path = true
  · simp only [hexists, Bool.not_true, Bool.false_eq_true, if_false, if_true]
    cases hhead : repo.headAt prepared.metadata.path with
    | none => simp
    | some head =>
      cases hstatus : repo.statusAt prepared.metadata.path with
      | none => simp
      | some status =>
        cases status with
        | cons => simp
        | nil =>
          simp only
          cases hintegrated : isIntegrated repo prepared.repoDir
              { prepared.metadata with headCommit := head, disposition := .active } with
          | error e => simp [bind, Except.bind, hintegrated]
          | ok _ => simp [bind, Except.bind, pure, Except.pure, hintegrated]
  · simp only [hexists, Bool.not_false, if_true, Bool.false_eq_true, if_false]
    cases htip : repo.refs.get (branchRef prepared.metadata.branch) with
    | none => simp
    | some tip =>
      simp only [Option.some.injEq]
      cases hintegrated : isIntegrated repo prepared.repoDir
          { prepared.metadata with headCommit := tip, disposition := .branchRetained } with
      | error e => simp [bind, Except.bind, hintegrated]
      | ok _ => simp [bind, Except.bind, pure, Except.pure, hintegrated]

open Classical in
theorem finalizeAppTaskWorkspace_repo (repo : Repository) (prepared : PreparedWorkspace) (outcome : WorkspaceOutcome) :
    (finalizeAppTaskWorkspace repo prepared outcome).1 =
      if outcome = .accepted ∧ Removable repo prepared then
        (removeWorkspace repo prepared.repoDir prepared.metadata).1
      else repo := by
  unfold finalizeAppTaskWorkspace
  cases outcome with
  | waiting => cases hinspect : inspectWorkspace repo prepared (decide (WorkspaceOutcome.waiting = .accepted)) <;> simp
  | failed => cases hinspect : inspectWorkspace repo prepared (decide (WorkspaceOutcome.failed = .accepted)) <;> simp
  | accepted =>
    have hspec := inspectWorkspace_accepted repo prepared
    simp only [decide_true, true_and]
    cases hinspect : inspectWorkspace repo prepared true with
    | error =>
      rw [hinspect] at hspec
      rw [if_neg hspec]
    | ok inspected =>
      rw [hinspect] at hspec
      obtain ⟨hok, hpath, hbranch, hremovable⟩ := hspec
      by_cases hrem : inspected.removable = true
      · rw [if_pos (hremovable.mp hrem)]
        simp [hok, hrem, removeWorkspace_congr hpath hbranch]
      · rw [if_neg (fun h => hrem (hremovable.mpr h))]
        simp [hrem]

theorem removeWorkspaceRefs_entries (repo : Repository) (metadata : Workspace) :
    (removeWorkspaceRefs repo metadata).entries = repo.entries := by
  unfold removeWorkspaceRefs
  split <;> rfl

theorem removeWorkspaceRefs_refs {ref : String} (hnone : repo.refs.get ref = none) (metadata : Workspace) :
    (removeWorkspaceRefs repo metadata).refs.get ref = none := by
  unfold removeWorkspaceRefs
  split
  · exact hnone
  · show ((repo.refs.drop _).drop _).get ref = none
    simp [Table.get_drop, hnone]

theorem removeBranch_entries (repo : Repository) (repoDir : String) (metadata : Workspace) :
    (removeBranch repo repoDir metadata).1.entries = repo.entries := by
  unfold removeBranch
  split
  · rfl
  · rename_i repo' hdelete
    rw [removeWorkspaceRefs_entries]
    split at hdelete
    · obtain ⟨-, -, rfl⟩ := repo.branchDelete_eq_some_iff.mp hdelete
      rfl
    · cases hdelete
      rfl

theorem removeBranch_absent {metadata : Workspace} (hnone : repo.refs.get (branchRef metadata.branch) = none)
    (repoDir : String) : (removeBranch repo repoDir metadata).1.refs.get (branchRef metadata.branch) = none := by
  have hhas : ¬ repo.refs.has (branchRef metadata.branch) = true := by simp [Table.has, hnone]
  simp only [removeBranch, hhas]
  exact removeWorkspaceRefs_refs hnone metadata

theorem removeBranch_present {metadata : Workspace} {tip : String}
    (htip : repo.refs.get (branchRef metadata.branch) = some tip) (repoDir : String) :
    (removeBranch repo repoDir metadata).1.refs.get (branchRef metadata.branch) = some tip ∨
      (removeBranch repo repoDir metadata).1.refs.get (branchRef metadata.branch) = none ∧
        repo.inUse (branchRef metadata.branch) = false := by
  have hhas : repo.refs.has (branchRef metadata.branch) = true := by simp [Table.has, htip]
  simp only [removeBranch, hhas, if_true]
  cases hdelete : repo.branchDelete metadata.branch with
  | none => exact .inl htip
  | some =>
    obtain ⟨-, hfree, rfl⟩ := repo.branchDelete_eq_some_iff.mp hdelete
    exact .inr ⟨removeWorkspaceRefs_refs (Table.get_drop_self _ _) metadata, hfree⟩

end Finalize

/-! ### Lost work -/

/-- Removal keeps all work: the Task branch goes only when the outcome is accepted and its tip is
integrated, the worktree only when it is clean and its head is integrated, and otherwise both stay
as they were. -/
structure WorkKept (repo : Repository) (prepared : PreparedWorkspace) (outcome : WorkspaceOutcome)
    (repo' : Repository) : Prop where
  branch : ∀ tip, repo.refs.get (branchRef prepared.metadata.branch) = some tip →
    repo'.refs.get (branchRef prepared.metadata.branch) = some tip ∨
      repo'.refs.get (branchRef prepared.metadata.branch) = none ∧ outcome = .accepted ∧ Integrated repo prepared tip
  worktree : ∀ entry, repo.entries.get prepared.metadata.path = some entry →
    repo'.entries.get prepared.metadata.path = some entry ∨
      repo'.entries.get prepared.metadata.path = none ∧ ∃ w head, entry = .worktree true w ∧ w.status = [] ∧
        repo.headOf w = some head ∧ Integrated repo prepared head
  noBranch : repo.refs.get (branchRef prepared.metadata.branch) = none →
    repo'.refs.get (branchRef prepared.metadata.branch) = none
  noWorktree : repo.entries.get prepared.metadata.path = none → repo'.entries.get prepared.metadata.path = none

/-- The work a removal loses: the worktree's head is integrated, the tip of the Task branch is not,
and nothing else keeps Git from deleting the branch. -/
structure Endangered (repo : Repository) (prepared : PreparedWorkspace) (w : Worktree) (head tip : String) : Prop where
  worktree : repo.entries.get prepared.metadata.path = some (.worktree true w)
  disposable : w.Disposable
  headOf : repo.headOf w = some head
  integrated : Integrated repo prepared head
  tipOf : repo.refs.get (branchRef prepared.metadata.branch) = some tip
  unintegrated : ¬ Integrated repo prepared tip
  free : ∀ path present w', path ≠ prepared.metadata.path → repo.entries.get path = some (.worktree present w') →
    w'.head ≠ .attached (branchRef prepared.metadata.branch) ∧ branchRef prepared.metadata.branch ∉ w'.operations

section Lost

variable {repo : Repository} {prepared : PreparedWorkspace}

theorem removable_of_worktree {w : Worktree} {head : String}
    (hentry : repo.entries.get prepared.metadata.path = some (.worktree true w)) (hstatus : w.status = [])
    (hhead : repo.headOf w = some head) : Removable repo prepared ↔ Integrated repo prepared head := by
  have hexists : repo.existsAt prepared.metadata.path = true := by simp [Repository.existsAt, hentry]
  have hheadAt : repo.headAt prepared.metadata.path = some head := by simp [Repository.headAt, hentry, hhead]
  have hstatusAt : repo.statusAt prepared.metadata.path = some [] := by simp [Repository.statusAt, hentry, hstatus]
  have hstored := repo.headOf_stored hentry hhead
  unfold Removable
  rw [if_pos hexists]
  have hiff := @isIntegrated_iff repo prepared { prepared.metadata with headCommit := head, disposition := .active }
    rfl rfl hstored
  rw [← hiff]
  constructor
  · rintro ⟨_, hhead', -, hintegrated⟩
    cases hheadAt.symm.trans hhead'
    exact hintegrated
  · exact fun hintegrated => ⟨head, hheadAt, hstatusAt, hintegrated⟩

theorem removable_of_branch {tip : String} (hexists : repo.existsAt prepared.metadata.path = false)
    (htip : repo.refs.get (branchRef prepared.metadata.branch) = some tip) (hremovable : Removable repo prepared) :
    Integrated repo prepared tip := by
  unfold Removable at hremovable
  rw [if_neg (by rw [hexists]; decide)] at hremovable
  exact (@isIntegrated_iff repo prepared { prepared.metadata with headCommit := tip, disposition := .branchRetained }
    rfl rfl (repo.refs_stored _ _ htip)).mp (hremovable tip htip)

theorem Endangered.lost {w : Worktree} {head tip : String} (h : Endangered repo prepared w head tip) :
    (finalizeAppTaskWorkspace repo prepared .accepted).1.refs.get (branchRef prepared.metadata.branch) = none := by
  have hremovable := (removable_of_worktree h.worktree h.disposable.status h.headOf).mpr h.integrated
  have hexists : repo.existsAt prepared.metadata.path = true := by simp [Repository.existsAt, h.worktree]
  rw [finalizeAppTaskWorkspace_repo, if_pos ⟨rfl, hremovable⟩]
  obtain ⟨repo', hremove⟩ := repo.worktreeRemove_of_disposable h.worktree h.disposable
  obtain ⟨-, hrefs, hentries⟩ := repo.worktreeRemove_eq_some hremove
  have hhas : repo'.refs.has (branchRef prepared.metadata.branch) = true := by
    rw [hrefs]
    simp [Table.has, h.tipOf]
  have hfree : repo'.inUse (branchRef prepared.metadata.branch) = false := by
    refine (repo'.inUse_eq_false_iff _).mpr fun path present w' hget => ?_
    rw [hentries, Table.get_drop] at hget
    split at hget
    · cases hget
    · rename_i hne
      exact h.free path present w' hne hget
  have hdelete := repo'.branchDelete_eq_some_iff.mpr ⟨hhas, hfree, rfl⟩
  simp only [removeWorkspace, removeBranch, hexists, if_true, hremove, hhas, hdelete]
  refine removeWorkspaceRefs_refs ?_ _
  exact Table.get_drop_self _ _

theorem workKept_remove (hremovable : Removable repo prepared)
    (hsafe : ¬ ∃ w head tip, Endangered repo prepared w head tip) :
    WorkKept repo prepared .accepted (removeWorkspace repo prepared.repoDir prepared.metadata).1 := by
  unfold removeWorkspace
  by_cases hexists : repo.existsAt prepared.metadata.path = true
  · simp only [hexists, if_true]
    cases hremove : repo.worktreeRemove prepared.metadata.path with
    | none => exact ⟨fun _ h => .inl h, fun _ h => .inl h, fun h => h, fun h => h⟩
    | some repo' =>
      obtain ⟨⟨w, hentry, hw⟩, hrefs, hentries⟩ := repo.worktreeRemove_eq_some hremove
      -- a worktree that is removed had a head, and that head is integrated
      obtain ⟨head, hhead⟩ : ∃ head, repo.headOf w = some head := by
        unfold Removable at hremovable
        rw [if_pos hexists] at hremovable
        obtain ⟨head, hhead, -⟩ := hremovable
        exact ⟨head, by simpa [Repository.headAt, hentry] using hhead⟩
      have hintegrated := (removable_of_worktree hentry hw.status hhead).mp hremovable
      have hgone : (removeBranch repo' prepared.repoDir prepared.metadata).1.entries.get prepared.metadata.path =
          none := by
        rw [removeBranch_entries, hentries]
        exact Table.get_drop_self _ _
      refine ⟨fun tip htip => ?_, fun entry hget => ?_, fun hnone => ?_, fun _ => hgone⟩
      · rcases removeBranch_present (hrefs ▸ htip) prepared.repoDir with hstays | ⟨hdeleted, hfree⟩
        · exact .inl hstays
        · refine .inr ⟨hdeleted, rfl, ?_⟩
          by_contra hlost
          refine hsafe ⟨w, head, tip, hentry, hw, hhead, hintegrated, htip, hlost, ?_⟩
          intro path present w' hne hget
          refine (repo'.inUse_eq_false_iff _).mp hfree path present w' ?_
          rw [hentries, Table.get_drop_ne _ hne]
          exact hget
      · cases hentry.symm.trans hget
        exact .inr ⟨hgone, w, head, rfl, hw.status, hhead, hintegrated⟩
      · exact removeBranch_absent (hrefs ▸ hnone) prepared.repoDir
  · simp only [hexists, Bool.false_eq_true, if_false]
    have hsame := removeBranch_entries repo prepared.repoDir prepared.metadata
    refine ⟨fun tip htip => ?_, fun entry hget => .inl (hsame ▸ hget), fun hnone => ?_, fun hnone => hsame ▸ hnone⟩
    · rcases removeBranch_present htip prepared.repoDir with hstays | ⟨hdeleted, -⟩
      · exact .inl hstays
      · exact .inr ⟨hdeleted, rfl, removable_of_branch (by simpa using hexists) htip hremovable⟩
    · exact removeBranch_absent hnone prepared.repoDir

end Lost

/-- Finalizing keeps all work exactly when the outcome is not accepted or no unintegrated tip stands
behind an integrated head. -/
theorem finalize_keeps_work_iff (repo : Repository) (prepared : PreparedWorkspace) (outcome : WorkspaceOutcome) :
    WorkKept repo prepared outcome (finalizeAppTaskWorkspace repo prepared outcome).1 ↔
      ¬ (outcome = .accepted ∧ ∃ w head tip, Endangered repo prepared w head tip) := by
  constructor
  · rintro hkept ⟨rfl, w, head, tip, h⟩
    rcases hkept.branch tip h.tipOf with hstays | ⟨-, -, hintegrated⟩
    · rw [h.lost] at hstays
      cases hstays
    · exact h.unintegrated hintegrated
  · intro hsafe
    rw [finalizeAppTaskWorkspace_repo]
    split
    · rename_i haccepted
      obtain ⟨rfl, hremovable⟩ := haccepted
      exact workKept_remove hremovable fun h => hsafe ⟨rfl, h⟩
    · exact ⟨fun _ h => .inl h, fun _ h => .inl h, fun h => h, fun h => h⟩

namespace Sample

def stoppedRebase : Worktree where
  head := .detached "c0"
  status := []
  operations := ["refs/heads/task/a-1"]
  main := false
  locked := false
  submodules := false

def rebasing : Repository where
  commits := ((∅ : Table String CommitObject).put "c0" ⟨"t0", []⟩).put "c1" ⟨"t1", ["c0"]⟩
  mergeTree := fun _ c => if c = "c1" then some "t1" else some "t0"
  refs := ((∅ : Table String String).put "refs/heads/main" "c0").put "refs/heads/task/a-1" "c1"
  entries := (∅ : Table String Entry).put "/work/a-1" (.worktree true stoppedRebase)
  refs_stored := by
    intro ref c hget
    simp only [Table.get_put, Table.get_empty] at hget
    split at hget
    · cases hget
      decide
    · split at hget
      · cases hget
        decide
      · cases hget
  heads_stored := by
    intro path present w c hget hhead
    rw [Table.get_put] at hget
    split at hget
    · cases hget
      cases hhead
      decide
    · cases hget

def preparedWorkspace : PreparedWorkspace where
  repoDir := "/repo"
  metadata := {
    path := "/work/a-1"
    baseRef := "main"
    baseCommit := "c0"
    branch := "task/a-1"
    headCommit := "c1"
    released := false
    disposition := .active
    cleanupError := none }

end Sample

/-- Accepting a Task whose rebase stopped on the base commit deletes the branch with its work. -/
theorem stopped_rebase_loses_work : ¬ WorkKept Sample.rebasing Sample.preparedWorkspace .accepted
    (finalizeAppTaskWorkspace Sample.rebasing Sample.preparedWorkspace .accepted).1 := by
  intro hkept
  have hgone : (finalizeAppTaskWorkspace Sample.rebasing Sample.preparedWorkspace .accepted).1.refs.get
      "refs/heads/task/a-1" = none := by decide
  rcases hkept.branch "c1" (by decide) with hstays | ⟨-, -, hintegrated⟩
  · exact nomatch hgone.symm.trans hstays
  · have hparse : Sample.rebasing.revParse "/repo" "main" = some "c0" := by decide
    rcases hintegrated with ⟨tree, htip, hbase⟩ | ⟨target, htarget, hancestor⟩ | ⟨target, tree, htarget, hmerge, htree⟩
    · exact absurd (htip.trans hbase.symm) (by decide)
    · cases hparse.symm.trans htarget
      exact absurd ((Sample.rebasing.isAncestor_iff "c1" "c0").mpr hancestor) (by decide)
    · cases hparse.symm.trans htarget
      exact absurd (hmerge.trans htree.symm) (by decide)

end MayAgent
