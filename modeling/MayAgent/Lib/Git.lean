import MayAgent.Lib.Closure
import MayAgent.Lib.Table

/-!
# Git repositories

Commits, refs and worktrees of one repository, and the commands on them as Git documents them. How
two commits merge is left to an arbitrary function, and what Git answers in a directory that is no
worktree of the repository to the state.
-/

namespace MayAgent

namespace Git

structure CommitObject where
  tree : String
  parents : List String

inductive Head where
  | attached (ref : String)
  | detached (commit : String)
  deriving DecidableEq

/-- A registered worktree. `status` lists its uncommitted changes that are not ignored, `operations`
the branches that an interrupted rebase or bisect in it works on. -/
structure Worktree where
  head : Head
  status : List String
  operations : List String
  main : Bool
  locked : Bool
  submodules : Bool

/-- A linked worktree that `worktree remove` accepts without force. -/
structure Worktree.Disposable (w : Worktree) : Prop where
  main : w.main = false
  locked : w.locked = false
  submodules : w.submodules = false
  status : w.status = []

/-- What is known of a path: a registered worktree, whose directory may be missing, or anything else
that lies there, with the answers Git gives in it. -/
inductive Entry where
  | worktree (present : Bool) (w : Worktree)
  | other (head : Option String) (status : Option (List String))

structure Repository where
  commits : Table String CommitObject
  mergeTree : String → String → Option String
  refs : Table String String
  entries : Table String Entry
  refs_stored : ∀ ref c, refs.get ref = some c → commits.has c = true
  heads_stored : ∀ path present w c, entries.get path = some (.worktree present w) → w.head = .detached c →
    commits.has c = true

namespace Repository

variable (repo : Repository)

/-! ### Reading -/

def existsAt (path : String) : Bool :=
  match repo.entries.get path with
  | some (.worktree present _) => present
  | some (.other _ _) => true
  | none => false

def headOf (w : Worktree) : Option String :=
  match w.head with
  | .attached ref => repo.refs.get ref
  | .detached c => some c

/-- `rev-parse HEAD` in a directory. -/
def headAt (path : String) : Option String :=
  match repo.entries.get path with
  | some (.worktree true w) => repo.headOf w
  | some (.other head _) => head
  | _ => none

/-- `status --porcelain=v1 --untracked-files=all` in a directory. -/
def statusAt (path : String) : Option (List String) :=
  match repo.entries.get path with
  | some (.worktree true w) => some w.status
  | some (.other _ status) => status
  | _ => none

/-- `rev-parse name` in a directory. -/
def revParse (path name : String) : Option String :=
  if name = "HEAD" then repo.headAt path
  else if repo.commits.has name then some name
  else ["", "refs/", "refs/tags/", "refs/heads/", "refs/remotes/"].findSome? fun scope => repo.refs.get (scope ++ name)

def treeOf (c : String) : Option String := (repo.commits.get c).map CommitObject.tree

def parents (c : String) : Option (List String) := (repo.commits.get c).map CommitObject.parents

/-- `diff --quiet` of two commits. -/
def diffQuiet (a b : String) : Bool := (repo.treeOf a).any fun tree => repo.treeOf b == some tree

/-- A commit is an ancestor of those it can be reached from, itself included. -/
def Ancestor (a b : String) : Prop :=
  repo.commits.has a = true ∧ Relation.ReflTransGen (Closure.Edge repo.parents) b a

/-- `merge-base --is-ancestor` of two commits. -/
def isAncestor (a b : String) : Bool := (closure repo.parents (repo.commits.entries.length + 1) [b] []).contains a

theorem isAncestor_iff (a b : String) : repo.isAncestor a b = true ↔ repo.Ancestor a b := by
  have hstored : ∀ c, (repo.parents c).isSome = true → c ∈ repo.commits.keys.toFinset := by
    intro c hc
    have hget : (repo.commits.get c).isSome = true := by simpa [parents] using hc
    exact List.mem_toFinset.mpr (AList.mem_keys.mpr (AList.lookup_isSome.mp hget))
  have hcard : repo.commits.keys.toFinset.card < repo.commits.entries.length + 1 := by
    refine Nat.lt_succ_of_le ((List.toFinset_card_le _).trans ?_)
    simp [AList.keys, List.keys]
  unfold isAncestor Ancestor
  rw [List.contains_iff_mem, mem_closure hstored hcard]
  simp [parents, Closure.Reached, Table.has]

/-! ### Removing -/

/-- The branch is checked out in a worktree, or an interrupted operation there works on it. -/
def inUse (ref : String) : Bool :=
  repo.entries.values.any fun
    | .worktree _ w => w.head == .attached ref || w.operations.contains ref
    | .other _ _ => false

/-- `worktree remove`, for a clean linked worktree. -/
def worktreeRemove (path : String) : Option Repository :=
  match repo.entries.get path with
  | some (.worktree true w) =>
    if w.main || w.locked || w.submodules || !w.status.isEmpty then none
    else some { repo with
      entries := repo.entries.drop path
      heads_stored := by
        intro other present w' c hget hhead
        rw [Table.get_drop] at hget
        split at hget
        · cases hget
        · exact repo.heads_stored other present w' c hget hhead }
  | _ => none

/-- `update-ref -d` -/
def deleteRef (ref : String) : Repository :=
  { repo with
    refs := repo.refs.drop ref
    refs_stored := by
      intro other c hget
      rw [Table.get_drop] at hget
      split at hget
      · cases hget
      · exact repo.refs_stored other c hget }

/-- `branch -D` -/
def branchDelete (branch : String) : Option Repository :=
  if repo.refs.has ("refs/heads/" ++ branch) && !repo.inUse ("refs/heads/" ++ branch) then
    some (repo.deleteRef ("refs/heads/" ++ branch))
  else none

theorem inUse_eq_false_iff (ref : String) : repo.inUse ref = false ↔
    ∀ path present w, repo.entries.get path = some (.worktree present w) →
      w.head ≠ .attached ref ∧ ref ∉ w.operations := by
  rw [inUse, List.any_eq_false]
  constructor
  · intro hnone path present w hentry
    have := hnone _ ((Table.mem_values_iff _ _).mpr ⟨path, hentry⟩)
    simpa [not_or] using this
  · intro hfree entry hentry
    obtain ⟨path, hget⟩ := (Table.mem_values_iff _ _).mp hentry
    cases entry with
    | worktree present w => simpa [not_or] using hfree path present w hget
    | other => simp

variable {path : String} {repo' : Repository} {w : Worktree}

theorem worktreeRemove_eq_some (h : repo.worktreeRemove path = some repo') :
    (∃ w, repo.entries.get path = some (.worktree true w) ∧ w.Disposable) ∧
      repo'.refs = repo.refs ∧ repo'.entries = repo.entries.drop path := by
  unfold worktreeRemove at h
  split at h
  · rename_i w hentry
    split at h
    · cases h
    · rename_i hclean
      cases h
      simp only [Bool.or_eq_true, Bool.not_eq_true', not_or, Bool.not_eq_true, Bool.not_eq_false,
        List.isEmpty_iff] at hclean
      obtain ⟨⟨⟨hmain, hlocked⟩, hsubmodules⟩, hstatus⟩ := hclean
      exact ⟨⟨w, hentry, hmain, hlocked, hsubmodules, hstatus⟩, rfl, rfl⟩
  · cases h

theorem worktreeRemove_of_disposable
    (hentry : repo.entries.get path = some (.worktree true w)) (hw : w.Disposable) :
    ∃ repo', repo.worktreeRemove path = some repo' := by
  simp [worktreeRemove, hentry, hw.main, hw.locked, hw.submodules, hw.status]

theorem branchDelete_eq_some_iff {branch : String} :
    repo.branchDelete branch = some repo' ↔ repo.refs.has ("refs/heads/" ++ branch) = true ∧
      repo.inUse ("refs/heads/" ++ branch) = false ∧ repo' = repo.deleteRef ("refs/heads/" ++ branch) := by
  unfold branchDelete
  split
  · rename_i hdelete
    simp only [Bool.and_eq_true, Bool.not_eq_true'] at hdelete
    simp [hdelete.1, hdelete.2, eq_comm]
  · rename_i hkeep
    simp only [Bool.and_eq_true, Bool.not_eq_true', not_and] at hkeep
    refine iff_of_false (by simp) fun h => hkeep h.1 h.2.1

theorem headOf_stored {present : Bool} {c : String}
    (hentry : repo.entries.get path = some (.worktree present w)) (hhead : repo.headOf w = some c) :
    repo.commits.has c = true := by
  unfold headOf at hhead
  split at hhead
  · exact repo.refs_stored _ c hhead
  · rename_i c' hdetached
    cases hhead
    exact repo.heads_stored path present w c hentry hdetached

end Repository

end Git

end MayAgent
