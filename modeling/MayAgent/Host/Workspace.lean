import MayAgent.Lib.Git
import MayAgent.Task.Data

/-!
# Task workspaces

Inspecting and finalizing a Task's worktree (`adapters/workspaces/git.ts`). The caller holds the
repository's lock, so no other operation of the host runs in between. Errors of Git carry the
command but not Git's own text.
-/

namespace MayAgent

open Git

/-- `PreparedTaskWorkspace`. -/
structure PreparedWorkspace where
  repoDir : String
  metadata : Workspace

/-- `FinalizedTaskWorkspace`. -/
structure FinalizedWorkspace where
  ok : Bool
  metadata : Workspace
  reason : Option String := none

/-- `InspectedTaskWorkspace`. -/
structure InspectedWorkspace extends FinalizedWorkspace where
  removable : Bool

inductive WorkspaceOutcome where
  | accepted | waiting | failed
  deriving DecidableEq

def gitFailed (repoDir : String) (args : List String) : TaskError :=
  .error ("git " ++ String.intercalate " " args ++ " failed in " ++ repoDir)

def branchRef (branch : String) : String := "refs/heads/" ++ branch

/-- `isIntegrated` of the head commit in the metadata. -/
def isIntegrated (repo : Repository) (repoDir : String) (metadata : Workspace) : Except TaskError Bool :=
  if metadata.headCommit = metadata.baseCommit
      ∨ repo.diffQuiet metadata.baseCommit metadata.headCommit = true
      ∨ (repo.revParse repoDir metadata.baseRef).any (repo.isAncestor metadata.headCommit) = true then .ok true
  else
    match repo.revParse repoDir metadata.baseRef with
    | none => .error (gitFailed repoDir ["rev-parse", metadata.baseRef])
    | some target =>
      match repo.mergeTree target metadata.headCommit with
      | none => .ok false
      | some merged =>
        match repo.treeOf target with
        | none => .error (gitFailed repoDir ["rev-parse", target ++ "^\x7btree\x7d"])
        | some tree => .ok (merged == tree)

/-- The status lines shown of a dirty worktree. -/
def boundedStatus (lines : List String) : String :=
  String.ofList ((String.intercalate "\n" (lines.take 20)).toList.take 2048)

def inspectWorkspace (repo : Repository) (prepared : PreparedWorkspace) (checkIntegration : Bool) :
    Except TaskError InspectedWorkspace :=
  let metadata := prepared.metadata
  if !repo.existsAt metadata.path then
    match repo.refs.get (branchRef metadata.branch) with
    | none => .ok { ok := true, metadata := { metadata with disposition := .removed }, removable := true }
    | some tip => do
      let metadata := { metadata with headCommit := tip, disposition := .branchRetained }
      let integrated ← if checkIntegration then isIntegrated repo prepared.repoDir metadata else pure false
      pure { ok := true, metadata := metadata, removable := integrated }
  else
    match repo.headAt metadata.path with
    | none => .error (gitFailed metadata.path ["rev-parse", "HEAD"])
    | some head =>
      match repo.statusAt metadata.path with
      | none => .error (gitFailed metadata.path ["status", "--porcelain=v1", "--untracked-files=all"])
      | some [] => do
        let metadata := { metadata with headCommit := head, disposition := .active }
        let integrated ← if checkIntegration then isIntegrated repo prepared.repoDir metadata else pure false
        pure { ok := true, metadata := metadata, removable := integrated }
      | some dirty =>
        .ok {
          ok := true
          metadata := { metadata with headCommit := head, disposition := .retainedForRecovery }
          removable := false
          reason := some ("Task worktree is dirty and was retained for recovery: " ++ metadata.path
            ++ "\nBounded git status:\n" ++ boundedStatus dirty) }

/-- The leaf of a branch `task/leaf`. -/
def workspaceLeaf (branch : String) : Option String :=
  match branch.toList with
  | 't' :: 'a' :: 's' :: 'k' :: '/' :: leaf =>
    if leaf.isEmpty || leaf.contains '/' then none else some (String.ofList leaf)
  | _ => none

def removeWorkspaceRefs (repo : Repository) (metadata : Workspace) : Repository :=
  match workspaceLeaf metadata.branch with
  | none => repo
  | some leaf =>
    (repo.deleteRef ("refs/may/workspaces/" ++ leaf ++ "/base")).deleteRef
      ("refs/may/workspaces/" ++ leaf ++ "/head")

def removeBranch (repo : Repository) (repoDir : String) (metadata : Workspace) :
    Repository × Except TaskError FinalizedWorkspace :=
  match if repo.refs.has (branchRef metadata.branch) then repo.branchDelete metadata.branch else some repo with
  | none => (repo, .error (gitFailed repoDir ["branch", "-D", metadata.branch]))
  | some repo =>
    (removeWorkspaceRefs repo metadata,
      .ok { ok := true, metadata := { metadata with disposition := .removed } })

/-- The removal at the end of `finalizeAppTaskWorkspace`. -/
def removeWorkspace (repo : Repository) (repoDir : String) (metadata : Workspace) :
    Repository × Except TaskError FinalizedWorkspace :=
  match if repo.existsAt metadata.path then repo.worktreeRemove metadata.path else some repo with
  | none => (repo, .error (gitFailed repoDir ["worktree", "remove", metadata.path]))
  | some repo => removeBranch repo repoDir metadata

def finalizeAppTaskWorkspace (repo : Repository) (prepared : PreparedWorkspace) (outcome : WorkspaceOutcome) :
    Repository × Except TaskError FinalizedWorkspace :=
  match inspectWorkspace repo prepared (outcome = .accepted) with
  | .error e => (repo, .error e)
  | .ok inspected =>
    if outcome = .failed then
      let metadata := if repo.existsAt inspected.metadata.path then
          { inspected.metadata with disposition := .retainedForRecovery }
        else inspected.metadata
      (repo, .ok { ok := true, metadata := metadata, reason := inspected.reason })
    else if !inspected.ok || decide (outcome = .waiting) || !inspected.removable then
      (repo, .ok inspected.toFinalizedWorkspace)
    else removeWorkspace repo prepared.repoDir inspected.metadata

end MayAgent
