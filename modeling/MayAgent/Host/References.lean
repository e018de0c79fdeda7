import Mathlib.Data.Char
import Mathlib.Data.List.Lex
import Mathlib.Data.List.Sort
import MayAgent.Lib.Parts
import MayAgent.Lib.Except
import MayAgent.Lib.Pattern
import MayAgent.Lib.Reach
import MayAgent.Lib.Table

/-!
# References of Tasks

A person names a Task by a prefix of a digest of its identity: 8 characters while these are enough, 16 or all 64
otherwise. `indexTaskReference` enters a Task in the index, `displayTaskReferences` chooses the length from the
collisions at the time, and `resolveTaskReference` looks a reference up.

Texts are lists of characters and the hash is a parameter. The times of the entries and the backfill at startup, which
makes the same entries, are left out.
-/

namespace MayAgent

namespace References

abbrev Text := List Char

def trim (s : Text) : Text := strip isSpace s

def nul : Char := Char.ofNat 0

def appSuffix : Text := ".app".toList

/-- `replace(/\.app$/, "")`. -/
def stripApp (s : Text) : Text := if appSuffix <:+ s then s.take (s.length - appSuffix.length) else s

def canonicalAppId (appId : Text) : Text := stripApp (trim appId)

def canonicalTaskId (taskId : Text) : Text := trim taskId

/-- `lengthSafe`: the text after the number of its bytes. -/
def lengthSafe (value : Text) : Text := Nat.toDigits 10 (value.map Char.utf8Size).sum ++ ':' :: value

def taskReferenceVersion : Text := "task-reference-v1".toList

/-- What is hashed. -/
def referenceText (appId taskId : Text) : Text :=
  taskReferenceVersion ++ nul :: (lengthSafe appId ++ nul :: lengthSafe taskId)

/-- The App and the Task as a call names them. -/
structure Identity where
  appId : Text
  taskId : Text
  deriving DecidableEq

/-- A row of `app_task_refs`. -/
structure Row where
  digest : Text
  prefix8 : Text
  prefix16 : Text
  appId : Text
  taskId : Text
  deriving DecidableEq

/-- `ResolvedTaskReference`. -/
structure Resolved where
  appId : Text
  taskId : Text
  digest : Text
  deriving DecidableEq

inductive Resolution where
  | resolved (task : Resolved)
  | ambiguous (candidates : List Resolved)
  | missing
  deriving DecidableEq

section Calls

variable (sha256 : Text → Text)

def taskReferenceDigest (appId taskId : Text) : Except String Text :=
  if canonicalAppId appId = [] ∨ canonicalTaskId taskId = [] then .error "Task reference requires App and Task ids"
  else .ok (sha256 (referenceText (canonicalAppId appId) (canonicalTaskId taskId)))

/-- `INSERT ... ON CONFLICT DO NOTHING`, with the digest and the pair of ids as keys. -/
def insert (rows : List Row) (row : Row) : List Row :=
  if ∃ r ∈ rows, r.digest = row.digest ∨ (r.appId = row.appId ∧ r.taskId = row.taskId) then rows else rows ++ [row]

def indexTaskReference (rows : List Row) (appId taskId : Text) : Except String (List Row × Text) :=
  match taskReferenceDigest sha256 (canonicalAppId appId) (canonicalTaskId taskId) with
  | .error e => .error e
  | .ok digest =>
    .ok (insert rows ⟨digest, digest.take 8, digest.take 16, canonicalAppId appId, canonicalTaskId taskId⟩, digest)

def isHex (c : Char) : Bool := c.isDigit || ('a' ≤ c && c ≤ 'f')

/-- The column that references of a length are looked up in. -/
def Row.column (r : Row) (length : ℕ) : Text :=
  if length = 8 then r.prefix8 else if length = 16 then r.prefix16 else r.digest

/-- `ORDER BY app_id, task_id`. -/
def Before (a b : Row) : Prop := a.appId < b.appId ∨ (a.appId = b.appId ∧ a.taskId ≤ b.taskId)

instance : DecidableRel Before := fun a b => inferInstanceAs (Decidable (a.appId < b.appId ∨ (_ ∧ _)))

def Row.candidate? (r : Row) : Option Resolved :=
  if r.appId ≠ [] ∧ r.taskId ≠ [] ∧ r.digest ≠ [] then some ⟨r.appId, r.taskId, r.digest⟩ else none

/-- `resolveTaskReference`. Only the letters A to F become hexadecimal digits in lower case. -/
def resolveTaskReference (rows : List Row) (input : Text) : Except String Resolution :=
  let reference := (trim input).map Char.toLower
  if ¬ (reference.all isHex ∧ (reference.length = 8 ∨ reference.length = 16 ∨ reference.length = 64)) then
    .error "Task reference must contain 8, 16, or 64 hexadecimal characters"
  else
    let found := (rows.filter fun r => r.column reference.length = reference).insertionSort Before
    match (found.take 11).filterMap Row.candidate? with
    | [] => .ok .missing
    | [task] => .ok (.resolved task)
    | candidates => .ok (.ambiguous candidates)

/-- The reference that is shown for a digest. A prefix is only looked up in the counts it was queried for, and a count
that is not there is zero. -/
def displayed (rows : List Row) (digest : Text) : Text :=
  if rows.countP (fun r => r.prefix8 = digest.take 8) ≤ 1 then digest.take 8
  else if rows.countP (fun r => r.prefix16 = digest.take 16) ≤ 1 then digest.take 16
  else digest

/-- The key of a Task in what `displayTaskReferences` returns. -/
def Identity.key (i : Identity) : Text := i.appId ++ nul :: i.taskId

def displayTaskReferences (rows : List Row) (identities : List Identity) : Except String (Table Text Text) := do
  let indexed ← identities.mapM fun i => do
    let digest ← taskReferenceDigest sha256 i.appId i.taskId
    return (i.key, displayed rows digest)
  return indexed.foldl (fun refs e => refs.put e.1 e.2) ∅

/-- The index, and the calls of `indexTaskReference` that returned. -/
structure Index where
  rows : List Row
  indexed : List Identity

/-- A call of `indexTaskReference`; the other two change nothing. -/
def Index.next (index : Index) (i : Identity) : Index :=
  match indexTaskReference sha256 index.rows i.appId i.taskId with
  | .error _ => index
  | .ok (rows, _) => ⟨rows, index.indexed ++ [i]⟩

end Calls

end References

end MayAgent
