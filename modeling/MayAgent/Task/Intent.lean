import MayAgent.Task.Commit

/-!
# Desired state

Validation of a Task intent, its place among the stored Tasks and groups, the agent it resolves to
and the digest of its requirements.
-/

namespace MayAgent

/-- `optionalName`-normalized selection of the responsible agent. -/
def normalizeTaskAgent (intent : Intent) : Except TaskError Intent :=
  let label := "Task " ++ intent.id
  if intent.agent.any (fun a => !Text.nonEmpty a) then
    .error (.error (label ++ " agent must be a non-empty string when present"))
  else if intent.owner.any (fun o => !Text.nonEmpty o) then
    .error (.error (label ++ " legacy owner must be a non-empty string when present"))
  else
    match Text.trimmed? intent.agent, Text.trimmed? intent.owner with
    | some agent, some owner =>
      if agent != owner then .error (.error (label ++ " declares conflicting agent and legacy owner values"))
      else .ok { intent with agent := none, owner := some agent }
    | some agent, none => .ok { intent with agent := none, owner := some agent }
    | none, owner => .ok { intent with agent := none, owner := owner }

/-- `/^[a-z][a-z0-9-]{0,63}$/`. -/
def isExecutorName (name : String) : Bool :=
  match name.toList with
  | [] => false
  | c :: cs => c.isLower && decide (cs.length ≤ 63) && cs.all fun c => c.isLower || c.isDigit || c == '-'

def validateIntent (intent : Intent) : Except TaskError Unit :=
  let task := "Task " ++ intent.id
  if !Text.nonEmpty intent.id then .error (.error "Task reconciliation requires a non-empty task id")
  else if !Text.nonEmpty intent.parentId then .error (.error (task ++ " requires a parentId"))
  else if !Text.nonEmpty intent.outcome then .error (.error (task ++ " requires an outcome"))
  else if intent.acceptance.isEmpty then .error (.error (task ++ " requires acceptance criteria"))
  else if intent.workflow.any (fun w => !Text.nonEmpty w) then
    .error (.error (task ++ " workflow must be a non-empty string when present"))
  else if intent.workflow.any (fun w => Text.trim w == "project") then
    .error (.error (task ++ " workflow must name a real workflow; omit workflow for agent-handled project work"))
  else if intent.executor.any (fun e => !isExecutorName e) then
    .error (.error (task ++ " executor must be a lowercase name of at most 64 characters"))
  else if intent.workflow.isSome && intent.executor.isSome then
    .error (.error (task ++ " cannot configure both workflow and executor"))
  else .ok ()

def Tree.parentOf (t : Tree) (id : String) : Option String :=
  match t.resources.get id with
  | some r => some r.spec.parentId
  | none => (t.groups.get id).bind Group.parentId

/-- Follows parents from `cursor`, looking for `taskId`: the first error met, if any. -/
def containmentError (t : Tree) (taskId : String) : Nat → List String → Option String → Option TaskError
  | 0, _, _ => none
  | fuel + 1, seen, cursor =>
    match cursor with
    | none => none
    | some cursor =>
      if cursor = "" then none
      else if seen.contains cursor then
        some (.error ("Task " ++ taskId ++ " parent chain already contains a containment cycle at " ++ cursor))
      else if cursor = taskId then
        some (.error ("Task " ++ taskId ++ " parent would create a containment cycle"))
      else containmentError t taskId fuel (cursor :: seen) (t.parentOf cursor)

def validateParentReference (t : Tree) (taskId parentId : String) : Except TaskError Unit :=
  if (t.resources.get taskId).map (fun r => r.spec.parentId) ≠ some parentId ∧ t.cancellations.has parentId = true then
    .error (.error ("Cannot attach " ++ taskId ++ " to cancelled parent " ++ parentId))
  else if !t.resources.has parentId && !t.groups.has parentId then
    .error (.error ("Task " ++ taskId ++ " parent does not exist in the live graph: " ++ parentId))
  else if parentId = taskId then .error (.error ("Task " ++ taskId ++ " cannot be its own parent"))
  else
    -- Every visited id but the last is stored, so the fuel outlasts the chain.
    match containmentError t taskId (t.resources.entries.length + t.groups.entries.length + 2) [] (some parentId) with
    | some e => .error e
    | none => .ok ()

def inheritedAgent (t : Tree) (appAgent : String) : Nat → List String → Option String → String
  | 0, _, _ => appAgent
  | fuel + 1, seen, parentId =>
    match parentId with
    | none => appAgent
    | some id =>
      if id = "" ∨ seen.contains id = true then appAgent
      else match t.resources.get id with
        | some r =>
          match Text.trimmed? r.spec.owner with
          | some owner => owner
          | none => inheritedAgent t appAgent fuel (id :: seen) (some r.spec.parentId)
        | none =>
          match t.groups.get id with
          | none => appAgent
          | some g =>
            match Text.trimmed? g.owner with
            | some owner => owner
            | none => inheritedAgent t appAgent fuel (id :: seen) g.parentId

def resolvedAgent (t : Tree) (intent : Intent) (appAgent : String) : String :=
  match Text.trimmed? intent.owner with
  | some owner => owner
  | none =>
    inheritedAgent t appAgent (t.resources.entries.length + t.groups.entries.length + 2) [] (some intent.parentId)

def taskSpecHash (intent : Intent) (effectiveAgent : Option String) (legacyMode : Option String) : SpecHash where
  outcome := intent.outcome
  acceptance := intent.acceptance
  mode := legacyMode
  owner := effectiveAgent.or intent.owner
  workflow := intent.workflow
  executor := intent.executor.getD "agent"
  input := intent.input.getD []
  outputs := intent.outputs.getD []
  dependsOn := intent.dependsOn.getD []

def appTaskSpecHash (intent : Intent) (effectiveAgent : String) : SpecHash :=
  taskSpecHash intent (some effectiveAgent) none

def matchesAppTaskSpecHash (intent : Intent) (effectiveAgent : String) (hash : SpecHash) : Bool :=
  [none, some "achieve", some "maintain"].any fun mode =>
    decide (taskSpecHash intent (some effectiveAgent) mode = hash)

def resourceSpec (intent : Intent) : Spec where
  parentId := intent.parentId
  outcome := intent.outcome
  acceptance := intent.acceptance
  owner := Text.trimmed? intent.owner
  workflow := Text.trimmed? intent.workflow
  executor := intent.executor
  input := intent.input
  outputs := intent.outputs
  dependsOn := intent.dependsOn
  priority := intent.priority
  category := Text.trimmed? intent.category

def resourceIntent (r : Resource) : Intent where
  id := r.metadata.id
  parentId := r.spec.parentId
  outcome := r.spec.outcome
  acceptance := r.spec.acceptance
  owner := r.spec.owner
  workflow := r.spec.workflow
  executor := r.spec.executor
  input := r.spec.input
  outputs := r.spec.outputs
  dependsOn := r.spec.dependsOn
  priority := r.spec.priority
  category := r.spec.category

def assertResourceCreator (creator : Option Creator) (actor : Creator) : Except TaskError Unit :=
  if creator = some actor then .ok ()
  else .error (.error "Only the recorded creator may change this resource's spec")

end MayAgent
