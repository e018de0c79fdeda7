import MayAgent.Task.Claim

/-!
# Typed changes of a running Task

The actions and waits a worker may return: unblocking a Task it created, retiring one of its own
Conditions, and declaring the Conditions its Task waits for.
-/

namespace MayAgent

inductive TaskAction where
  | unblockTask (taskId : String) (expectedGeneration : Nat) (reason : String)
  | retireCondition (conditionId : String) (expectedConditionGeneration : Nat) (reason : String)
  deriving DecidableEq

/-- `AppTaskConditionSpec`: a declared Condition. -/
structure ConditionDecl where
  id : String
  type : String
  subject : String
  expected : Value
  requestedAction : Option String := none
  owner : Option String := none
  reviewAfterMs : Option Int := none
  progress : Option ProgressInterest := none
  deriving DecidableEq

def requireNonEmptyString (value label : String) : Except TaskError Unit :=
  if Text.nonEmpty value then .ok () else .error (.error (label ++ " requires a non-empty string"))

def requireStringList (values : List String) (label : String) : Except TaskError Unit :=
  if values.isEmpty || values.any (fun v => !Text.nonEmpty v) then
    .error (.error (label ++ " requires one or more non-empty strings"))
  else .ok ()

def taskActionContextIds (actions : List TaskAction) : List String :=
  actions.filterMap fun
    | .unblockTask taskId _ _ => if Text.nonEmpty taskId then some taskId else none
    | .retireCondition _ _ _ => none

def taskActionConditionIds (actions : List TaskAction) : List String :=
  actions.filterMap fun
    | .unblockTask _ _ _ => none
    | .retireCondition conditionId _ _ => if Text.nonEmpty conditionId then some conditionId else none

/-! ### Actions -/

def mutableActionResource (t : Tree) (taskId : String) (expectedGeneration : Nat) : Except TaskError Resource :=
  match t.resources.get taskId with
  | none => .error (.error ("Handler action task not found: " ++ taskId))
  | some r =>
    if r.metadata.generation ≠ expectedGeneration then
      .error (.actionStale taskId expectedGeneration r.metadata.generation none none)
    else .ok r

/-- The check of one action in `validateTaskActions`; the result is the identity it claims. -/
def validateTaskAction (t : Tree) (runningTaskId : String) (seen : List String) (action : TaskAction) :
    Except TaskError String :=
  match action with
  | .retireCondition rawId expected reason => do
    requireNonEmptyString rawId "Handler retire-condition identity"
    let conditionId := Text.trim rawId
    let identity := "condition:" ++ conditionId
    if seen.contains identity then
      throw (.error ("Handler result contains multiple actions for " ++ identity))
    requireNonEmptyString reason ("Handler retire-condition " ++ conditionId ++ " reason")
    let linked := (t.resources.get runningTaskId).any fun r => r.status.conditionIds.contains conditionId
    match t.conditions.get conditionId with
    | none => throw (.actionStale runningTaskId expected 0 none
        (some ("Condition " ++ conditionId ++ " is no longer linked to this Task")))
    | some c =>
      if !linked then
        throw (.actionStale runningTaskId expected c.generation none
          (some ("Condition " ++ conditionId ++ " is no longer linked to this Task")))
      if c.generation ≠ expected then
        throw (.actionStale runningTaskId expected c.generation none
          (some ("Condition " ++ conditionId ++ " generation changed")))
      return identity
  | .unblockTask rawId expected reason => do
    requireNonEmptyString rawId "Handler unblock-task action identity"
    let identity := Text.trim rawId
    if identity = runningTaskId then
      throw (.error ("Handler action cannot unblock its own running task " ++ runningTaskId
        ++ "; return the attempt result without a self-unblock action"))
    if seen.contains identity then
      throw (.error ("Handler result contains multiple actions for " ++ identity))
    requireNonEmptyString reason ("Handler unblock for " ++ identity ++ " reason")
    if t.cancellations.has identity then
      throw (.error ("Handler action cannot mutate cancelled task " ++ identity ++ "; create a new linked task"))
    let r ← mutableActionResource t rawId expected
    if r.status.phase ≠ .waiting ∧ r.status.phase ≠ .attention then
      throw (.actionStale identity expected r.metadata.generation (some r.status.phase) none)
    return identity

def validateTaskActions (t : Tree) (actions : List TaskAction) (runningTaskId : String) : Except TaskError Unit :=
  if 16 < actions.length then .error (.error "Handler result exceeds the 16-action reconciliation budget")
  else do
    let _ ← actions.foldlM (fun seen action => do
      let identity ← validateTaskAction t runningTaskId seen action
      return identity :: seen) []
    return ()

def unblockResource (now : Int) (reason : String) (r : Resource) : Resource :=
  touchResource now r fun st => { st with
    phase := .pending
    executionFailures := 0
    executionFailureAttemptId := none
    executionRetryAt := none
    retryExhausted := none
    observedGeneration := r.metadata.generation - 1
    currentAttemptId := none
    summary := some (Text.trim reason) }

/-- The effect of one action, with the text of its receipt. -/
def applyTaskAction (ctx : Context) (now : Int) (taskId : String) (t : Tree) (action : TaskAction) :
    Except TaskError (Tree × String) :=
  match action with
  | .retireCondition conditionId expected _ =>
    .ok (unlinkExactTaskCondition now t taskId conditionId,
      "retired condition " ++ conditionId ++ " generation " ++ toString expected)
  | .unblockTask targetId expected reason =>
    match mutableActionResource t targetId expected with
    | .error e => .error e
    | .ok r =>
      match assertResourceCreator r.metadata.creator ⟨ctx.appId, some taskId⟩ with
      | .error e => .error e
      | .ok () => .ok (t.setResource (unblockResource now reason r), "unblocked " ++ targetId)

def applyTaskActionList (ctx : Context) (now : Int) (taskId : String) :
    List TaskAction → Tree → Except TaskError (Tree × List String)
  | [], t => .ok (t, [])
  | action :: actions, t =>
    match applyTaskAction ctx now taskId t action with
    | .error e => .error e
    | .ok (t, applied) =>
      match applyTaskActionList ctx now taskId actions t with
      | .error e => .error e
      | .ok (t, rest) => .ok (t, applied :: rest)

def applyTaskActions (ctx : Context) (now : Int) (taskId : String) (t : Tree) (actions : List TaskAction) :
    Except TaskError (Tree × List String) :=
  match validateTaskActions t actions taskId with
  | .error e => .error e
  | .ok () => applyTaskActionList ctx now taskId actions t

def validateActionFacts (taskId : String) (facts : Option (List String)) (actionCount : Nat) : Except TaskError Unit :=
  if 0 < actionCount ∧ (facts.getD []).any Text.nonEmpty = false then
    .error (.error ("Handler actions for " ++ taskId ++ " require non-empty facts"))
  else .ok ()

/-! ### Declared Conditions -/

/-- `isTypedConditionSubject`: `kind:value` with a non-blank value. -/
def isTypedConditionSubject (subject : String) : Bool :=
  let cs := subject.toList.dropWhile isSpace
  match cs.dropWhile (· != ':') with
  | ':' :: value => isSubjectKind (cs.takeWhile (· != ':')) && value.any fun c => !isSpace c
  | _ => false

/-- `human`, or `/^[a-z][a-z0-9-]*:[^\\s:]+$/`. -/
def isCanonicalOwner (owner : String) : Bool :=
  owner == "human" || (
    let kind := owner.toList.takeWhile (· != ':')
    match owner.toList.dropWhile (· != ':') with
    | ':' :: identity =>
      (match kind with
        | [] => false
        | c :: cs => c.isLower && cs.all fun c => c.isLower || c.isDigit || c == '-')
        && !identity.isEmpty && identity.all fun c => !isSpace c && c != ':'
    | _ => false)

def MIN_CONDITION_REVIEW_AFTER_MS : Int := 60000

def validateCondition (taskId : String) (c : ConditionDecl) : Except TaskError Unit := do
  requireNonEmptyString c.id ("Handler result Condition for " ++ taskId ++ " identity")
  let label := "Handler result Condition " ++ Text.trim c.id
  requireNonEmptyString c.type (label ++ " type")
  if !Text.contains (Text.trim c.type) '.' then throw (.error (label ++ " type must be a namespaced event type"))
  requireNonEmptyString c.subject (label ++ " subject")
  if !isTypedConditionSubject (Text.trim c.subject) then throw (.error (label ++ " has an invalid subject"))
  if c.progress.isSome
      && (Text.trim c.type != "app.dependency.updated" || !Text.startsWith (Text.trim c.id) "app-request:") then
    throw (.error (label ++ " progress requires an App request Condition and immediate or next-wake"))
  if c.requestedAction.any fun a => !Text.nonEmpty a then
    throw (.error (label ++ " requestedAction requires a non-empty string"))
  requireNonEmptyString (c.owner.getD "") (label ++ " owner")
  if !isCanonicalOwner (Text.trim (c.owner.getD "")) then
    throw (.error (label ++ " owner must be a canonical kind:identity"))
  if c.reviewAfterMs.any fun ms => decide (ms < MIN_CONDITION_REVIEW_AFTER_MS) then
    throw (.error (label ++ " reviewAfterMs must be an integer of at least 60000"))

/-- `validateConditions`, for a result that may omit its Conditions. -/
def validateConditions (taskId : String) (conditions : List ConditionDecl) : Except TaskError Unit :=
  conditions.forM (validateCondition taskId)

/-- The stored specification of a declaration; two optional fields keep their saved value. -/
def declaredSpec (decl : ConditionDecl) (current : Option Condition) : ConditionSpec where
  type := Text.trim decl.type
  subject := Text.trim decl.subject
  expected := decl.expected
  requestedAction := Text.trimmed? decl.requestedAction
  owner := decl.owner.map Text.trim
  reviewAfterMs := decl.reviewAfterMs.or (current.bind fun c => c.spec.reviewAfterMs)
  progress := decl.progress.or (current.bind fun c => c.spec.progress)

/-- What a specification waits for, whatever its interest in progress. -/
def ConditionSpec.requirement (spec : ConditionSpec) : ConditionSpec := { spec with progress := none }

/-- The Condition after a declaration: unchanged, with another interest in progress, or waiting
anew for its changed specification. -/
def declaredCondition (now : Int) (id : String) (current : Option Condition) (spec : ConditionSpec) : Condition :=
  match current with
  | none =>
    { id := id, generation := 1, resourceVersion := 1, spec := spec, observedGeneration := 0, state := .unknown,
      createdAt := some now, observedAt := some now }
  | some c =>
    if c.spec = spec then c
    else if c.spec.requirement = spec.requirement then
      { c with
        spec := spec
        generation := c.generation + 1
        resourceVersion := c.resourceVersion + 1
        observedGeneration := if c.state = .unknown then 0 else c.generation + 1 }
    else
      { id := id, generation := c.generation + 1, resourceVersion := c.resourceVersion + 1, spec := spec,
        observedGeneration := 0, state := .unknown, createdAt := some now, observedAt := some now }

/-- A wait follows a Condition whose observed requirement did not change. -/
def InputWait.follow (w : InputWait) (id : String) (oldGeneration newGeneration : Nat) : InputWait :=
  { w with conditions := w.conditions.map fun ref =>
      if ref.id = id ∧ ref.generation = oldGeneration then { ref with generation := newGeneration } else ref }

def Resource.followCondition (r : Resource) (id : String) (oldGeneration newGeneration : Nat) : Resource :=
  let waits := r.status.inputWaits.filterMapVal fun _ w => some (w.follow id oldGeneration newGeneration)
  { r with status := { r.status with inputWaits := waits } }

/-- One declaration of `materializeWaitingConditions`, before the Task is linked to it. -/
def materializeCondition (now : Int) (taskId : String) (t : Tree) (decl : ConditionDecl) : Except TaskError Tree :=
  let id := Text.trim decl.id
  let current := t.conditions.get id
  let spec := declaredSpec decl current
  let linkedElsewhere := t.resources.values.any fun r =>
    decide (r.metadata.id ≠ taskId) && r.status.conditionIds.contains id
  match current with
  | some c =>
    if c.spec ≠ spec ∧ linkedElsewhere = true then
      .error (.error ("Condition " ++ id ++ " is already linked to another task with a different specification"))
    else
      let next := declaredCondition now id current spec
      let t := { t with conditions := t.conditions.put id next }
      if c.spec ≠ spec ∧ c.spec.requirement = spec.requirement then
        match t.resources.get taskId with
        | some r => .ok (t.setResource (r.followCondition id c.generation next.generation))
        | none => .ok t
      else .ok t
  | none => .ok { t with conditions := t.conditions.put id (declaredCondition now id none spec) }

/-- Two declarations of one Condition must agree. -/
def conflictingDeclaration (conditions : List ConditionDecl) : Option String :=
  (conditions.find? fun c => conditions.any fun d =>
    Text.trim d.id == Text.trim c.id && decide (d ≠ c)).map fun c => Text.trim c.id

def materializeWaitingConditions (now : Int) (taskId : String) (t : Tree) (conditions : List ConditionDecl) :
    Except TaskError Tree :=
  match conflictingDeclaration conditions with
  | some id => .error (.error ("Task result contains conflicting declarations for Condition " ++ id))
  | none =>
    match conditions.eraseDups.foldlM (materializeCondition now taskId) t with
    | .error e => .error e
    | .ok t =>
      match t.resources.get taskId with
      | none => .ok (pruneUnlinkedConditions t)
      | some r =>
        let declared := (conditions.map fun c => Text.trim c.id).eraseDups
        .ok (pruneUnlinkedConditions (t.setResource (touchResource now r fun st => { st with
          conditionIds := st.conditionIds ++ declared.filter fun id => !st.conditionIds.contains id })))

def trackAction (t : Tree) (scope : MutationScope) : TaskAction → MutationScope
  | .unblockTask targetId _ _ => trackResourceMutationTask t scope targetId
  | .retireCondition _ _ _ => scope

/-- `beginResourceMutationScope`: the settled Task, its parent's fence and the unblocked Tasks. -/
def beginResourceMutationScope (t : Tree) (taskId : String) (actions : List TaskAction) : MutationScope :=
  let scope := trackResourceMutationTask t (emptyResourceMutationScope t) taskId
  let scope := match t.resources.get taskId with
    | some r => fenceResourceMutationTask t scope r.spec.parentId
    | none => scope
  actions.foldl (trackAction t) scope

end MayAgent
