import MayAgent.Task.Inputs

/-!
# The Condition tracker

An event is applied to the Conditions of a snapshot: each Condition it satisfies or reports on
records the observation, and the Tasks that wait for it receive the event as pending input.
-/

namespace MayAgent

/-- A Task that may still admit evidence for its Conditions. -/
def Resource.observesConditions (r : Resource) : Bool :=
  match r.status.phase with
  | .waiting | .running | .pending => true
  | .attention => r.status.retryExhausted.isSome
  | .converged => false

/-- The Tasks of a snapshot that an event on Condition `id` concerns. -/
def conditionWaiters (ctx : Context) (t : Tree) (allowed : Option (List String)) (id : String) (c : Condition)
    (e : Event) : List Resource :=
  t.resources.values.filter fun r =>
    r.observesConditions && r.status.conditionIds.contains id && !taskEventPredatesReopening r e
      && allowed.all (fun ids => ids.contains r.metadata.id)
      && approvalTargetsTask ctx.project r.metadata.id r.metadata.generation c e

/-- The state of the loop over Conditions: their new values, the ids that changed, and the Tasks to
wake with the Condition that wakes each of them. -/
structure ConditionScan where
  conditions : Table String Condition
  changed : List String
  wakes : List (String × String)

def conditionConcerned (ctx : Context) (lookup : AttemptLookup) (c : Condition) (e : Event) : Bool :=
  if isAppInputReport c e then matchesAppTaskCondition ctx lookup c e else c.matches ctx e

def addWakes (t : Tree) (e : Event) (id : String) (wakes : List (String × String)) (waiters : List Resource) :
    List (String × String) :=
  waiters.foldl (fun wakes r =>
    if wakes.any (fun wake => wake.1 == r.metadata.id) then wakes
    else if (pendingTriggerEvents (t.taskTriggers.get r.metadata.id)).any (fun entry => sameEvent entry.event e) then wakes
    else wakes ++ [(r.metadata.id, id)]) wakes

def scanCondition (ctx : Context) (lookup : AttemptLookup) (now : Int) (t : Tree) (e : Event)
    (allowed : Option (List String)) (scan : ConditionScan) (id : String) (c : Condition) : ConditionScan :=
  let waiters := conditionWaiters ctx t allowed id c e
  if !conditionConcerned ctx lookup c e || waiters.isEmpty then scan
  else
    let scan := if c.state = .met then scan
      else { scan with conditions := scan.conditions.put id (c.observe lookup e now), changed := scan.changed ++ [id] }
    -- A quiet report updates the saved wait context, not the runnable input queue.
    if isAppInputReport c e ∧ reportKind lookup e = .progress ∧ c.spec.progress = some .nextWake then scan
    else { scan with wakes := addWakes t e id scan.wakes waiters }

def wakeTrigger (r : Resource) (previous : Option Trigger) (e : Event) (now : Int) : Trigger :=
  let prior := pendingTriggerEvents previous
  { taskId := r.metadata.id
    taskGeneration := r.metadata.generation
    resourceVersion := (previous.map Trigger.resourceVersion).getD 0 + 1
    events := if prior.any (fun entry => sameEvent entry.event e) then prior else prior ++ [⟨e, now⟩]
    event := (previous.map Trigger.event).getD e
    observedAt := now }

def applyWakes (t : Tree) (e : Event) (now : Int) (wakes : List (String × String)) : Tree :=
  wakes.foldl (fun t wake =>
    match t.resources.get wake.1 with
    | none => t
    | some r => t.setTrigger wake.1 (some (wakeTrigger r (t.taskTriggers.get wake.1) e now))) t

/-- `applyConditionEvent`: the edited snapshot, the wakes and the changed Conditions. -/
def applyConditionEvent (ctx : Context) (lookup : AttemptLookup) (now : Int) (t : Tree) (e : Event)
    (allowed : Option (List String)) : Tree × List (String × String) × List String :=
  let scan := t.conditions.entries.foldl (fun scan entry => scanCondition ctx lookup now t e allowed scan entry.1 entry.2)
    { conditions := t.conditions, changed := [], wakes := [] }
  (applyWakes { t with conditions := scan.conditions } e now scan.wakes, scan.wakes, scan.changed)

def saveConditionMutation (t : Tree) (wakes : List (String × String)) (changed : List String) : Mutation :=
  let woken := wakes.map Prod.fst
  let resources := t.resources.entries.filter fun entry =>
    woken.contains entry.1 || entry.2.status.conditionIds.any fun id => changed.contains id
  { fences := resources.map fun entry => entry.2.fence
    tasks := (resources.filter fun entry => woken.contains entry.1).map fun entry =>
      { resource := { entry.2 with metadata := { entry.2.metadata with
          resourceVersion := entry.2.metadata.resourceVersion + 1 } }
        trigger := t.taskTriggers.get entry.1
        ready := true }
    conditions := changed.filterMap t.conditions.get }

/-- A Task that already received the event stays eligible only while the event is still pending for
it or proves a Condition it still needs. -/
def stillEligible (ctx : Context) (late : Store) (t : Tree) (e : Event) (taskId : String) : Bool :=
  if !late.hasTaskEvent taskId e then true
  else if (pendingTriggerEvents (t.taskTriggers.get taskId)).any (fun entry => sameEvent entry.event e) then true
  else (t.resources.get taskId).any fun r => r.status.conditionIds.any fun id =>
    (t.conditions.get id).any fun c => matchesAppTaskCondition ctx (late.attemptLookup ctx) c e

def trackAppTaskConditionEventForTasks (ctx : Context) (now : Int) (reads : Reads) (e : Event)
    (taskIds : List String) : Plan (List (String × String)) :=
  if taskIds.isEmpty then .done []
  else
    let t := reads.snapshot.readTaskContext { taskIds := taskIds, includeHistory := false, children := false }
    let allowed := taskIds.eraseDups.filter (stillEligible ctx reads.late t e)
    if allowed.isEmpty then .done []
    else
      let (t, wakes, changed) := applyConditionEvent ctx (reads.late.attemptLookup ctx) now t e (some allowed)
      if wakes.isEmpty && changed.isEmpty then .done []
      else .commit (saveConditionMutation t wakes changed) wakes

end MayAgent
