import MayAgent.Lib.Reach

/-!
# The registry of Apps

`AppRegistry` of `app/core/apps/registry.ts`. A reload waits for the one before it, discovers definitions, lets the consumers
apply the prospective snapshot, and publishes it. Discovery and `apply` end at any time and in any way.
-/

namespace MayAgent

namespace Registry

/-- `LoadedAppDefinition`. -/
structure Entry (ν : Type) where
  appDir : String
  id : String
  definition : ν

structure Snapshot (ν : Type) where
  id : String
  generation : Nat
  entries : List (Entry ν)

variable {σ δ ν : Type}

/-- The snapshot of a generation in the process with the id. -/
def snapshotOf (bootId : String) (generation : Nat) (entries : List (Entry ν)) : Snapshot ν :=
  ⟨bootId ++ ":" ++ toString generation, generation, entries⟩

/-- `assertValidAppDefinition`, with the id of a valid definition, and `normalizeAppAgent`. -/
structure Validation (δ ν : Type) where
  check : δ → Except String String
  normalize : δ → Except String ν

def immutableEntries (validation : Validation δ ν) (ids : List String) : List (String × δ) → Except String (List (Entry ν))
  | [] => .ok []
  | (appDir, definition) :: rest =>
    match validation.check definition with
    | .error e => .error e
    | .ok id =>
      if id ∈ ids then .error ("Duplicate App id: " ++ id)
      else
        match validation.normalize definition, immutableEntries validation (id :: ids) rest with
        | .error e, _ => .error e
        | .ok _, .error e => .error e
        | .ok normalized, .ok entries => .ok (⟨appDir, id, normalized⟩ :: entries)

/-- The reload whose turn it is waits for its discovery or for `apply`. -/
inductive Turn (σ ν : Type) where
  | discovering (discover : σ)
  | applying (discover : σ) (prospective : Snapshot ν)

structure State (σ ν : Type) where
  bootId : String
  current : Snapshot ν
  discover : σ
  /-- The sources of the reloads that wait, as they were given. -/
  reloadQueue : List (Option σ) := []
  turn : Option (Turn σ ν) := none
  /-- How the reloads ended, the last one first. -/
  ended : List (Except String (σ × Snapshot ν)) := []

inductive Action (σ δ : Type) where
  | reload (discover : Option σ)
  | begin
  | discovered (found : Except String (List (String × δ)))
  | applied (result : Except String Unit)

def State.initial (bootId : String) (discover : σ) : State σ ν := ⟨bootId, snapshotOf bootId 0 [], discover, [], none, []⟩

def State.fail (s : State σ ν) (e : String) : State σ ν := { s with turn := none, ended := .error e :: s.ended }

def State.next (validation : Validation δ ν) (s : State σ ν) : Action σ δ → State σ ν
  | .reload discover => { s with reloadQueue := s.reloadQueue ++ [discover] }
  | .begin =>
    match s.turn, s.reloadQueue with
    -- The default source is looked up when the turn begins.
    | none, discover :: queue => { s with reloadQueue := queue, turn := some (.discovering (discover.getD s.discover)) }
    | _, _ => s
  | .discovered found =>
    match s.turn with
    | some (.discovering discover) =>
      match found.bind (immutableEntries validation []) with
      | .error e => s.fail e
      | .ok entries =>
        { s with turn := some (.applying discover (snapshotOf s.bootId (s.current.generation + 1) entries)) }
    | _ => s
  | .applied result =>
    match s.turn with
    | some (.applying discover prospective) =>
      match result with
      | .error e => s.fail e
      | .ok () =>
        if prospective.generation ≠ s.current.generation + 1 then
          s.fail ("Cannot publish stale App registry generation " ++ toString prospective.generation ++ "; current is "
            ++ toString s.current.generation)
        else
          { s with
            current := prospective
            discover := discover
            turn := none
            ended := .ok (discover, prospective) :: s.ended }
    | _ => s

def Reachable (validation : Validation δ ν) : State σ ν → Prop :=
  Reaches (fun s => ∃ bootId discover, s = .initial bootId discover) (State.next validation) fun _ _ => True

end Registry

end MayAgent
