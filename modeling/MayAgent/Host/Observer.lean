import Mathlib.Data.String.Basic
import MayAgent.Lib.Keyset
import MayAgent.Task.Store

/-!
# Resource observers

An observer of an App inspects the resources that the open Conditions of any App wait for: `observationDemandReader`
selects the subjects, `bindResourceObserver` reads them page by page and returns the facts that have changed, with the
memory that the next run starts from.
-/

namespace MayAgent

/-! ### Demand -/

abbrev AppStores := Table String Store

/-- The Conditions of `openDemand`, once for each route. -/
def Store.demandedConditions (s : Store) : List Condition :=
  s.routes.filterMap fun route =>
    (s.conditions.get route.2).bind fun c => (s.tasks.get route.1).bind fun row =>
      if c.state != .met && [.waiting, .running, .pending].contains row.resource.status.phase && !s.isCancelled route.1
      then some c else none

def Condition.isDemand (c : Condition) (type source : String) : Bool :=
  c.spec.type == type && (c.spec.expected.record?.bind fun expected => Event.field expected "source") == some (.str source)

def demandedSubjects (apps : AppStores) (type source : String) : Finset String :=
  (((apps.values.flatMap Store.demandedConditions).filter fun c => c.isDemand type source).map fun c =>
    c.spec.subject).toFinset

/-- `observationDemandReader`. -/
def readDemand (apps : AppStores) (type source after : String) (limit : Nat) (subjects : Option (List String)) :
    List String :=
  let demanded := demandedSubjects apps type source
  Keyset.page (match subjects with
    | none => demanded
    | some subjects => demanded.filter fun subject => subjects.contains subject) (some after) limit

/-! ### One run -/

def OBSERVER_PAGE_SIZE : Nat := 4

def RECENT_RESOURCES : Nat := 64

structure ResourceObserver where
  appId : String
  id : String
  type : String
  timeoutMs : Nat
  deriving DecidableEq

namespace ResourceObserver

def owner (o : ResourceObserver) : String := "app:" ++ o.appId

def source (o : ResourceObserver) : String := o.owner ++ ":observer:" ++ o.id

end ResourceObserver

/-- What the fingerprint of a sample is taken of. -/
inductive Signature where
  | value (record : Event)
  | error (message : String)
  deriving DecidableEq

/-- `Memory`: the last subject of the last page, and the samples in the order they were made. -/
structure ObserverMemory where
  cursor : String := ""
  samples : List (String × Signature) := []
  deriving DecidableEq

def resourceOf (subject : String) : String := Text.drop "resource:".length subject

/-- The subject is a reference that `run` inspects. -/
def isResourceReference (subject : String) : Bool := Text.startsWith subject "resource:" && resourceOf subject != ""

def sampleOf (subject : String) (read : Except String Value) : Signature :=
  if !isResourceReference subject then .error "Observation needs a nonempty resource reference"
  else match read with
    | .ok (.obj value) => .value value
    | .ok _ => .error "Detector must return a JSON object"
    | .error message => .error (String.ofList (message.toList.take 2000))

/-- The fact or the failure that is published for a sample. -/
def observedFact (o : ResourceObserver) (subject : String) : Signature → Event
  | .value value =>
    [("data", .obj (value.assign "resource" (.str (resourceOf subject)))), ("owner", .str o.owner),
      ("source", .str o.source), ("type", .str o.type)]
  | .error message =>
    [("data", .obj [("appId", .str o.appId), ("error", .str message), ("observerId", .str o.id), ("subject", .str subject)]),
      ("owner", .str o.owner), ("source", .str o.source), ("target", .obj [("project", .str o.appId)]),
      ("type", .str "app.observer.failed")]

/-- The variables of the loop of `run`. -/
structure ObserverWork where
  samples : List (String × Signature)
  events : List Event := []
  deriving DecidableEq

def observeItem (o : ResourceObserver) (needsFact : Event → Bool) (work : ObserverWork) (subject : String)
    (signature : Signature) : ObserverWork where
  samples := (work.samples.filter fun sample => sample.1 != subject) ++ [(subject, signature)]
  events :=
    if work.samples.lookup subject != some signature || needsFact (observedFact o subject signature)
    then work.events ++ [observedFact o subject signature] else work.events

def demandOf (apps : AppStores) (o : ResourceObserver) (previous : ObserverMemory) (requested : Option (List String)) :
    List String :=
  match requested with
  | some subjects => readDemand apps o.type o.source "" OBSERVER_PAGE_SIZE (some subjects)
  | none =>
    let demand := readDemand apps o.type o.source previous.cursor OBSERVER_PAGE_SIZE none
    if demand.isEmpty && previous.cursor != "" then readDemand apps o.type o.source "" OBSERVER_PAGE_SIZE none else demand

/-- `nextObservation` of a run that has read the subjects. -/
def nextMemory (previous : ObserverMemory) (requested : Option (List String)) (demand : List String)
    (samples : List (String × Signature)) : ObserverMemory where
  cursor := if requested.isSome then previous.cursor else demand.getLast?.getD ""
  samples := samples.drop (samples.length - RECENT_RESOURCES)

def runResourceObserver (apps : AppStores) (o : ResourceObserver) (needsFact : Event → Bool)
    (read : String → Except String Value) (previous : ObserverMemory) (requested : Option (List String)) :
    List Event × ObserverMemory :=
  let demand := demandOf apps o previous requested
  let work := demand.foldl (fun work subject => observeItem o needsFact work subject (sampleOf subject (read subject)))
    { samples := previous.samples }
  (work.events, nextMemory previous requested demand work.samples)

/-! ### Runs over an unchanged store -/

/-- A run with what its detector returns; `completed` if all its facts were published. -/
structure ObserverRun where
  requested : Option (List String)
  read : String → Except String Value
  needsFact : Event → Bool
  completed : Bool

def observerScanner (apps : AppStores) (o : ResourceObserver) : Scanner ObserverMemory ObserverRun String where
  next m run := if run.completed then (runResourceObserver apps o run.needsFact run.read m run.requested).2 else m
  due _ := demandedSubjects apps o.type o.source
  visited m run := if run.completed then (demandOf apps o m run.requested).filter isResourceReference else []
  isPass run := run.completed && run.requested.isNone

end MayAgent
