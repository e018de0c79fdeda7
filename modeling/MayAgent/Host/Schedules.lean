import Mathlib.Algebra.Order.Floor.Defs
import Mathlib.Data.Rat.Floor
import MayAgent.Host.Writer
import MayAgent.Lib.Table

/-!
# Schedules

`createAppScheduleProducer`: the timer that publishes the slots of the Apps' schedules. What it knows of
the slots already published is in memory, in one activation record for each declaration, and is lost with the
process; the journal alone says which slots of an input schedule were published.
-/

namespace MayAgent

/-! ### Declarations -/

inductive CatchUp where
  | none | latest
  deriving DecidableEq

/-- What a schedule publishes: an input of its App, or a fact. -/
inductive ScheduleTarget where
  | input (input : Value) (catchUp : Option CatchUp)
  | event (event : AgentEvent)

/-- `AppSchedule`. -/
structure Schedule where
  id : String
  enabled : Option Bool
  intervalMs : ℚ
  target : ScheduleTarget
  positive : 0 < intervalMs

/-- The schedules of a `LoadedAppDefinition`. -/
structure AppSchedules where
  appId : String
  schedules : List Schedule
  distinct : (schedules.map Schedule.id).Nodup

/-- The definitions of a registry snapshot. -/
structure LoadedApps where
  apps : List AppSchedules
  distinct : (apps.map AppSchedules.appId).Nodup

structure Declared where
  appId : String
  schedule : Schedule

/-- The schedules in the order in which they are scanned. -/
def LoadedApps.declared (loaded : LoadedApps) : List Declared :=
  loaded.apps.flatMap fun app => app.schedules.map fun schedule => ⟨app.appId, schedule⟩

def LoadedApps.empty : LoadedApps := ⟨[], List.nodup_nil⟩

def Schedule.slotAt (schedule : Schedule) (now : Int) : Int := ⌊(now : ℚ) / schedule.intervalMs⌋

inductive FingerprintTarget where
  | input (input : Value) (catchUp : CatchUp)
  | event (event : Event)
  deriving DecidableEq

/-- The record whose text is the fingerprint. -/
structure Fingerprint where
  intervalMs : ℚ
  target : FingerprintTarget
  enabled : Bool
  deriving DecidableEq

def Schedule.fingerprint (schedule : Schedule) : Fingerprint where
  intervalMs := schedule.intervalMs
  target := match schedule.target with
    | .input input catchUp => .input input (catchUp.getD .latest)
    | .event event => .event event.envelope
  enabled := schedule.enabled != some false

/-! ### Activations -/

structure SlotInput where
  appId : String
  scheduleId : String
  slot : Int
  intervalMs : ℚ
  catchUp : CatchUp
  input : Value
  deriving DecidableEq

/-- A record of `scheduleActivations`; `published` are the inputs that were journalled under it, in their order. -/
structure Activation where
  fingerprint : Fingerprint
  activatedAt : Int
  lastSlot : Option Int
  published : List SlotInput
  deriving DecidableEq

def Declared.key (d : Declared) : String := d.appId ++ "/" ++ d.schedule.id

/-- A new record. A fact's schedule starts with the slot it is activated in. -/
def Schedule.activate (schedule : Schedule) (activatedAt : Int) : Activation where
  fingerprint := schedule.fingerprint
  activatedAt := activatedAt
  lastSlot := match schedule.target with
    | .input _ _ => none
    | .event _ => some (schedule.slotAt activatedAt)
  published := []

/-- One turn of the loop of `refreshScheduleActivations`, at the time `now`. -/
def Declared.refresh (d : Declared) (now : Int) (activations : Table String Activation) : Table String Activation :=
  if (activations.get d.key).map Activation.fingerprint = some d.schedule.fingerprint then activations
  else activations.put d.key (d.schedule.activate now)

/-- `refreshScheduleActivations`; every schedule reads the clock for itself. -/
def refreshScheduleActivations (loaded : LoadedApps) (clock : String → String → Int)
    (activations : Table String Activation) : Table String Activation :=
  let refreshed := loaded.declared.foldl (fun activations d => d.refresh (clock d.appId d.schedule.id) activations) activations
  refreshed.filter fun key _ => (loaded.declared.map Declared.key).contains key

/-! ### Publication -/

/-- What the database does to the two statements of a publication. -/
structure Storage where
  lookupFails : Bool
  writeError : Option String
  deriving DecidableEq

def Storage.works : Storage := ⟨false, none⟩

structure SlotId where
  appId : String
  scheduleId : String
  slot : Int
  deriving DecidableEq

namespace SlotId

def source (id : SlotId) : String := "app:" ++ id.appId ++ ":schedule:" ++ id.scheduleId

def owner (id : SlotId) : String := "app:" ++ id.appId

def key (id : SlotId) : String := "schedule:" ++ id.appId ++ ":" ++ id.scheduleId ++ ":" ++ toString id.slot

def identity (id : SlotId) : EventIdentityKey := ⟨"app.input.requested", id.source, id.owner, id.key⟩

end SlotId

def SlotInput.id (p : SlotInput) : SlotId := ⟨p.appId, p.scheduleId, p.slot⟩

def SlotId.data (id : SlotId) (input : Value) : Event := [
  ("appId", .str id.appId),
  ("idempotencyKey", .str id.key),
  ("input", input),
  ("source", .obj [("id", .str ("schedule:" ++ id.appId ++ ":" ++ id.scheduleId)), ("kind", .str "system")])]

def scheduledInput (id : SlotId) (input : Value) : AgentEvent where
  type := "app.input.requested"
  envelope := [
    ("data", .obj (id.data input)),
    ("owner", .str id.owner),
    ("source", .str id.source),
    ("type", .str "app.input.requested")]
  rowId := none
  typed := by simp [Event.field_cons]

theorem type_ne_source : "type" ≠ "source" := by decide

theorem type_ne_owner : "type" ≠ "owner" := by decide

theorem type_ne_data : "type" ≠ "data" := by decide

def scheduledFact (id : SlotId) (event : AgentEvent) : AgentEvent :=
  let source := (present (event.envelope.field "source")).getD (.str id.source)
  let owner := (present (event.envelope.field "owner")).getD (.str id.owner)
  let data := ((event.envelope.record? "data").getD []).assign "idempotencyKey" (.str id.key)
  ((event.assign "source" type_ne_source source).assign "owner" type_ne_owner owner).assign "data" type_ne_data (.obj data)

/-- `publishScheduledEvent` at the time `stamp` of the writer, with what it returns. -/
def publishScheduledEvent (db : Ledger) (p : Publication) (stamp : Int) (storage : Storage) : Ledger × Bool :=
  match storage.writeError with
  | some _ => (db, false)
  | none =>
    match publish db p stamp none with
    | .ok (db', _) => (db', true)
    | .error _ => (db, false)

/-- `publishScheduledInput`, with what it returns. -/
def publishScheduledInput (db : Ledger) (id : SlotId) (input : Value) (stamp : Int) (storage : Storage) : Ledger × Bool :=
  if storage.lookupFails then (db, false)
  else match db.findKeyed id.identity with
    | some _ => (db, true)
    | none => publishScheduledEvent db { event := scheduledInput id input } stamp storage

/-! ### Scans -/

/-- The producer of one process, and the journal. -/
structure Scheduler where
  enabled : Bool
  closed : Bool
  loaded : LoadedApps
  activations : Table String Activation
  ledger : Ledger

/-- The readings of the clock during a scan, and what the database does to each schedule's publication. -/
structure Scan where
  now : Int
  stamp : Int
  storage : String → String → Storage

namespace Scheduler

/-- `activation.lastSlot = slot`. -/
def advance (s : Scheduler) (key : String) (activation : Activation) (slot : Int) : Scheduler :=
  { s with activations := s.activations.put key { activation with lastSlot := some slot } }

def scanEvent (s : Scheduler) (scan : Scan) (d : Declared) (activation : Activation) (event : AgentEvent) : Scheduler :=
  let slot := d.schedule.slotAt scan.now
  match activation.lastSlot with
  | none => s
  | some last =>
    if slot ≤ last then s
    else
      let p := { event := scheduledFact ⟨d.appId, d.schedule.id, slot⟩ event, recordOnly := true }
      let r := publishScheduledEvent s.ledger p scan.stamp (scan.storage d.appId d.schedule.id)
      if r.2 then { s with ledger := r.1 }.advance d.key activation slot else { s with ledger := r.1 }

/-- The slot of a time, with the declaration's input. -/
def slotInput (d : Declared) (now : Int) (input : Value) (catchUp : Option CatchUp) : SlotInput :=
  ⟨d.appId, d.schedule.id, d.schedule.slotAt now, d.schedule.intervalMs, catchUp.getD .latest, input⟩

def journalled (before after : Ledger) (activation : Activation) (p : SlotInput) : Activation :=
  if before.findKeyed p.id.identity = none ∧ after.findKeyed p.id.identity ≠ none then
    { activation with published := activation.published ++ [p] }
  else activation

def scanInput (s : Scheduler) (scan : Scan) (d : Declared) (activation : Activation) (input : Value)
    (catchUp : Option CatchUp) : Scheduler :=
  let slot := d.schedule.slotAt scan.now
  if activation.lastSlot.any fun last => decide (slot ≤ last) then s
  else if catchUp.getD .latest = .none ∧ slot * d.schedule.intervalMs < activation.activatedAt then
    s.advance d.key activation slot
  else
    let p := slotInput d scan.now input catchUp
    let r := publishScheduledInput s.ledger p.id input scan.stamp (scan.storage d.appId d.schedule.id)
    if r.2 then { s with ledger := r.1 }.advance d.key (journalled s.ledger r.1 activation p) slot
    else { s with ledger := r.1 }

/-- One turn of the loop of `scanNow`. -/
def scanSchedule (scan : Scan) (s : Scheduler) (d : Declared) : Scheduler :=
  if d.schedule.enabled = some false then s
  else match s.activations.get d.key with
    | none => s
    | some activation =>
      match d.schedule.target with
      | .event event => s.scanEvent scan d activation event
      | .input input catchUp => s.scanInput scan d activation input catchUp

def scanNow (s : Scheduler) (scan : Scan) : Scheduler :=
  if s.closed || !s.enabled then s else s.loaded.declared.foldl (scanSchedule scan) s

def replace (s : Scheduler) (entries : LoadedApps) (clock : String → String → Int) : Scheduler :=
  { s with loaded := entries, activations := refreshScheduleActivations entries clock s.activations }

/-- The undo operation of a replacement in `previous`. -/
def restore (previous s : Scheduler) : Scheduler :=
  { s with loaded := previous.loaded, activations := previous.activations }

def close (s : Scheduler) : Scheduler := { s with closed := true, loaded := .empty, activations := ∅ }

def boot (s : Scheduler) (enabled : Bool) (entries : LoadedApps) (clock : String → String → Int) : Scheduler :=
  replace { s with enabled := enabled, closed := false, loaded := .empty, activations := ∅ } entries clock

/-- What happens to a producer and to the journal; `journal` is what others do to it. -/
inductive Action where
  | scan (scan : Scan)
  | reload (entries : LoadedApps) (clock : String → String → Int)
  | rejectReload (entries : LoadedApps) (clock : String → String → Int)
  | close
  | restart (enabled : Bool) (entries : LoadedApps) (clock : String → String → Int)
  | journal (action : LedgerAction)

def next (s : Scheduler) : Action → Scheduler
  | .scan scan => s.scanNow scan
  | .reload entries clock => s.replace entries clock
  | .rejectReload entries clock => restore s (s.replace entries clock)
  | .close => s.close
  | .restart enabled entries clock => s.boot enabled entries clock
  | .journal action => { s with ledger := s.ledger.next action }

def initial : Scheduler := ⟨false, false, .empty, ∅, Ledger.empty⟩

def Reachable (s : Scheduler) : Prop := Reaches (· = initial) next (fun _ _ => True) s

/-- The states reached from `s` by any actions. -/
def Later (s s' : Scheduler) : Prop := Relation.ReflTransGen (Takes next fun _ _ => True) s s'

end Scheduler

end MayAgent
