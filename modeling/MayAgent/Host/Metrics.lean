import Mathlib.Algebra.Order.Field.Rat
import Mathlib.Data.List.Sort
import MayAgent.Lib.Json
import MayAgent.Lib.Reach
import MayAgent.Lib.Table

/-!
# Metrics

`createMetricService`: definitions and samples of metrics, and the alerts that an evaluation or a person opens. An
alert is an episode: it is opened with `metric.breach`, changes while it is open, and may be closed with
`metric.recovered`. Each operation is one transaction; an event that cannot be published takes the transaction back.

Numbers and times are rational. A message is kept as the numbers and texts it is printed from. Owners, projects and the
envelopes of the events are left out, as are the columns that nothing reads back.
-/

namespace MayAgent

namespace Metrics

/-! ### Definitions -/

/-- `config.calculation` as it is given. -/
structure CalculationConfig where
  method : String
  windowMs : Option ℚ := none
  maxAgeMs : Option ℚ := none
  minSamples : Option ℚ := none
  deriving DecidableEq

/-- `config.alert`. -/
structure AlertConfig where
  disabled : Bool := false
  mode : Option String := none
  count : Option ℚ := none
  consecutive : Option ℚ := none
  per : Option String := none
  minRate : Option ℚ := none
  maxRate : Option ℚ := none
  stallAfterMs : Option ℚ := none
  deriving DecidableEq

/-- The parts of a configuration that are read. A calculation that is no object is `some none`. -/
structure Config where
  calculation : Option (Option CalculationConfig) := none
  alert : AlertConfig := {}
  deriving DecidableEq

inductive Method where
  | latest | mean
  deriving DecidableEq

/-- `MetricCalculationOptions`. -/
structure CalculationOptions where
  method : Method
  windowMs : Option ℕ := none
  maxAgeMs : Option ℕ := none
  minSamples : Option ℕ := none
  deriving DecidableEq

/-- `Number.isSafeInteger(value) && value > 0`. -/
def positiveInteger? (q : ℚ) : Option ℕ :=
  if q.den = 1 ∧ 0 < q.num ∧ q.num ≤ 9007199254740991 then some q.num.toNat else none

def positiveOption (key : String) (value : Option ℚ) : Except String (Option ℕ) :=
  match value with
  | none => .ok none
  | some q =>
    match positiveInteger? q with
    | some n => .ok (some n)
    | none => .error ("calculation " ++ key ++ " must be a positive integer")

def metricCalculationOptions (config : Config) : Except String CalculationOptions :=
  match config.calculation with
  | none => .ok { method := .latest }
  | some none => .error "calculation must be an object"
  | some (some raw) => do
    let method ← if raw.method = "latest" then .ok Method.latest
      else if raw.method = "mean" then .ok Method.mean
      else .error "calculation method must be latest or mean"
    let windowMs ← positiveOption "windowMs" raw.windowMs
    let maxAgeMs ← positiveOption "maxAgeMs" raw.maxAgeMs
    let minSamples ← positiveOption "minSamples" raw.minSamples
    if method = .mean ∧ windowMs = none then throw "mean calculation requires windowMs"
    if method = .latest ∧ (windowMs.isSome ∨ minSamples.isSome) then
      throw "windowMs and minSamples apply to mean calculation"
    return ⟨method, windowMs, maxAgeMs, minSamples⟩

/-- `MetricDefinition`. -/
structure Definition where
  id : String
  name : Option String := none
  type : Option String := none
  target : Option ℚ := none
  threshold : Option ℚ := none
  priority : Option String := none
  status : Option String := none
  measureInterval : Option ℚ := none
  alertOp : Option String := none
  config : Config := {}

/-- A row of `metrics` without what `record` writes. -/
structure Metric where
  id : String
  name : String
  type : String
  target : Option ℚ
  threshold : Option ℚ
  priority : String
  status : String
  measureInterval : Option ℚ
  alertOp : String
  config : Config
  deriving DecidableEq

def toDbDefinition (d : Definition) : Metric where
  id := d.id
  name := d.name.getD d.id
  type := d.type.getD "gauge"
  target := d.target
  threshold := d.threshold
  priority := d.priority.getD "P2"
  status := d.status.getD "active"
  measureInterval := d.measureInterval
  alertOp := d.alertOp.getD "<"
  config := d.config

/-! ### Samples -/

/-- A row of `metric_snapshots`. -/
structure Snapshot where
  id : ℕ
  metricId : String
  value : ℚ
  measuredAt : ℚ
  deriving DecidableEq

/-- The order of `measured_at DESC, id DESC`. -/
def Newer (a b : Snapshot) : Prop := b.measuredAt < a.measuredAt ∨ (b.measuredAt = a.measuredAt ∧ b.id ≤ a.id)

instance : DecidableRel Newer := fun _ _ => inferInstanceAs (Decidable (_ ∨ _))

def newestFirst (snapshots : List Snapshot) : List Snapshot := snapshots.insertionSort Newer

/-- `MetricCalculation`. -/
structure Calculation where
  method : Method
  value : Option ℚ
  calculatedAt : ℚ
  measuredAt : Option ℚ
  sampleCount : ℕ
  windowMs : Option ℕ
  reason : Option String
  deriving DecidableEq

def metricMaxAgeMs (options : CalculationOptions) (measureInterval : Option ℚ) : Option ℚ :=
  match options.maxAgeMs with
  | some maxAge => some maxAge
  | none =>
    match measureInterval.filter (0 < ·) with
    | some interval => some (interval * 2)
    | none => options.windowMs.map fun window => (window : ℚ)

/-- The samples of a window, all of them measured at or before `now`. -/
def inWindow (samples : List Snapshot) (now : ℚ) (window : ℕ) : List Snapshot :=
  samples.filter fun s => now - window < s.measuredAt

/-- `calculateMetric`; `samples` are those of the metric at or before `now`, newest first. -/
def calculateMetric (options : CalculationOptions) (measureInterval : Option ℚ) (samples : List Snapshot) (now : ℚ) :
    Calculation :=
  let result : Calculation := ⟨options.method, none, now, none, 0, options.windowMs, none⟩
  match samples with
  | [] => { result with reason := some "No sample at or before calculation time" }
  | latest :: _ =>
    let result := { result with measuredAt := some latest.measuredAt, sampleCount := 1 }
    if (metricMaxAgeMs options measureInterval).any fun maxAge => maxAge < now - latest.measuredAt then
      { result with reason := some "Latest sample is stale" }
    else
      match options.method with
      | .latest => { result with value := some latest.value }
      | .mean =>
        let window := inWindow samples now (options.windowMs.getD 0)
        let result := { result with sampleCount := window.length }
        if window.length < options.minSamples.getD 2 then
          { result with reason := some "Insufficient samples in calculation window" }
        else if window = [] then { result with reason := some "Calculation did not produce a finite value" }
        else { result with value := some ((window.map Snapshot.value).sum / window.length) }

/-! ### Assessment -/

def metricThresholdBreached (current threshold : ℚ) (alertOp : String) : Bool :=
  if alertOp = ">" ∨ alertOp = "above" then threshold < current
  else if alertOp = ">=" then threshold ≤ current
  else if alertOp = "<=" then current ≤ threshold
  else current < threshold

inductive Side where
  | below | above
  deriving DecidableEq

/-- What the message of an alert is printed from. -/
inductive AlertMessage where
  | rate (name : String) (side : Side) (rate : ℚ) (unit : String) (limit : ℚ) (current target : Option ℚ)
  | stall (name : String) (afterMs : ℚ)
  | threshold (name direction : String) (current : Option ℚ) (threshold : ℚ) (target : Option ℚ)
  | manual (text : String)
  deriving DecidableEq

/-- What an evaluation finds before it looks at the open alert. -/
inductive Assessment where
  | disabled
  | unknown (calculation : Calculation) (message : Option String)
  | breached (calculation : Calculation) (alertType : String) (message : AlertMessage)
  | healthy (calculation : Calculation)
  deriving DecidableEq

/-- `alertsDisabled`. -/
def AlertConfig.off (alert : AlertConfig) : Bool := alert.disabled || alert.mode == some "disabled"

def Metric.metricType (m : Metric) : String := if m.type = "" then "gauge" else m.type

/-- `consecutive`: the alert asks for several samples in a row. -/
def Metric.consecutive (m : Metric) : Bool :=
  (m.metricType == "health" && m.config.alert.mode == some "consecutive_failures") ||
    (m.metricType == "gauge" && m.config.alert.mode == some "sustained")

def AlertConfig.requiredCount (alert : AlertConfig) : ℕ := ((alert.count.or alert.consecutive).bind positiveInteger?).getD 3

def thresholdDirection (alertOp : String) : String :=
  if alertOp = ">=" then "at or above"
  else if alertOp = "<=" then "at or below"
  else if alertOp = ">" ∨ alertOp = "above" then "above"
  else "below"

def Metric.thresholdMessage (m : Metric) (threshold : ℚ) (current : Option ℚ) : AlertMessage :=
  .threshold m.name (thresholdDirection m.alertOp) current threshold m.target

/-- The end of an assessment that found no breach. -/
def unbreached (calculation : Calculation) : Assessment :=
  match calculation.value with
  | none => .unknown calculation calculation.reason
  | some _ => .healthy calculation

/-- `thresholdBreached`. -/
def Metric.valueBreaches (m : Metric) (threshold : ℚ) (calculation : Calculation) : Bool :=
  calculation.value.any fun current => metricThresholdBreached current threshold m.alertOp

def assessConsecutive (m : Metric) (threshold : ℚ) (calculation : Calculation) (samples : List Snapshot) : Assessment :=
  let required := m.config.alert.requiredCount
  let snapshots := samples.take required
  if m.valueBreaches threshold calculation && decide (snapshots.length < required) then
    .unknown calculation (some "Insufficient samples for consecutive rule")
  else if m.valueBreaches threshold calculation &&
      snapshots.all fun s => metricThresholdBreached s.value threshold m.alertOp then
    .breached calculation (m.config.alert.mode.getD "") (m.thresholdMessage threshold calculation.value)
  else unbreached calculation

def rateSamples (samples : List Snapshot) (maxAge : Option ℚ) (ts : ℚ) : List Snapshot :=
  match maxAge with
  | none => samples.take 2
  | some maxAge => (samples.filter fun s => ts - maxAge ≤ s.measuredAt).take 2

def ratePer (alert : AlertConfig) (samples : List Snapshot) : Option ℚ :=
  match samples with
  | [newer, older] =>
    let deltaMs := newer.measuredAt - older.measuredAt
    let deltaValue := newer.value - older.value
    if 0 < deltaMs ∧ 0 ≤ deltaValue then
      let perHour := deltaValue / deltaMs * 3600000
      some (if alert.per = some "day" then perHour * 24 else perHour)
    else none
  | _ => none

/-- The limit that a rate is outside of; the upper one if it is outside of both. -/
def rateLimit (alert : AlertConfig) (rate : ℚ) : Option (Side × ℚ) :=
  ((alert.maxRate.filter fun limit => limit < rate).map fun limit => (.above, limit)).or
    ((alert.minRate.filter fun limit => rate < limit).map fun limit => (.below, limit))

/-- `firstUnchanged`: the oldest sample behind the last one with another value. -/
def firstUnchanged (samples : List Snapshot) (latest : Snapshot) : Option Snapshot :=
  match samples.find? fun s => s.value ≠ latest.value with
  | some changed => (samples.filter fun s =>
      changed.measuredAt < s.measuredAt ∨ (changed.measuredAt = s.measuredAt ∧ changed.id < s.id)).getLast?
  | none => samples.getLast?

def stallDetected (alert : AlertConfig) (samples : List Snapshot) (ts : ℚ) : Bool :=
  match samples.head?, alert.stallAfterMs.filter (· ≠ 0) with
  | some latest, some after => (firstUnchanged samples latest).any fun first => after < ts - first.measuredAt
  | _, _ => false

def assessRate (m : Metric) (threshold : ℚ) (calculation : Calculation) (maxAge : Option ℚ) (samples : List Snapshot)
    (ts : ℚ) : Assessment :=
  let alert := m.config.alert
  let rate := if calculation.value.isSome then ratePer alert (rateSamples samples maxAge ts) else none
  let outside := rate.bind fun r => (rateLimit alert r).map fun limit => (r, limit)
  if stallDetected alert samples ts then .breached calculation "stall" (.stall m.name (alert.stallAfterMs.getD 0))
  else if m.valueBreaches threshold calculation then
    .breached calculation "threshold" (m.thresholdMessage threshold calculation.value)
  else
    match outside with
    | some (r, side, limit) => .breached calculation "rate"
        (.rate m.name side r (if alert.per = some "day" then "day" else "hour") limit calculation.value m.target)
    | none =>
      if rate.isNone && (alert.minRate.isSome || alert.maxRate.isSome) then
        .unknown calculation (some (calculation.reason.getD "Insufficient samples for rate, or counter reset"))
      else unbreached calculation

/-- The assessment of a metric from its samples at or before `ts`, newest first. -/
def assess (m : Metric) (threshold : ℚ) (samples : List Snapshot) (ts : ℚ) : Except String Assessment :=
  if m.config.alert.off then .ok .disabled
  else
    match metricCalculationOptions m.config with
    | .error e => .error e
    | .ok options =>
      let calculation := calculateMetric options m.measureInterval samples ts
      if m.consecutive then .ok (assessConsecutive m threshold calculation samples)
      else if m.metricType = "counter" ∧ m.config.alert.mode = some "rate" then
        .ok (assessRate m threshold calculation (metricMaxAgeMs options m.measureInterval) samples ts)
      else if m.valueBreaches threshold calculation then
        .ok (.breached calculation "threshold" (m.thresholdMessage threshold calculation.value))
      else .ok (unbreached calculation)

/-! ### The service -/

/-- A row of `metric_alerts`. -/
structure Alert where
  id : ℕ
  metricId : String
  alertType : String
  message : AlertMessage
  resolvedAt : Option ℚ
  createdAt : ℚ
  deriving DecidableEq

inductive EventType where
  | breach | recovered
  deriving DecidableEq

/-- The data of `metric.breach` and `metric.recovered`. -/
structure MetricEvent where
  type : EventType
  metricId : String
  alertId : ℕ
  alertType : Option String
  current : Option ℚ
  calculation : Option Calculation
  threshold : Option ℚ
  target : Option ℚ
  alertOp : String
  measuredAt : ℚ
  trend : List (ℚ × ℚ)
  message : Option AlertMessage
  priority : String
  deriving DecidableEq

/-- `current` is the column that `record` writes. The rows of a table are listed by their id. -/
structure MetricDb where
  metrics : Table String Metric
  current : Table String ℚ
  snapshots : List Snapshot
  alerts : List Alert
  events : List MetricEvent

namespace MetricDb

def empty : MetricDb := ⟨∅, ∅, [], [], []⟩

def samples (db : MetricDb) (id : String) (ts : ℚ) : List Snapshot :=
  newestFirst (db.snapshots.filter fun s => s.metricId = id ∧ s.measuredAt ≤ ts)

def openAlert (db : MetricDb) (id : String) : Option Alert :=
  db.alerts.find? fun a => a.metricId = id ∧ a.resolvedAt = none

def recentTrend (db : MetricDb) (id : String) : List (ℚ × ℚ) :=
  ((newestFirst (db.snapshots.filter fun s => s.metricId = id)).take 5).map fun s => (s.value, s.measuredAt)

def updateAlerts (db : MetricDb) (p : Alert → Bool) (f : Alert → Alert) : MetricDb :=
  { db with alerts := db.alerts.map fun a => if p a then f a else a }

/-- `UPDATE metric_alerts SET resolved_at = ? WHERE id = ?`. -/
def resolve (db : MetricDb) (alertId : ℕ) (ts : ℚ) : MetricDb :=
  db.updateAlerts (fun a => a.id = alertId) fun a => { a with resolvedAt := some ts }

/-- `UPDATE metric_alerts SET alert_type = ?, message = ? WHERE id = ?`. -/
def retype (db : MetricDb) (alertId : ℕ) (alertType : String) (message : AlertMessage) : MetricDb :=
  db.updateAlerts (fun a => a.id = alertId) fun a => { a with alertType := alertType, message := message }

def nextAlertId (db : MetricDb) : ℕ := db.alerts.length + 1

def insertAlert (db : MetricDb) (alert : Alert) (event : MetricEvent) : MetricDb :=
  { db with alerts := db.alerts ++ [alert], events := db.events ++ [event] }

def define (db : MetricDb) (d : Definition) (ts : ℚ) : Except String MetricDb :=
  if !Text.nonEmpty d.id then .error "metric id is required"
  else
    match metricCalculationOptions d.config with
    | .error e => .error e
    | .ok _ =>
      let db := { db with metrics := db.metrics.put d.id (toDbDefinition d) }
      if d.status = some "retired" ∨ d.status = some "closed" then
        .ok (db.updateAlerts (fun a => a.metricId = d.id ∧ a.resolvedAt = none) fun a => { a with resolvedAt := some ts })
      else .ok db

/-- `record`; every number is finite. -/
def record (db : MetricDb) (id : String) (value measuredAt : ℚ) : MetricDb :=
  let snapshots := db.snapshots ++ [⟨db.snapshots.length + 1, id, value, measuredAt⟩]
  let latest := (newestFirst (snapshots.filter fun s => s.metricId = id)).head?
  { db with
    snapshots := snapshots
    current := if db.metrics.has id then db.current.set id (latest.map Snapshot.value) else db.current }

inductive Status where
  | breached | recovered | ok | unknown
  deriving DecidableEq

/-- `MetricEvaluationResult`. -/
structure Evaluation where
  status : Status
  alertId : Option ℕ := none
  message : Option AlertMessage := none
  note : Option String := none
  calculation : Option Calculation := none
  deriving DecidableEq

def evaluationEvent (db : MetricDb) (m : Metric) (type : EventType) (alertId : ℕ) (alertType : Option String)
    (message : Option AlertMessage) (calculation : Calculation) (ts : ℚ) : MetricEvent where
  type := type
  metricId := m.id
  alertId := alertId
  alertType := alertType
  current := calculation.value
  calculation := some calculation
  threshold := m.threshold
  target := m.target
  alertOp := m.alertOp
  measuredAt := ts
  trend := db.recentTrend m.id
  message := message
  priority := m.priority

/-- What an assessment does to the open alert of the metric. -/
def settle (db : MetricDb) (m : Metric) (ts : ℚ) (openAlert : Option Alert) : Assessment → MetricDb × Evaluation
  | .disabled =>
    match openAlert with
    | some alert => (db.resolve alert.id ts, { status := .ok })
    | none => (db, { status := .ok })
  | .unknown calculation note => (db, { status := .unknown, note := note, calculation := some calculation })
  | .breached calculation alertType message =>
    match openAlert with
    | some alert =>
      (if alert.alertType ≠ alertType ∨ alert.message ≠ message then db.retype alert.id alertType message else db,
        { status := .breached, alertId := some alert.id, message := some message, calculation := some calculation })
    | none =>
      (db.insertAlert ⟨db.nextAlertId, m.id, alertType, message, none, ts⟩
          (db.evaluationEvent m .breach db.nextAlertId (some alertType) (some message) calculation ts),
        { status := .breached, alertId := some db.nextAlertId, message := some message, calculation := some calculation })
  | .healthy calculation =>
    match openAlert with
    | some alert =>
      ({ db.resolve alert.id ts with
          events := db.events ++ [db.evaluationEvent m .recovered alert.id none none calculation ts] },
        { status := .recovered, alertId := some alert.id, calculation := some calculation })
    | none => (db, { status := .ok, calculation := some calculation })

/-- The active metric with a threshold. -/
def evaluated (db : MetricDb) (id : String) : Option (Metric × ℚ) :=
  (db.metrics.get id).bind fun m => if m.status = "active" then m.threshold.map fun threshold => (m, threshold) else none

/-- The turn of one metric in `evaluate`. -/
def evaluate (db : MetricDb) (id : String) (ts : ℚ) : Except String (MetricDb × Option Evaluation) :=
  match db.evaluated id with
  | none => .ok (db, none)
  | some (m, threshold) =>
    match assess m threshold (db.samples id ts) ts with
    | .error e => .error e
    | .ok assessment =>
      let settled := db.settle m ts (db.openAlert id) assessment
      .ok (settled.1, some settled.2)

/-- `ManualAlertOptions`. -/
structure ManualAlert where
  message : String
  priority : Option String := none
  alertType : Option String := none
  facts : Option String := none

def ManualAlert.finalMessage (alert : ManualAlert) : AlertMessage :=
  .manual (match alert.facts.filter (· ≠ "") with
    | some facts => alert.message ++ "\n\nFacts: " ++ facts
    | none => alert.message)

def alert (db : MetricDb) (id : String) (manual : ManualAlert) (ts : ℚ) : Except String MetricDb :=
  match db.metrics.get id with
  | none => .error ("metric not found: " ++ id)
  | some m =>
    let alertType := manual.alertType.getD "manual"
    match db.openAlert id with
    | some open_ => .ok (db.retype open_.id alertType manual.finalMessage)
    | none => .ok (db.insertAlert ⟨db.nextAlertId, id, alertType, manual.finalMessage, none, ts⟩ {
        type := .breach
        metricId := id
        alertId := db.nextAlertId
        alertType := some alertType
        current := db.current.get id
        calculation := none
        threshold := m.threshold
        target := m.target
        alertOp := m.alertOp
        measuredAt := ts
        trend := db.recentTrend id
        message := some manual.finalMessage
        priority := manual.priority.getD m.priority })

def resolveAlert (db : MetricDb) (alertId : ℕ) (ts : ℚ) : MetricDb :=
  db.updateAlerts (fun a => a.id = alertId) fun a => { a with resolvedAt := some (a.resolvedAt.getD ts) }

end MetricDb

/-! ### Runs -/

/-- The operations. An operation that publishes may fail to, and is taken back then. -/
inductive Action where
  | define (d : Definition) (ts : ℚ)
  | record (id : String) (value measuredAt : ℚ)
  | evaluate (id : String) (ts : ℚ) (published : Bool)
  | alert (id : String) (manual : MetricDb.ManualAlert) (ts : ℚ) (published : Bool)
  | resolveAlert (alertId : ℕ) (ts : ℚ)

/-- The database after a transaction; one that throws, or publishes an event in vain, changes nothing. -/
def committed (db : MetricDb) (published : Bool) : Except String MetricDb → MetricDb
  | .error _ => db
  | .ok next => if published ∨ next.events = db.events then next else db

def MetricDb.next (db : MetricDb) : Action → MetricDb
  | .define d ts => committed db true (db.define d ts)
  | .record id value measuredAt => db.record id value measuredAt
  | .evaluate id ts published => committed db published ((db.evaluate id ts).map Prod.fst)
  | .alert id manual ts published => committed db published (db.alert id manual ts)
  | .resolveAlert alertId ts => db.resolveAlert alertId ts

def MetricDb.Reachable (db : MetricDb) : Prop := Reaches (· = .empty) MetricDb.next (fun _ _ => True) db

end Metrics

end MayAgent
