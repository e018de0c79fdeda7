import MayAgent.Lib.Reach
import MayAgent.Lib.Table

/-!
# Coalesced metric passes

`metric-source-measurement.ts`: `attachMetricPass` keeps one pending request and a `drain` promise that runs passes
until nothing is pending. Every promise chain that was started and is not settled is kept, so that a second one would
show. `waiting` and `passes` are only observed: the requests after which no pass has started, and the passes so far.
-/

namespace MayAgent

namespace MetricPasses

/-- `MetricPass`: one request. -/
structure Request where
  triggerEventId : Option Nat
  requestedAt : Int
  forced : Bool
  deriving DecidableEq

/-- The columns of an active source metric by which a pass selects it. -/
structure SourceMetric where
  id : String
  measure_interval : Option Int
  deriving DecidableEq

/-- The place of a drain: behind its timer, in a pass, or between its loop and its `finally`. -/
inductive Drain where
  | timer
  | running (current : Request)
  | ended
  deriving DecidableEq

/-- A pass: its request, the metrics it read with the due times it saw, those it measures, and the requests that
came since the pass before. -/
structure Pass where
  current : Request
  nextDueAt : Table String Int
  rows : List SourceMetric
  dueRows : List SourceMetric
  coalesced : List Request

structure State where
  pending : Option Request := none
  drain : Bool := false
  drains : List Drain := []
  nextDueAt : Table String Int := ∅
  waiting : List Request := []
  passes : List Pass := []

def dueAt (nextDueAt : Table String Int) (metric : SourceMetric) : Int := (nextDueAt.get metric.id).getD 0

/-- `isDue` of a measurement pass. -/
def isDue (current : Request) (nextDueAt : Table String Int) (metric : SourceMetric) : Bool :=
  current.forced || decide (dueAt nextDueAt metric ≤ current.requestedAt)

/-- `onAttempt` of a measurement pass. -/
def onAttempt (current : Request) (nextDueAt : Table String Int) (metric : SourceMetric) : Table String Int :=
  nextDueAt.put metric.id (current.requestedAt + (metric.measure_interval.filter (0 < ·)).getD 0)

namespace State

def schedule (s : State) (request : Request) : State :=
  if s.drain then { s with pending := some request }
  else { s with pending := some request, drain := true, drains := s.drains ++ [.timer] }

/-- One look of the loop of drain `i` at the pending request: `run` starts, or the loop is over. -/
def look (s : State) (i : Nat) (rows : List SourceMetric) : State :=
  match s.pending with
  | some current => { s with
      pending := none
      drains := s.drains.set i (.running current)
      waiting := []
      passes := s.passes ++
        [⟨current, s.nextDueAt, rows, rows.filter (isDue current s.nextDueAt), s.waiting⟩] }
  | none => { s with drains := s.drains.set i .ended }

/-- `finally` of drain `i`. -/
def settle (s : State) (i : Nat) : State :=
  let s := { s with drain := false, drains := s.drains.eraseIdx i }
  match s.pending with
  | some request => s.schedule request
  | none => s

end State

def Drain.runs : Drain → Bool
  | .running _ => true
  | _ => false

def Drain.looks : Drain → Bool
  | .timer | .running _ => true
  | .ended => false

/-- What may happen next: a request, a look of a drain with the rows that a pass starting then reads, an attempt on a
metric in the pass, the failure of the pass, and the `finally`. -/
inductive Action where
  | request (request : Request)
  | look (i : Nat) (rows : List SourceMetric)
  | attempt (i : Nat) (metric : SourceMetric)
  | fail (i : Nat)
  | settle (i : Nat)

/-- One step; an action of a drain that stands elsewhere changes nothing. -/
def next (s : State) : Action → State
  | .request request => { s.schedule request with waiting := s.waiting ++ [request] }
  | .look i rows => if s.drains[i]?.any Drain.looks then s.look i rows else s
  | .attempt i metric =>
    match s.drains[i]? with
    | some (.running current) => { s with nextDueAt := onAttempt current s.nextDueAt metric }
    | _ => s
  | .fail i => if s.drains[i]?.any Drain.runs then { s with drains := s.drains.set i .ended } else s
  | .settle i => if s.drains[i]? = some .ended then s.settle i else s

def Reachable (s : State) : Prop := Reaches (· = {}) next (fun _ _ => True) s

end MetricPasses

end MayAgent
