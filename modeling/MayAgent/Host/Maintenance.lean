import MayAgent.Lib.Reach

/-!
# Maintenance entries of the host

`HostMaintenance` runs the handler of an entry on timer ticks, on triggers and on events. While a run is in flight, events
are queued, and a settled run schedules a drain, which takes one event from the queue and triggers the entry with it. What
is kept by name is kept here for one entry, so that a run mixes everything that can happen to it in any order.

Cadences are left out: a tick or an unforced trigger comes with the outcome of its debounce. The bus hands the event of a
started run to the entries that subscribe to it before `observe` returns, so a start may queue events of its own; that
of a settled run is published before its drain is scheduled, so it may start another run. A queue is an object that a
drain keeps a reference to; objects are numbered. `failures` and `discards` are only observed.
-/

namespace MayAgent

namespace Maintenance

variable {E : Type}

inductive Trigger (E : Type) where
  | tick
  | manual
  | event (event : E)
  deriving DecidableEq

/-- A handler whose promise is not settled. -/
structure Run (E : Type) where
  trigger : Trigger E
  startMs : Int
  timedOut : Bool
  deriving DecidableEq

/-- The array under an entry's name in `queuedEventTriggers`. -/
structure Queue (E : Type) where
  id : Nat
  events : List E
  deriving DecidableEq

/-- `enabled`: the entry is declared and not disabled. `registered`: it has a handler. `drains`: the queues of the drains
behind a timer. `failures`: the runs that failed since the last success. `discards`: their number at each discard by
the error rule. -/
structure Entry (E : Type) where
  enabled : Bool
  registered : Bool
  retired : Bool := false
  inflight : List Int := []
  runs : List (Run E) := []
  queue : Option (Queue E) := none
  created : Nat := 0
  drains : List Nat := []
  consecutiveErrors : Nat := 0
  failures : Nat := 0
  discards : List Nat := []
  deriving DecidableEq

/-- How a start goes: its time, the events that arrive during its observation, and whether it was observed. -/
structure Start (E : Type) where
  startMs : Int
  echoes : List E := []
  recorded : Bool := true

namespace Entry

def queued (s : Entry E) : List E := (s.queue.map Queue.events).getD []

def maxDepth : Nat := 3

/-- The loop that makes room in a full queue. -/
def dropOldest : List E → List E
  | [] => []
  | e :: queue => if maxDepth ≤ (e :: queue).length then dropOldest queue else e :: queue

def enqueueEventTrigger (s : Entry E) (e : E) : Entry E :=
  match s.queue with
  | some queue => { s with queue := some ⟨queue.id, dropOldest queue.events ++ [e]⟩ }
  | none => { s with queue := some ⟨s.created, [e]⟩, created := s.created + 1 }

/-- `triggerNow` with an event while a run is in flight. -/
def triggerBusy (s : Entry E) (e : E) : Entry E :=
  if s.retired || !s.enabled then s else s.enqueueEventTrigger e

def addInflight (s : Entry E) (startMs : Int) : Entry E := { s with inflight := s.inflight ++ [startMs] }

def removeInflight (s : Entry E) (startMs : Int) : Entry E := { s with inflight := s.inflight.erase startMs }

def fireHandler (s : Entry E) (trigger : Trigger E) (start : Start E) : Entry E :=
  if !s.registered then s
  else
    let observed := start.echoes.foldl triggerBusy (s.addInflight start.startMs)
    if !start.recorded then observed.removeInflight start.startMs
    else { observed with runs := observed.runs ++ [⟨trigger, start.startMs, false⟩] }

/-- `triggerNow`; a trigger that is not forced may be debounced. -/
def triggerNow (s : Entry E) (event : Option E) (debounced : Bool) (start : Start E) : Entry E :=
  if s.retired || !s.enabled then s
  else if s.inflight ≠ [] then
    match event with
    | some e => s.triggerBusy e
    | none => s
  else if debounced then s
  else s.fireHandler ((event.map Trigger.event).getD .manual) start

def tick (s : Entry E) (debounced : Bool) (start : Start E) : Entry E :=
  if s.retired || !s.enabled then s
  else if s.inflight ≠ [] then s
  else if debounced then s
  else s.fireHandler .tick start

def drainQueuedEventTrigger (s : Entry E) (afterError : Bool) : Entry E :=
  if !s.enabled then s
  else if s.inflight ≠ [] then s
  else
    match s.queue with
    | none => s
    | some queue =>
      if queue.events = [] then { s with queue := none }
      else if afterError then
        if 5 ≤ s.consecutiveErrors + 1 then
          { s with
            consecutiveErrors := s.consecutiveErrors + 1
            queue := none
            discards := s.discards ++ [s.failures] }
        else { s with consecutiveErrors := s.consecutiveErrors + 1, drains := s.drains ++ [queue.id] }
      else { s with consecutiveErrors := 0, drains := s.drains ++ [queue.id] }

/-- The timer of a drain of the queue `id`. -/
def drain (s : Entry E) (id : Nat) (start : Start E) : Entry E :=
  match s.queue with
  | none => s
  | some queue =>
    if queue.id ≠ id then s
    else
      match queue.events with
      | [] => { s with queue := none }
      | e :: rest =>
        { s with queue := if rest = [] then none else some ⟨id, rest⟩ }.triggerNow (some e) false start

def counted (s : Entry E) (failed : Bool) : Entry E := { s with failures := if failed then s.failures + 1 else 0 }

/-- The forced triggers of the subscribers of an event, with how each goes if it starts a run. -/
def observe (s : Entry E) (arrivals : List (E × Start E)) : Entry E :=
  arrivals.foldl (fun s arrival => s.triggerNow (some arrival.1) false arrival.2) s

/-- The end of a handler's promise. The failure of a run that timed out was published by its timer. -/
def settle (s : Entry E) (i : Nat) (succeeded : Bool) (arrivals : List (E × Start E)) : Entry E :=
  match s.runs[i]? with
  | none => s
  | some run =>
    let failed := run.timedOut || !succeeded
    let removed := ({ s with runs := s.runs.eraseIdx i }.removeInflight run.startMs).counted failed
    (removed.observe (if run.timedOut then [] else arrivals)).drainQueuedEventTrigger failed

end Entry

/-- What can happen to an entry. A reload may declare, change, disable or remove it, with or without its handler, and a
handler may be registered later. -/
inductive Action (E : Type) where
  | trigger (event : Option E) (debounced : Bool) (start : Start E)
  | tick (debounced : Bool) (start : Start E)
  | timeout (i : Nat)
  | settle (i : Nat) (succeeded : Bool) (arrivals : List (E × Start E))
  | drain (i : Nat) (start : Start E)
  | reload (enabled registered : Bool)
  | register
  | close

namespace Entry

def next (s : Entry E) : Action E → Entry E
  | .trigger event debounced start => s.triggerNow event debounced start
  | .tick debounced start => s.tick debounced start
  | .timeout i => { s with runs := s.runs.modify i fun run => { run with timedOut := true } }
  | .settle i succeeded arrivals => s.settle i succeeded arrivals
  | .drain i start =>
    match s.drains[i]? with
    | none => s
    | some id => { s with drains := s.drains.eraseIdx i }.drain id start
  | .reload enabled registered => { s with enabled, registered, queue := if enabled then s.queue else none }
  | .register => { s with registered := true }
  | .close => { s with retired := true, queue := none }

/-- An entry before anything happened to it. -/
def Fresh (s : Entry E) : Prop := s = { enabled := s.enabled, registered := s.registered }

/-- The states reached by actions that meet `ok`. -/
def Reachable (ok : Entry E → Action E → Prop) (s : Entry E) : Prop := Reaches Fresh next ok s

end Entry

end Maintenance

end MayAgent
