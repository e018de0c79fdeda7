import MayAgent.Lib.Json
import MayAgent.Lib.Reach
import Mathlib.Logic.Function.Basic

/-!
# The relay of Task workers

`task-attempt-process.ts`: each Task worker is a child process that sends frames to the Host, and the
Host applies them to its event bus. All workers of a bus share one scheduler, which is meant to apply
one frame per turn and to leave a gap before the next one.
-/

namespace MayAgent

def WORKER_RELAY_BATCH_SIZE : Nat := 1

def WORKER_RELAY_TURN_DELAY_MS : Int := 5

def WORKER_RELAY_BACKLOG_LIMIT : Nat := 256

/-- `WORKER_FRAME_LIMIT`, in bytes. -/
def WORKER_FRAME_LIMIT : Nat := 8 * 1024 * 1024

/-- `WorkerFrame`, without the task checks. -/
inductive WorkerFrame where
  | event (eventId : Int) (event : Value) (recordOnly : Bool)
  | result (dependentTaskIds : List String)
  | error (error : String)
  deriving DecidableEq

def required (value label : String) : Except String String :=
  if Text.trim value = "" then .error (label ++ " must be non-empty") else .ok (Text.trim value)

/-- A message of a worker process as it arrives over IPC, with the length of its JSON text. -/
structure WorkerMessage where
  bytes : Nat
  value : Value
  deriving DecidableEq

/-- The event branch of `parseWorkerFrame`. -/
def parseEventFrame (parsed : Event) : Except String WorkerFrame :=
  let marker := parsed.field "recordOnly"
  match parsed.field "eventId", parsed.field "event" with
  | some (.num eventId), some event =>
    if !isSafeInteger eventId || eventId ≤ 0 || !event.truthy || (marker.isSome && marker != some (.bool true)) then
      .error "Task worker returned an invalid event frame"
    else .ok (.event eventId event marker.isSome)
  | _, _ => .error "Task worker returned an invalid event frame"

def parseWorkerFrame (message : WorkerMessage) : Except String WorkerFrame :=
  if WORKER_FRAME_LIMIT < message.bytes then .error "Task worker frame is too large"
  else match message.value with
    | .obj parsed =>
      match Event.field parsed "kind", Event.field parsed "dependentTaskIds", Event.field parsed "error" with
      | some (.str "event"), _, _ => parseEventFrame parsed
      | some (.str "result"), some (.arr ids), _ =>
        (ids.mapM fun value => required value.text "dependent Task id").map .result
      | some (.str "error"), _, some (.str error) =>
        if Text.nonEmpty error then .ok (.error (Text.trim error)) else .error "Task worker returned an unknown frame"
      | _, _, _ => .error "Task worker returned an unknown frame"
    | .arr _ => .error "Task worker returned an unknown frame"
    | _ => .error "Task worker returned an invalid frame"

structure WorkerExit where
  code : Option Int
  signal : Option String
  deriving DecidableEq

/-- How `runWorkerProcess` ends. -/
inductive WorkerOutcome where
  | returned (dependentTaskIds : List String)
  | thrown (message : String)
  deriving DecidableEq

/-- The variables of one `runWorkerProcess`. `closed` holds the exit once the child has closed.
`received` is not in the source: every well-formed frame the worker sent, in arrival order. -/
structure Worker where
  frames : List WorkerFrame := []
  relayScheduled : Bool := false
  result : Option (List String) := none
  workerError : Option String := none
  protocolError : Option String := none
  closed : Option WorkerExit := none
  outcome : Option WorkerOutcome := none
  received : List WorkerFrame := []
  deriving DecidableEq

/-- A frame applied to the bus, with its worker and the time. -/
structure AppliedFrame where
  worker : String
  frame : WorkerFrame
  at_ : Int
  deriving DecidableEq

/-- The Host side: the scheduler of the bus, the due times of its outstanding timers, the workers, and the
frames applied so far. -/
structure Relay where
  now : Int
  pending : List String
  scheduled : Bool
  timers : List Int
  workers : String → Worker
  applied : List AppliedFrame

namespace Relay

def setWorker (s : Relay) (id : String) (w : Worker) : Relay := { s with workers := Function.update s.workers id w }

/-- `setTimeout(drainOne, WORKER_RELAY_TURN_DELAY_MS)`. -/
def arm (s : Relay) : Relay :=
  { s with scheduled := true, timers := s.timers ++ [s.now + WORKER_RELAY_TURN_DELAY_MS] }

/-- `scheduleWorkerRelay`; the callback is the drain of a worker. -/
def scheduleWorkerRelay (s : Relay) (id : String) : Relay :=
  let s := { s with pending := s.pending ++ [id] }
  if s.scheduled then s else s.arm

/-- The end of `runWorkerProcess`, once the child has closed and its frames are drained. -/
def conclude (w : Worker) (exit : WorkerExit) : WorkerOutcome :=
  match w.protocolError, w.workerError with
  | some message, _ => .thrown message
  | none, some message => .thrown message
  | none, none =>
    if exit.code ≠ some 0 then
      .thrown ("Task worker exited with " ++ match exit.signal, exit.code with
        | some signal, _ => "signal " ++ signal
        | none, some code => "code " ++ toString code
        | none, none => "code null")
    else match w.result with
      | none => .thrown "Task worker exited without a result frame"
      | some ids => .returned ids

/-- `relaySettled`: resumes a `runWorkerProcess` that waits for its relay. -/
def settle (w : Worker) : Worker :=
  match w.closed, w.outcome with
  | some exit, none => { w with outcome := some (conclude w exit) }
  | _, _ => w

/-- What `applyFrame` leaves in the variables of its worker. -/
def noteFrame (w : Worker) : WorkerFrame → Worker
  | .event _ _ _ => w
  | .result ids => { w with result := some ids }
  | .error message => { w with workerError := some message }

/-- The loop of `drainFrames` over `count` more frames. With `failure` the application of a frame throws. -/
def applyFrames (failure : Option String) (id : String) : Nat → Relay → Relay
  | 0, s => s
  | count + 1, s =>
    let w := s.workers id
    match w.frames with
    | [] => s
    | frame :: rest =>
      let s := { s with applied := s.applied ++ [(⟨id, frame, s.now⟩ : AppliedFrame)] }
      match failure with
      | some message => s.setWorker id { w with frames := [], protocolError := some message }
      | none => applyFrames failure id count (s.setWorker id { noteFrame w frame with frames := rest })

def drainFrames (s : Relay) (failure : Option String) (id : String) : Relay :=
  let s := s.setWorker id { s.workers id with relayScheduled := false }
  let s := applyFrames failure id WORKER_RELAY_BATCH_SIZE s
  if (s.workers id).frames.isEmpty then s.setWorker id (settle (s.workers id))
  else (s.setWorker id { s.workers id with relayScheduled := true }).scheduleWorkerRelay id

def runPending (s : Relay) (failure : Option String) : Relay :=
  match s.pending with
  | [] => s
  | id :: rest => ({ s with pending := rest }).drainFrames failure id

def drainOne (s : Relay) (failure : Option String) : Relay :=
  let s := ({ s with scheduled := false }).runPending failure
  if s.pending.isEmpty then s else s.arm

def enqueueFrame (s : Relay) (id : String) (frame : WorkerFrame) : Relay :=
  let w := s.workers id
  let frames := w.frames ++ [frame]
  let w := { w with
    frames := frames
    protocolError := if WORKER_RELAY_BACKLOG_LIMIT < frames.length then
      some "Task worker event backlog exceeded its bound" else w.protocolError }
  if w.relayScheduled then s.setWorker id w
  else (s.setWorker id { w with relayScheduled := true }).scheduleWorkerRelay id

end Relay

/-- What happens to the relay: a message of a worker, an error of its input channel, its closing, its
timeout or failure to start, the passing of time, and the firing of a timer. -/
inductive RelayAction where
  | message (id : String) (message : WorkerMessage)
  | failInput (id error : String)
  | close (id : String) (exit : WorkerExit)
  | abort (id error : String)
  | wait (ms : Nat)
  | fire (due : Int) (failure : Option String)

namespace Relay

/-- The `message` listener. -/
def receive (s : Relay) (id : String) (parsed : Except String WorkerFrame) : Relay :=
  match parsed with
  | .error error =>
    if (s.workers id).protocolError.isSome then s
    else s.setWorker id { s.workers id with protocolError := some error }
  | .ok frame =>
    let s := s.setWorker id { s.workers id with received := (s.workers id).received ++ [frame] }
    if (s.workers id).protocolError.isSome then s else s.enqueueFrame id frame

def next (s : Relay) : RelayAction → Relay
  | .message id message => s.receive id (parseWorkerFrame message)
  | .failInput id error => s.setWorker id { s.workers id with protocolError := some error }
  | .close id exit =>
    let w := { s.workers id with closed := some exit }
    s.setWorker id (if w.frames.isEmpty && !w.relayScheduled then settle w else w)
  | .abort id error =>
    let w := s.workers id
    s.setWorker id { w with outcome := w.outcome.or (some (.thrown error)) }
  | .wait ms => { s with now := s.now + ms }
  | .fire due failure => ({ s with timers := s.timers.erase due }).drainOne failure

/-- A timer fires once it is due, and a closed child sends nothing more. -/
def Enabled (s : Relay) : RelayAction → Prop
  | .message id _ => (s.workers id).closed = none
  | .close id _ => (s.workers id).closed = none
  | .fire due _ => due ∈ s.timers ∧ due ≤ s.now
  | _ => True

instance (s : Relay) : (action : RelayAction) → Decidable (s.Enabled action)
  | .message id _ => inferInstanceAs (Decidable ((s.workers id).closed = none))
  | .close id _ => inferInstanceAs (Decidable ((s.workers id).closed = none))
  | .fire due _ => inferInstanceAs (Decidable (due ∈ s.timers ∧ due ≤ s.now))
  | .failInput _ _ | .abort _ _ | .wait _ => isTrue trivial

/-- A bus without workers. -/
structure Initial (s : Relay) : Prop where
  pending : s.pending = []
  scheduled : s.scheduled = false
  timers : s.timers = []
  workers : ∀ id, s.workers id = {}
  applied : s.applied = []

/-- The relays reached by actions that meet `ok`. -/
def Reachable (ok : Relay → RelayAction → Prop) (s : Relay) : Prop :=
  Reaches Initial next (fun s action => s.Enabled action ∧ ok s action) s

end Relay

end MayAgent
