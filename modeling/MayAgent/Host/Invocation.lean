import MayAgent.Host.Trim

/-!
# Invocations of an agent

`resumeSession` restores the transcript of an ended session, appends a new message and runs the agent on it
(`executeSession`). How the invocation ended is read from the transcript: from the last call of `finish` that has a
successful result, and otherwise from the last turn. Where a finish is required, the same reading decides whether the agent
is asked once more.

What the agent does in a turn is arbitrary: it appends messages and may throw, and the session may be cancelled meanwhile.
Whether an error is one of the infrastructure, and what the finish tool answers to a captured call, are parameters.
Persistent chats, which do not end, compaction during a turn, and what is recorded about the session are left out.
-/

namespace MayAgent

namespace Invocation

/-! ### Finish calls -/

/-- `FinishParams`; those that are only handed on are kept together. -/
structure FinishParams where
  status : Option String := none
  summary : Option String := none
  result : Option Value := none
  others : Event := []

/-- What the finish tool answers to a captured call. -/
inductive ToolAnswer where
  | unavailable
  | invalid (error : String)
  | returned (content : List Block)

/-- `JSON.parse`, the errors of the infrastructure, the finish tool, and the time of the result that is pushed. -/
structure Runtime where
  parse : String → Option Value
  parse_empty : parse "" = none
  infra : String → Bool
  finish : Event → ToolAnswer
  now : Int

/-- The arguments of a call, which may be given as a text. -/
def Runtime.read (rt : Runtime) : Value → Option Value
  | .str text => rt.parse text
  | args => some args

/-- The fields that are read of the arguments; `null` has none to read. -/
def finishParams (args : Value) : Option FinishParams :=
  if args = .null then none
  else
    let fields := args.record?.getD []
    let facts := ((fields.field "verification_facts").filter (· ≠ .null)).or (fields.field "verification_evidence")
    some {
      status := fields.string? "status"
      summary := fields.string? "summary"
      result := fields.field "result"
      others := Event.ofFields (("verification_facts", facts) ::
        ["blockers", "deliverables", "next_steps", "completed_items", "new_items", "lessons", "context_updates"].map
          fun name => (name, fields.field name)) }

/-- The text of a block that reports an error of finish. -/
def finishError? : Block → Option String
  | .text text => if "finish() error:".toList.isPrefixOf (text.toList.dropWhile isSpace) then some text else none
  | _ => none

def matchingToolResult (messages : List Message) (id : String) : Option Message := messages.find? (Message.isResultOf id)

def succeeded (result : Message) : Bool := !result.isError && (result.blocks.findSome? finishError?).isNone

def finishToolCallSucceeded (messages : List Message) (toolCallId : String) : Bool :=
  toolCallId ≠ "" && (matchingToolResult messages toolCallId).any succeeded

variable (rt : Runtime)

/-- What a call of finish commits, which may be arguments that cannot be read. -/
def committed (messages : List Message) : Block → Option (Option FinishParams)
  | .toolCall id name args =>
    if name = "finish" ∧ args.truthy ∧ finishToolCallSucceeded messages id then some ((rt.read args).bind finishParams) else none
  | _ => none

/-- The blocks of an assistant's message. -/
def saidBlocks (m : Message) : List Block := if m.role = .assistant then m.blocks else []

/-- The last committed finish of the messages. -/
def scan (messages : List Message) : Option (Option FinishParams) :=
  messages.reverse.findSome? fun m => (saidBlocks m).findSome? (committed rt messages)

def extractFinishParams (messages : List Message) : Option FinishParams := (scan rt messages).join

def lastAssistant (messages : List Message) : Option Message := messages.reverse.find? fun m => m.role == .assistant

def extractLastAssistantError (messages : List Message) : Option String :=
  (lastAssistant messages).bind fun m => m.errorMessage.filter Text.isSaid

def emptyToolUse : String := "Agent ended on an empty tool-use assistant turn"
def emptyTurn : String := "Agent ended with an empty assistant turn"

def classifyTerminalAssistantFailure (messages : List Message) : Option String :=
  (messages.getLast?.filter fun last => last.role = .assistant).bind fun last =>
    let hasText := last.blocks.any Block.hasText
    let toolCalls := last.blocks.filter fun block => block.callId.isSome
    if last.stopReason = some "toolUse" ∧ toolCalls.length = 0 ∧ !hasText then some emptyToolUse
    else if last.stopReason = some "toolUse" ∧ 0 < toolCalls.length then some "Agent ended while waiting for tool results"
    else if !hasText ∧ toolCalls.length = 0 then some emptyTurn
    else none

def isRetryableEmptyAssistantFailure (reason : Option String) : Bool := reason == some emptyToolUse || reason == some emptyTurn

/-- The transcript that the agent is started on: `executeResume`, and `restoreAgentMessages`. -/
def resumeMessages (baseline : Option SystemMessage) (stored : List Message) (message : String) (now : Int) : List Message :=
  restoreAgentMessages baseline (resumeWith stored (some message) now).messages

/-! ### Execution -/

def responsesStreamTerminalError : String := "OpenAI Responses stream ended before a terminal response event"

/-- A turn of the agent: the messages it appends, the error it throws, and the cancellation of the session. -/
structure Turn where
  messages : List Message
  thrown : Option String := none
  interrupted : Bool := false
  lastError : Option String := none

structure Session where
  requireFinish : Bool
  outputSchema : Bool

/-- The state of a running session. -/
structure Live where
  messages : List Message
  interrupted : Bool := false
  lastError : Option String := none

/-- `agent.prompt(...)`, with what the turn does. -/
def Live.prompt (s : Live) (turn : Turn) : Live where
  messages := s.messages ++ turn.messages
  interrupted := s.interrupted || turn.interrupted
  lastError := turn.lastError.or s.lastError

def shouldAttemptWorkflowFinishRecovery (reason : Option String) : Bool :=
  match reason.filter (· ≠ "") with
  | none => false
  | some reason =>
    reason == responsesStreamTerminalError || isRetryableEmptyAssistantFailure (some reason) || rt.infra reason

/-- A finish call that a failed stream left behind: its id and its arguments. -/
structure Captured where
  id : String
  args : Event

def finishCall? : Block → Option (String × Value)
  | .toolCall id name args => if name = "finish" then some (id, args) else none
  | _ => none

def capturedAbortedFinish (messages : List Message) (reason : String) : Option Captured :=
  if reason ≠ responsesStreamTerminalError then none
  else
    (lastAssistant messages).bind fun m =>
      if m.stopReason = some "aborted" ∧ m.errorMessage = some reason then
        match m.blocks.filterMap finishCall? with
        | [(id, args)] => if id = "" then none else ((rt.read args).bind Value.record?).map (Captured.mk id)
        | _ => none
      else none

inductive Disposition where
  | recovered | rejected (error : String) | ineligible | alreadyCommitted

def pushedResult (call : Captured) (isError : Bool) (content : List Block) : Message where
  role := .toolResult
  toolCallId := some call.id
  isError := isError
  content := .blocks content
  timestamp := rt.now

/-- `recoverCapturedWorkflowFinish`: the disposition, and the result that is pushed. -/
def recoverCapturedWorkflowFinish (messages : List Message) (reason : String) : Disposition × Option Message :=
  match capturedAbortedFinish rt messages reason with
  | none => (.ineligible, none)
  | some call =>
    if (matchingToolResult messages call.id).isSome then (.alreadyCommitted, none)
    else
      match rt.finish call.args with
      | .unavailable => (.rejected "finish tool unavailable", none)
      | .invalid cause =>
        let error := "Captured finish recovery validation failed: " ++ cause
        (.rejected error, some (pushedResult rt call true [.text error]))
      | .returned content =>
        match content.findSome? finishError? with
        | some error => (.rejected error, some (pushedResult rt call true content))
        | none => (.recovered, some (pushedResult rt call false content))

/-- Where the work of an invocation ends: the state, the error thrown, and the number of prompts. -/
structure Work where
  live : Live
  error : Option String
  prompts : ℕ

def Live.interruption (s : Live) : Option String := if s.interrupted then some "Session interrupted" else none

def Live.settled (s : Live) : Work := ⟨s, s.interruption, 1⟩

/-- The second prompt, the last one. -/
def Live.again (s : Live) (turn : Turn) (error : Option String) : Work := ⟨s.prompt turn, error, 2⟩

/-- The first prompt threw. -/
def recoverThrown (session : Session) (s : Live) (initialError : String) (second : Turn) : Work :=
  let recovery := if session.requireFinish then recoverCapturedWorkflowFinish rt s.messages initialError else (.ineligible, none)
  let s := { s with messages := s.messages ++ recovery.2.toList }
  match recovery.1 with
  | .recovered | .alreadyCommitted => s.settled
  | _ =>
    if session.requireFinish ∧ (extractFinishParams rt s.messages).isNone ∧
        shouldAttemptWorkflowFinishRecovery rt (some initialError) then
      s.again second ((second.thrown.map fun recoveryError => "Initial workflow prompt failed: " ++ initialError ++
        "; bounded finish recovery failed: " ++ recoveryError).or (s.prompt second).interruption)
    else ⟨s, some initialError, 1⟩

/-- The first prompt returned: a required finish that is missing is asked for once. -/
def correctMissing (session : Session) (s : Live) (second : Turn) : Work :=
  let missingFinish := (extractFinishParams rt s.messages).isNone
  let terminalError := (extractLastAssistantError s.messages).or (classifyTerminalAssistantFailure s.messages)
  if session.requireFinish ∧ missingFinish ∧ shouldAttemptWorkflowFinishRecovery rt terminalError then
    let s := if isRetryableEmptyAssistantFailure terminalError then
        { s with messages := (trimTerminalEmptyAssistantTurn s.messages).getD s.messages } else s
    s.again second second.thrown
  else if session.requireFinish ∧ missingFinish ∧ terminalError = none then s.again second second.thrown
  else ⟨s, none, 1⟩

/-- The work of `executeSession`. -/
def work (session : Session) (start : List Message) (first second : Turn) : Work :=
  let s := Live.prompt ⟨start, false, none⟩ first
  match first.thrown with
  | some initialError =>
    if s.interrupted then ⟨s, some initialError, 1⟩ else recoverThrown rt session s initialError second
  | none => if s.interrupted then s.settled else correctMissing rt session s second

inductive Status where
  | done | error | interrupted
  deriving DecidableEq

/-- `TaskResult`. -/
structure Result where
  status : Status
  error : Option String
  finishResult : Option FinishParams
  lastAssistantText : String
  messages : List Message
  prompts : ℕ

end Invocation

end MayAgent
