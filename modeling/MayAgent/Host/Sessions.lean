import MayAgent.Lib.Json
import MayAgent.Lib.Reach

/-!
# Sessions and their resumption

A session keeps two files: the log, to which every message is appended, and a snapshot of the last compaction.
After a crash `buildResumeMessages` rebuilds the messages from the snapshot, or from the log where there is none,
and repairs their end. A message is redacted on its way to the log.
-/

namespace MayAgent

/-! ### Messages -/

inductive Role where
  | system | user | assistant | toolResult
  deriving DecidableEq

inductive Block where
  | text (text : String)
  | toolCall (id name : String) (arguments : Value)
  | other (value : Value)
  deriving DecidableEq

def Block.callId : Block → Option String
  | .toolCall id _ _ => some id
  | _ => none

inductive Content where
  | text (text : String)
  | blocks (blocks : List Block)
  deriving DecidableEq

/-- `AgentMessage`. -/
structure Message where
  role : Role
  content : Content
  toolCallId : Option String := none
  isError : Bool := false
  stopReason : Option String := none
  errorMessage : Option String := none
  timestamp : Int
  deriving DecidableEq

namespace Message

def toolCalls (m : Message) : List String :=
  match m.role, m.content with
  | .assistant, .blocks blocks => blocks.filterMap Block.callId
  | _, _ => []

def isResultOf (id : String) (m : Message) : Bool := m.role == .toolResult && m.toolCallId == some id

def isSyntheticRestart (m : Message) : Bool :=
  match m.role, m.content with
  | .user, .blocks (.text text :: _) => Text.startsWith text "Process restarted."
  | _, _ => false

def interrupted (now : Int) (id : String) : Message where
  role := .toolResult
  toolCallId := some id
  isError := true
  content := .blocks [.text "Tool call interrupted because the process restarted."]
  timestamp := now

def userTurn (now : Int) (text : String) : Message where
  role := .user
  content := .blocks [.text text]
  timestamp := now

def restartNotice (now : Int) : Message := userTurn now "Process restarted. Continue where you left off."

end Message

structure Redaction where
  text : String → String
  value : Value → Value
  skips : Message → Bool

namespace Redaction

variable (r : Redaction)

def block : Block → Block
  | .text text => .text (r.text text)
  | .toolCall id name arguments => .toolCall (r.text id) (r.text name) (r.value arguments)
  | .other value => .other (r.value value)

def content : Content → Content
  | .text text => .text (r.text text)
  | .blocks blocks => .blocks (blocks.map r.block)

/-- `sanitizeMessageForTranscript`. -/
def sanitize (m : Message) : Message :=
  if r.skips m then m
  else
    { m with
      content := r.content m.content
      toolCallId := m.toolCallId.map r.text
      stopReason := m.stopReason.map r.text
      errorMessage := m.errorMessage.map r.text }

end Redaction

/-! ### Resumption -/

structure ResumeMessages where
  kept : List Message
  added : List Message

def ResumeMessages.messages (resume : ResumeMessages) : List Message := resume.kept ++ resume.added

/-- `buildResumeMessages`, from the messages that were read. -/
def buildResumeMessages (stored : List Message) (now : Int) : ResumeMessages :=
  let pending := (stored.getLast?.map Message.toolCalls).getD []
  let errors := pending.map (Message.interrupted now)
  let notice := match (stored ++ errors).getLast? with
    | some last => if last.role = .user then [] else [Message.restartNotice now]
    | none => []
  ⟨stored, errors ++ notice⟩

/-- The messages with which `executeResume` starts the run. The tail that an injected message replaces is taken from
the added messages if it is one of them. -/
def resumeWith (stored : List Message) (injectUserMessage : Option String) (now : Int) : ResumeMessages :=
  let resume := buildResumeMessages stored now
  match injectUserMessage.filter (· ≠ "") with
  | none => resume
  | some text =>
    let turn := Message.userTurn now text
    if resume.messages.getLast?.any Message.isSyntheticRestart then
      if resume.added.isEmpty then ⟨resume.kept.dropLast, [turn]⟩
      else ⟨resume.kept, resume.added.dropLast ++ [turn]⟩
    else ⟨resume.kept, resume.added ++ [turn]⟩

/-! ### Runs -/

/-- The files of a session and the messages of its model. `compaction` says whether the last compaction was saved,
`appended` how many messages were persisted since it. -/
structure AgentSession where
  log : List Message
  snapshot : Option (List Message)
  context : List Message
  compaction : Option Bool
  appended : Nat
  deriving DecidableEq

namespace AgentSession

variable (r : Redaction)

/-- `readCompactedMessages(…) ?? readSessionMessages(…)`. -/
def stored (s : AgentSession) : List Message :=
  match s.snapshot with
  | some (m :: rest) => m :: rest
  | _ => s.log

/-- A message that ends, a compaction with its output, and a crash with the resumption after it. A crash may
interrupt a resumption after some of its messages were persisted. -/
inductive Action where
  | append (m : Message)
  | compact (first : Message) (rest : List Message) (saved : Bool)
  | resume (injectUserMessage : Option String) (now : Int)
  | interruptedResume (injectUserMessage : Option String) (now : Int) (persisted : Nat)

def persist (s : AgentSession) (messages : List Message) : AgentSession :=
  { s with log := s.log ++ messages.map r.sanitize, appended := s.appended + messages.length }

def next (s : AgentSession) : Action → AgentSession
  | .append m => { s.persist r [m] with context := s.context ++ [m] }
  | .compact first rest saved =>
    { s with
      snapshot := if saved then some (first :: rest) else s.snapshot
      context := first :: rest
      compaction := some saved
      appended := 0 }
  | .resume inject now =>
    let resume := resumeWith s.stored inject now
    { s.persist r resume.added with context := resume.messages }
  | .interruptedResume inject now persisted =>
    let resume := resumeWith s.stored inject now
    { s.persist r (resume.added.take persisted) with context := resume.kept ++ resume.added.take persisted }

def initial : AgentSession := ⟨[], none, [], none, 0⟩

/-- The sessions reached by actions that meet `ok`. -/
def Reachable (ok : AgentSession → Action → Prop) (s : AgentSession) : Prop := Reaches (· = initial) (next r) ok s

end AgentSession

end MayAgent
