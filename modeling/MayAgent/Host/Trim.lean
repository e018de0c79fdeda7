import MayAgent.Host.Sessions
import MayAgent.Lib.Pattern

/-!
# Trimmed turns of a session

A turn that ends with an assistant's message without text and tool calls is taken back: the message is removed from
the list of the model, and the log and the snapshot are written anew from that list
(`trimAndPersistTerminalEmptyAssistant`). A resumed run starts with its own system message in place of those that
were read (`restoreAgentMessages`).
-/

namespace MayAgent

/-- `trim()` leaves something. -/
def Text.isSaid (s : String) : Bool := s.toList.any fun c => !isSpaceCode c.toNat

def Block.hasText : Block → Bool
  | .text s => Text.isSaid s
  | _ => false

namespace Message

def blocks (m : Message) : List Block :=
  match m.content with
  | .blocks blocks => blocks
  | .text _ => []

/-- What is checked of the turn that is taken back. -/
def isEmptyTurn (m : Message) : Bool :=
  m.role == .assistant && !m.blocks.any Block.hasText && !m.blocks.any fun block => block.callId.isSome

def isSilent (m : Message) : Bool :=
  match m.content with
  | .blocks _ => m.isEmptyTurn
  | .text s => m.role == .assistant && !Text.isSaid s

end Message

/-- `trimTerminalEmptyAssistantTurn`: the messages that are left, if there is something to trim. -/
def trimTerminalEmptyAssistantTurn (messages : List Message) : Option (List Message) :=
  match messages.getLast? with
  | some last => if last.isEmptyTurn then some messages.dropLast else none
  | none => none

/-- The message `createInitialSystemMessage` makes. -/
structure SystemMessage where
  message : Message
  system : message.role = .system

def restoreAgentMessages (baseline : Option SystemMessage) (messages : List Message) : List Message :=
  (baseline.map SystemMessage.message).toList ++ messages.filter fun m => m.role ≠ .system

def AgentSession.persisted (s : AgentSession) : AgentSession.Action → List Message
  | .append m => [m]
  | .compact _ _ _ => []
  | .resume inject now => (resumeWith s.stored inject now).added
  | .interruptedResume inject now persisted => (resumeWith s.stored inject now).added.take persisted

/-- A session with what is said of it: `kept` are the messages that were ever appended to the log, without the silent
turns that were trimmed, and `whole` holds as long as the list of the model was neither compacted nor read from
less than the log. -/
structure TrimmedSession where
  session : AgentSession
  kept : List Message
  whole : Bool

namespace TrimmedSession

/-- An action of a session, with the system message of a resumed run, or a trim. Writing the log may fail, and so may
saving the snapshot after it. -/
inductive Action where
  | act (action : AgentSession.Action) (baseline : Option SystemMessage)
  | trim (rewritten saved : Bool)

/-- The list with which a resumed run starts. -/
def restored (baseline : Option SystemMessage) (s : AgentSession) : AgentSession.Action → AgentSession
  | .resume _ _ => { s with context := restoreAgentMessages baseline s.context }
  | _ => s

def stillWhole (s : TrimmedSession) : AgentSession.Action → Bool
  | .append _ => s.whole
  | .compact _ _ _ => false
  | .resume inject now =>
    (resumeWith s.session.stored inject now).kept == s.session.log && s.kept.all fun m => m.role != .system
  | .interruptedResume _ _ _ => false

/-- `trimAndPersistTerminalEmptyAssistant`. -/
def trimmed (r : Redaction) (s : AgentSession) (messages : List Message) (rewritten saved : Bool) : AgentSession :=
  { s with
    context := messages
    log := if rewritten then messages.map r.sanitize else s.log
    snapshot := if rewritten && saved then some messages else s.snapshot }

def next (r : Redaction) (s : TrimmedSession) : Action → TrimmedSession
  | .act action baseline =>
    { session := restored baseline (s.session.next r action) action
      kept := s.kept ++ s.session.persisted action
      whole := s.stillWhole action }
  | .trim rewritten saved =>
    match trimTerminalEmptyAssistantTurn s.session.context with
    | none => s
    | some messages =>
      { s with
        session := trimmed r s.session messages rewritten saved
        kept := if s.kept.getLast?.any Message.isSilent then s.kept.dropLast else s.kept }

def initial : TrimmedSession := ⟨AgentSession.initial, [], true⟩

/-- The sessions reached by actions that meet `ok`. -/
def Reachable (r : Redaction) (ok : TrimmedSession → Action → Prop) (s : TrimmedSession) : Prop :=
  Reaches (· = initial) (next r) ok s

end TrimmedSession

end MayAgent
