import Mathlib.Data.Rat.Floor
import MayAgent.Lib.Units

/-!
# Transcript compaction

When a transcript crosses the context threshold, its older part becomes one user message with a summary and the newest
messages stay as they are. The summary holds the original task, the previous summary, key facts, a trace of the tool
calls and the last reasoning, and is trimmed to a budget section by section. Timestamps are left out; the estimates of
tokens and the choice of the current system message are those of a library and parameters here.
-/

namespace MayAgent

namespace Compaction

/-! ### Messages -/

inductive Role where
  | system | user | assistant | toolResult
  deriving DecidableEq, Repr

/-- The arguments of a tool call: their JSON text and the fields that are read. -/
structure Arguments where
  json : Units
  path : Option Units := none
  command : Option Units := none
  cmd : Option Units := none
  action : Option Units := none
  agent : Option Units := none
  task : Option Units := none
  deriving DecidableEq

structure ToolCall where
  id : Units
  name : Units
  arguments : Arguments
  deriving DecidableEq

inductive Block where
  | text (t : Units)
  | toolCall (call : ToolCall)
  | other
  deriving DecidableEq

inductive Content where
  | text (t : Units)
  | blocks (bs : List Block)
  deriving DecidableEq

structure Message where
  role : Role
  content : Content
  toolCallId : Units := []
  toolName : Option Units := none
  isError : Bool := false
  deriving DecidableEq

def Block.asText : Block → Units
  | .text t => t
  | .toolCall call => units "[" ++ call.name ++ units "] " ++ call.arguments.json
  | .other => []

def messageText (m : Message) : Units :=
  match m.content with
  | .text t => t
  | .blocks bs => (units " ").intercalate ((bs.map Block.asText).filter (· ≠ []))

def Message.toolCalls (m : Message) : List ToolCall :=
  match m.role, m.content with
  | .assistant, .blocks bs => bs.filterMap fun
    | .toolCall call => some call
    | _ => none
  | _, _ => []

def truncateWithEllipsis (text : Units) (maxLength : ℕ) : Units :=
  if text.length ≤ maxLength then text else text.take (maxLength - 1) ++ units "…"

def previewWithEllipsis (text : Units) (maxLength : ℕ) : Units :=
  if text.length ≤ maxLength then text else text.take maxLength ++ units "…"

def textMessage (text : Units) : Message := { role := .user, content := .blocks [.text text] }

/-! ### What a summary is made of -/

def header : Units := units "COMPACTED CONTEXT"

def ORIGINAL_TASK_MAX_LENGTH : ℕ := 500

def REASONING_MAX_LENGTH : ℕ := 2000

def MAX_EXEC_COMMANDS_IN_FACTS : ℕ := 15

def MIN_SUMMARY_BUDGET_CHARS : ℕ := 8000

def COMPACTION_SEPARATOR : Units := units "\n\n--- (compacted) ---\n\n"

def extractOriginalTask : List Message → Option Units
  | [] => none
  | m :: ms =>
    if m.role ≠ .user then extractOriginalTask ms
    else
      let text := Units.trim (messageText m)
      if text = [] ∨ Units.includes text header = true then none else some text

/-- The end of the task in a summary: `\n\n[`, `\n\n---`, or only line ends up to the end. -/
def endsTask (text : Units) : Bool :=
  (units "\n\n[").isPrefixOf text || (units "\n\n---").isPrefixOf text || text.all (· == 10)

def upToEnd : Units → Units
  | [] => []
  | c :: cs => if endsTask (c :: cs) then [] else c :: upToEnd cs

/-- `/\[Original task\]\n([\s\S]*?)(?:\n\n\[|\n\n---|\n*$)/`, trimmed. -/
def extractOriginalTaskFromSummary (text : Units) : Option Units :=
  match afterFirst (units "[Original task]\n") text with
  | none => none
  | some rest =>
    let task := Units.trim (upToEnd rest)
    if task = [] then none else some task

def extractExistingSummary (messages : List Message) : Option Units :=
  match messages with
  | [] => none
  | first :: _ =>
    if first.role ≠ .user then none
    else if Units.includes (messageText first) header = true then some (messageText first) else none

/-- The last reasoning of at least 100 units, over the messages from the last one on. -/
def substantialReasoning : List Message → Option Units
  | [] => none
  | m :: ms =>
    if m.role ≠ .assistant then substantialReasoning ms
    else
      let text := Units.trim (messageText m)
      if text.length < 100 then substantialReasoning ms
      else if text.length ≤ REASONING_MAX_LENGTH then some text
      else some (text.take REASONING_MAX_LENGTH ++ units "\n_(reasoning truncated)_")

def lastSubstantialReasoning (messages : List Message) : Option Units := substantialReasoning messages.reverse

/-- The lines of the tool trace, with the name of the call whose result is expected. -/
def traceFrom (pending : Option Units) : List Message → List Units
  | [] => []
  | m :: ms =>
    match m.role with
    | .assistant =>
      let calls := m.toolCalls
      calls.map (fun call => units "[" ++ call.name ++ units "] " ++ truncateWithEllipsis call.arguments.json 180)
        ++ traceFrom ((calls.getLast?.map ToolCall.name).or pending) ms
    | .toolResult =>
      let label := units (if m.isError then "ERROR" else "ok")
      let limit := if m.isError then 300 else 200
      (units "[" ++ (pending.or m.toolName).getD (units "tool") ++ units " " ++ label ++ units "] "
        ++ previewWithEllipsis (messageText m) limit) :: traceFrom none ms
    | _ => traceFrom pending ms

def summarizeMessages (messages : List Message) : List Units := traceFrom none messages

structure KeyFacts where
  filesRead : List Units := []
  filesWritten : List Units := []
  filesEdited : List Units := []
  agentCalls : List (Units × Units) := []
  execCommands : List (Units × Bool) := []
  /-- Calls of commands without a result so far, in the order of the calls. -/
  pending : List (Units × Units) := []

def addOnce (x : Units) (l : List Units) : List Units := if x ∈ l then l else l ++ [x]

/-- `map.set(key, value)`: an existing key keeps its place. -/
def setPending (key value : Units) : List (Units × Units) → List (Units × Units)
  | [] => [(key, value)]
  | (k, v) :: rest => if k = key then (key, value) :: rest else (k, v) :: setPending key value rest

def given (field : Option Units) : Bool := field.any (· ≠ [])

def KeyFacts.addCall (facts : KeyFacts) (call : ToolCall) : KeyFacts :=
  let args := call.arguments
  if call.name = units "read" ∧ given args.path = true then
    { facts with filesRead := addOnce (args.path.getD []) facts.filesRead }
  else if call.name = units "write" ∧ given args.path = true then
    { facts with filesWritten := addOnce (args.path.getD []) facts.filesWritten }
  else if call.name = units "edit" ∧ given args.path = true then
    { facts with filesEdited := addOnce (args.path.getD []) facts.filesEdited }
  else if (call.name = units "exec" ∨ call.name = units "bash") ∧ (given args.command = true ∨ given args.cmd = true) then
    { facts with pending := setPending call.id ((args.command.or args.cmd).getD []) facts.pending }
  else if call.name = units "agents" ∧ args.action = some (units "call") ∧ given args.agent = true then
    { facts with agentCalls := facts.agentCalls ++ [(args.agent.getD [], (args.task.getD []).take 120)] }
  else facts

def KeyFacts.addMessage (facts : KeyFacts) (m : Message) : KeyFacts :=
  match m.role with
  | .assistant => m.toolCalls.foldl addCall facts
  | .toolResult =>
    match facts.pending.lookup m.toolCallId with
    | some command => { facts with
        pending := facts.pending.filter fun p => p.1 ≠ m.toolCallId
        execCommands := facts.execCommands ++ [(command, m.isError)] }
    | none => facts
  | _ => facts

def extractKeyFacts (messages : List Message) : KeyFacts :=
  let facts := messages.foldl KeyFacts.addMessage {}
  let commands := facts.execCommands ++ facts.pending.map fun p => (p.2, false)
  { facts with execCommands := commands.drop (commands.length - MAX_EXEC_COMMANDS_IN_FACTS) }

def fileLine (label : String) (files : List Units) : List Units :=
  if files.isEmpty then [] else [units label ++ (units ", ").intercalate files]

def formatKeyFacts (facts : KeyFacts) : List Units :=
  fileLine "Files read: " facts.filesRead ++ fileLine "Files written: " facts.filesWritten
    ++ fileLine "Files edited: " facts.filesEdited
    ++ (if facts.agentCalls.isEmpty then [] else
        units "Agent calls:" :: facts.agentCalls.map fun call => units "  " ++ call.1 ++ units ": " ++ call.2)
    ++ (if facts.execCommands.isEmpty then [] else
        units "Exec commands run:" :: facts.execCommands.map fun command =>
          units "  [" ++ units (if command.2 then "FAILED" else "ok") ++ units "] " ++ truncateWithEllipsis command.1 120)

/-! ### Trimming -/

/-- The loop of `trimAccumulatedSummary` over the sections from the last one on. -/
def keepSections (budget : ℕ) : (remaining : List Units) → (kept : List Units) → (length : ℕ) → List Units
  | [], kept, _ => kept
  | s :: remaining, kept, length =>
    let nextLength := length + s.length + (if kept.isEmpty then 0 else COMPACTION_SEPARATOR.length)
    if budget < nextLength ∧ kept ≠ [] then kept
    else if budget ≤ nextLength then s :: kept
    else keepSections budget remaining (s :: kept) nextLength

def trimAccumulatedSummary (summary : Units) (budget : ℕ) : Units :=
  if summary.length ≤ budget then summary
  else
    let parts := sections COMPACTION_SEPARATOR summary
    if parts.length ≤ 1 then units "_(earlier context trimmed)_\n" ++ summary.drop (summary.length - budget)
    else units "_(earlier compaction rounds trimmed)_" ++ COMPACTION_SEPARATOR
      ++ COMPACTION_SEPARATOR.intercalate (keepSections budget parts.reverse [] 0)

def titled (title : String) (lines : List Units) : List Units :=
  if lines.isEmpty then [] else [units title ++ (units "\n").intercalate lines]

/-- The task that goes on being the task of the transcript. -/
def originalTask (messages : List Message) (previousSummary : Option Units) : Option Units :=
  (extractOriginalTask messages).or (previousSummary.bind extractOriginalTaskFromSummary)

/-- What follows the task in a summary. -/
def details (messages : List Message) (previousSummary : Option Units) : List Units :=
  (match previousSummary with
    | some previous => [units "_(compacted previous context)_" ++ COMPACTION_SEPARATOR
        ++ trimAccumulatedSummary previous MIN_SUMMARY_BUDGET_CHARS]
    | none => [])
    ++ titled "[Key facts]\n" (formatKeyFacts (extractKeyFacts messages))
    ++ titled "[Compacted tool trace]\n" (summarizeMessages messages)
    ++ (match lastSubstantialReasoning messages with
      | some reasoning => [units "[Last reasoning before compaction]\n" ++ reasoning]
      | none => [])

def summaryParts (messages : List Message) (previousSummary : Option Units) : List Units :=
  header :: (match originalTask messages previousSummary with
    | some task => [units "[Original task]\n" ++ previewWithEllipsis task ORIGINAL_TASK_MAX_LENGTH]
    | none => []) ++ details messages previousSummary

def SUMMARY_BUDGET : ℕ := MIN_SUMMARY_BUDGET_CHARS + 3000

def buildSummary (messages : List Message) (previousSummary : Option Units) : Units :=
  trimAccumulatedSummary ((units "\n\n").intercalate (summaryParts messages previousSummary)) SUMMARY_BUDGET

/-! ### The transform -/

structure Estimator where
  message : Message → ℚ
  context : List Message → ℚ

def estimateTranscriptTokens (tokens : Estimator) (messages : List Message) : ℚ := (messages.map tokens.message).sum

def estimateTokens (tokens : Estimator) (messages : List Message) : ℚ :=
  max (estimateTranscriptTokens tokens messages) (tokens.context messages)

structure Options where
  contextWindow : ℚ
  threshold : ℚ
  keepRatio : ℚ
  tokens : Estimator
  /-- `getCurrentSystemMessage`. -/
  currentSystem : List Message → Option Message
  system : ∀ messages m, currentSystem messages = some m → m.role = .system

/-- The loop over the messages from the last one down to the second: the index reached with the tokens kept so far. -/
def splitFrom (tokens : Estimator) (budget : ℤ) (messages : List Message) : (i : ℕ) → (kept : ℚ) → (splitAt : ℕ) → ℕ
  | 0, _, splitAt => splitAt
  | i + 1, kept, _ =>
    let kept := kept + (messages[i + 1]?.map tokens.message).getD 0
    if (budget : ℚ) ≤ kept then i + 1 else splitFrom tokens budget messages i kept (i + 1)

def backOverResults (messages : List Message) : ℕ → ℕ
  | 0 => 0
  | i + 1 =>
    if messages[i + 1]?.any (·.role == .toolResult) = true ∧ 1 < i + 1 then backOverResults messages i else i + 1

def splitMessages (tokens : Estimator) (messages : List Message) (keepRatio : ℚ) : ℕ :=
  let budget := max 1 ⌊estimateTranscriptTokens tokens messages * keepRatio⌋
  backOverResults messages (splitFrom tokens budget messages (messages.length - 1) 0 (messages.length - 1))

def historyOf (messages : List Message) : List Message := messages.filter fun m => m.role ≠ .system

/-- What a compaction makes of a transcript, with the index the history is split at. -/
def compactAt (options : Options) (messages : List Message) (splitAt : ℕ) : List Message :=
  let history := historyOf messages
  (options.currentSystem messages).toList
    ++ textMessage (buildSummary (history.take splitAt) (extractExistingSummary history)) :: history.drop splitAt

/-- The index the transcript is split at, if it is to be compacted. -/
def splitPoint (options : Options) (messages : List Message) : Option ℕ :=
  if messages.length ≤ 1 then none
  else if estimateTokens options.tokens messages < options.contextWindow * options.threshold then none
  else if (historyOf messages).length ≤ 1 then none
  else
    let splitAt := splitMessages options.tokens (historyOf messages) options.keepRatio
    if splitAt = 0 then none else some splitAt

/-- `createCompactionTransform`. -/
def transform (options : Options) (messages : List Message) : List Message :=
  match splitPoint options messages with
  | none => messages
  | some splitAt => compactAt options messages splitAt

end Compaction

end MayAgent
