import MayAgent.Lib.Select
import MayAgent.Host.Invocation
import MayAgent.Property.Trim

/-!
# Whose finish it is

The scan that finds the finish of an invocation does not stop at the message that started it. If no call behind that message
has a successful result, it goes on into the restored transcript, and the parameters of an earlier invocation are reported;
the agent is not asked for its finish either. The same happens to a call that a failed stream left at the end of the
restored transcript: it is completed for a new invocation whose stream fails before it answers.
-/

namespace MayAgent

namespace Invocation

/-! ### Ids of calls -/

/-- The ids of the calls that a message makes or answers. -/
def callIds (m : Message) : List String := m.toolCalls ++ if m.role = .toolResult then m.toolCallId.toList else []

/-- The ids of calls are not used again. -/
def Fresh (earlier later : List Message) : Prop :=
  ∀ m ∈ earlier, ∀ m' ∈ later, ∀ id ∈ callIds m, id ≠ "" → id ∉ callIds m'

variable {id name : String} {args : Value} {m : Message} {messages : List Message} {rt : Runtime} {session : Session}

section Scan

variable {earlier later messages : List Message}

variable {p : FinishParams}

end Scan

/-! ### What an invocation appends -/

section Work

variable {rt : Runtime} {session : Session} {start : List Message} {first second : Turn}

/-- A call that a failed stream left at the end of the restored transcript is completed for an invocation whose stream
fails alike before it answers. -/
structure Takes (rt : Runtime) (session : Session) (start : List Message) (first : Turn) (call : Captured) : Prop where
  required : session.requireFinish = true
  thrown : first.thrown = some responsesStreamTerminalError
  running : first.interrupted = false
  silent : lastAssistant first.messages = none
  left : capturedAbortedFinish rt start responsesStreamTerminalError = some call
  pending : matchingToolResult start call.id = none
  accepted : ∃ content, rt.finish call.args = .returned content ∧ content.findSome? finishError? = none

variable {messages more base : List Message} {reason : String} {taken : Prop} {s : Live}
  {call : Captured} {result : Message} {error : String}

/-- The messages have ids of the invocation only, or are errors, unless a call of the restored transcript is taken. -/
def Covered (taken : Prop) (base messages : List Message) : Prop :=
  ∀ m ∈ messages, (∀ id ∈ callIds m, id ≠ "" → ∃ m' ∈ base, id ∈ callIds m') ∨
    m.role = .toolResult ∧ (m.isError = true ∨ taken)

theorem Covered.append (h : Covered taken base messages)
    (h' : Covered taken base more) : Covered taken base (messages ++ more) := by
  intro m hm
  rcases List.mem_append.mp hm with hm | hm
  · exact h m hm
  · exact h' m hm

theorem trim_append (more : List Message) (hlast : ∀ last ∈ messages.getLast?, last.role ≠ .assistant) :
    ∃ rest, (trimTerminalEmptyAssistantTurn (messages ++ more)).getD (messages ++ more) = messages ++ rest ∧ rest ⊆ more := by
  cases htrim : trimTerminalEmptyAssistantTurn (messages ++ more) with
  | none => exact ⟨more, rfl, List.Subset.refl more⟩
  | some left =>
    obtain ⟨last, hleft, hempty⟩ := trimTerminalEmptyAssistantTurn_eq_some htrim
    rcases eq_or_ne more [] with rfl | hne
    · rw [List.append_nil] at hleft
      have hrole : last.role = .assistant := by
        simp only [Message.isEmptyTurn, Bool.and_eq_true, beq_iff_eq] at hempty
        exact hempty.1.1
      exact absurd hrole (hlast last (by rw [hleft, List.getLast?_concat]; rfl))
    · have hdrop := congrArg List.dropLast hleft
      rw [List.dropLast_concat, List.dropLast_append_of_ne_nil hne] at hdrop
      exact ⟨more.dropLast, hdrop.symm, List.dropLast_subset more⟩

end Work

/-! ### What is reported -/

/-- The part of a result's transcript that the invocation wrote. -/
def Result.own (r : Result) (start : List Message) : List Message := r.messages.drop start.length

section Reported

variable {rt : Runtime} {session : Session} {start : List Message} {first second : Turn}

end Reported

/-! ### Histories that are taken for the invocation -/

section Histories

variable {rt : Runtime} {session : Session} {start : List Message} {first second : Turn}

end Histories

namespace Sample

def calling (id status summary : String) : Message where
  role := .assistant
  content := .blocks [.toolCall id "finish" (.obj [("status", .str status), ("summary", .str summary)])]
  timestamp := 0

def result (id : String) : Message where
  role := .toolResult
  toolCallId := some id
  content := .blocks [.text "Finished."]
  timestamp := 0

def finished : List Message :=
  [.userTurn 0 "Check the build.", calling "call-1" "success" "The build is green.", result "call-1"]

def answered : Turn where
  messages := [{ role := .assistant, content := .blocks [.text "I could not check it."], timestamp := 0 }]

def silent : Turn where
  messages := []

def runtime : Runtime where
  parse _ := none
  parse_empty := rfl
  infra _ := false
  finish _ := .unavailable
  now := 0

def start : List Message := resumeMessages none finished "Check it again." 0

def repeated : Turn where
  messages := [calling "call-2" "failed" "The build is red.", result "call-2"]

end Sample

end Invocation

end MayAgent
