import MayAgent.Lib.Stream
import MayAgent.Lib.Units

/-!
# The control socket

`attachClient`: the bytes of a client are decoded and cut into lines, and each line is one command. What the commands do
is left open, and so is the decoder of the runtime, which reads one byte after the other. An exception that leaves the
listener ends the process (`uncaughtException`).
-/

namespace MayAgent

namespace ControlSocket

def maxFrameBytes : ℕ := 1048576

def maxIncompleteBufferBytes : ℕ := 1048576

def maxErrorPreviewBytes : ℕ := 160

def newline : UInt16 := 10

inductive Reply (ρ : Type) where
  | incompleteTooLarge
  | frameTooLarge
  | invalidJson (preview : Units)
  | answer (reply : ρ)

/-- What the listener does: it answers a frame, or refuses something that is too large. -/
inductive Entry (ρ : Type) where
  | handled (frame : Units) (replies : List (Reply ρ))
  | refused (reply : Reply ρ)

/-- The decoder, `JSON.parse`, and the commands with the state they work on. A command whose result is missing throws: the
frame `null` does, which has no type to read. -/
structure Runtime (δ σ ρ : Type) where
  Document : Type
  decode : δ → UInt8 → δ × Units
  parse : Units → Option Document
  command : σ → Document → Option (σ × List ρ)

/-- The state of the commands, what the listener did, and whether the process has ended. -/
structure Session (σ ρ : Type) where
  app : σ
  log : List (Entry ρ)
  exited : Bool

structure Client (δ σ ρ : Type) where
  decoder : δ
  buffer : Units
  destroyed : Bool
  session : Session σ ρ

variable {δ σ ρ : Type} (rt : Runtime δ σ ρ)

def Session.handle (s : Session σ ρ) (frame : Units) : Session σ ρ :=
  match rt.parse frame with
  | none => { s with log := s.log ++ [.handled frame [.invalidJson (frame.take maxErrorPreviewBytes)]] }
  | some json =>
    match rt.command s.app json with
    | none => { s with exited := true }
    | some (app, replies) => { s with app := app, log := s.log ++ [.handled frame (replies.map .answer)] }

/-- The body of the loop over the lines of a chunk. -/
def Session.line (s : Session σ ρ) (line : Units) : Session σ ρ :=
  if s.exited then s
  else if Units.trim line = [] then s
  else if maxFrameBytes < Units.byteLength (Units.trim line) then { s with log := s.log ++ [.refused .frameTooLarge] }
  else s.handle rt (Units.trim line)

/-- The listener for `data`. -/
def Client.data (c : Client δ σ ρ) (chunk : List UInt8) : Client δ σ ρ :=
  if c.destroyed || c.session.exited then c
  else
    let decoded := transduce rt.decode c.decoder chunk
    let cut := cutLines newline (c.buffer ++ decoded.2)
    let c := { c with decoder := decoded.1, buffer := cut.2 }
    if maxIncompleteBufferBytes < Units.byteLength cut.2 then
      { c with destroyed := true, session := { c.session with log := c.session.log ++ [.refused .incompleteTooLarge] } }
    else { c with session := cut.1.foldl (Session.line rt) c.session }

def Client.connected (decoder : δ) (app : σ) : Client δ σ ρ := ⟨decoder, [], false, ⟨app, [], false⟩⟩

/-- A client whose bytes arrive in chunks. -/
def Client.run (decoder : δ) (app : σ) (chunks : List (List UInt8)) : Client δ σ ρ :=
  chunks.foldl (Client.data rt) (.connected decoder app)

end ControlSocket

end MayAgent
