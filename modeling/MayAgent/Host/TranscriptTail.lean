import Mathlib.Data.List.DropRight
import Mathlib.Data.Rat.Floor
import MayAgent.Lib.Units

/-!
# Reading the tail of a transcript

`readJsonlFile` and `readSessionMessagesTail` of `persistence.ts`, over the bytes of `session.jsonl`. A file that does
not exist is `none`. `JSON.parse` is any function that rejects the empty text.
-/

namespace MayAgent

namespace Transcript

/-- `JSON.parse` of a line; `none` is a thrown error. -/
structure Parser (μ : Type*) where
  parse : List Char → Option μ
  parse_nil : parse [] = none

/-- `toString("utf8")` of bytes that are valid UTF-8. -/
def decode (bytes : List UInt8) : List Char := (bytes.toByteArray.utf8Decode?.map Array.toList).getD []

def trim (text : List Char) : List Char := strip isSpace text

def newline : UInt8 := 10

variable {μ : Type*} (json : Parser μ)

inductive Number where
  | finite (value : ℚ)
  | nonFinite

/-- `Number.isFinite(value) ? Math.max(0, Math.floor(value)) : 0`. -/
def Number.normalized : Number → ℕ
  | .finite value => ⌊value⌋.toNat
  | .nonFinite => 0

end Transcript

end MayAgent
