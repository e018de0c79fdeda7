import MayAgent.Lib.Units

/-!
# Messages of a chat

`splitTelegramMessage`: a text that is too long for one message is cut at a line break, at a blank, or where the limit
is, and the white space behind a cut is dropped.
-/

namespace MayAgent

namespace Telegram

def newline : UInt16 := 10

def blank : UInt16 := 32

/-- `lastIndexOf(c, position)`. -/
def lastIndexOf (text : Units) (c : UInt16) : ℕ → Option ℕ
  | 0 => if text[0]? = some c then some 0 else none
  | position + 1 => if text[position + 1]? = some c then some (position + 1) else lastIndexOf text c position

/-- An index found in the second half of the limit. -/
def lateIndexOf (text : Units) (c : UInt16) (maxLen : ℕ) : Option ℕ :=
  (lastIndexOf text c maxLen).filter fun index => maxLen ≤ 2 * index

def splitAt (text : Units) (maxLen : ℕ) : ℕ :=
  ((lateIndexOf text newline maxLen).or (lateIndexOf text blank maxLen)).getD maxLen

def trimStart (text : Units) : Units := text.dropWhile Units.isSpace

def remaining (maxLen : ℕ) (text : Units) : Units := trimStart (text.drop (splitAt text maxLen))

/-- The loop, as far as it comes in the given number of rounds. -/
def splitLoop (maxLen : ℕ) : ℕ → Units → Option (List Units)
  | _, [] => some []
  | 0, _ :: _ => none
  | rounds + 1, text@(_ :: _) =>
    if text.length ≤ maxLen then some [text]
    else (splitLoop maxLen rounds (remaining maxLen text)).map (text.take (splitAt text maxLen) :: ·)

/-- `splitTelegramMessage`, if it ends within the given number of rounds. -/
def splitTelegramMessage (text : Units) (maxLen rounds : ℕ) : Option (List Units) :=
  if text.length ≤ maxLen then some [text] else splitLoop maxLen rounds text

end Telegram

end MayAgent
