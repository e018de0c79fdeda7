import Mathlib.Algebra.GroupWithZero.Nat
import MayAgent.Lib.Units

/-!
# The edit tool

`createEditTool` replaces one text in a file. The file is read without its byte order mark and with its line endings as
line feeds, the old text is looked for as it is and, failing that, in a form in which trailing white space and
typographic characters are evened out; occurrences are always counted in that form. A file is its text, of which the
bytes are the UTF-8 form. Access to the file, cancellation and the preview of the change are left out.
-/

namespace MayAgent

namespace Edit

abbrev Text := List Char

def isSpace (c : Char) : Bool := isSpaceCode c.toNat

def bom : Char := Char.ofNat 0xfeff

/-- `stripBom`: the mark, if there is one, and the text. -/
def stripBom (content : Text) : Text × Text :=
  match content with
  | c :: cs => if c = bom then ([bom], cs) else ([], content)
  | [] => ([], [])

inductive Ending where
  | crlf | lf
  deriving DecidableEq

def detectLineEnding (content : Text) : Ending :=
  match indexOf ['\r', '\n'] content, indexOf ['\n'] content with
  | some crlfIdx, some lfIdx => if crlfIdx < lfIdx then .crlf else .lf
  | _, _ => .lf

def replaceCrlf : Text → Text
  | [] => []
  | [c] => [c]
  | c :: d :: cs => if c = '\r' ∧ d = '\n' then '\n' :: replaceCrlf cs else c :: replaceCrlf (d :: cs)

def normalizeToLF (text : Text) : Text := (replaceCrlf text).map fun c => if c = '\r' then '\n' else c

def restoreLineEndings (text : Text) : Ending → Text
  | .crlf => text.flatMap fun c => if c = '\n' then ['\r', '\n'] else [c]
  | .lf => text

/-- The character that a typographic one is compared as. -/
def plainChar (c : Char) : Char :=
  if [0x2018, 0x2019, 0x201a, 0x201b].contains c.toNat then Char.ofNat 0x27
  else if [0x201c, 0x201d, 0x201e, 0x201f].contains c.toNat then Char.ofNat 0x22
  else if [0x2010, 0x2011, 0x2012, 0x2013, 0x2014, 0x2015, 0x2212].contains c.toNat then '-'
  else if [0xa0, 0x202f, 0x205f, 0x3000].contains c.toNat || (0x2002 ≤ c.toNat && c.toNat ≤ 0x200a) then ' '
  else c

def normalizeForFuzzyMatch (text : Text) : Text :=
  (['\n'].intercalate ((sections ['\n'] text).map (List.rdropWhile isSpace))).map plainChar

/-- `FuzzyMatchResult` of a text that was found. -/
structure Match where
  index : ℕ
  matchLength : ℕ
  contentForReplacement : Text

def fuzzyFindText (content oldText : Text) : Option Match :=
  match indexOf oldText content with
  | some index => some ⟨index, oldText.length, content⟩
  | none =>
    (indexOf (normalizeForFuzzyMatch oldText) (normalizeForFuzzyMatch content)).map fun index =>
      ⟨index, (normalizeForFuzzyMatch oldText).length, normalizeForFuzzyMatch content⟩

def unitCount (text : Text) : ℕ := (text.map fun c => if 0x10000 ≤ c.toNat then 2 else 1).sum

/-- `content.split(oldText).length - 1`; an empty text splits between all code units. -/
def occurrences (content oldText : Text) : ℕ :=
  (if oldText = [] then unitCount content else (sections oldText content).length) - 1

/-- What the tool writes, or the error it throws. -/
def edit (path : String) (rawContent oldText newText : Text) : Except String Text :=
  let content := (stripBom rawContent).2
  let normalizedContent := normalizeToLF content
  let normalizedOldText := normalizeToLF oldText
  match fuzzyFindText normalizedContent normalizedOldText with
  | none => .error ("Could not find the exact text in " ++ path ++
      ". The old text must match exactly including all whitespace and newlines.")
  | some found =>
    let count := occurrences (normalizeForFuzzyMatch normalizedContent) (normalizeForFuzzyMatch normalizedOldText)
    if 1 < count then
      .error ("Found " ++ toString count ++ " occurrences of the text in " ++ path ++
        ". The text must be unique. Please provide more context to make it unique.")
    else
      let baseContent := found.contentForReplacement
      let newContent := baseContent.take found.index ++ normalizeToLF newText ++
        baseContent.drop (found.index + found.matchLength)
      if baseContent = newContent then
        .error ("No changes made to " ++ path ++ ". The replacement produced identical content. This might indicate an " ++
          "issue with special characters or the text not existing as expected.")
      else .ok ((stripBom rawContent).1 ++ restoreLineEndings newContent (detectLineEnding content))

end Edit

end MayAgent
