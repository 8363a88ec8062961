import Billiard.Json.Fault

/-!
Reading JSON from left to right. A reader takes what it wants from the front of the text or reports
the first problem it meets, so of two problems the one further left is reported.
-/

namespace Billiard.Json

/-- Takes a value from the front of a text. -/
abbrev Reader := StateT (List Char) (Except Fault)

/-- Blanks between the parts of a document. -/
def isBlank (c : Char) : Bool := c == ' ' || c == '\n' || c == '\t' || c == '\r'

/-- The text behind the blanks at its front. -/
def skipBlanks (text : List Char) : List Char := text.dropWhile isBlank

namespace Reader

variable {α : Type}

/-- Reports a problem. -/
def fail (fault : Fault) : Reader α := fun _ => .error fault

/-- Skips blanks and shows what comes then. -/
def peek : Reader (Option Char) := fun text =>
  let text := skipBlanks text
  .ok (text.head?, text)

/-- Drops the next character. -/
def drop : Reader Unit := fun text => .ok ((), text.tail)

/-- Takes the rest of a word. -/
def word : List Char → Reader Unit
  | [] => pure ()
  | wanted :: more => fun text =>
    match text with
    | [] => .error .unfinishedValue
    | c :: text => if c = wanted then word more text else .error .misspelled

/-- Reads a whole document: one value and nothing behind it. -/
def document (value : Reader α) (text : String) : Except Fault α :=
  match value text.toList with
  | .error fault => .error fault
  | .ok (result, rest) =>
    match skipBlanks rest with
    | [] => .ok result
    | _ :: _ => .error .trailingText

/-- Takes the colon between a key and its value. -/
def colon : Reader Unit := do
  match ← peek with
  | some ':' => drop
  | some _ => fail .missingColon
  | none => fail .unfinishedObject

end Reader

end Billiard.Json
