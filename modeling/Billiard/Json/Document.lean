import Billiard.Json.Fault

/-!
JSON documents and how they are written: on one line, or laid out with two blanks for each level.
-/

namespace Billiard.Json

/-- What a document holds. -/
inductive Document where
  | null
  | float (value : Float)
  | natural (value : Nat)
  | text (value : String)
  | list (items : List Document)
  | object (members : List (String × Document))

namespace Document

/-- A number; there is no way to write one that is not finite. -/
def floatText (value : Float) : String :=
  if value.isFinite then number.render value else "null"

/-- A character of a text between quotation marks. -/
def escaped (c : Char) : String :=
  match c with
  | '"' => "\\\""
  | '\\' => "\\\\"
  | '\x08' => "\\b"
  | '\x0c' => "\\f"
  | '\n' => "\\n"
  | '\r' => "\\r"
  | '\t' => "\\t"
  | _ =>
    if c < ' ' then
      let digits := Nat.toDigits 16 c.toNat
      "\\u" ++ Decimal.zeros (4 - digits.length) ++ String.ofList digits
    else c.toString

/-- A text between quotation marks. -/
def quotedText (text : String) : String :=
  "\"" ++ String.join (text.toList.map escaped) ++ "\""

/-- How items are put between brackets, at some depth. -/
structure Style where
  /-- What stands in front of the first item. -/
  first : Nat → String
  /-- What stands between two items. -/
  next : Nat → String
  /-- What stands behind the last item. -/
  last : Nat → String
  /-- What stands between a key and its value. -/
  colon : String

/-- Nothing but what is needed. -/
def compact : Style := ⟨fun _ => "", fun _ => ",", fun _ => "", ":"⟩

/-- A new line that begins at some depth. -/
def newLine (depth : Nat) : String := "\n" ++ String.ofList (List.replicate (2 * depth) ' ')

/-- A line for every item. -/
def pretty : Style :=
  ⟨fun depth => newLine (depth + 1), fun depth => "," ++ newLine (depth + 1), newLine, ": "⟩

namespace Style

/-- Items between brackets; brackets around nothing stand together. -/
def enclose (style : Style) (depth : Nat) (opening closing : String) (items : List String) :
    String :=
  if items.isEmpty then opening ++ closing
  else
    opening ++ style.first depth ++ (style.next depth).intercalate items ++ style.last depth
      ++ closing

end Style

mutual

/-- The text of a document at some depth. -/
def render (style : Style) (depth : Nat) : Document → String
  | .null => "null"
  | .float value => floatText value
  | .natural value => Nat.repr value
  | .text value => quotedText value
  | .list items => style.enclose depth "[" "]" (renderItems style (depth + 1) items)
  | .object members =>
    style.enclose depth "\x7b" "\x7d" (renderMembers style (depth + 1) members)

/-- The texts of items. -/
def renderItems (style : Style) (depth : Nat) : List Document → List String
  | [] => []
  | item :: rest => item.render style depth :: renderItems style depth rest

/-- The texts of keys with their values. -/
def renderMembers (style : Style) (depth : Nat) : List (String × Document) → List String
  | [] => []
  | (key, value) :: rest =>
    (quotedText key ++ style.colon ++ value.render style depth)
      :: renderMembers style depth rest

end

end Document

end Billiard.Json
