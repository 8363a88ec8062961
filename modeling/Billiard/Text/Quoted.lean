import Billiard.Text.Visible

/-!
Text in quotation marks, as reports show it: what does not show by itself is spelled out.
-/

namespace Billiard.Text

/-- A code point in hexadecimal digits between braces. -/
def spelled (c : Char) : String :=
  "\\u\x7b" ++ String.ofList (Nat.toDigits 16 c.toNat) ++ "\x7d"

/-- A character between quotation marks. -/
def quotedChar (c : Char) : String :=
  match c with
  | '\t' => "\\t"
  | '\r' => "\\r"
  | '\n' => "\\n"
  | '"' => "\\\""
  | '\\' => "\\\\"
  | '\x00' => "\\0"
  | _ => if isVisible c then c.toString else spelled c

/-- The text between quotation marks. -/
def quoted (text : String) : String :=
  "\"" ++ String.join (text.toList.map quotedChar) ++ "\""

/-- Texts in brackets, each between quotation marks. -/
def quotedList (texts : List String) : String :=
  "[" ++ ", ".intercalate (texts.map quoted) ++ "]"

end Billiard.Text
