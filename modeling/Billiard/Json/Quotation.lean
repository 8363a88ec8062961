import Billiard.Json.Reader

/-!
Reading text between quotation marks. Escapes of four hexadecimal digits name units of sixteen
bits; two of them make one character if the first is a leading and the second a trailing surrogate.
-/

namespace Billiard.Json.Quotation

/-- The value of a hexadecimal digit. -/
def hexValue? (c : Char) : Option Nat :=
  if '0' ≤ c ∧ c ≤ '9' then some (c.toNat - '0'.toNat)
  else if 'a' ≤ c ∧ c ≤ 'f' then some (c.toNat - 'a'.toNat + 10)
  else if 'A' ≤ c ∧ c ≤ 'F' then some (c.toNat - 'A'.toNat + 10)
  else none

/-- How many bytes a text takes. -/
def byteCount (text : List Char) : Nat := text.foldl (fun count c => count + c.utf8Size) 0

/-- The unit that four digits name. Fewer than four bytes are too few to tell. -/
def unit (text : List Char) : Except Fault (Nat × List Char) :=
  match text with
  | a :: b :: c :: d :: rest =>
    match hexValue? a, hexValue? b, hexValue? c, hexValue? d with
    | some a, some b, some c, some d => .ok (((a * 16 + b) * 16 + c) * 16 + d, rest)
    | _, _, _, _ => .error .badEscape
  | _ => .error (if byteCount text < 4 then .unfinishedString else .badEscape)

/-- Units that come first in a pair. -/
def isLeading (unit : Nat) : Bool := 0xd800 ≤ unit && unit < 0xdc00

/-- Units that come second in a pair. -/
def isTrailing (unit : Nat) : Bool := 0xdc00 ≤ unit && unit < 0xe000

/-- The character of a pair. -/
def paired (leading trailing : Nat) : Char :=
  Char.ofNat (0x10000 + (leading - 0xd800) * 0x400 + (trailing - 0xdc00))

/-- The second unit of a pair. -/
def trailing (leading : Nat) (text : List Char) : Except Fault (Char × List Char) :=
  match text with
  | [] => .error .unfinishedString
  | '\\' :: [] => .error .unfinishedString
  | '\\' :: 'u' :: rest => do
    let (second, rest) ← unit rest
    if isTrailing second then .ok (paired leading second, rest) else .error .loneSurrogate
  | _ => .error .missingSurrogate

/-- The character that an escape of units stands for. -/
def unitEscape (text : List Char) : Except Fault (Char × List Char) := do
  let (first, rest) ← unit text
  if isTrailing first then .error .loneSurrogate
  else if isLeading first then trailing first rest
  else .ok (Char.ofNat first, rest)

/-- Characters with an escape of one letter. -/
def shortEscape? : Char → Option Char
  | '"' => some '"'
  | '\\' => some '\\'
  | '/' => some '/'
  | 'b' => some '\x08'
  | 'f' => some '\x0c'
  | 'n' => some '\n'
  | 'r' => some '\r'
  | 't' => some '\t'
  | _ => none

/-- The character that an escape stands for, from behind the backslash. -/
def escape (text : List Char) : Except Fault (Char × List Char) :=
  match text with
  | [] => .error .unfinishedString
  | 'u' :: rest => unitEscape rest
  | c :: rest =>
    match shortEscape? c with
    | some c => .ok (c, rest)
    | none => .error .badEscape

/-- The same for text that nobody looks at: pairs are not checked. -/
def skipEscape (text : List Char) : Except Fault (Char × List Char) :=
  match text with
  | 'u' :: rest => do
    let (_, rest) ← unit rest
    .ok ('u', rest)
  | _ => escape text

/-- Characters that stand in a text only as escapes. -/
def isControl (c : Char) : Bool := c < ' '

/-- Reads up to the closing quotation mark, at most `count` characters. `parts` reads escapes. -/
def upToQuote (parts : List Char → Except Fault (Char × List Char)) :
    (count : Nat) → List Char → Except Fault (List Char × List Char)
  | 0, _ | _, [] => .error .unfinishedString
  | count + 1, c :: rest => do
    if c = '"' then .ok ([], rest)
    else if c = '\\' then
      let (c, rest) ← parts rest
      let (more, rest) ← upToQuote parts count rest
      .ok (c :: more, rest)
    else if isControl c then .error .controlCharacter
    else
      let (more, rest) ← upToQuote parts count rest
      .ok (c :: more, rest)

/-- A text, from behind its opening quotation mark. -/
def read : Reader String := fun text => do
  let (content, rest) ← upToQuote escape text.length text
  .ok (String.ofList content, rest)

/-- Skips a text, from behind its opening quotation mark. -/
def skip : Reader Unit := fun text => do
  let (_, rest) ← upToQuote skipEscape text.length text
  .ok ((), rest)

end Billiard.Json.Quotation
