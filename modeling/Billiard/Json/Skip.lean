import Billiard.Json.Number
import Billiard.Json.Quotation

/-!
Skipping a value that nobody wants. It has to be well formed, to any depth, but neither the size of
its numbers nor the pairing of its surrogates matters.
-/

namespace Billiard.Json.Skip

/-- What a skipped part lies in. -/
inductive Frame where
  | list
  | object
deriving DecidableEq, Repr

namespace Frame

/-- The text ends inside. -/
def unfinished : Frame → Fault
  | .list => .unfinishedList
  | .object => .unfinishedObject

/-- Two parts stand together without a comma. -/
def missingComma : Frame → Fault
  | .list => .missingListComma
  | .object => .missingObjectComma

/-- The character behind the last part. -/
def close : Frame → Char
  | .list => ']'
  | .object => '\x7d'

end Frame

/-- Digits of which there must be one. -/
def someDigits (text : List Char) : Except Fault (List Char) :=
  let (digits, rest) := Number.digits text
  if digits.isEmpty then .error .badNumber else .ok rest

/-- An exponent, if there is one. -/
def exponent (text : List Char) : Except Fault (List Char) :=
  match text with
  | 'e' :: rest | 'E' :: rest => someDigits (Number.exponentSign rest).2
  | _ => .ok text

/-- A fraction, if there is one. -/
def fraction (text : List Char) : Except Fault (List Char) :=
  match text with
  | '.' :: rest => someDigits rest
  | _ => .ok text

/-- A number, from behind its sign. -/
def number (text : List Char) : Except Fault (List Char) :=
  let (front, rest) := Number.digits text
  match front with
  | [] => .error .badNumber
  | '0' :: _ :: _ => .error .badNumber
  | _ => do exponent (← fraction rest)

/-- The rest of a word. -/
def word (wanted : String) (text : List Char) : Except Fault (List Char) := do
  let (_, rest) ← Reader.word wanted.toList text
  return rest

/-- A text, from behind its opening quotation mark. -/
def quoted (text : List Char) : Except Fault (List Char) := do
  let (_, rest) ← Quotation.skip text
  return rest

/-- A key and the colon behind it. -/
def key (text : List Char) : Except Fault (List Char) :=
  match skipBlanks text with
  | [] => .error .unfinishedObject
  | '"' :: rest => do
    match skipBlanks (← quoted rest) with
    | [] => .error .unfinishedObject
    | ':' :: rest => .ok rest
    | _ => .error .missingColon
  | _ => .error .keyNotString

/-- What stands in front of a value in a frame. -/
def entry (frame : Frame) (text : List Char) : Except Fault (List Char) :=
  match frame with
  | .list => .ok text
  | .object => key text

/-- Where a skip is. -/
inductive State where
  /-- In front of a value. -/
  | value
  /-- Inside a frame, behind a value or, if `first` is set, in front of the first one. -/
  | inside (first : Bool)
deriving DecidableEq, Repr

/-- Skips in at most `count` steps until the stack of frames is empty. -/
def steps : (count : Nat) → State → List Frame → List Char → Except Fault (List Char)
  | 0, _, _, _ => .error .unfinishedValue
  | _ + 1, .inside _, [], text => .ok text
  | count + 1, .inside first, frame :: frames, text =>
    match skipBlanks text with
    | [] => .error frame.unfinished
    | c :: rest => do
      if c = ',' ∧ !first then steps count .value (frame :: frames) (← entry frame rest)
      else if c = frame.close then steps count (.inside false) frames rest
      else if first then steps count .value (frame :: frames) (← entry frame (c :: rest))
      else .error frame.missingComma
  | count + 1, .value, frames, text =>
    match skipBlanks text with
    | [] => .error .unfinishedValue
    | c :: rest => do
      match c with
      | '[' => steps count (.inside true) (.list :: frames) rest
      | '\x7b' => steps count (.inside true) (.object :: frames) rest
      | 'n' => steps count (.inside false) frames (← word "ull" rest)
      | 't' => steps count (.inside false) frames (← word "rue" rest)
      | 'f' => steps count (.inside false) frames (← word "alse" rest)
      | '"' => steps count (.inside false) frames (← quoted rest)
      | '-' => steps count (.inside false) frames (← number rest)
      | _ =>
        if c.isDigit then steps count (.inside false) frames (← number (c :: rest))
        else .error .missingValue

/-- Skips one value. No character takes more than two steps. -/
def value : Reader Unit := fun text => do
  return ((), ← steps (2 * text.length + 2) .value [] text)

end Billiard.Json.Skip
