import Billiard.Decimal.Layout
import Billiard.Text.Quoted

/-!
What can be wrong with a JSON document: it ends too early, it breaks the grammar, or it holds
something else than what is wanted.
-/

namespace Billiard.Json

/-- Numbers from `1e-5` to below `1e16` are written without an exponent, whole ones with `.0`. -/
def number : Decimal.Layout := ⟨.toEven, fun exponent => -5 ≤ exponent && exponent ≤ 15, true⟩

/-- What was found where something else was wanted. -/
inductive Found where
  | null
  | boolean (value : Bool)
  | integer (value : Int)
  | float (value : Float)
  | text (value : String)
  | sequence
  | map

/-- The first problem of a document. -/
inductive Fault where
  | unfinishedList
  | unfinishedObject
  | unfinishedString
  | unfinishedValue
  | missingColon
  | missingListComma
  | missingObjectComma
  | misspelled
  | missingValue
  | badEscape
  | badNumber
  | numberTooLarge
  | controlCharacter
  | keyNotString
  | loneSurrogate
  | missingSurrogate
  | trailingComma
  | trailingText
  | wrongType (found : Found) (wanted : String)
  | wrongValue (found : Found) (wanted : String)
  | tooShort (length : Nat) (wanted : String)
  | missingField (name : String)
  | repeatedField (name : String)
  | unknownVariant (name : String) (known : List String)

/-- What a problem means for the document. -/
inductive Category where
  /-- More text could mend it. -/
  | truncated
  /-- It is not JSON. -/
  | malformed
  /-- It does not hold what is wanted. -/
  | mismatched
deriving DecidableEq, Repr

/-- A name between backquotes. -/
def named (name : String) : String := "`" ++ name ++ "`"

/-- What was found, in words. -/
def Found.message : Found → String
  | .null => "null"
  | .boolean value => "boolean " ++ named (if value then "true" else "false")
  | .integer value => "integer " ++ named (toString value)
  | .float value => "floating point " ++ named (number.render value)
  | .text value => "string " ++ Text.quoted value
  | .sequence => "sequence"
  | .map => "map"

/-- The text of a problem. -/
def Fault.message : Fault → String
  | .unfinishedList => "EOF while parsing a list"
  | .unfinishedObject => "EOF while parsing an object"
  | .unfinishedString => "EOF while parsing a string"
  | .unfinishedValue => "EOF while parsing a value"
  | .missingColon => "expected `:`"
  | .missingListComma => "expected `,` or `]`"
  | .missingObjectComma => "expected `,` or `\x7d`"
  | .misspelled => "expected ident"
  | .missingValue => "expected value"
  | .badEscape => "invalid escape"
  | .badNumber => "invalid number"
  | .numberTooLarge => "number out of range"
  | .controlCharacter => "control character (\\u0000-\\u001F) found while parsing a string"
  | .keyNotString => "key must be a string"
  | .loneSurrogate => "lone leading surrogate in hex escape"
  | .missingSurrogate => "unexpected end of hex escape"
  | .trailingComma => "trailing comma"
  | .trailingText => "trailing characters"
  | .wrongType found wanted => "invalid type: " ++ found.message ++ ", expected " ++ wanted
  | .wrongValue found wanted => "invalid value: " ++ found.message ++ ", expected " ++ wanted
  | .tooShort length wanted => "invalid length " ++ Nat.repr length ++ ", expected " ++ wanted
  | .missingField name => "missing field " ++ named name
  | .repeatedField name => "duplicate field " ++ named name
  | .unknownVariant name known =>
    "unknown variant " ++ named name ++ ", expected " ++ " or ".intercalate (known.map named)

/-- What kind of problem it is. -/
def Fault.category : Fault → Category
  | .unfinishedList | .unfinishedObject | .unfinishedString | .unfinishedValue => .truncated
  | .wrongType .. | .wrongValue .. | .tooShort .. | .missingField _ | .repeatedField _
  | .unknownVariant .. => .mismatched
  | _ => .malformed

end Billiard.Json
