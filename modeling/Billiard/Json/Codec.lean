import Billiard.Json.Document
import Billiard.Json.Skip

/-!
Codecs: how the values of a type are written as documents and read back. A codec for a record is
put together from its fields; it reads objects with the fields in any order and lists with the
fields in the given order.
-/

namespace Billiard.Json

/-- Writing and reading the values of a type. -/
structure Codec (α : Type) where
  write : α → Document
  read : Reader α

namespace Reader

variable {α : Type}

/-- Reports what stands in the text where something else is wanted. -/
def refuse (wanted : String) : Reader α := do
  match ← peek with
  | none => fail .unfinishedValue
  | some c =>
    match c with
    | 'n' => do drop; word "ull".toList; fail (.wrongType .null wanted)
    | 't' => do drop; word "rue".toList; fail (.wrongType (.boolean true) wanted)
    | 'f' => do drop; word "alse".toList; fail (.wrongType (.boolean false) wanted)
    | '"' => do
      drop
      fail (.wrongType (.text (← Quotation.read)) wanted)
    | '[' => fail (.wrongType .sequence wanted)
    | '\x7b' => fail (.wrongType .map wanted)
    | _ =>
      if c = '-' ∨ c.isDigit then do
        let number ← Number.read
        fail (.wrongType number.found wanted)
      else fail .missingValue

/-- A number of any kind. -/
def number (wanted : String) : Reader Number := do
  match ← peek with
  | none => fail .unfinishedValue
  | some c => if c = '-' ∨ c.isDigit then Number.read else refuse wanted

/-- A machine number. -/
def float : Reader Float := return (← number "f64").toFloat

/-- A whole number of 64 bits. -/
def whole (wanted : String) : Reader UInt64 := do
  match ← number wanted with
  | .whole value => return value
  | .negative value => fail (.wrongValue (.integer value) wanted)
  | .float value => fail (.wrongType (.float value) wanted)

/-- Whether one more item follows in a list: in front of the first item, or behind one. -/
def hasItem (first : Bool) : Reader Bool := do
  match ← peek with
  | none => fail .unfinishedList
  | some ']' => return false
  | some c =>
    if first then return true
    else if c = ',' then do
      drop
      match ← peek with
      | none => fail .unfinishedValue
      | some ']' => fail .trailingComma
      | some _ => return true
    else fail .missingListComma

/-- Takes the end of a list of which enough was read. -/
def endList : Reader Unit := do
  match ← peek with
  | none => fail .unfinishedList
  | some ']' => drop
  | some ',' => do
    drop
    match ← peek with
    | some ']' => fail .trailingComma
    | _ => fail .trailingText
  | some _ => fail .trailingText

/-- At most `count` items of a list. -/
def items (item : Reader α) : (count : Nat) → (first : Bool) → Reader (List α)
  | 0, _ => fail .unfinishedList
  | count + 1, first => do
    if ← hasItem first then
      let head ← item
      return head :: (← items item count false)
    else return []

/-- A list. Each item takes at least one character. -/
def list (item : Reader α) : Reader (List α) := do
  match ← peek with
  | none => fail .unfinishedValue
  | some '[' => do
    drop
    let found ← items item ((← get).length + 1) true
    endList
    return found
  | some _ => refuse "a sequence"

/-- A value or `null`. -/
def optional (value : Reader α) : Reader (Option α) := do
  match ← peek with
  | some 'n' => do drop; word "ull".toList; return none
  | _ => return some (← value)

/-- A text. -/
def text (wanted : String) : Reader String := do
  match ← peek with
  | none => fail .unfinishedValue
  | some '"' => do drop; Quotation.read
  | some _ => refuse wanted

/-- The value `null`. -/
def null : Reader Unit := do
  match ← peek with
  | none => fail .unfinishedValue
  | some 'n' => do drop; word "ull".toList
  | some _ => refuse "unit"

/-- One of several names. -/
def oneOf (known : List (String × α)) (name : String) : Reader α :=
  match known.lookup name with
  | some value => pure value
  | none => fail (.unknownVariant name (known.map (·.1)))

/-- A name, or an object with the name as key of `null`. -/
def choice (known : List (String × α)) : Reader α := do
  match ← peek with
  | none => fail .unfinishedValue
  | some '"' => do oneOf known (← text "")
  | some '\x7b' => do
    drop
    match ← peek with
    | none => fail .unfinishedObject
    | some '"' => do
      let value ← oneOf known (← text "")
      colon
      null
      match ← peek with
      | none => fail .unfinishedObject
      | some '\x7d' => do drop; return value
      | some _ => fail .missingValue
    | some '\x7d' => fail .missingValue
    | some _ => fail .keyNotString
  | some _ => fail .missingValue

end Reader

/-- A field of a record: its name, and what it is if it is left out. -/
structure Field where
  type : Type
  name : String
  codec : Codec type
  default : Option type

/-- The values of fields. -/
def Values : List Field → Type
  | [] => Unit
  | field :: rest => field.type × Values rest

/-- The values of those fields that have been read. -/
def Slots : List Field → Type
  | [] => Unit
  | field :: rest => Option field.type × Slots rest

namespace Field

/-- Nothing has been read. -/
def noSlots : (fields : List Field) → Slots fields
  | [] => ()
  | _ :: rest => (none, noSlots rest)

/-- Reads the value of the field called `key`, from the colon on. A key that is no field is skipped
with its value. -/
def readInto (key : String) : (fields : List Field) → Slots fields → Reader (Slots fields)
  | [], () => do
    Reader.colon
    Skip.value
    return ()
  | field :: rest, (slot, slots) =>
    if field.name = key then
      match slot with
      | some _ => Reader.fail (.repeatedField key)
      | none => do
        Reader.colon
        return (some (← field.codec.read), slots)
    else do
      return (slot, ← readInto key rest slots)

/-- All values, if none is missing. -/
def complete : (fields : List Field) → Slots fields → Except Fault (Values fields)
  | [], () => .ok ()
  | field :: rest, (slot, slots) =>
    match slot <|> field.default with
    | none => .error (.missingField field.name)
    | some value => do return (value, ← complete rest slots)

/-- Whether one more key follows in an object: in front of the first one, or behind a value. -/
def hasKey (first : Bool) : Reader Bool := do
  match ← Reader.peek with
  | none => Reader.fail .unfinishedObject
  | some '\x7d' => return false
  | some c =>
    if first then
      if c = '"' then return true else Reader.fail .keyNotString
    else if c = ',' then do
      Reader.drop
      match ← Reader.peek with
      | none => Reader.fail .unfinishedValue
      | some '"' => return true
      | some '\x7d' => Reader.fail .trailingComma
      | some _ => Reader.fail .keyNotString
    else Reader.fail .missingObjectComma

/-- At most `count` keys with their values. -/
def members (fields : List Field) :
    (count : Nat) → (first : Bool) → Slots fields → Reader (Slots fields)
  | 0, _, _ => Reader.fail .unfinishedObject
  | count + 1, first, slots => do
    if ← hasKey first then
      let key ← Reader.text ""
      members fields count false (← readInto key fields slots)
    else return slots

/-- The values in a list, the first of them being number `place`. -/
def inOrder (wanted : String) :
    (place : Nat) → (fields : List Field) → Reader (Values fields)
  | _, [] => pure ()
  | place, field :: rest => do
    if ← Reader.hasItem (place == 0) then
      let value ← field.codec.read
      return (value, ← inOrder wanted (place + 1) rest)
    else
      match field.default with
      | none => Reader.fail (.tooShort place wanted)
      | some value => return (value, ← inOrder wanted (place + 1) rest)

/-- Keys and values as documents. -/
def writeAll : (fields : List Field) → Values fields → List (String × Document)
  | [], () => []
  | field :: rest, (value, values) =>
    (field.name, field.codec.write value) :: writeAll rest values

end Field

namespace Codec

/-- Machine numbers. -/
def float : Codec Float := ⟨.float, Reader.float⟩

/-- Whole numbers of 64 bits, as lengths of time are. -/
def whole : Codec UInt64 := ⟨fun value => .natural value.toNat, Reader.whole "u64"⟩

/-- Whole numbers that count places in a list. -/
def place : Codec Nat := ⟨.natural, return (← Reader.whole "usize").toNat⟩

/-- Lists. -/
def list {α : Type} (item : Codec α) : Codec (List α) :=
  ⟨fun items => .list (items.map item.write), Reader.list item.read⟩

/-- Values that may be absent. -/
def optional {α : Type} (value : Codec α) : Codec (Option α) :=
  ⟨fun | none => .null | some present => value.write present, Reader.optional value.read⟩

/-- One of several names. -/
def choice {α : Type} [BEq α] (known : List (String × α)) : Codec α where
  write value := .text (((known.find? (·.2 == value)).map (·.1)).getD "")
  read := Reader.choice known

/-- A list of so many values of one kind each. -/
def tuple {α : Type} (wanted : String) (fields : List Field) (split : α → List Document)
    (join : Values fields → α) : Codec α where
  write value := .list (split value)
  read := do
    match ← Reader.peek with
    | none => Reader.fail .unfinishedValue
    | some '[' => do
      Reader.drop
      let values ← Field.inOrder wanted 0 fields
      Reader.endList
      return join values
    | some _ => Reader.refuse wanted

/-- What a record with some fields is called. -/
def titled (title : String) (count : Nat) : String :=
  title ++ " with " ++ Nat.repr count ++ (if count = 1 then " element" else " elements")

/-- A record that is given by the values of its fields. -/
def record {α : Type} (title : String) (fields : List Field) (split : α → Values fields)
    (join : Values fields → α) : Codec α where
  write value := .object (Field.writeAll fields (split value))
  read := do
    match ← Reader.peek with
    | none => Reader.fail .unfinishedValue
    | some '[' => do
      Reader.drop
      let values ← Field.inOrder (titled title fields.length) 0 fields
      Reader.endList
      return join values
    | some '\x7b' => do
      Reader.drop
      let slots ← Field.members fields ((← get).length + 1) true (Field.noSlots fields)
      match Field.complete fields slots with
      | .error fault => Reader.fail fault
      | .ok values => do
        Reader.drop
        return join values
    | some _ => Reader.refuse title

/-- The text of a value in a style. -/
def encode {α : Type} (codec : Codec α) (style : Document.Style) (value : α) : String :=
  (codec.write value).render style 0

/-- The value of a text. -/
def decode {α : Type} (codec : Codec α) (text : String) : Except Fault α :=
  Reader.document codec.read text

end Codec

end Billiard.Json
