import Billiard.Json.Reader

/-!
Reading numbers. A number without fraction and exponent is whole if it fits 64 bits. Any other one
is read as a significand of 64 bits, which is then scaled by a power of ten in machine arithmetic:
that is the nearest machine number for short decimals, and near it for long ones.
-/

namespace Billiard.Json

/-- A number as it is written. -/
inductive Number where
  | whole (value : UInt64)
  /-- Below zero, and not below `-2 ^ 63`. -/
  | negative (value : Int)
  | float (value : Float)

namespace Number

/-- Digits that are still to be scaled: `significand * 10 ^ exponent`. -/
structure Scaled where
  significand : Nat
  exponent : Int
deriving DecidableEq, Repr

/-- The value of a digit. -/
def digitValue (c : Char) : Nat := c.toNat - '0'.toNat

/-- The significand with one more digit, if that fits 64 bits. -/
def extend? (significand : Nat) (digit : Char) : Option Nat :=
  let extended := significand * 10 + digitValue digit
  if extended < UInt64.size then some extended else none

/-- Digits before the point: from the first that does not fit on they only count. The flag tells
whether all fit. -/
def wholeDigits (significand : Nat) : List Char → Scaled × Bool
  | [] => (⟨significand, 0⟩, true)
  | digit :: more =>
    match extend? significand digit with
    | some extended => wholeDigits extended more
    | none => (⟨significand, more.length + 1⟩, false)

/-- Digits after the point: from the first that does not fit on they are left out. -/
def fractionDigits (scaled : Scaled) : List Char → Scaled
  | [] => scaled
  | digit :: more =>
    match extend? scaled.significand digit with
    | some extended => fractionDigits ⟨extended, scaled.exponent - 1⟩ more
    | none => scaled

/-- The machine number nearest to a power of ten. -/
def powerOfTen (exponent : Nat) : Float := Float.ofScientific 1 false exponent

/-- The greatest exponent of ten that a machine number has. -/
def greatestPower : Nat := 308

/-- Divides by a power of ten, in steps if there is no machine number for it. -/
def divide (value : Float) (exponent : Nat) : Float :=
  if exponent ≤ greatestPower then value / powerOfTen exponent
  else if value == 0.0 then value
  else divide (value / powerOfTen greatestPower) (exponent - greatestPower)
termination_by exponent
decreasing_by simp only [greatestPower] at *; omega

/-- Multiplies by a power of ten, if the product is finite. -/
def multiply (value : Float) (exponent : Nat) : Except Fault Float :=
  if exponent ≤ greatestPower then
    let product := value * powerOfTen exponent
    if product.isInf then .error .numberTooLarge else .ok product
  else if value == 0.0 then .ok value
  else .error .numberTooLarge

/-- The magnitude of what was read. -/
def Scaled.magnitude (scaled : Scaled) : Except Fault Float :=
  let value := (UInt64.ofNat scaled.significand).toFloat
  match scaled.exponent with
  | .ofNat up => multiply value up
  | .negSucc down => .ok (divide value (down + 1))

/-- A magnitude with its sign. -/
def signed (negative : Bool) (magnitude : Float) : Float :=
  if negative then -magnitude else magnitude

/-- The digits at the front of a text, and the text behind them. -/
def digits (text : List Char) : List Char × List Char :=
  (text.takeWhile Char.isDigit, text.dropWhile Char.isDigit)

/-- Exponents beyond this are not read digit by digit. -/
def exponentLimit : Nat := Nat.pow 2 31

/-- The value of an exponent's digits, if it is below the limit. -/
def exponentValue? (exponent : Nat) : List Char → Option Nat
  | [] => some exponent
  | digit :: more =>
    let extended := exponent * 10 + digitValue digit
    if extended < exponentLimit then exponentValue? extended more else none

/-- The sign of an exponent. -/
def exponentSign : List Char → Bool × List Char
  | '+' :: text => (false, text)
  | '-' :: text => (true, text)
  | text => (false, text)

/-- What follows the letter of an exponent. -/
def scaledBy (negative : Bool) (scaled : Scaled) : Reader Number := fun text =>
  let (below, text) := exponentSign text
  let (exponent, rest) := digits text
  if exponent.isEmpty then
    .error (if text.isEmpty then .unfinishedValue else .badNumber)
  else
    match exponentValue? 0 exponent with
    | some exponent => do
      let exponent : Int := if below then -exponent else exponent
      let magnitude ← { scaled with exponent := scaled.exponent + exponent }.magnitude
      return (.float (signed negative magnitude), rest)
    | none =>
      if scaled.significand ≠ 0 ∧ !below then .error .numberTooLarge
      else .ok (.float (signed negative 0.0), rest)

/-- An exponent, or the end of the number. -/
def orExponent (negative : Bool) (scaled : Scaled) : Reader Number := fun text =>
  match text with
  | 'e' :: rest | 'E' :: rest => scaledBy negative scaled rest
  | _ => do
    let magnitude ← scaled.magnitude
    return (.float (signed negative magnitude), text)

/-- What follows the point. -/
def pointed (negative : Bool) (scaled : Scaled) : Reader Number := fun text =>
  let (fraction, rest) := digits text
  if fraction.isEmpty then
    .error (if text.isEmpty then .unfinishedValue else .badNumber)
  else orExponent negative (fractionDigits scaled fraction) rest

/-- A number without fraction and exponent whose digits fit 64 bits. A negative one without a place
among the whole numbers, zero included, is not whole. -/
def ofWhole (negative : Bool) (value : Nat) : Number :=
  if !negative then .whole (.ofNat value)
  else if 0 < value ∧ value ≤ Nat.pow 2 63 then .negative (-value)
  else .float (-(UInt64.ofNat value).toFloat)

/-- What follows the digits before the point. -/
def tail (negative : Bool) (scaled : Scaled) (fits : Bool) : Reader Number := fun text =>
  match text with
  | '.' :: rest => pointed negative scaled rest
  | _ =>
    if fits ∧ text.head? ≠ some 'e' ∧ text.head? ≠ some 'E' then
      .ok (ofWhole negative scaled.significand, text)
    else orExponent negative scaled text

/-- The magnitude of a number. A zero stands alone before the point. -/
def unsigned (negative : Bool) : Reader Number := fun text =>
  let (front, rest) := digits text
  match front with
  | [] => .error (if text.isEmpty then .unfinishedValue else .badNumber)
  | '0' :: _ :: _ => .error .badNumber
  | _ =>
    let (scaled, fits) := wholeDigits 0 front
    tail negative scaled fits rest

/-- A number from its sign on. -/
def read : Reader Number := fun text =>
  match text with
  | '-' :: rest => unsigned true rest
  | _ => unsigned false text

/-- The number as a machine number. -/
def toFloat : Number → Float
  | .whole value => value.toFloat
  | .negative value => -(UInt64.ofNat value.natAbs).toFloat
  | .float value => value

/-- The number as what was found. -/
def found : Number → Found
  | .whole value => .integer value.toNat
  | .negative value => .integer value
  | .float value => .float value

end Number

end Billiard.Json
