import Billiard.Decimal.Places
import Billiard.Decimal.Shortest

/-!
How the shortest digits of a number are laid out as text: positionally or with an exponent, with
or without a fraction on whole numbers.
-/

namespace Billiard.Decimal

/-- The choices that a format makes about its numbers. -/
structure Layout where
  /-- Which of two equally near decimals is written. -/
  tie : Tie
  /-- The exponents of the first digit for which the number is written without an exponent. -/
  positional : Int → Bool
  /-- Whether a whole number written without an exponent ends in `.0`. -/
  pointed : Bool

namespace Digits

/-- The digits from the first to the last that is not an ending zero. -/
def text (number : Digits) : String := Nat.repr number.digits

/-- The power of ten of the first digit. -/
def leading (number : Digits) : Int := number.exponent + number.text.length - 1

/-- All places down to the last digit or to the units. -/
def positional (pointed : Bool) (number : Digits) : String :=
  match number.exponent with
  | .ofNat up => number.text ++ zeros up ++ (if pointed then ".0" else "")
  | .negSucc down =>
    let digits := zeros (down + 2 - number.text.length) ++ number.text
    let whole := digits.length - (down + 1)
    (digits.take whole).copy ++ "." ++ (digits.drop whole).copy

/-- One digit before the point and a signed power of ten. -/
def scientific (number : Digits) : String :=
  let first := (number.text.take 1).copy
  let rest := (number.text.drop 1).copy
  let fraction := if rest.isEmpty then "" else "." ++ rest
  let power :=
    match number.leading with
    | .ofNat up => "+" ++ Nat.repr up
    | .negSucc down => "-" ++ Nat.repr (down + 1)
  first ++ fraction ++ "e" ++ power

end Digits

namespace Layout

/-- The text of a finite number. -/
def finite (layout : Layout) (value : Binary) : String :=
  let number := shortest layout.tie value
  let magnitude :=
    if layout.positional number.leading then number.positional layout.pointed
    else number.scientific
  sign value.negative ++ magnitude

/-- The text of any number; those that are not finite are `NaN`, `inf` and `-inf`. -/
def render (layout : Layout) (x : Float) : String :=
  match Exact.ofFloat x with
  | .nan => "NaN"
  | .infinite negative => sign negative ++ "inf"
  | .finite value => layout.finite value

end Layout

/-- Numbers in messages never have an exponent and show a fraction only if they have one. -/
def prose : Layout := ⟨.away, fun _ => true, false⟩

end Billiard.Decimal
