import Billiard.Decimal.Binary

/-!
A number with a fixed count of decimal places: the exact value rounded once, a half going to the
even neighbour.
-/

namespace Billiard.Decimal

/-- The whole number nearest to `num / den`; a half goes to the even one. -/
def roundDiv (num den : Nat) : Nat :=
  let quotient := num / den
  match compare (2 * (num % den)) den with
  | .lt => quotient
  | .gt => quotient + 1
  | .eq => quotient + quotient % 2

/-- The magnitude of `value` in units of `10 ^ (-places)`. -/
def Binary.units (places : Nat) (value : Binary) : Nat :=
  match value.exponent with
  | .ofNat up => value.significand * Nat.pow 2 up * Nat.pow 10 places
  | .negSucc down => roundDiv (value.significand * Nat.pow 10 places) (Nat.pow 2 (down + 1))

/-- The sign of a negative number, zero included. -/
def sign (negative : Bool) : String := if negative then "-" else ""

/-- `count` zeros. -/
def zeros (count : Nat) : String := String.ofList (List.replicate count '0')

/-- `value` with exactly `places` digits after the point. -/
def Binary.withPlaces (places : Nat) (value : Binary) : String :=
  let units := value.units places
  let whole := Nat.repr (units / Nat.pow 10 places)
  let part := Nat.repr (units % Nat.pow 10 places)
  let point := if places = 0 then "" else "." ++ zeros (places - part.length) ++ part
  sign value.negative ++ whole ++ point

/-- Fixed places for every number; the others are `NaN`, `inf` and `-inf`. -/
def fixed (places : Nat) (x : Float) : String :=
  match Exact.ofFloat x with
  | .nan => "NaN"
  | .infinite negative => sign negative ++ "inf"
  | .finite value => value.withPlaces places

end Billiard.Decimal
