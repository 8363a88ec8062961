/-!
The exact value of a binary64 number. A finite one is a sign, a whole significand and a power of
two, so whatever must not round — the text of a number, the whole milliseconds in a delay — is
computed from this form in natural numbers.
-/

namespace Billiard.Decimal

/-- The number `significand * 2 ^ exponent`, negated when `negative` is set. -/
structure Binary where
  negative : Bool
  significand : Nat
  exponent : Int
deriving DecidableEq, Repr

/-- What a binary64 number stands for. -/
inductive Exact where
  | nan
  | infinite (negative : Bool)
  | finite (value : Binary)
deriving DecidableEq, Repr

/-- The stored exponent of the smallest binary64 numbers. -/
def leastExponent : Int := -1074

/-- The significand of a power of two whose exponent is not the least one. -/
def hiddenBit : Nat := Nat.pow 2 52

/-- Reads sign, exponent field and fraction. An exponent field of zero has no hidden bit. -/
def Exact.ofBits (bits : UInt64) : Exact :=
  let negative := bits >>> 63 != 0
  let field := ((bits >>> 52) &&& 0x7ff).toNat
  let fraction := (bits &&& 0xfffffffffffff).toNat
  if field = 0x7ff then
    if fraction = 0 then .infinite negative else .nan
  else if field = 0 then
    .finite ⟨negative, fraction, leastExponent⟩
  else
    .finite ⟨negative, hiddenBit + fraction, leastExponent - 1 + field⟩

/-- The exact value of `x`. -/
def Exact.ofFloat (x : Float) : Exact := .ofBits x.toBits

namespace Binary

/-- Whether the value is zero, of either sign. -/
def isZero (value : Binary) : Bool := value.significand == 0

/-- The value is less than zero. -/
def isBelowZero (value : Binary) : Bool := value.negative && !value.isZero

/-- The whole part of the magnitude. -/
def wholePart (value : Binary) : Nat :=
  match value.exponent with
  | .ofNat up => value.significand <<< up
  | .negSucc down => value.significand >>> (down + 1)

/-- The greatest whole number at or below a value that is not below zero. -/
def floor? (value : Binary) : Option Nat :=
  if value.isBelowZero then none else some value.wholePart

end Binary

end Billiard.Decimal
