import Billiard.Decimal.Binary
import Billiard.Time

/-!
The numbers that coordinates, velocities and radii are made of. The rules of motion are written for
any type with these operations, so that they can be run on machine numbers and read as exact
arithmetic.
-/

namespace Billiard

/-- Arithmetic with the functions that the motion of balls needs. -/
class Scalar (K : Type) extends
    Add K, Sub K, Mul K, Div K, Neg K, LT K, LE K, BEq K, OfScientific K where
  decLt : DecidableLT K
  decLe : DecidableLE K
  sqrt : K → K
  abs : K → K
  sin : K → K
  cos : K → K
  acos : K → K
  pi : K
  /-- Neither infinite nor undefined. -/
  isFinite : K → Bool
  /-- A length of time as a number of milliseconds. -/
  ofMillis : Millis → K
  /-- The whole milliseconds in a number of them, if it is not below zero and below `2 ^ 64`. -/
  wholeMillis? : K → Option Millis

attribute [reducible, instance] Scalar.decLt Scalar.decLe

-- A type that has operations of its own keeps them.
attribute [instance (100)] Scalar.toAdd Scalar.toSub Scalar.toMul Scalar.toDiv Scalar.toNeg
  Scalar.toLT Scalar.toLE Scalar.toBEq Scalar.toOfScientific

namespace Scalar

variable {K : Type} [Scalar K]

/-- Magnitudes below this count as zero in a denominator. -/
@[inline] def negligible : K := 1e-12

/-- The nearest number from `low` to `high`. -/
def clamp (low high x : K) : K :=
  if x < low then low else if high < x then high else x

/-- Half a turn for machine numbers. -/
def halfTurn : Float := 3.141592653589793

/-- The whole part of a machine number that is a length of time. -/
def floorMillis? (x : Float) : Option Millis :=
  match Decimal.Exact.ofFloat x with
  | .nan | .infinite _ => none
  | .finite value =>
    match value.floor? with
    | none => none
    | some whole => if whole < UInt64.size then some (.ofNat whole) else none

instance : Scalar Float where
  decLt := inferInstance
  decLe := inferInstance
  sqrt := Float.sqrt
  abs := Float.abs
  sin := Float.sin
  cos := Float.cos
  acos := Float.acos
  pi := halfTurn
  isFinite := Float.isFinite
  ofMillis := UInt64.toFloat
  wholeMillis? := floorMillis?

end Scalar

end Billiard
