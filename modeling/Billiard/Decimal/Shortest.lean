import Billiard.Decimal.Binary

/-!
The shortest decimal that reads back as a given binary64 number. Of all multiples of all powers of
ten that round to the number, `shortest` takes one on the coarsest grid, and on that grid the one
nearest to the number. Only the two grid points around the number need looking at: if any point of
the grid lies in the interval that rounds to the number, one of these two does.
-/

namespace Billiard.Decimal

/-- The number `digits * 10 ^ exponent`. -/
structure Digits where
  digits : Nat
  exponent : Int
deriving DecidableEq, Repr

/-- Which of two equally near decimals is taken. -/
inductive Tie where
  /-- The one with the greater magnitude. -/
  | away
  /-- The one whose last digit is even. -/
  | toEven
deriving DecidableEq, Repr

/-- The reals that round to a binary64 number, in quarters of its last place: from `low` to `high`
around `centre`, each times `2 ^ exponent`. The ends belong to it when `closed` is set. -/
structure Interval where
  low : Nat
  centre : Nat
  high : Nat
  exponent : Int
  closed : Bool
deriving DecidableEq, Repr

/-- The ends lie half a last place away, below a power of two a quarter. They round to an even
significand. -/
def Binary.interval (value : Binary) : Interval where
  low :=
    if value.significand = hiddenBit ∧ leastExponent < value.exponent then
      4 * value.significand - 1
    else
      4 * value.significand - 2
  centre := 4 * value.significand
  high := 4 * value.significand + 2
  exponent := value.exponent - 2
  closed := value.significand % 2 == 0

namespace Interval

/-- The factors `(up, down)` for which `x * 2 ^ exponent` is `x * up / down` grid steps. -/
def scale (interval : Interval) (grid : Int) : Nat × Nat :=
  (Nat.pow 2 interval.exponent.toNat * Nat.pow 10 (-grid).toNat,
   Nat.pow 2 (-interval.exponent).toNat * Nat.pow 10 grid.toNat)

/-- Whether the point number `point` of the grid rounds to the number. -/
def holds (interval : Interval) (scale : Nat × Nat) (point : Nat) : Bool :=
  let position := point * scale.2
  let low := interval.low * scale.1
  let high := interval.high * scale.1
  if interval.closed then low ≤ position && position ≤ high else low < position && position < high

/-- The point of the grid of multiples of `10 ^ grid` that stands for the number, if any does. -/
def pick? (tie : Tie) (interval : Interval) (grid : Int) : Option Nat :=
  let scale := interval.scale grid
  let below := interval.centre * scale.1 / scale.2
  match interval.holds scale below, interval.holds scale (below + 1) with
  | false, false => none
  | true, false => some below
  | false, true => some (below + 1)
  | true, true =>
    match compare (2 * interval.centre * scale.1) ((2 * below + 1) * scale.2) with
    | .lt => some below
    | .gt => some (below + 1)
    | .eq =>
      match tie with
      | .away => some (below + 1)
      | .toEven => some (if below % 2 = 0 then below else below + 1)

/-- Tries at most `count` grids, the coarsest first. -/
def search (tie : Tie) (interval : Interval) : (count : Nat) → (grid : Int) → Digits
  | 0, grid => ⟨interval.centre * (interval.scale grid).1 / (interval.scale grid).2, grid⟩
  | count + 1, grid =>
    match interval.pick? tie grid with
    | some point => ⟨point, grid⟩
    | none => interval.search tie count (grid - 1)

end Interval

/-- A power of ten above the magnitude of `value`: 30103 / 100000 is the logarithm of two to five
places. -/
def Binary.gridAbove (value : Binary) : Int :=
  (value.significand.log2 + value.exponent) * 30103 / 100000 + 2

/-- No more grids than this are coarser than one with seventeen digits, on which every binary64
number has a point. -/
def gridCount : Nat := 21

/-- The shortest decimal that reads back as the magnitude of `value`. -/
def shortest (tie : Tie) (value : Binary) : Digits :=
  if value.isZero then ⟨0, 0⟩ else value.interval.search tie gridCount value.gridAbove

end Billiard.Decimal
