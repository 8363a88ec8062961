import Billiard.Time

/-!
A permuted congruential generator: a linear congruence of 64 bits, of which each draw shows 32 that
are shifted and rotated by the highest ones.
-/

namespace Billiard

/-- The state of a generator, and the odd number that selects its sequence. -/
structure Pcg where
  state : UInt64
  increment : UInt64
deriving DecidableEq, Repr

namespace Pcg

/-- The factor of the congruence. -/
def multiplier : UInt64 := 6364136223846793005

/-- The number added while a seed is stretched. -/
def seedIncrement : UInt64 := 11634580027462260723

/-- What a state shows. -/
def output (state : UInt64) : UInt32 :=
  let mixed := (((state >>> 18) ^^^ state) >>> 27).toUInt32
  let turn := (state >>> 59).toUInt32
  (mixed >>> turn) ||| (mixed <<< ((32 - turn) % 32))

/-- Four words from a seed, and the state behind them. -/
def stretch : (count : Nat) → (state : UInt64) → List UInt32
  | 0, _ => []
  | count + 1, state =>
    let state := state * multiplier + seedIncrement
    output state :: stretch count state

/-- Two words, the lower one first. -/
def join (low high : UInt32) : UInt64 := low.toUInt64 ||| (high.toUInt64 <<< 32)

/-- The generator of a seed. -/
def ofSeed (seed : UInt64) : Pcg :=
  match stretch 4 seed with
  | [w₀, w₁, w₂, w₃] =>
    let increment := join w₂ w₃ ||| 1
    ⟨(join w₀ w₁ + increment) * multiplier + increment, increment⟩
  | _ => ⟨0, 1⟩

/-- The next 32 bits. -/
def next32 (pcg : Pcg) : UInt32 × Pcg :=
  (output pcg.state, { pcg with state := pcg.state * multiplier + pcg.increment })

/-- The next 64 bits. -/
def next64 (pcg : Pcg) : UInt64 × Pcg :=
  let (low, pcg) := pcg.next32
  let (high, pcg) := pcg.next32
  (join low high, pcg)

/-- A number from `low` up to and without `high`: 52 bits become a number from one to two. -/
def range (pcg : Pcg) (low high : Float) : Float × Pcg :=
  let (bits, pcg) := pcg.next64
  let fraction := Float.ofBits ((0x3ff0000000000000 : UInt64) ||| (bits >>> 12)) - 1.0
  (fraction * (high - low) + low, pcg)

end Pcg

end Billiard
