import Billiard.Table.Ball
import Billiard.Table.Turret

/-!
The table: walls, balls and turret, and how the open questions of its physics are settled. Walls
and balls are known by their places in their lists.
-/

namespace Billiard

/-- The place of a ball on its table. -/
abbrev BallId := Nat

/-- The place of a wall at its table. -/
abbrev WallId := Nat

/-- Where a wall can be hit. -/
inductive Reach where
  /-- Anywhere along its line. -/
  | line
  /-- Only between its ends. -/
  | ends
deriving DecidableEq, Repr

/-- What touching balls do. -/
inductive Response where
  /-- They keep their velocities. -/
  | pass
  /-- They exchange momentum. -/
  | elastic
deriving DecidableEq, Repr

/-- Everything that moves, and what it can hit. -/
structure Table (K : Type) where
  walls : List (Segment K)
  balls : List (Ball K)
  turret : Turret K
  reach : Reach
  response : Response
deriving BEq, Repr

namespace Table

variable {K : Type} [Scalar K]

/-- Every ball moves freely for `elapsed` milliseconds. -/
def drift (elapsed : Millis) (table : Table K) : Table K :=
  { table with balls := table.balls.map (Ball.drift elapsed) }

/-- One ball moves freely, the others stay. -/
def driftOne (ball : BallId) (elapsed : Millis) (table : Table K) : Table K :=
  { table with balls := table.balls.modify ball (Ball.drift elapsed) }

/-- Bounces a ball off a wall, if both are there. -/
def bounce? (ball : BallId) (wall : WallId) (table : Table K) : Option (Table K) :=
  match table.walls[wall]?, table.balls[ball]? with
  | some line, some hit => some { table with balls := table.balls.set ball (hit.bounce line) }
  | _, _ => none

/-- Lets two touching balls respond as the table says, if they are two and both are there. The
order of the two does not matter. -/
def meet? (a b : BallId) (table : Table K) : Option (Table K) :=
  let lower := if a < b then a else b
  let upper := if a < b then b else a
  if lower = upper then none
  else
    match table.balls[lower]?, table.balls[upper]? with
    | some first, some second =>
      match table.response with
      | .pass => some table
      | .elastic =>
        let (first, second) := first.exchange second
        some { table with balls := (table.balls.set lower first).set upper second }
    | _, _ => none

/-- Turns the turret by one key press. -/
def turn (way : Turn) (table : Table K) : Table K :=
  { table with turret := table.turret.turn way }

/-- The energy of all balls, added up in order from a zero that leaves every summand as it is. -/
def energy (table : Table K) : K :=
  table.balls.foldl (fun total ball => total + ball.energy) (-0.0)

/-- The velocity of a ball, if it is there. -/
def velocity? (table : Table K) (ball : BallId) : Option (Vec K) :=
  table.balls[ball]?.map (·.velocity)

end Table

end Billiard
