import Billiard.Plane.Segment

/-!
A ball, and how its motion changes: it drifts along its velocity, bounces off a wall, and exchanges
momentum with another ball.
-/

namespace Billiard

open Scalar (negligible)

/-- A moving disc. Velocities are in units per second. -/
structure Ball (K : Type) where
  position : Vec K
  velocity : Vec K
  radius : K
deriving BEq, Repr

namespace Ball

variable {K : Type} [Scalar K]

/-- The ball after `elapsed` milliseconds of free motion. -/
def drift (elapsed : Millis) (ball : Ball K) : Ball K :=
  { ball with position := ball.position + ball.velocity * (Scalar.ofMillis elapsed / 1000.0 : K) }

/-- The ball after an elastic bounce: the part of its velocity along the wall stays and the part
across it is reversed. A degenerate wall changes nothing. -/
def bounce (wall : Segment K) (ball : Ball K) : Ball K :=
  if wall.isDegenerate then ball
  else
    { ball with
      velocity := ball.velocity.along wall.span - ball.velocity.along wall.across }

/-- Heavier balls are larger: the mass is the square of the radius. -/
@[inline] def mass (ball : Ball K) : K := ball.radius * ball.radius

/-- Units per second. -/
def speed (ball : Ball K) : K := ball.velocity.norm

/-- The energy of motion. -/
def energy (ball : Ball K) : K := 0.5 * ball.mass * ball.velocity.normSq

/-- Two touching balls after an elastic exchange along the line through their centres. Balls that
do not approach each other, and balls of negligible mass, keep their velocities. -/
def exchange (first second : Ball K) : Ball K × Ball K :=
  match (second.position - first.position).unit? with
  | none => (first, second)
  | some axis =>
    let closing := (first.velocity - second.velocity).dot axis
    let total := first.mass + second.mass
    if closing ≤ 0.0 then (first, second)
    else if total < negligible then (first, second)
    else
      ({ first with
          velocity := first.velocity - axis * (2.0 * second.mass / total * closing) },
       { second with
          velocity := second.velocity + axis * (2.0 * first.mass / total * closing) })

end Ball

end Billiard
