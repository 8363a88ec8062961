import Billiard.Contact

/-!
When balls touch walls and each other. Between two events every ball moves along a straight line,
so the distance to a wall is an affine function of time and the squared distance of two balls a
quadratic one; each contact is a root of an equation. Delays are floored to whole milliseconds, so
that a ball turns back up to a millisecond early rather than late.
-/

namespace Billiard

open Scalar (negligible)

variable {K : Type} [Scalar K]

namespace Prediction

/-- Milliseconds within which a contact counts as happening now. -/
@[inline] def instantaneous : K := 1e-6

/-- The contact among the two times at which a ball's reach begins or ends: the earlier one if it
lies ahead; now, if the contact has just begun; the later one for a ball that overlaps; and nothing
for a ball that has left. -/
def firstContact? (t u : K) : Option K :=
  if Scalar.isFinite t && Scalar.isFinite u then
    let early := if t ≤ u then t else u
    let late := if t ≤ u then u else t
    if 0.0 < early then some early
    else if -instantaneous < early ∧ instantaneous < late then some 0.0
    else if instantaneous < late then some late
    else none
  else none

end Prediction

open Prediction

namespace Ball

/-- The time in milliseconds until the centre of the ball is a radius away from the wall's line.
`offset` is the signed distance from the line and `rate` its change per second, both times the
length of the wall. -/
def lineContact? (ball : Ball K) (wall : Segment K) : Option K :=
  if wall.isDegenerate then none
  else
    let span := wall.span
    let reach := ball.radius * span.norm
    let offset := span.wedge (ball.position - wall.start)
    let rate := span.wedge ball.velocity
    if Scalar.abs rate < negligible then none
    else firstContact? (1000.0 * (reach - offset) / rate) (1000.0 * (-reach - offset) / rate)

/-- Whole milliseconds until the ball touches the line through the wall. -/
def untilLine? (ball : Ball K) (wall : Segment K) : Option Millis :=
  ball.lineContact? wall |>.bind Scalar.wholeMillis?

/-- Whole milliseconds until the ball touches the wall's line, provided that the touching point
lies between the wall's ends. -/
def untilEnds? (ball : Ball K) (wall : Segment K) : Option Millis :=
  match ball.lineContact? wall with
  | none => none
  | some time =>
    match wall.foot? (ball.position + ball.velocity * (time / 1000.0)) with
    | none => none
    | some foot => if 0.0 ≤ foot ∧ foot ≤ 1.0 then Scalar.wholeMillis? time else none

/-- Whole milliseconds until the ball hits the wall, as far as the wall reaches. -/
def untilWall? (reach : Reach) (ball : Ball K) (wall : Segment K) : Option Millis :=
  match reach with
  | .line => ball.untilLine? wall
  | .ends => ball.untilEnds? wall

/-- Whole milliseconds until two balls touch. Their squared distance is
`speedSq * t ^ 2 + slope * t` more than now. -/
def untilBall? (ball other : Ball K) : Option Millis :=
  let gap := other.position - ball.position
  let relative := other.velocity - ball.velocity
  let reach := ball.radius + other.radius
  let speedSq := relative.dot relative
  if speedSq < negligible then none
  else
    let slope := 2.0 * gap.dot relative
    let clearance := gap.dot gap - reach * reach
    let discriminant := slope * slope - 4.0 * speedSq * clearance
    if discriminant < 0.0 then none
    else
      let root := Scalar.sqrt discriminant
      firstContact? (1000.0 * (-slope - root) / (2.0 * speedSq))
        (1000.0 * (-slope + root) / (2.0 * speedSq)) |>.bind Scalar.wholeMillis?

end Ball

namespace Table

/-- The contacts ahead of one ball with the walls, in order. -/
def wallForecasts (table : Table K) (id : BallId) (ball : Ball K) : List Forecast :=
  table.walls.zipIdx.filterMap fun (wall, place) =>
    (ball.untilWall? table.reach wall).map fun delay => ⟨delay, .wall id place⟩

/-- The contacts ahead of one ball with the other balls, in order. -/
def pairForecasts (table : Table K) (id : BallId) (ball : Ball K) : List Forecast :=
  table.balls.zipIdx.filterMap fun (other, place) =>
    if place = id then none
    else (ball.untilBall? other).map fun delay => ⟨delay, .between id place⟩

/-- All contacts ahead of one ball if nothing else happens: walls first, then balls. -/
def forecastsOf (table : Table K) (id : BallId) : List Forecast :=
  match table.balls[id]? with
  | none => []
  | some ball => table.wallForecasts id ball ++ table.pairForecasts id ball

/-- Whether a contact is counted for this ball: a pair counts for its first ball only. -/
def countsFor (id : BallId) : Contact → Bool
  | .wall _ _ => true
  | .pair a _ => a == id

/-- All contacts ahead on the table, each once, by ball, walls first. -/
def forecasts (table : Table K) : List Forecast :=
  (List.range table.balls.length).flatMap fun id =>
    (table.forecastsOf id).filter fun forecast => countsFor id forecast.contact

/-- The soonest contact that is not among `settled`; of several at once the first in the order of
`forecasts`. -/
def nextContact? (table : Table K) (settled : List Contact) : Option Forecast :=
  Forecast.soonest? (table.forecasts.filter fun forecast => !settled.contains forecast.contact)

end Table

end Billiard
