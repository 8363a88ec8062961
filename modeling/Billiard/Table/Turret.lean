import Billiard.Plane.Vec

/-!
The turret in the middle of the table. The keys turn it; the balls do not feel it.
-/

namespace Billiard

/-- The two ways to turn. -/
inductive Turn where
  | left
  | right
deriving DecidableEq, Repr

/-- A triangle that points along `angle`, in radians from straight up. -/
structure Turret (K : Type) where
  angle : K
  length : K
  width : K
  pivot : Vec K
deriving BEq, Repr

namespace Turret

variable {K : Type} [Scalar K]

/-- One key press turns by a twelfth of a full turn. -/
def notch : K := Scalar.pi / 6.0

/-- The turret after one key press. -/
def turn (way : Turn) (turret : Turret K) : Turret K :=
  match way with
  | .left => { turret with angle := turret.angle - notch }
  | .right => { turret with angle := turret.angle + notch }

/-- A point given relative to an upright turret at the origin. -/
def place (turret : Turret K) (p : Vec K) : Vec K :=
  Vec.turnAbout Vec.zero turret.angle p + turret.pivot

/-- The left, right and front corners. -/
def corners (turret : Turret K) : Vec K × Vec K × Vec K :=
  (turret.place ⟨-turret.width / 2.0, turret.length / 2.0⟩,
   turret.place ⟨turret.width / 2.0, turret.length / 2.0⟩,
   turret.place ⟨0.0, -turret.length / 2.0⟩)

end Turret

end Billiard
