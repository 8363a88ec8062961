import Billiard.Plane.Vec

/-!
Directed segments of the plane; every wall is one.
-/

namespace Billiard

open Scalar (negligible)

/-- The segment from `start` to `finish`. -/
structure Segment (K : Type) where
  start : Vec K
  finish : Vec K
deriving BEq, Repr

namespace Segment

variable {K : Type} [Scalar K]

/-- The segment between two points given by their coordinates. -/
def ofCoords (x₀ y₀ x₁ y₁ : K) : Segment K := ⟨⟨x₀, y₀⟩, ⟨x₁, y₁⟩⟩

/-- From start to finish. -/
@[inline] def span (s : Segment K) : Vec K := s.finish - s.start

/-- How far the ends are apart. -/
@[inline] def length (s : Segment K) : K := s.span.norm

/-- Across the segment, as long as the segment. -/
@[inline] def across (s : Segment K) : Vec K := s.span.quarterTurn

/-- Too short to have a direction, or without a finite length. -/
def isDegenerate (s : Segment K) : Bool :=
  !Scalar.isFinite s.length ∨ s.length < negligible

/-- Where the foot of the perpendicular from `p` lies on the line through the segment: 0 at the
start, 1 at the finish. -/
def foot? (s : Segment K) (p : Vec K) : Option K :=
  let span := s.span
  let lengthSq := span.normSq
  if lengthSq < negligible then none else some ((p - s.start).dot span / lengthSq)

end Segment

end Billiard
