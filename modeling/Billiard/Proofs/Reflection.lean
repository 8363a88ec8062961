import Billiard.Proofs.Exact

/-!
How balls come off walls. A velocity is known from its parts along and across a wall
(`Vec.eq_of_parts_along`), and where velocities can be measured along the wall, a bounce keeps the
one and reverses the other. So the ball leaves as fast as it came, and a second bounce undoes the
first. A wall that has a direction may still be too short for that; then it stops the ball
(`bounce_rebounds_iff`).
-/

namespace Billiard

open Scalar (negligible)

namespace Vec

variable {axis v w : Vec ℝ}

/-- A vector is the sum of its parts along and across an axis. -/
theorem normSq_mul_parts (axis v : Vec ℝ) :
    axis.normSq * v.x = v.dot axis * axis.x - v.dot axis.quarterTurn * axis.y ∧
      axis.normSq * v.y = v.dot axis * axis.y + v.dot axis.quarterTurn * axis.x := by
  simp only [normSq_eq, dot_eq, quarterTurn_eq]
  constructor <;> ring

theorem eq_of_parts_along (long : axis.normSq ≠ 0) (along : v.dot axis = w.dot axis)
    (across : v.dot axis.quarterTurn = w.dot axis.quarterTurn) : v = w := by
  obtain ⟨x, y⟩ := normSq_mul_parts axis v
  obtain ⟨x', y'⟩ := normSq_mul_parts axis w
  apply eq_of_parts
  · apply mul_left_cancel₀ long
    rw [x, x', along, across]
  · apply mul_left_cancel₀ long
    rw [y, y', along, across]

theorem normSq_mul_normSq (axis v : Vec ℝ) :
    axis.normSq * v.normSq = v.dot axis ^ 2 + v.dot axis.quarterTurn ^ 2 := by
  simp only [normSq_eq, dot_eq, quarterTurn_eq]
  ring

/-- Only the vector without length has none. -/
theorem eq_zero_of_norm (none : v.norm = 0) : v = ⟨0, 0⟩ := by
  have squares := add_nonneg (mul_self_nonneg v.x) (mul_self_nonneg v.y)
  have sum : v.x * v.x + v.y * v.y = 0 := (Real.sqrt_eq_zero squares).1 none
  obtain ⟨x, y⟩ :=
    (add_eq_zero_iff_of_nonneg (mul_self_nonneg v.x) (mul_self_nonneg v.y)).1 sum
  exact eq_of_parts (mul_self_eq_zero.1 x) (mul_self_eq_zero.1 y)

end Vec

namespace Ball

variable {wall : Segment ℝ}

/-- Off a wall of measurable length a ball is as fast as before. -/
theorem normSq_bounce (long : negligible ≤ wall.span.normSq) (ball : Ball ℝ) :
    (ball.bounce wall).velocity.normSq = ball.velocity.normSq := by
  cases sound : wall.isDegenerate with
  | true => simp [bounce, sound]
  | false =>
    have positive : wall.span.normSq ≠ 0 := (lt_of_lt_of_le Scalar.negligible_pos long).ne'
    have along := dot_span_bounce ball sound long
    have across := dot_across_bounce ball sound long
    apply mul_left_cancel₀ positive
    rw [Vec.normSq_mul_normSq, Vec.normSq_mul_normSq, along, ← Segment.across, across, neg_sq]

/-- The ball comes off the wall elastically: it keeps its velocity along the wall and reverses it
across the wall, it is as fast as before, and the next bounce gives its velocity back. -/
structure Rebounds (ball : Ball ℝ) (wall : Segment ℝ) : Prop where
  along : (ball.bounce wall).velocity.dot wall.span = ball.velocity.dot wall.span
  across : (ball.bounce wall).velocity.dot wall.across = -ball.velocity.dot wall.across
  speed : (ball.bounce wall).speed = ball.speed
  twice : ((ball.bounce wall).bounce wall).velocity = ball.velocity

theorem Rebounds.of_long (sound : wall.isDegenerate = false)
    (long : negligible ≤ wall.span.normSq) (ball : Ball ℝ) : ball.Rebounds wall where
  along := dot_span_bounce ball sound long
  across := dot_across_bounce ball sound long
  speed := congrArg Real.sqrt (normSq_bounce long ball)
  twice := by
    have positive : wall.span.normSq ≠ 0 := (lt_of_lt_of_le Scalar.negligible_pos long).ne'
    apply Vec.eq_of_parts_along positive
    · rw [dot_span_bounce _ sound long, dot_span_bounce _ sound long]
    · rw [← Segment.across, dot_across_bounce _ sound long, dot_across_bounce _ sound long,
        neg_neg]

/-- A ball at rest stays at rest. -/
theorem Rebounds.of_still (sound : wall.isDegenerate = false)
    (short : wall.span.normSq < negligible) {ball : Ball ℝ} (still : ball.velocity = ⟨0, 0⟩) :
    ball.Rebounds wall := by
  have stopped := velocity_bounce_of_short ball sound short
  constructor
  · rw [stopped, still]
  · simp [stopped, still, Vec.dot_eq]
  · rw [Ball.speed, Ball.speed, stopped, still]
  · rw [velocity_bounce_of_short _ sound short, still]

/-- What becomes of a ball at a wall that has a direction. It stays where it is and keeps its size;
it comes off the wall elastically exactly if it was at rest or velocities can be measured along the
wall, that is, if the square of the wall's length is not negligible; and where it is, the wall stops
the ball. -/
theorem bounce_rebounds_iff (sound : wall.isDegenerate = false) (ball : Ball ℝ) :
    (ball.bounce wall).position = ball.position ∧ (ball.bounce wall).radius = ball.radius ∧
      (ball.Rebounds wall ↔ negligible ≤ wall.span.normSq ∨ ball.velocity = ⟨0, 0⟩) ∧
      (wall.span.normSq < negligible → (ball.bounce wall).velocity = ⟨0, 0⟩) := by
  refine ⟨position_bounce wall ball, radius_bounce wall ball, ⟨?_, ?_⟩,
    velocity_bounce_of_short ball sound⟩
  · intro rebounds
    by_cases short : wall.span.normSq < negligible
    · right
      apply Vec.eq_zero_of_norm
      have stopped := velocity_bounce_of_short ball sound short
      have speed := rebounds.speed
      rw [Ball.speed, stopped] at speed
      rw [← Ball.speed, ← speed]
      simp [Vec.norm_eq]
    · exact .inl (not_lt.1 short)
  · intro measured
    by_cases short : wall.span.normSq < negligible
    · exact .of_still sound short (measured.resolve_left (not_le.2 short))
    · exact .of_long sound (not_lt.1 short) ball

/-- A wall that stands upright at 9. -/
noncomputable def stub (height : ℝ) : Segment ℝ := .ofCoords 9.0 0.0 9.0 height

/-- A ball that comes to a stub slantwise. -/
noncomputable def slanting : Ball ℝ := ⟨Vec.zero, ⟨10.0, 5.0⟩, 1.0⟩

theorem stub_span (height : ℝ) : (stub height).span = ⟨0, height⟩ := by
  simp only [stub, Segment.ofCoords, Segment.span, Vec.sub_eq]
  norm_num

theorem stub_norm {height : ℝ} (upward : 0 ≤ height) : (stub height).span.norm = height := by
  rw [stub_span, Vec.norm_eq, zero_mul, zero_add]
  exact Real.sqrt_mul_self upward

theorem stub_normSq (height : ℝ) : (stub height).span.normSq = height * height := by
  rw [stub_span, Vec.normSq_eq, zero_mul, zero_add]

theorem stub_sound {height : ℝ} (tall : negligible ≤ height) :
    (stub height).isDegenerate = false := by
  rw [← Bool.not_eq_true, Segment.isDegenerate_iff,
    stub_norm (Scalar.negligible_pos.le.trans tall), not_lt]
  exact tall

/-- At a stub that is just tall enough. -/
theorem bounce_rebounds_stub :
    (stub 1e-6).isDegenerate = false ∧ negligible ≤ (stub 1e-6).span.normSq ∧
      (slanting.bounce (stub 1e-6)).position = slanting.position ∧
      (slanting.bounce (stub 1e-6)).radius = slanting.radius ∧
      (slanting.Rebounds (stub 1e-6) ↔
        negligible ≤ (stub 1e-6).span.normSq ∨ slanting.velocity = ⟨0, 0⟩) ∧
      ((stub 1e-6).span.normSq < negligible →
        (slanting.bounce (stub 1e-6)).velocity = ⟨0, 0⟩) := by
  have sound : (stub 1e-6).isDegenerate = false := by
    apply stub_sound
    norm_num [Scalar.negligible_eq]
  refine ⟨sound, ?_, bounce_rebounds_iff sound slanting⟩
  rw [stub_span, Vec.normSq_eq]
  norm_num [Scalar.negligible_eq]

/-- A wall that has a direction, and yet stops the ball that comes to it. -/
theorem stub_stops_ball :
    (stub 5.9604644775390625e-8).isDegenerate = false ∧
      (slanting.bounce (stub 5.9604644775390625e-8)).velocity = ⟨0, 0⟩ ∧
      (slanting.bounce (stub 5.9604644775390625e-8)).speed ≠ slanting.speed ∧
      ¬slanting.Rebounds (stub 5.9604644775390625e-8) := by
  have sound : (stub 5.9604644775390625e-8).isDegenerate = false := by
    apply stub_sound
    norm_num [Scalar.negligible_eq]
  have short : (stub 5.9604644775390625e-8).span.normSq < negligible := by
    rw [stub_span, Vec.normSq_eq]
    norm_num [Scalar.negligible_eq]
  have stopped := velocity_bounce_of_short slanting sound short
  have slower : (slanting.bounce (stub 5.9604644775390625e-8)).speed ≠ slanting.speed := by
    intro same
    have still : slanting.velocity.norm = 0 := by
      rw [← speed, ← same, speed, stopped, Vec.norm_eq]
      norm_num
    have along := congrArg Vec.x (Vec.eq_zero_of_norm still)
    norm_num [slanting] at along
  exact ⟨sound, stopped, slower, fun rebounds => slower rebounds.speed⟩

end Ball

end Billiard
