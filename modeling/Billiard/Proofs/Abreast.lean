import Billiard.Proofs.Corners
import Billiard.Proofs.Reaching

/-!
Hits between the ends of a wall. Where walls reach only from end to end, a ball is forecast to hit a
wall exactly when it is forecast to touch the wall's line and is abreast of the wall when it does,
as long as feet of perpendiculars can be found on the wall. A wall that has a direction may still be
too short for that; balls touch its line, and it is never hit (`Ball.untilEnds?_curtails_iff`).
-/

namespace Billiard

open Scalar (negligible)

namespace Segment

variable {wall : Segment ℝ} {p : Vec ℝ}

/-- The foot of the perpendicular from a point to the line through the wall lies between the ends of
the wall, or at one of them. -/
def Abreast (wall : Segment ℝ) (p : Vec ℝ) : Prop :=
  ∃ share : ℝ, 0 ≤ share ∧ share ≤ 1 ∧
    (p - (wall.start + wall.span * share)).dot wall.span = 0

/-- On a wall that is long enough, there is one foot of the perpendicular. -/
theorem abreast_iff (long : negligible ≤ wall.span.normSq) :
    wall.Abreast p ↔ 0 ≤ (p - wall.start).dot wall.span / wall.span.normSq ∧
      (p - wall.start).dot wall.span / wall.span.normSq ≤ 1 := by
  have positive : wall.span.normSq ≠ 0 := (lt_of_lt_of_le Scalar.negligible_pos long).ne'
  have perpendicular (share : ℝ) : (p - (wall.start + wall.span * share)).dot wall.span = 0 ↔
      share = (p - wall.start).dot wall.span / wall.span.normSq := by
    have part : (p - (wall.start + wall.span * share)).dot wall.span =
        (p - wall.start).dot wall.span - share * wall.span.normSq := by
      simp only [Vec.dot_eq, Vec.normSq_eq, Vec.sub_eq, Vec.add_eq, Vec.smul_eq]
      ring
    rw [part, sub_eq_zero, eq_div_iff positive, eq_comm]
  constructor
  · rintro ⟨share, after, before, foot⟩
    exact (perpendicular share).1 foot ▸ ⟨after, before⟩
  · rintro ⟨after, before⟩
    exact ⟨_, after, before, (perpendicular _).2 rfl⟩

end Segment

namespace Ball

variable {ball : Ball ℝ} {wall : Segment ℝ}

/-- The ball is abreast of the wall when it touches the wall's line. -/
def TouchesAbreast (ball : Ball ℝ) (wall : Segment ℝ) : Prop :=
  ∃ time, ball.lineContact? wall = some time ∧ wall.Abreast (ball.moved time).position

/-- The forecast for the wall between its ends is that for its line, curtailed to balls that are
then abreast of the wall. -/
def Curtails (ball : Ball ℝ) (wall : Segment ℝ) : Prop :=
  ∀ delay, ball.untilEnds? wall = some delay ↔
    ball.untilLine? wall = some delay ∧ ball.TouchesAbreast wall

/-- Where feet of perpendiculars can be found, a wall is hit between its ends. -/
theorem curtails_of_long (long : negligible ≤ wall.span.normSq) (ball : Ball ℝ) :
    ball.Curtails wall := by
  intro delay
  cases touches : ball.lineContact? wall with
  | none => simp [untilEnds?, untilLine?, touches]
  | some time =>
    have abreast : ball.TouchesAbreast wall ↔ wall.Abreast (ball.moved time).position := by
      simp [TouchesAbreast, touches]
    rw [untilEnds?_of_foot touches (Segment.foot?_of_long long), abreast,
      Segment.abreast_iff long, untilLine?, touches, Option.bind_some,
      Option.ite_none_right_eq_some, and_comm]

/-- Where none can be found, it is not hit at all. -/
theorem untilEnds?_of_short (short : wall.span.normSq < negligible) (ball : Ball ℝ) :
    ball.untilEnds? wall = none := by
  have unknown (p : Vec ℝ) : wall.foot? p = none := if_pos short
  simp only [untilEnds?, unknown]
  split <;> rfl

/-- When a wall is hit between its ends exactly where its line is touched abreast of it: if the
square of the wall's length is not negligible, and otherwise only if its line is not touched there.
A shorter wall is never hit. -/
theorem untilEnds?_curtails_iff (ball : Ball ℝ) (wall : Segment ℝ) :
    (ball.Curtails wall ↔ negligible ≤ wall.span.normSq ∨
      ∀ delay, ball.untilLine? wall = some delay → ¬ball.TouchesAbreast wall) ∧
      (wall.span.normSq < negligible → ball.untilEnds? wall = none) := by
  refine ⟨⟨?_, ?_⟩, fun short => untilEnds?_of_short short ball⟩
  · intro curtails
    by_cases long : negligible ≤ wall.span.normSq
    · exact .inl long
    · right
      intro delay touches abreast
      have hits := (curtails delay).2 ⟨touches, abreast⟩
      rw [untilEnds?_of_short (not_le.1 long)] at hits
      cases hits
  · intro measured
    by_cases long : negligible ≤ wall.span.normSq
    · exact curtails_of_long long ball
    · have misses := measured.resolve_left long
      intro delay
      rw [untilEnds?_of_short (not_le.1 long)]
      exact iff_of_false nofun fun ⟨touches, abreast⟩ => misses delay touches abreast

section Stub

variable {height : ℝ}

theorem offset_stub (height : ℝ) (ball : Ball ℝ) :
    ball.offset (stub height) = height * (9 - ball.position.x) := by
  have nine : (9.0 : ℝ) = 9 := by norm_num
  have nothing : (0.0 : ℝ) = 0 := by norm_num
  rw [offset, stub_span, stub, Segment.ofCoords, nine, nothing, Vec.wedge_eq, Vec.sub_eq]
  ring

theorem rate_stub (height : ℝ) (ball : Ball ℝ) :
    ball.rate (stub height) = -(height * ball.velocity.x) := by
  rw [rate, stub_span, Vec.wedge_eq]
  ring

/-- A ball touches the line of a stub, however short, after eight tenths of a second. -/
theorem lineContact?_nearing (tall : negligible ≤ height) :
    nearing.lineContact? (stub height) = some 800 := by
  have positive : 0 < height := lt_of_lt_of_le Scalar.negligible_pos tall
  have offset : nearing.offset (stub height) = 9 * height := by
    rw [offset_stub, nearing, Vec.zero_eq]
    ring
  have rate : nearing.rate (stub height) = -(10 * height) := by
    rw [rate_stub, nearing]
    norm_num
    ring
  have berth : nearing.berth (stub height) = height := by
    rw [berth, stub_norm positive.le, nearing]
    norm_num
  have size : |nearing.rate (stub height)| = 10 * height := by
    rw [rate, abs_neg, abs_of_pos (by linarith)]
  have arrives : nearing.arrival 1 (stub height) = 800 := by
    rw [arrival_eq, offset, rate, berth]
    field_simp
    norm_num
  rw [lineContact?_of_approaching (stub_sound tall) (.inl rfl), arrives]
  · rw [offset, berth]
    linarith
  · rw [size]
    linarith
  · have lasts : 2000 * height / (10 * height) = 200 := by
      field_simp
      norm_num
    rw [size, berth, lasts]
    norm_num [Prediction.instantaneous_eq]
  · rw [rate]
    linarith

theorem untilLine?_nearing (tall : negligible ≤ height) :
    nearing.untilLine? (stub height) = some 800 := by
  have whole : ((800 : Millis).toNat : ℝ) = 800 := by
    exact_mod_cast (rfl : (800 : Millis).toNat = 800)
  rw [untilLine?, lineContact?_nearing tall, Option.bind_some, ← whole, Scalar.wholeMillis?_toNat]

/-- The ball touches the line at the foot of the stub. -/
theorem touchesAbreast_nearing (tall : negligible ≤ height) :
    nearing.TouchesAbreast (stub height) := by
  refine ⟨800, lineContact?_nearing tall, 0, le_refl 0, zero_le_one, ?_⟩
  rw [stub_span, nearing, stub, Segment.ofCoords, moved_eq, Vec.zero_eq]
  simp only [Vec.dot_eq, Vec.sub_eq, Vec.add_eq, Vec.smul_eq]
  norm_num

/-- At a stub that is just tall enough to be hit, and at one that is not. -/
theorem untilEnds?_curtails_stubs :
    negligible ≤ (stub 1e-6).span.normSq ∧ nearing.untilEnds? (stub 1e-6) = some 800 ∧
      (stub 1e-7).span.normSq < negligible ∧ nearing.untilEnds? (stub 1e-7) = none := by
  have tall : negligible ≤ (1e-6 : ℝ) := by norm_num [Scalar.negligible_eq]
  have long : negligible ≤ (stub 1e-6).span.normSq := by
    rw [stub_normSq]
    norm_num [Scalar.negligible_eq]
  have short : (stub 1e-7).span.normSq < negligible := by
    rw [stub_normSq]
    norm_num [Scalar.negligible_eq]
  have curtails := (untilEnds?_curtails_iff nearing (stub 1e-6)).1.2 (.inl long)
  refine ⟨long, ?_, short, (untilEnds?_curtails_iff nearing (stub 1e-7)).2 short⟩
  exact (curtails 800).2 ⟨untilLine?_nearing tall, touchesAbreast_nearing tall⟩

/-- A wall that has a direction, and whose line a ball touches right at the wall, and yet the ball
is not forecast to hit it. -/
theorem stub_never_hit :
    (stub 5.9604644775390625e-8).isDegenerate = false ∧
      nearing.untilLine? (stub 5.9604644775390625e-8) = some 800 ∧
      nearing.TouchesAbreast (stub 5.9604644775390625e-8) ∧
      nearing.untilEnds? (stub 5.9604644775390625e-8) = none ∧
      ¬nearing.Curtails (stub 5.9604644775390625e-8) := by
  have tall : negligible ≤ (5.9604644775390625e-8 : ℝ) := by norm_num [Scalar.negligible_eq]
  have short : (stub 5.9604644775390625e-8).span.normSq < negligible := by
    rw [stub_normSq]
    norm_num [Scalar.negligible_eq]
  have missed := untilEnds?_of_short short nearing
  have touches := untilLine?_nearing tall
  have abreast := touchesAbreast_nearing tall
  refine ⟨stub_sound tall, touches, abreast, missed, fun curtails => ?_⟩
  have hits := (curtails 800).2 ⟨touches, abreast⟩
  rw [missed] at hits
  cases hits

end Stub

end Ball

end Billiard
