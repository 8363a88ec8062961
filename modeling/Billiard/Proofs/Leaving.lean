import Billiard.Proofs.Clearance

/-!
Which balls a wall contact sends into the wall. A contact reverses the ball's motion across the
wall, whichever way it goes. A ball that is clear of the line when the contact is forecast still
comes closer when the contact comes, so it is sent away. A ball that overlaps the line has its
contact when it would be clear of the line again, and if it moves away from the line by then, it is
sent back (`Simulation.sent_inward_iff`).
-/

namespace Billiard

open Scalar (negligible)

namespace Ball

variable {ball : Ball ℝ} {wall : Segment ℝ} {reach : Reach} {elapsed : Millis}

/-- Only a ball that overlaps a line when its contact is forecast moves away from the line when the
contact comes. -/
theorem overlaps_of_leaving (sound : wall.isDegenerate = false) (wide : 0 ≤ ball.berth wall)
    (forecast : ball.untilWall? reach wall = some elapsed)
    (leaving : 0 < (ball.drift elapsed).offset wall * ball.rate wall) :
    |ball.offset wall| < ball.berth wall := by
  obtain ⟨time, found, counted⟩ := exists_lineContact?_of_untilWall? forecast
  obtain ⟨ahead, floored⟩ := Scalar.toNat_of_wholeMillis? counted
  by_contra clear
  obtain ⟨side, sign, far⟩ := exists_side (ball.offset wall)
  rw [not_lt, ← far] at clear
  obtain ⟨approaching, rfl⟩ := eq_arrival_of_lineContact? sound sign clear wide found
  have early : (elapsed.toNat : ℝ) ≤ ball.arrival side wall := by
    rw [floored]
    exact Nat.floor_le ahead
  have beside := berth_le_offset_moved clear (Nat.cast_nonneg _) fun _ => early
  rw [← drift_eq_moved] at beside
  have closing : (ball.drift elapsed).offset wall * ball.rate wall ≤ 0 := by
    rw [← side_mul_side sign]
    exact mul_nonpos_of_nonneg_of_nonpos (wide.trans beside) approaching.le
  exact absurd leaving (not_lt.2 closing)

/-- A bounce sends a ball towards a line exactly if it moves away from it and the wall is long
enough to turn it. -/
theorem inward_bounce_iff (sound : wall.isDegenerate = false) :
    (ball.bounce wall).offset wall * (ball.bounce wall).rate wall < 0 ↔
      negligible ≤ wall.span.normSq ∧ 0 < ball.offset wall * ball.rate wall := by
  have stays : (ball.bounce wall).offset wall = ball.offset wall := by
    rw [offset, position_bounce, offset]
  rw [stays]
  by_cases long : negligible ≤ wall.span.normSq
  · rw [rate_bounce_of_long ball sound long, mul_neg, neg_lt_zero, and_iff_right long]
  · rw [rate_bounce_of_short ball sound (not_le.1 long), mul_zero]
    exact iff_of_false (lt_irrefl 0) fun both => long both.1

end Ball

namespace Simulation

variable {C : Type} [Canvas ℝ C] {scene : Scene ℝ} {event : Event} {rest : Agenda} {hit : BallId}
  {place : WallId} {elapsed : Millis}

/-- Which balls a delivered contact sends into the wall. Right after it, the ball moves towards the
wall's line exactly if it overlapped the line when the contact was forecast, its centre moves away
from the line when the contact comes, and the wall is long enough to turn it. A ball that was clear
of the line is never sent towards it. -/
theorem sent_inward_iff {canvas : C} {first : Simulation ℝ C Conductor}
    (made : scene.conduct id canvas = .ok first) (moves : List Move)
    (popped : (first.follow moves).stage.agenda.popDue? (first.follow moves).now =
      some (event, rest))
    (tells : event.signal = .wall hit place elapsed) :
    ∃ wall old ball, scene.table.walls[place]? = some wall ∧
      (first.follow moves).stage.table.balls[hit]? = some old ∧
      (first.follow moves).step.2.stage.table.balls[hit]? = some ball ∧
      ball.position = (old.drift elapsed).position ∧
      (ball.offset wall * ball.rate wall < 0 ↔
        |old.offset wall| < old.berth wall ∧
          0 < (old.drift elapsed).offset wall * old.rate wall ∧
          negligible ≤ wall.span.normSq) := by
  obtain ⟨poised, table, fine⟩ := Poised.of_conduct made
  obtain ⟨conductor, poised, alike⟩ := poised.follow moves
  rw [table] at alike
  have sound := (Scene.fault?_eq_none_iff_sound.1 fine).2.of_resembles alike
  obtain ⟨old, wall, here, there, forecast, bounced⟩ := poised.bounces popped tells
  have ballIn := List.mem_of_getElem? here
  have wallIn := List.mem_of_getElem? there
  refine ⟨wall, old, _, alike.walls ▸ there, here, bounced, Ball.position_bounce _ _, ?_⟩
  rw [Ball.inward_bounce_iff (sound.walls wall wallIn), Ball.rate_drift]
  constructor
  · rintro ⟨long, leaving⟩
    exact ⟨Ball.overlaps_of_leaving (sound.walls wall wallIn) (sound.berth_pos ballIn wallIn).le
      forecast leaving, leaving, long⟩
  · rintro ⟨_, leaving, long⟩
    exact ⟨long, leaving⟩

/-- A ball that overlaps the wall at 18 and moves away from it. -/
noncomputable def straggling : Ball ℝ := ⟨⟨17.0, 0.0⟩, ⟨-20.0, 0.0⟩, 2.0⟩

/-- The ball and the wall that it overlaps. -/
noncomputable def straggler : Scene ℝ where
  table :=
    { walls := [upright 18.0]
      balls := [straggling]
      turret := Scene.standardTurret
      reach := .line
      response := .pass }
  interval := some 1000

section Straggler

theorem offset_straggling : straggling.offset (upright 18.0) = 20 := by
  rw [offset_upright, straggling]
  norm_num

theorem rate_straggling : straggling.rate (upright 18.0) = 400 := by
  rw [rate_upright, straggling]
  norm_num

theorem berth_straggling : straggling.berth (upright 18.0) = 40 := by
  rw [Ball.berth, upright_length, straggling]
  norm_num

/-- It is clear of the wall again after fifty milliseconds. -/
theorem untilWall?_straggling : straggling.untilWall? .line (upright 18.0) = some 50 := by
  have fast : ¬|(1 : ℝ) * 400| < negligible := by
    norm_num [Scalar.negligible_eq]
  have whole : (50 : Millis).toNat = 50 := rfl
  apply Ball.untilWall?_of_lineContact?
  rw [whole, Ball.lineContact?_eq (upright_sound _) (.inl rfl), offset_straggling,
    rate_straggling, berth_straggling, if_neg fast, Prediction.firstContact?_comm,
    Prediction.firstContact?_of_le (by norm_num)]
  norm_num

theorem forecasts_straggler : straggler.table.forecasts = [⟨50, .wall 0 0⟩] := by
  simp [Table.forecasts, Table.forecastsOf, Table.wallForecasts, Table.pairForecasts, straggler,
    Table.countsFor, untilWall?_straggling]

/-- Fifty milliseconds after the start, the contact is due. -/
theorem exists_straggler_run :
    ∃ (first : Simulation ℝ (Blank ℝ) Conductor) (event : Event) (rest : Agenda),
      straggler.conduct id ⟨⟩ = .ok first ∧
      (first.follow [.start, .advance 50]).stage.table = straggler.table ∧
      (first.follow [.start, .advance 50]).stage.agenda.popDue?
        (first.follow [.start, .advance 50]).now = some (event, rest) ∧
      event.signal = .wall 0 0 50 := by
  have fine : straggler.fault? = none := by
    refine Scene.fault?_eq_none_iff_sound.2 ⟨by decide, ?_, ?_⟩
    · intro wall member
      obtain rfl := List.mem_singleton.1 member
      exact upright_sound _
    · intro ball member
      obtain rfl := List.mem_singleton.1 member
      norm_num [straggling]
  have next : straggler.table.nextContact? [] = some ⟨50, .wall 0 0⟩ := by
    rw [Table.nextContact?, forecasts_straggler]
    rfl
  exact Armed.exists_run_to_contact fine (⟨⟩ : Blank ℝ) rfl next (by decide)

/-- The straggler is sent back. -/
theorem sent_inward_straggler :
    ∃ (first : Simulation ℝ (Blank ℝ) Conductor) (event : Event) (rest : Agenda),
      straggler.conduct id ⟨⟩ = .ok first ∧
      (first.follow [.start, .advance 50]).stage.agenda.popDue?
        (first.follow [.start, .advance 50]).now = some (event, rest) ∧
      event.signal = .wall 0 0 50 ∧
      ∃ wall old ball, straggler.table.walls[0]? = some wall ∧
        (first.follow [.start, .advance 50]).stage.table.balls[0]? = some old ∧
        (first.follow [.start, .advance 50]).step.2.stage.table.balls[0]? = some ball ∧
        ball.position = (old.drift 50).position ∧
        (ball.offset wall * ball.rate wall < 0 ↔
          |old.offset wall| < old.berth wall ∧ 0 < (old.drift 50).offset wall * old.rate wall ∧
            negligible ≤ wall.span.normSq) := by
  obtain ⟨first, event, rest, made, _, popped, tells⟩ := exists_straggler_run
  exact ⟨first, event, rest, made, popped, tells, sent_inward_iff made _ popped tells⟩

/-- A ball that was about to be clear of a wall moves towards it right after the contact. -/
theorem straggler_sent_inward :
    ∃ (first : Simulation ℝ (Blank ℝ) Conductor) (event : Event) (rest : Agenda) (ball : Ball ℝ),
      straggler.conduct id ⟨⟩ = .ok first ∧
      (first.follow [.start, .advance 50]).stage.agenda.popDue?
        (first.follow [.start, .advance 50]).now = some (event, rest) ∧
      event.signal = .wall 0 0 50 ∧
      (first.follow [.start, .advance 50]).step.2.stage.table.balls[0]? = some ball ∧
      ball.offset (upright 18.0) * ball.rate (upright 18.0) < 0 := by
  obtain ⟨first, event, rest, made, same, popped, tells⟩ := exists_straggler_run
  obtain ⟨_, poised, _⟩ := (Poised.of_conduct made).1.follow [.start, .advance 50]
  obtain ⟨ball, wall, here, there, _, bounced⟩ := poised.bounces popped tells
  rw [same] at here there
  obtain rfl : straggling = ball := Option.some.inj here
  obtain rfl : upright 18.0 = wall := Option.some.inj there
  refine ⟨first, event, rest, _, made, popped, tells, bounced, ?_⟩
  rw [Ball.inward_bounce_iff (upright_sound _), Ball.rate_drift, Ball.offset_drift,
    offset_straggling, rate_straggling]
  exact ⟨upright_long _, by positivity⟩

end Straggler

end Simulation

end Billiard
