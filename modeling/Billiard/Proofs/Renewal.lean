import Billiard.Proofs.Abreast
import Billiard.Proofs.Touching

/-!
Forecasts made on the way. What a ball that is clear of a wall's line has ahead, or two balls that
are clear of each other, is still ahead after some of the time until then, by as much less
(`Ball.Awaits.drift`, `Ball.AwaitsBall.drift`): also at its very end, where the ball touches the
line and the contact counts as happening now. So a contact is due at the same instant, however the
time until then is split (`Ball.forecasts_stand`).
-/

namespace Billiard

open Prediction Scalar Spell

/-- On the way to an instant, the instant does not change. -/
theorem Instant.after_after_sub {elapsed delay : Millis} (now : Instant) (early : elapsed ≤ delay) :
    (now.after elapsed).after (delay - elapsed) = now.after delay := by
  have whole := UInt64.le_iff_toNat_le.1 early
  apply UInt64.toNat_inj.1
  rw [toNat_after, toNat_after, toNat_after, UInt64.toNat_sub_of_le _ _ early]
  omega

/-- How much time passes in all, in milliseconds. -/
def Millis.total (parts : List Millis) : Nat := (parts.map (·.toNat)).sum

/-- However some of the time until a delay passes, one length of time after the other, there is a
forecast then, and it is of what is left of the delay, so that its instant stays the same. -/
def Stands (forecast : List Millis → Option Millis) (delay : Millis) : Prop :=
  ∀ parts : List Millis, Millis.total parts ≤ delay.toNat →
    ∃ rest, forecast parts = some rest ∧ rest.toNat + Millis.total parts = delay.toNat ∧
      ∀ now : Instant, (parts.foldl Instant.after now).after rest = now.after delay

section Step

variable {S : Type} (drift : Millis → S → S) (awaits : S → Millis → Prop)
  (forecast : S → Option Millis)

/-- A forecast stands if every length of time takes off it what passes. -/
theorem stands_of_step {state : S} {delay : Millis}
    (sees : ∀ state delay, awaits state delay → forecast state = some delay)
    (step : ∀ state delay elapsed, awaits state delay → elapsed ≤ delay →
      awaits (drift elapsed state) (delay - elapsed))
    (begun : awaits state delay) :
    Stands (fun parts => forecast (parts.foldl (fun state elapsed => drift elapsed state) state))
      delay := by
  intro parts within
  induction parts generalizing state delay with
  | nil => exact ⟨delay, sees state delay begun, rfl, fun _ => rfl⟩
  | cons elapsed more ih =>
    have sum : Millis.total (elapsed :: more) = elapsed.toNat + Millis.total more := rfl
    have early : elapsed ≤ delay := UInt64.le_iff_toNat_le.2 (by omega)
    have left := UInt64.toNat_sub_of_le _ _ early
    obtain ⟨rest, found, whole, due⟩ := ih (step state delay elapsed begun early) (by omega)
    refine ⟨rest, found, by omega, fun now => ?_⟩
    rw [List.foldl_cons, due, Instant.after_after_sub now early]

end Step

namespace Ball

variable {ball first second : Ball ℝ} {wall : Segment ℝ} {reach : Reach} {t : ℝ}
  {delay elapsed : Millis}

/-- The ball after it has moved freely for one length of time after the other. -/
noncomputable def driftThrough (parts : List Millis) (ball : Ball ℝ) : Ball ℝ :=
  parts.foldl (fun ball elapsed => ball.drift elapsed) ball

/-- Only walls that have a direction, and speeds across them that are measured, give contacts. -/
theorem measured_of_lineContact? (touches : ball.lineContact? wall = some t) :
    wall.isDegenerate = false ∧ negligible ≤ |ball.rate wall| := by
  cases sound : wall.isDegenerate with
  | true => simp [lineContact?, sound] at touches
  | false =>
    refine ⟨rfl, ?_⟩
    by_contra slow
    rw [lineContact?_eq sound (.inl rfl), one_mul, if_pos (not_le.1 slow)] at touches
    cases touches

/-- Where the touching point of a ball with a line is does not change on the way there. -/
theorem untilWall?_drift (touches : ball.lineContact? wall = some t)
    (touches' : (ball.drift elapsed).lineContact? wall = some (t - elapsed.toNat))
    (forecast : ball.untilWall? reach wall = some delay) (early : elapsed ≤ delay) :
    (ball.drift elapsed).untilWall? reach wall = some (delay - elapsed) := by
  cases reach with
  | line =>
    rw [untilWall?, untilLine?, touches, Option.bind_some] at forecast
    rw [untilWall?, untilLine?, touches', Option.bind_some]
    exact (wholeMillis?_sub forecast early).2
  | ends =>
    have point : ((ball.drift elapsed).moved (t - elapsed.toNat)).position =
        (ball.moved t).position := by
      rw [drift_eq_moved, moved_moved, add_sub_cancel]
    rw [untilWall?] at forecast ⊢
    cases there : wall.foot? (ball.moved t).position with
    | none =>
      have there : wall.foot? (ball.position + ball.velocity * (t / 1000.0)) = none := there
      simp [untilEnds?, touches, there] at forecast
    | some foot =>
      rw [untilEnds?_of_foot touches there] at forecast
      obtain ⟨between, counted⟩ := Option.ite_none_right_eq_some.1 forecast
      rw [untilEnds?_of_foot touches' (point ▸ there), if_pos between]
      exact (wholeMillis?_sub counted early).2

/-- A ball that is clear of a wall's line has a contact with the wall ahead, which lasts for longer
than an instant. -/
structure Awaits (reach : Reach) (wall : Segment ℝ) (ball : Ball ℝ) (delay : Millis) : Prop where
  size : 0 < ball.radius
  clear : ball.radius ≤ ball.distance wall
  lasts : Lasts (fun t => (ball.moved t).distance wall) ball.radius
  forecast : ball.untilWall? reach wall = some delay

/-- On the way to a wall, a ball has it ahead by as much less. -/
theorem Awaits.drift (awaits : Awaits reach wall ball delay) (early : elapsed ≤ delay) :
    Awaits reach wall (ball.drift elapsed) (delay - elapsed) := by
  obtain ⟨size, clear, lasts, forecast⟩ := awaits
  obtain ⟨time, touches, counted⟩ := exists_lineContact?_of_untilWall? forecast
  obtain ⟨sound, fast⟩ := measured_of_lineContact? touches
  have same := lineContact?_eq_spell sound (.inr fast)
  obtain ⟨spell, found, noticed⟩ := Option.bind_eq_some_iff.1 (same.symm.trans touches)
  obtain ⟨passed, _⟩ := wholeMillis?_sub counted early
  obtain ⟨aside, renewed⟩ := (covers_of_lineSpell? sound size found).notice?_after
    (ball.moved_zero.symm ▸ clear) lasts noticed passed
  refine ⟨size, aside, ?_, untilWall?_drift touches ?_ forecast early⟩
  · simp only [drift_eq_moved, moved_moved]
    exact lasts.later _
  · have fast' : negligible ≤ |(ball.drift elapsed).rate wall| := fast
    rw [lineContact?_eq_spell sound (.inr fast'), lineSpell?_drift, found]
    exact renewed

/-- Two balls that are clear of each other have a contact ahead, which lasts for longer than an
instant. -/
structure AwaitsBall (first second : Ball ℝ) (delay : Millis) : Prop where
  wide : 0 ≤ first.radius + second.radius
  clear : first.radius + second.radius ≤ first.position.dist second.position
  lasts : Lasts (first.distanceAfter second) (first.radius + second.radius)
  forecast : first.untilBall? second = some delay

/-- On the way to each other, two balls have each other ahead by as much less. -/
theorem AwaitsBall.drift (awaits : AwaitsBall first second delay) (early : elapsed ≤ delay) :
    AwaitsBall (first.drift elapsed) (second.drift elapsed) (delay - elapsed) := by
  obtain ⟨wide, clear, lasts, forecast⟩ := awaits
  rw [untilBall?_eq] at forecast
  obtain ⟨fast, forecast⟩ := Option.ite_none_left_eq_some.1 forecast
  obtain ⟨touch, forecast⟩ := Option.ite_none_left_eq_some.1 forecast
  obtain ⟨time, noticed, counted⟩ := Option.bind_eq_some_iff.1 forecast
  have moving := lt_of_lt_of_le negligible_pos (not_lt.1 fast)
  obtain ⟨passed, counted⟩ := wholeMillis?_sub counted early
  have begun : first.radius + second.radius ≤ first.distanceAfter second 0 := by
    rwa [distanceAfter, moved_zero, moved_zero]
  obtain ⟨aside, renewed⟩ := (covers_of_touches wide moving (not_lt.1 touch)).notice?_after
    begun lasts noticed passed
  refine ⟨wide, aside, ?_, ?_⟩
  · have later : (first.drift elapsed).distanceAfter (second.drift elapsed) =
        fun t => first.distanceAfter second (elapsed.toNat + t) := by
      funext t
      simp only [distanceAfter, drift_eq_moved, moved_moved]
    rw [later]
    exact lasts.later _
  · rw [untilBall?_eq, pace_drift, discriminant_drift, if_neg fast, if_neg touch,
      touches_drift moving.ne']
    exact Option.bind_eq_some_iff.2 ⟨_, renewed, counted⟩

theorem Awaits.stands (awaits : Awaits reach wall ball delay) :
    Stands (fun parts => (ball.driftThrough parts).untilWall? reach wall) delay :=
  stands_of_step Ball.drift (Awaits reach wall) (untilWall? reach · wall)
    (fun _ _ awaits => awaits.forecast) (fun _ _ _ awaits early => awaits.drift early) awaits

private theorem foldl_drift_both (first second : Ball ℝ) (parts : List Millis) :
    parts.foldl (fun both elapsed => (both.1.drift elapsed, both.2.drift elapsed))
      (first, second) = (first.driftThrough parts, second.driftThrough parts) := by
  induction parts generalizing first second with
  | nil => rfl
  | cons elapsed more ih => exact ih (first.drift elapsed) (second.drift elapsed)

theorem AwaitsBall.stands (awaits : AwaitsBall first second delay) :
    Stands (fun parts => (first.driftThrough parts).untilBall? (second.driftThrough parts))
      delay := by
  have both := stands_of_step (fun elapsed both => (both.1.drift elapsed, both.2.drift elapsed))
    (fun both => AwaitsBall both.1 both.2) (fun both => both.1.untilBall? both.2)
    (fun _ _ awaits => awaits.forecast) (fun _ _ _ awaits early => awaits.drift early)
    (show AwaitsBall (first, second).1 (first, second).2 delay from awaits)
  simpa only [foldl_drift_both] using both

/-- Forecasts stand. If a ball is clear of a wall's line, and two times at which it touches the line
are more than an instant apart, then whatever is forecast for it and the wall is forecast on the way
too, with a delay that is shorter by what has passed: after one length of time or after several, so
that the contact is due at the same instant. The same is true of two balls that are clear of each
other. -/
theorem forecasts_stand :
    (∀ (reach : Reach) (wall : Segment ℝ) (ball : Ball ℝ) (delay : Millis), 0 < ball.radius →
      ball.radius ≤ ball.distance wall →
      Lasts (fun t => (ball.moved t).distance wall) ball.radius →
      ball.untilWall? reach wall = some delay →
        (∀ elapsed ≤ delay,
          (ball.drift elapsed).untilWall? reach wall = some (delay - elapsed)) ∧
        Stands (fun parts => (ball.driftThrough parts).untilWall? reach wall) delay) ∧
    ∀ (first second : Ball ℝ) (delay : Millis), 0 < first.radius → 0 < second.radius →
      first.radius + second.radius ≤ first.position.dist second.position →
      Lasts (first.distanceAfter second) (first.radius + second.radius) →
      first.untilBall? second = some delay →
        (∀ elapsed ≤ delay,
          (first.drift elapsed).untilBall? (second.drift elapsed) = some (delay - elapsed)) ∧
        Stands (fun parts => (first.driftThrough parts).untilBall? (second.driftThrough parts))
          delay := by
  constructor
  · intro reach wall ball delay size clear lasts forecast
    have awaits : Awaits reach wall ball delay := ⟨size, clear, lasts, forecast⟩
    exact ⟨fun elapsed early => (awaits.drift early).forecast, awaits.stands⟩
  · intro first second delay size size' clear lasts forecast
    have awaits : AwaitsBall first second delay := ⟨by linarith, clear, lasts, forecast⟩
    exact ⟨fun elapsed early => (awaits.drift early).forecast, awaits.stands⟩

section Underway

open Simulation (duelists clear_duelists untilBall?_duelists)

theorem distance_nearing_stub (t : ℝ) :
    (nearing.moved t).distance (stub 1.0) = |9 - t / 100| := by
  have one : (1.0 : ℝ) = 1 := by norm_num
  rw [distance, offset_stub, stub_norm (by norm_num), one, one_mul, div_one, moved_eq, nearing,
    Vec.zero_eq, Vec.add_eq, Vec.smul_eq]
  congr 1
  norm_num
  ring

/-- On the way to a short wall that reaches from end to end only, and on the way to another ball,
up to the instant at which the balls touch. -/
theorem forecasts_stand_underway :
    nearing.untilWall? .ends (stub 1.0) = some 800 ∧
      (nearing.drift 300).untilWall? .ends (stub 1.0) = some 500 ∧
      Stands (fun parts => (nearing.driftThrough parts).untilWall? .ends (stub 1.0)) 800 ∧
      duelists.1.untilBall? duelists.2 = some 400 ∧
      (duelists.1.drift 400).untilBall? (duelists.2.drift 400) = some 0 ∧
      Stands (fun parts => (duelists.1.driftThrough parts).untilBall?
        (duelists.2.driftThrough parts)) 400 := by
  have one : nearing.radius = 1 := by norm_num [nearing]
  have forecast : nearing.untilWall? .ends (stub 1.0) = some 800 := by
    have long : negligible ≤ (stub 1.0).span.normSq := by
      rw [stub_normSq]
      norm_num [negligible_eq]
    have tall : negligible ≤ (1.0 : ℝ) := by norm_num [negligible_eq]
    exact (curtails_of_long long nearing 800).2
      ⟨untilLine?_nearing tall, touchesAbreast_nearing tall⟩
  have clear : nearing.radius ≤ nearing.distance (stub 1.0) := by
    have begun := distance_nearing_stub 0
    rw [moved_zero] at begun
    rw [begun, one]
    norm_num
  have lasts : Lasts (fun t => (nearing.moved t).distance (stub 1.0)) nearing.radius := by
    refine ⟨800, 1000, ?_, ?_, by norm_num [instantaneous_eq]⟩
    · change (nearing.moved 800).distance _ = _
      rw [distance_nearing_stub, one]
      norm_num
    · change (nearing.moved 1000).distance _ = _
      rw [distance_nearing_stub, one]
      norm_num
  obtain ⟨sooner, stands⟩ :=
    forecasts_stand.1 .ends (stub 1.0) nearing 800 (one ▸ one_pos) clear lasts forecast
  have size : 0 < duelists.1.radius := by norm_num [duelists]
  have size' : 0 < duelists.2.radius := by norm_num [duelists]
  have meet : Lasts (duelists.1.distanceAfter duelists.2)
      (duelists.1.radius + duelists.2.radius) :=
    ⟨400, 600, touch_duelists (.inl rfl), touch_duelists (.inr rfl), by
      norm_num [instantaneous_eq]⟩
  obtain ⟨sooner', stands'⟩ :=
    forecasts_stand.2 duelists.1 duelists.2 400 size size' clear_duelists meet
      untilBall?_duelists
  exact ⟨forecast, sooner 300 (by decide), stands, untilBall?_duelists, sooner' 400 (by decide),
    stands'⟩

end Underway

end Ball

end Billiard
