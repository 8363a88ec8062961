import Billiard.Proofs.Spells

/-!
Two balls are forecast to touch when they first do. Their distance at any time of free motion, whole
milliseconds or not, is that of touching balls exactly at the two roots (`Ball.touch_iff`); balls
that are clear of each other touch first at the earlier one, if that lies ahead, and otherwise never
again (`Ball.untilBall?_cases`). So the forecast is the floor of the first time at which they touch,
and comes before they overlap (`Ball.untilBall?_first_touch`).
-/

namespace Billiard

open Prediction Scalar

namespace Ball

variable {first second : Ball ℝ} {t : ℝ} {delay : Millis}

/-- How far the centres of two balls are apart after `t` milliseconds of free motion. -/
noncomputable def distanceAfter (first second : Ball ℝ) (t : ℝ) : ℝ :=
  (first.moved t).position.dist (second.moved t).position

/-- The times ahead, in milliseconds, at which two balls touch from outside. -/
def touchTimes (first second : Ball ℝ) : Set ℝ :=
  {t | 0 < t ∧ first.distanceAfter second t = first.radius + second.radius}

theorem clearance_eq (first second : Ball ℝ) :
    first.clearance second =
      first.position.dist second.position * first.position.dist second.position -
        (first.radius + second.radius) * (first.radius + second.radius) :=
  congrArg (· - _) (Vec.norm_mul_norm _).symm

/-- Balls touch where nothing is left of their clearance. -/
theorem clearance_eq_zero_iff (wide : 0 ≤ first.radius + second.radius) :
    first.clearance second = 0 ↔
      first.position.dist second.position = first.radius + second.radius := by
  rw [clearance_eq, sub_eq_zero]
  exact mul_self_inj (Vec.norm_nonneg _) wide

theorem clearance_pos_iff (wide : 0 ≤ first.radius + second.radius) :
    0 < first.clearance second ↔
      first.radius + second.radius < first.position.dist second.position := by
  rw [clearance_eq, sub_pos]
  exact mul_self_lt_mul_self_iff wide (Vec.norm_nonneg _) |>.symm

/-- The times at which the balls touch are the two roots. -/
theorem touch_iff (wide : 0 ≤ first.radius + second.radius) (moving : 0 < first.pace second) :
    first.distanceAfter second t = first.radius + second.radius ↔
      0 ≤ first.discriminant second ∧
        (t = (first.touches second).1 ∨ t = (first.touches second).2) := by
  have touching : first.distanceAfter second t = first.radius + second.radius ↔
      (first.parting second + first.pace second * (t / 1000)) ^ 2 =
        first.discriminant second := by
    have none : (first.moved t).clearance (second.moved t) = 0 ↔
        first.distanceAfter second t = first.radius + second.radius := clearance_eq_zero_iff wide
    rw [← none, ← mul_right_inj' moving.ne', pace_mul_clearance_moved, mul_zero, sub_eq_zero]
  have begins : first.parting second + first.pace second * (t / 1000) =
      -√(first.discriminant second) ↔ t = (first.touches second).1 := by
    rw [touches, eq_div_iff moving.ne']
    constructor <;> intro same <;> linarith
  have ends : first.parting second + first.pace second * (t / 1000) =
      √(first.discriminant second) ↔ t = (first.touches second).2 := by
    rw [touches, eq_div_iff moving.ne']
    constructor <;> intro same <;> linarith
  rw [touching]
  constructor
  · intro same
    have touch : 0 ≤ first.discriminant second := same ▸ sq_nonneg _
    refine ⟨touch, ?_⟩
    rw [← Real.sq_sqrt touch, sq_eq_sq_iff_eq_or_eq_neg] at same
    rcases same with late | early
    · exact .inr (ends.1 late)
    · exact .inl (begins.1 early)
  · rintro ⟨touch, early | late⟩
    · rw [begins.2 early, neg_sq, Real.sq_sqrt touch]
    · rw [ends.2 late, Real.sq_sqrt touch]

/-- Two balls that touch at some time overlap for the spell between the two roots. -/
theorem covers_of_touches (wide : 0 ≤ first.radius + second.radius)
    (moving : 0 < first.pace second) (touch : 0 ≤ first.discriminant second) :
    Spell.Covers ⟨(first.touches second).1, (first.touches second).2⟩
      (first.distanceAfter second) (first.radius + second.radius) := by
  refine ⟨touches_le moving, fun t => ?_, fun t => ?_⟩
  · rw [touch_iff wide moving, and_iff_right touch]
  · have clear : 0 ≤ (first.moved t).clearance (second.moved t) ↔
        first.radius + second.radius ≤ first.distanceAfter second t := clearance_nonneg_iff wide
    have square : 0 ≤ (first.moved t).clearance (second.moved t) ↔
        √(first.discriminant second) ≤
          |first.parting second + first.pace second * (t / 1000)| := by
      rw [← mul_nonneg_iff_of_pos_left moving, pace_mul_clearance_moved, sub_nonneg,
        ← Real.sqrt_sq_eq_abs, Real.sqrt_le_sqrt_iff (sq_nonneg _)]
    rw [← clear, square, le_abs, or_comm, touches, le_div_iff₀ moving, div_le_iff₀ moving]
    refine or_congr ?_ ?_ <;> constructor <;> intro less <;> linarith

/-- Balls that are clear of each other either touch first when their contact begins, and that is
forecast, or never touch again, and there is no forecast. -/
theorem untilBall?_cases (wide : 0 ≤ first.radius + second.radius)
    (fast : negligible ≤ first.pace second) (clear : 0 < first.clearance second) :
    IsLeast (first.touchTimes second) (first.touches second).1 ∧
        first.untilBall? second = wholeMillis? (first.touches second).1 ∨
      first.touchTimes second = ∅ ∧ first.untilBall? second = none := by
  have moving := lt_of_lt_of_le negligible_pos fast
  rw [untilBall?_eq, if_neg (not_lt.2 fast)]
  by_cases misses : first.discriminant second < 0
  · right
    rw [if_pos misses]
    refine ⟨Set.eq_empty_of_forall_notMem ?_, rfl⟩
    rintro t ⟨_, touching⟩
    exact absurd ((touch_iff wide moving).1 touching).1 (not_le.2 misses)
  have touch := not_lt.1 misses
  rw [if_neg misses]
  have far : first.radius + second.radius < first.distanceAfter second 0 := by
    rw [distanceAfter, moved_zero, moved_zero]
    exact (clearance_pos_iff wide).1 clear
  rcases (covers_of_touches wide moving touch).first far with ⟨least, noticed⟩ | ⟨never, none⟩
  · exact .inl ⟨least, congrArg (·.bind wholeMillis?) noticed⟩
  · exact .inr ⟨never, congrArg (·.bind wholeMillis?) none⟩

/-- Balls do not overlap before what is forecast for them. -/
theorem clear_of_untilBall? (wide : 0 ≤ first.radius + second.radius)
    (fast : negligible ≤ first.pace second) (clear : 0 < first.clearance second)
    (found : first.untilBall? second = some delay) (early : t ≤ delay.toNat) :
    first.radius + second.radius ≤ first.distanceAfter second t := by
  have moving := lt_of_lt_of_le negligible_pos fast
  rcases untilBall?_cases wide fast clear with ⟨⟨⟨ahead, _⟩, _⟩, forecast⟩ | ⟨_, none⟩
  · have floored := toNat_of_wholeMillis? (forecast.symm.trans found)
    have within : t ≤ (first.touches second).1 :=
      early.trans (floored.2 ▸ Nat.floor_le floored.1)
    have later : 0 ≤ (first.moved t).clearance (second.moved t) :=
      clear_until_touch moving fun _ => within
    have size : 0 ≤ (first.moved t).radius + (second.moved t).radius := wide
    exact (clearance_nonneg_iff size).1 later
  · simp [none] at found

/-- Touching balls that come closer are forecast to touch now, if they part again later than counts
as now. -/
theorem untilBall?_of_closing (wide : 0 ≤ first.radius + second.radius)
    (fast : negligible ≤ first.pace second) (touching : first.clearance second = 0)
    (closer : first.parting second < 0)
    (part : ∃ t, instantaneous < t ∧
      first.distanceAfter second t = first.radius + second.radius) :
    first.untilBall? second = some 0 := by
  have moving := lt_of_lt_of_le negligible_pos fast
  have square : first.discriminant second = first.parting second ^ 2 := by
    rw [discriminant, touching, sq, mul_zero, sub_zero]
  have now : (first.touches second).1 = 0 := by
    rw [touches, square, Real.sqrt_sq_eq_abs, abs_of_neg closer]
    simp
  have touch : 0 ≤ first.discriminant second := square ▸ sq_nonneg _
  rw [untilBall?_eq, if_neg (not_lt.2 fast), if_neg (not_lt.2 touch)]
  exact (covers_of_touches wide moving touch).forecast_now now part

/-- Touching balls that do not come closer have no contact ahead. -/
theorem untilBall?_of_parting (touching : first.clearance second = 0)
    (parts : 0 ≤ first.parting second) : first.untilBall? second = none :=
  Option.eq_none_iff_forall_ne_some.2 fun _ found =>
    absurd parts (not_le.2 (closer_of_untilBall? touching.ge found))

/-- Two balls are forecast to touch when they first do. If they are clear of each other and their
relative speed is measured, the forecast is the floor of the least time ahead at which they touch,
provided that there is such a time and that its whole milliseconds are counted, and until then they
do not overlap; if there is no such time, there is no forecast. Balls that touch and come closer are
forecast to touch now, provided that they part again later than counts as now, and if they do not
come closer there is no forecast. -/
theorem untilBall?_first_touch (size : 0 < first.radius) (size' : 0 < second.radius) :
    (first.radius + second.radius < first.position.dist second.position →
      negligible ≤ first.pace second →
        ((first.touchTimes second).Nonempty → ∃ t, IsLeast (first.touchTimes second) t) ∧
        (∀ delay, first.untilBall? second = some delay ↔ ∃ t,
          IsLeast (first.touchTimes second) t ∧ ⌊t⌋₊ < 2 ^ 64 ∧ delay.toNat = ⌊t⌋₊) ∧
        ∀ delay, first.untilBall? second = some delay → ∀ t : ℝ, 0 ≤ t → t ≤ delay.toNat →
          first.radius + second.radius ≤ first.distanceAfter second t) ∧
    (first.position.dist second.position = first.radius + second.radius →
      (first.parting second < 0 → negligible ≤ first.pace second →
        (∃ t, instantaneous < t ∧ first.distanceAfter second t = first.radius + second.radius) →
          first.untilBall? second = some 0) ∧
      (0 ≤ first.parting second → first.untilBall? second = none)) := by
  have wide : 0 ≤ first.radius + second.radius := by linarith
  constructor
  · intro apart fast
    have clear := (clearance_pos_iff wide).2 apart
    refine ⟨?_, ?_, fun delay found t _ early => clear_of_untilBall? wide fast clear found early⟩
    · rintro ⟨t, touching⟩
      rcases untilBall?_cases wide fast clear with ⟨least, _⟩ | ⟨never, _⟩
      · exact ⟨_, least⟩
      · simp [never] at touching
    · intro delay
      rcases untilBall?_cases wide fast clear with ⟨least, forecast⟩ | ⟨never, none⟩
      · rw [forecast, wholeMillis?_eq_some_iff least.1.1.le]
        constructor
        · exact fun counted => ⟨_, least, counted⟩
        · rintro ⟨t, least', counted⟩
          exact least.unique least' ▸ counted
      · rw [none]
        constructor
        · intro found
          cases found
        · rintro ⟨t, least, _⟩
          simp [never, IsLeast] at least
  · intro touching
    have none := (clearance_eq_zero_iff wide).2 touching
    exact ⟨fun closer fast part => untilBall?_of_closing wide fast none closer part,
      untilBall?_of_parting none⟩

section Duelists

open Simulation (duelists wide_duelists clearance_duelists)

/-- The duelists touch at the four hundredth millisecond, and again at the six hundredth. -/
theorem touch_duelists {t : ℝ} (touch : t = 400 ∨ t = 600) :
    duelists.1.distanceAfter duelists.2 t = duelists.1.radius + duelists.2.radius := by
  have moving : 0 < duelists.1.pace duelists.2 := by
    rw [Simulation.pace_duelists]
    norm_num
  apply (touch_iff wide_duelists moving).2
  rw [Simulation.discriminant_duelists, Simulation.touches_duelists]
  exact ⟨sq_nonneg _, touch⟩

/-- The duelists as they come, which touch for the first time later, and as they are then. -/
theorem untilBall?_first_touch_duelists :
    0 < duelists.1.radius ∧ 0 < duelists.2.radius ∧
      ((∃ t, IsLeast (duelists.1.touchTimes duelists.2) t) ∧
        (∀ delay, duelists.1.untilBall? duelists.2 = some delay ↔ ∃ t,
          IsLeast (duelists.1.touchTimes duelists.2) t ∧ ⌊t⌋₊ < 2 ^ 64 ∧ delay.toNat = ⌊t⌋₊) ∧
        ∀ delay, duelists.1.untilBall? duelists.2 = some delay →
          ∀ t : ℝ, 0 ≤ t → t ≤ delay.toNat →
            duelists.1.radius + duelists.2.radius ≤ duelists.1.distanceAfter duelists.2 t) ∧
      (duelists.1.moved 400).untilBall? (duelists.2.moved 400) = some 0 := by
  have size : 0 < duelists.1.radius := by norm_num [duelists]
  have size' : 0 < duelists.2.radius := by norm_num [duelists]
  have fast : negligible ≤ duelists.1.pace duelists.2 := by
    rw [Simulation.pace_duelists]
    norm_num [Scalar.negligible_eq]
  have clear : 0 < duelists.1.clearance duelists.2 := by
    rw [clearance_duelists]
    norm_num
  obtain ⟨exists_least, forecast, apart⟩ :=
    (untilBall?_first_touch size size').1 ((clearance_pos_iff wide_duelists).1 clear) fast
  have later : (400 : ℝ) ∈ duelists.1.touchTimes duelists.2 :=
    ⟨by norm_num, touch_duelists (.inl rfl)⟩
  refine ⟨size, size', ⟨exists_least ⟨400, later⟩, forecast, apart⟩, ?_⟩
  have still : 0 < (duelists.1.moved 400).radius := size
  have still' : 0 < (duelists.2.moved 400).radius := size'
  have arrived := (untilBall?_first_touch still still').2 (touch_duelists (.inl rfl))
  refine arrived.1 ?_ fast ⟨200, ?_, ?_⟩
  · rw [parting_moved, Simulation.parting_duelists, Simulation.pace_duelists]
    norm_num
  · norm_num [Prediction.instantaneous_eq]
  · have onward (ball : Ball ℝ) : (ball.moved 400).moved 200 = ball.moved 600 := by
      simp only [moved_eq, Vec.add_eq, Vec.smul_eq]
      congr 2 <;> ring
    rw [distanceAfter, onward, onward]
    exact touch_duelists (.inr rfl)

end Duelists

end Ball

end Billiard
