import Billiard.Proofs.Clearance
import Billiard.Proofs.Exchange

/-!
Balls that exchange momentum never overlap. The squared distance of two balls is a quadratic
function of time, so balls that come closer touch no sooner than at its first root, and balls that
part never do; an exchange makes the two part as fast as they came. A contact is settled only while
its balls do not come closer. Both are kept together (`Apart`), by drift, by every contact and by
every arming.
-/

namespace Billiard

open Prediction

variable {a b : BallId} {first second : Ball ℝ}

/-- A vector of some length has a direction. -/
theorem Vec.unit?_of_le {v : Vec ℝ} (long : Scalar.negligible ≤ v.norm) :
    v.unit? = some (v / v.norm) :=
  if_neg (by simpa [Scalar.isFinite] using long)

theorem Vec.add_smul_zero (velocity gap : Vec ℝ) : velocity + gap * (0 : ℝ) = velocity :=
  eq_of_parts (by simp) (by simp)

theorem Vec.sub_smul_zero (velocity gap : Vec ℝ) : velocity - gap * (0 : ℝ) = velocity :=
  eq_of_parts (by simp) (by simp)

namespace Ball

/-- From the centre of one ball to the centre of another. -/
noncomputable def gap (first second : Ball ℝ) : Vec ℝ := second.position - first.position

/-- The velocity of one ball, seen from another. -/
noncomputable def drive (first second : Ball ℝ) : Vec ℝ := second.velocity - first.velocity

/-- The square of the relative speed. -/
noncomputable def pace (first second : Ball ℝ) : ℝ :=
  (first.drive second).dot (first.drive second)

/-- How much the balls part: negative if and only if they come closer. -/
noncomputable def parting (first second : Ball ℝ) : ℝ :=
  (first.gap second).dot (first.drive second)

/-- By how much the squared distance of the centres exceeds that of touching balls. -/
noncomputable def clearance (first second : Ball ℝ) : ℝ :=
  (first.gap second).dot (first.gap second) -
    (first.radius + second.radius) * (first.radius + second.radius)

/-- Not negative if and only if the balls touch at some time, past or future. -/
noncomputable def discriminant (first second : Ball ℝ) : ℝ :=
  first.parting second * first.parting second - first.pace second * first.clearance second

/-- The two times in milliseconds at which the balls touch: the contact begins at the first one and
ends at the second one. -/
noncomputable def touches (first second : Ball ℝ) : ℝ × ℝ :=
  (1000 * (-first.parting second - √(first.discriminant second)) / first.pace second,
    1000 * (-first.parting second + √(first.discriminant second)) / first.pace second)

theorem pace_nonneg (first second : Ball ℝ) : 0 ≤ first.pace second :=
  add_nonneg (mul_self_nonneg _) (mul_self_nonneg _)

/-- Balls that move alike keep their distance. -/
theorem parting_eq_zero_of_pace (still : first.pace second = 0) : first.parting second = 0 := by
  have parts : (first.drive second).x * (first.drive second).x = 0 ∧
      (first.drive second).y * (first.drive second).y = 0 :=
    (add_eq_zero_iff_of_nonneg (mul_self_nonneg _) (mul_self_nonneg _)).1 still
  rw [parting, Vec.dot_eq, mul_self_eq_zero.1 parts.1, mul_self_eq_zero.1 parts.2]
  ring

theorem pace_pos_of_parting (parts : first.parting second ≠ 0) : 0 < first.pace second :=
  (pace_nonneg first second).lt_of_ne fun still => parts (parting_eq_zero_of_pace still.symm)

/-- Balls that are clear of each other are as far apart as touching balls. -/
theorem clearance_nonneg_iff (wide : 0 ≤ first.radius + second.radius) :
    0 ≤ first.clearance second ↔
      first.radius + second.radius ≤ first.position.dist second.position := by
  have square : (first.gap second).dot (first.gap second) =
      first.position.dist second.position * first.position.dist second.position :=
    (Vec.norm_mul_norm _).symm
  rw [clearance, square, sub_nonneg]
  exact mul_self_le_mul_self_iff wide (Vec.norm_nonneg _) |>.symm

/-- The clearance is a quadratic function of time. -/
theorem clearance_moved (t : ℝ) (first second : Ball ℝ) :
    (first.moved t).clearance (second.moved t) =
      first.clearance second + 2 * first.parting second * (t / 1000) +
        first.pace second * (t / 1000) ^ 2 := by
  simp only [clearance, parting, pace, gap, drive, moved_eq, Vec.dot_eq, Vec.sub_eq, Vec.add_eq,
    Vec.smul_eq]
  ring

theorem parting_moved (t : ℝ) (first second : Ball ℝ) :
    (first.moved t).parting (second.moved t) =
      first.parting second + first.pace second * (t / 1000) := by
  simp only [parting, pace, gap, drive, moved_eq, Vec.dot_eq, Vec.sub_eq, Vec.add_eq, Vec.smul_eq]
  ring

theorem clearance_drift (elapsed : Millis) (first second : Ball ℝ) :
    (first.drift elapsed).clearance (second.drift elapsed) =
      first.clearance second + 2 * first.parting second * (elapsed.toNat / 1000) +
        first.pace second * (elapsed.toNat / 1000) ^ 2 := by
  rw [drift_eq_moved, drift_eq_moved, clearance_moved]

theorem parting_drift (elapsed : Millis) (first second : Ball ℝ) :
    (first.drift elapsed).parting (second.drift elapsed) =
      first.parting second + first.pace second * (elapsed.toNat / 1000) := by
  rw [drift_eq_moved, drift_eq_moved, parting_moved]

/-- The clearance with its square completed: the balls touch where it is the discriminant. -/
theorem pace_mul_clearance_moved (t : ℝ) (first second : Ball ℝ) :
    first.pace second * (first.moved t).clearance (second.moved t) =
      (first.parting second + first.pace second * (t / 1000)) ^ 2 -
        first.discriminant second := by
  rw [clearance_moved, discriminant]
  ring

/-- Balls that do not come closer stay clear of each other, and do not come closer later. -/
theorem clear_of_parting (elapsed : Millis) (clear : 0 ≤ first.clearance second)
    (parts : 0 ≤ first.parting second) :
    0 ≤ (first.drift elapsed).clearance (second.drift elapsed) ∧
      0 ≤ (first.drift elapsed).parting (second.drift elapsed) := by
  have pace := pace_nonneg first second
  rw [clearance_drift, parting_drift]
  constructor <;> positivity

/-- Balls are clear of each other until they begin to touch. -/
theorem clear_until_touch {t : ℝ} (moving : 0 < first.pace second)
    (early : 0 ≤ first.discriminant second → t ≤ (first.touches second).1) :
    0 ≤ (first.moved t).clearance (second.moved t) := by
  apply nonneg_of_mul_nonneg_right (a := first.pace second) _ moving
  rw [pace_mul_clearance_moved, sub_nonneg]
  by_cases touch : 0 ≤ first.discriminant second
  · have before := early touch
    rw [touches, le_div_iff₀ moving] at before
    have ahead : √(first.discriminant second) ≤
        -(first.parting second + first.pace second * (t / 1000)) := by
      linarith
    calc first.discriminant second = √(first.discriminant second) ^ 2 := (Real.sq_sqrt touch).symm
      _ ≤ (-(first.parting second + first.pace second * (t / 1000))) ^ 2 :=
        pow_le_pow_left₀ (Real.sqrt_nonneg _) ahead 2
      _ = _ := neg_sq _
  · exact (not_le.1 touch).le.trans (sq_nonneg _)

/-- The forecast in terms of clearance, parting and pace. -/
theorem untilBall?_eq (first second : Ball ℝ) :
    first.untilBall? second =
      if first.pace second < Scalar.negligible then none
      else if first.discriminant second < 0 then none
      else (firstContact? (first.touches second).1 (first.touches second).2).bind
        Scalar.wholeMillis? := by
  have two : (2.0 : ℝ) = 2 := by norm_num
  have four : (4.0 : ℝ) = 4 := by norm_num
  have zero : (0.0 : ℝ) = 0 := by norm_num
  have thousand : (1000.0 : ℝ) = 1000 := by norm_num
  have scaled : 2.0 * first.parting second * (2.0 * first.parting second) -
      4.0 * first.pace second * first.clearance second = 2 ^ 2 * first.discriminant second := by
    rw [two, four, discriminant]
    ring
  have root : Scalar.sqrt (2.0 * first.parting second * (2.0 * first.parting second) -
      4.0 * first.pace second * first.clearance second) = 2 * √(first.discriminant second) := by
    rw [scaled]
    change √(2 ^ 2 * first.discriminant second) = _
    rw [Real.sqrt_mul (by norm_num), Real.sqrt_sq (by norm_num)]
  have formula : first.untilBall? second =
      if first.pace second < Scalar.negligible then none
      else if 2.0 * first.parting second * (2.0 * first.parting second) -
          4.0 * first.pace second * first.clearance second < 0.0 then none
      else (firstContact?
        (1000.0 * (-(2.0 * first.parting second) - Scalar.sqrt (2.0 * first.parting second *
          (2.0 * first.parting second) - 4.0 * first.pace second * first.clearance second)) /
          (2.0 * first.pace second))
        (1000.0 * (-(2.0 * first.parting second) + Scalar.sqrt (2.0 * first.parting second *
          (2.0 * first.parting second) - 4.0 * first.pace second * first.clearance second)) /
          (2.0 * first.pace second))).bind Scalar.wholeMillis? := rfl
  have negative : 2 ^ 2 * first.discriminant second < 0 ↔ first.discriminant second < 0 := by
    constructor <;> intro less <;> linarith
  have begins : 1000 * (-(2 * first.parting second) - 2 * √(first.discriminant second)) /
      (2 * first.pace second) = (first.touches second).1 := by
    rw [touches, ← mul_div_mul_left _ _ (two_ne_zero' ℝ)]
    ring_nf
  have ends : 1000 * (-(2 * first.parting second) + 2 * √(first.discriminant second)) /
      (2 * first.pace second) = (first.touches second).2 := by
    rw [touches, ← mul_div_mul_left _ _ (two_ne_zero' ℝ)]
    ring_nf
  rw [formula, root, scaled, zero, two, thousand, begins, ends]
  simp only [negative]

theorem pace_comm (first second : Ball ℝ) : second.pace first = first.pace second := by
  simp only [pace, drive, Vec.dot_eq, Vec.sub_eq]
  ring

theorem parting_comm (first second : Ball ℝ) : second.parting first = first.parting second := by
  simp only [parting, gap, drive, Vec.dot_eq, Vec.sub_eq]
  ring

theorem clearance_comm (first second : Ball ℝ) :
    second.clearance first = first.clearance second := by
  simp only [clearance, gap, Vec.dot_eq, Vec.sub_eq]
  ring

theorem discriminant_comm (first second : Ball ℝ) :
    second.discriminant first = first.discriminant second := by
  rw [discriminant, parting_comm, pace_comm, clearance_comm, discriminant]

theorem touches_comm (first second : Ball ℝ) : second.touches first = first.touches second := by
  rw [touches, parting_comm, discriminant_comm, pace_comm, touches]

/-- Two balls agree on when they touch. -/
theorem untilBall?_comm (first second : Ball ℝ) :
    second.untilBall? first = first.untilBall? second := by
  rw [untilBall?_eq, pace_comm, discriminant_comm, touches_comm, untilBall?_eq]

theorem touches_le (moving : 0 < first.pace second) :
    (first.touches second).1 ≤ (first.touches second).2 := by
  have root := Real.sqrt_nonneg (first.discriminant second)
  apply div_le_div_of_nonneg_right _ moving.le
  linarith

theorem sqrt_discriminant_le (clear : 0 ≤ first.clearance second) :
    √(first.discriminant second) ≤ |first.parting second| := by
  rw [Real.sqrt_le_left (abs_nonneg _), sq_abs, discriminant]
  nlinarith [mul_nonneg (pace_nonneg first second) clear]

/-- Balls that are clear of each other and come closer touch at some time ahead, if at all. -/
theorem touches_nonneg (clear : 0 ≤ first.clearance second) (closer : first.parting second < 0) :
    0 ≤ (first.touches second).1 := by
  have root := sqrt_discriminant_le clear
  rw [abs_of_neg closer] at root
  exact div_nonneg (mul_nonneg (by norm_num) (by linarith)) (pace_nonneg first second)

/-- Balls that come closer fast enough are forecast to touch when they begin to, unless they touch
already and part again before that counts as touching. -/
theorem untilBall?_of_clear (clear : 0 ≤ first.clearance second)
    (fast : Scalar.negligible ≤ first.pace second) (closer : first.parting second < 0)
    (touch : 0 ≤ first.discriminant second)
    (lasting : first.clearance second = 0 → instantaneous < (first.touches second).2) :
    first.untilBall? second = Scalar.wholeMillis? (first.touches second).1 := by
  have moving := lt_of_lt_of_le Scalar.negligible_pos fast
  have long (now : (first.touches second).1 = 0) : instantaneous < (first.touches second).2 := by
    apply lasting
    have root : √(first.discriminant second) = -first.parting second := by
      rw [touches, div_eq_zero_iff] at now
      rcases now with now | still <;> linarith
    have square := Real.sq_sqrt touch
    rw [root, discriminant] at square
    have product : first.pace second * first.clearance second = 0 := by linarith
    exact (mul_eq_zero.1 product).resolve_left moving.ne'
  rw [untilBall?_eq, if_neg (not_lt.2 fast), if_neg (not_lt.2 touch),
    firstContact?_of_nonneg (touches_nonneg clear closer) (touches_le moving) long]
  rfl

/-- Balls that come closer fast enough and touch for long enough are forecast to touch when they
begin to. -/
theorem untilBall?_of_approaching (clear : 0 ≤ first.clearance second)
    (fast : Scalar.negligible ≤ first.pace second) (closer : first.parting second < 0)
    (touch : 0 ≤ first.discriminant second)
    (lasting : instantaneous < (first.touches second).2 - (first.touches second).1) :
    0 ≤ (first.touches second).1 ∧
      first.untilBall? second = Scalar.wholeMillis? (first.touches second).1 := by
  have ahead := touches_nonneg clear closer
  exact ⟨ahead, untilBall?_of_clear clear fast closer touch fun _ => by linarith⟩

/-- Only balls that come closer are forecast to touch, if they are clear of each other. -/
theorem closer_of_untilBall? {delay : Millis} (clear : 0 ≤ first.clearance second)
    (found : first.untilBall? second = some delay) : first.parting second < 0 := by
  by_contra parts
  rw [not_lt] at parts
  rw [untilBall?_eq] at found
  split at found
  · cases found
  · next fast =>
    split at found
    · cases found
    · have moving := lt_of_lt_of_le Scalar.negligible_pos (not_lt.1 fast)
      have root := sqrt_discriminant_le clear
      rw [abs_of_nonneg parts] at root
      have gone : (first.touches second).2 ≤ 0 :=
        div_nonpos_of_nonpos_of_nonneg (by linarith) moving.le
      rw [firstContact?_of_over (touches_le moving) gone] at found
      cases found

/-- The speed with which balls come closer, along the line through their centres. -/
theorem closing_eq (first second : Ball ℝ) :
    (first.velocity - second.velocity).dot (first.gap second / (first.gap second).norm) =
      -(first.parting second / (first.gap second).norm) := by
  rw [Vec.dot_div, parting, ← neg_div]
  congr 1
  simp only [drive, Vec.dot_eq, Vec.sub_eq]
  ring

/-- What an exchange gives from one ball to another, for every unit of the gap between them and of
both masses: nothing where the gap has no direction, where the balls do not come closer, or where
their mass is negligible. -/
noncomputable def kick (first second : Ball ℝ) : ℝ :=
  if (first.gap second).norm < Scalar.negligible ∨ 0 ≤ first.parting second ∨
      first.mass + second.mass < Scalar.negligible then 0
  else -2.0 * first.parting second /
    ((first.gap second).dot (first.gap second) * (first.mass + second.mass))

/-- A push along the direction of a gap, in terms of the gap itself. -/
theorem push_eq {gap : Vec ℝ} (long : 0 < gap.norm) (mass total parting : ℝ) :
    gap / gap.norm * (2 * mass / total * -(parting / gap.norm)) =
      gap * (mass * (-2 * parting / (gap.dot gap * total))) := by
  rw [← Vec.norm_mul_norm]
  apply Vec.eq_of_parts
  · simp only [Vec.mul_x, Vec.div_x]
    field_simp
  · simp only [Vec.mul_y, Vec.div_y]
    field_simp

/-- An exchange in terms of the gap. -/
theorem exchange_eq (first second : Ball ℝ) :
    first.exchange second =
      ({ first with velocity :=
          first.velocity - first.gap second * (second.mass * first.kick second) },
       { second with velocity :=
          second.velocity + first.gap second * (first.mass * first.kick second) }) := by
  have zero : (0.0 : ℝ) = 0 := by norm_num
  have two : (2.0 : ℝ) = 2 := by norm_num
  unfold exchange kick
  by_cases short : (first.gap second).norm < Scalar.negligible
  · have direction : (second.position - first.position).unit? = none := if_pos (.inr short)
    rw [if_pos (.inl short), direction, mul_zero, mul_zero, Vec.sub_smul_zero,
      Vec.add_smul_zero]
  · have far := not_lt.1 short
    have long := lt_of_lt_of_le Scalar.negligible_pos far
    have direction : (second.position - first.position).unit? =
        some (first.gap second / (first.gap second).norm) := Vec.unit?_of_le far
    have closing := closing_eq first second
    simp only [direction, closing, zero, two]
    by_cases parts : 0 ≤ first.parting second
    · have apart : -(first.parting second / (first.gap second).norm) ≤ 0 :=
        neg_nonpos.2 (div_nonneg parts long.le)
      rw [if_pos apart, if_pos (.inr (.inl parts)), mul_zero, mul_zero, Vec.sub_smul_zero,
        Vec.add_smul_zero]
    · have closer : ¬-(first.parting second / (first.gap second).norm) ≤ 0 := by
        rw [not_le, neg_pos]
        exact div_neg_of_neg_of_pos (not_le.1 parts) long
      rw [if_neg closer]
      by_cases light : first.mass + second.mass < Scalar.negligible
      · rw [if_pos light, if_pos (.inr (.inr light)), mul_zero, mul_zero, Vec.sub_smul_zero,
          Vec.add_smul_zero]
      · rw [if_neg light, if_neg (by simp [short, parts, light]), push_eq long, push_eq long]

/-- An exchange in terms of how much the balls part. -/
theorem parting_exchange_eq (first second : Ball ℝ) :
    (first.exchange second).1.parting (first.exchange second).2 =
      first.parting second +
        (first.gap second).dot (first.gap second) * (first.mass + second.mass) *
          first.kick second := by
  rw [exchange_eq]
  simp only [parting, gap, drive, Vec.dot_eq, Vec.sub_eq, Vec.add_eq, Vec.smul_eq]
  ring

/-- An exchange makes touching balls part as fast as they came, or leaves them parting. -/
theorem parting_exchange (far : Scalar.negligible ≤ (first.gap second).norm)
    (heavy : Scalar.negligible ≤ first.mass + second.mass) :
    (first.exchange second).1.parting (first.exchange second).2 = |first.parting second| := by
  rw [parting_exchange_eq, kick]
  by_cases parts : 0 ≤ first.parting second
  · rw [if_pos (.inr (.inl parts)), mul_zero, add_zero, abs_of_nonneg parts]
  · have long := lt_of_lt_of_le Scalar.negligible_pos far
    have square : 0 < (first.gap second).dot (first.gap second) :=
      Vec.norm_mul_norm (first.gap second) ▸ mul_pos long long
    have total := lt_of_lt_of_le Scalar.negligible_pos heavy
    have two : (2.0 : ℝ) = 2 := by norm_num
    rw [if_neg (by simp [far, parts, heavy]), abs_of_neg (not_le.1 parts),
      mul_div_cancel₀ _ (mul_pos square total).ne', two]
    ring

end Ball

namespace Table

variable {table before after : Table ℝ} {settled : List Contact} {delay : Millis}

/-- Two balls move alike, or their relative speed is large enough to be measured; and where they
come closer and touch at some time, they touch for longer than an instant. -/
def Discerned (table : Table ℝ) : Prop :=
  table.balls.Pairwise fun first second =>
    (first.drive second = Vec.zero ∨ Scalar.negligible ≤ first.pace second) ∧
      (first.parting second < 0 → 0 ≤ first.discriminant second →
        instantaneous < (first.touches second).2 - (first.touches second).1)

/-- The same, but only balls that are clear of each other have to touch for longer than an
instant. -/
def Discernible (table : Table ℝ) : Prop :=
  table.balls.Pairwise fun first second =>
    (first.drive second = Vec.zero ∨ Scalar.negligible ≤ first.pace second) ∧
      (0 ≤ first.clearance second → first.parting second < 0 → 0 ≤ first.discriminant second →
        instantaneous < (first.touches second).2 - (first.touches second).1)

theorem Discerned.discernible (discerned : table.Discerned) : table.Discernible :=
  discerned.imp fun ⟨measured, lasting⟩ => ⟨measured, fun _ => lasting⟩

/-- No ball is so small that its mass is negligible. -/
def Sizable (table : Table ℝ) : Prop := ∀ ball ∈ table.balls, 1e-6 ≤ ball.radius

/-- The balls are clear of each other, and while their contact is settled they do not come
closer. -/
def Apart (a b : BallId) (table : Table ℝ) (settled : List Contact) : Prop :=
  ∀ first second, table.balls[a]? = some first → table.balls[b]? = some second →
    0 ≤ first.clearance second ∧ (.pair a b ∈ settled → 0 ≤ first.parting second)

theorem Sizable.of_resembles {origin : Table ℝ} (sizable : origin.Sizable)
    (alike : table.Resembles origin) : table.Sizable := by
  intro ball member
  obtain ⟨other, member, same⟩ := alike.radius_mem member
  exact same ▸ sizable other member

theorem Discernible.of_getElem? (discernible : table.Discernible) (less : a < b)
    (here : table.balls[a]? = some first) (there : table.balls[b]? = some second) :
    (first.drive second = Vec.zero ∨ Scalar.negligible ≤ first.pace second) ∧
      (0 ≤ first.clearance second → first.parting second < 0 → 0 ≤ first.discriminant second →
        instantaneous < (first.touches second).2 - (first.touches second).1) := by
  obtain ⟨inA, rfl⟩ := List.getElem?_eq_some_iff.1 here
  obtain ⟨inB, rfl⟩ := List.getElem?_eq_some_iff.1 there
  exact List.pairwise_iff_getElem.1 discernible a b inA inB less

theorem Apart.mono {fewer : List Contact} (apart : Apart a b table settled)
    (less : ∀ contact ∈ fewer, contact ∈ settled) : Apart a b table fewer :=
  fun first second here there =>
    let ⟨clear, parts⟩ := apart first second here there
    ⟨clear, fun member => parts (less _ member)⟩

/-- Balls that come closer get no further than to each other in a delay that no open forecast falls
short of, if they are forecast to touch when they begin to. -/
theorem Apart.drift_of_forecast (less : a < b) (apart : Apart a b table settled)
    (forecast : ∀ first second, table.balls[a]? = some first → table.balls[b]? = some second →
      0 ≤ first.clearance second → first.parting second < 0 → 0 ≤ first.discriminant second →
        first.untilBall? second = Scalar.wholeMillis? (first.touches second).1)
    (early : ∀ forecast ∈ table.forecasts, forecast.contact ∉ settled →
      delay ≤ forecast.delay) :
    Apart a b (table.drift delay) settled := by
  intro moved moved' found found'
  obtain ⟨first, here, rfl⟩ : ∃ first, table.balls[a]? = some first ∧
      first.drift delay = moved := by
    simpa [Table.drift] using found
  obtain ⟨second, there, rfl⟩ : ∃ second, table.balls[b]? = some second ∧
      second.drift delay = moved' := by
    simpa [Table.drift] using found'
  obtain ⟨clear, parts⟩ := apart first second here there
  by_cases closer : first.parting second < 0
  · have isOpen : Contact.pair a b ∉ settled := fun member =>
      absurd (parts member) (not_le.2 closer)
    refine ⟨?_, fun member => absurd member isOpen⟩
    rw [Ball.drift_eq_moved, Ball.drift_eq_moved]
    apply Ball.clear_until_touch (Ball.pace_pos_of_parting closer.ne)
    intro touch
    have forecast := forecast first second here there clear closer touch
    apply Scalar.toNat_le_of_early (Ball.touches_nonneg clear closer)
    intro whole counted
    exact early ⟨whole, .pair a b⟩
      (pair_mem_forecasts.2 ⟨less, first, second, here, there, forecast.trans counted⟩) isOpen
  · obtain ⟨clear, parting⟩ := Ball.clear_of_parting delay clear (not_lt.1 closer)
    exact ⟨clear, fun _ => parting⟩

/-- On a table on which what comes closer is forecast, balls get no further than to each other. -/
theorem Apart.drift (discernible : table.Discernible) (less : a < b)
    (apart : Apart a b table settled)
    (early : ∀ forecast ∈ table.forecasts, forecast.contact ∉ settled →
      delay ≤ forecast.delay) :
    Apart a b (table.drift delay) settled := by
  refine apart.drift_of_forecast less (fun first second here there clear closer touch => ?_) early
  obtain ⟨measured, lasting⟩ := discernible.of_getElem? less here there
  have fast := measured.resolve_left fun still => by
    simp [Ball.parting, still, Vec.zero_eq, Vec.dot_eq] at closer
  exact (Ball.untilBall?_of_approaching clear fast closer touch (lasting clear closer touch)).2

/-- What a contact of two balls makes of them. -/
theorem balls_of_exchange (less : a < b) (elastic : before.response = .elastic)
    (here : before.balls[a]? = some first) (there : before.balls[b]? = some second)
    (met : (Contact.pair a b).effect? before = some after) :
    after.balls[a]? = some (first.exchange second).1 ∧
      after.balls[b]? = some (first.exchange second).2 := by
  have two := Nat.ne_of_lt less
  have inA := (List.getElem?_eq_some_iff.1 here).1
  have inB := (List.getElem?_eq_some_iff.1 there).1
  simp only [Contact.effect?, meet?, less, ↓reduceIte, two, here, there, elastic,
    Option.some.injEq] at met
  rw [← met]
  simp [two.symm, inA, inB]

/-- A contact makes its balls part, and what it leaves settled has the velocities with which it was
settled. -/
theorem Apart.collide {contact : Contact} {conductor : Conductor} (sizable : before.Sizable)
    (elastic : before.response = .elastic) (less : a < b)
    (apart : Apart a b before conductor.settled) (met : contact.effect? before = some after) :
    Apart a b after (conductor.settle before after contact).settled := by
  intro first second found found'
  obtain ⟨old, here, position, radius, aside⟩ := Contact.balls_of_effect? met found
  obtain ⟨old', there, position', radius', aside'⟩ := Contact.balls_of_effect? met found'
  obtain ⟨clear, parts⟩ := apart old old' here there
  refine ⟨by simpa [Ball.clearance, Ball.gap, position, radius, position', radius'] using clear, ?_⟩
  intro member
  rcases Conductor.mem_settle.1 member with rfl | ⟨held, kept⟩
  · obtain ⟨exchanged, exchanged'⟩ := balls_of_exchange less elastic here there met
    have size := sizable old (List.mem_of_getElem? here)
    have size' := sizable old' (List.mem_of_getElem? there)
    have tiny : (Scalar.negligible : ℝ) = 1e-6 * 1e-6 := by
      change (1e-12 : ℝ) = _
      norm_num
    have wide := (Ball.clearance_nonneg_iff (by linarith)).1 clear
    have far : Scalar.negligible ≤ (old.gap old').norm := by
      refine le_trans ?_ wide
      rw [tiny]
      linarith
    have heavy : Scalar.negligible ≤ old.mass + old'.mass := by
      rw [tiny]
      exact le_add_of_le_of_nonneg (mul_self_le_mul_self (by norm_num) size) (mul_self_nonneg _)
    rw [Option.some.inj (found.symm.trans exchanged),
      Option.some.inj (found'.symm.trans exchanged'), Ball.parting_exchange far heavy]
    exact abs_nonneg _
  · have same {id : BallId} {ball old : Ball ℝ} (found : after.balls[id]? = some ball)
        (here : before.balls[id]? = some old) (aside : id ∉ contact.balls → ball = old)
        (mine : id ∈ (Contact.pair a b).balls) : ball.velocity = old.velocity := by
      by_cases part : id ∈ contact.balls
      · apply velocity_of_not_deflected found here
        intro turned
        have apart := kept id part turned
        simp [Contact.involves, mine] at apart
      · rw [aside part]
    have velocity := same found here aside (by simp [Contact.balls])
    have velocity' := same found' there aside' (by simp [Contact.balls])
    simpa [Ball.parting, Ball.gap, Ball.drive, position, position', velocity, velocity'] using
      parts held

/-- What a conductor reacts with keeps the balls clear of each other, if they are clear when the
conductor comes to react. -/
theorem Apart.react_of_drift {ready waiting next : Conductor} {signal : Signal} {now : Instant}
    (sizable : table.Sizable) (elastic : table.response = .elastic) (less : a < b)
    (drifted : Apart a b (table.drift delay) waiting.settled)
    (follows : ready.follows table = some (delay, signal, waiting))
    (reacts : waiting.reaction? now signal table = some (after, next)) :
    Apart a b after next.settled := by
  rcases Conductor.reaction_of_follows follows reacts with
    ⟨contact, found, _, same⟩ | ⟨_, _, _, same⟩
  · have member := (nextContact?_mem found).1
    obtain ⟨met, effect⟩ := Option.isSome_iff_exists.1 (Contact.effect?_isSome
      ((at_of_mem_forecasts member).of_resembles (Resembles.drift delay table).symm))
    simp only [Conductor.collided, effect, Option.getD_some, Prod.mk.injEq] at same
    obtain ⟨rfl, rfl⟩ := same
    exact Apart.collide (sizable.of_resembles (.drift delay table)) elastic less
      (drifted.mono fun _ => Conductor.mem_atInstant) effect
  · simp only [Conductor.painted, Prod.mk.injEq] at same
    obtain ⟨rfl, rfl⟩ := same
    exact drifted.mono fun _ member => by cases member

/-- What a conductor reacts with keeps the balls clear of each other. -/
theorem Apart.react {ready waiting next : Conductor} {signal : Signal} {now : Instant}
    (sizable : table.Sizable) (elastic : table.response = .elastic) (less : a < b)
    (discernible : table.Discernible) (apart : Apart a b table waiting.settled)
    (follows : ready.follows table = some (delay, signal, waiting))
    (reacts : waiting.reaction? now signal table = some (after, next)) :
    Apart a b after next.settled := by
  have drifted := apart.drift discernible less (Conductor.no_sooner_of_follows follows)
  exact drifted.react_of_drift sizable elastic less follows reacts

/-- On a table without walls, two balls have no contact but their own. -/
theorem contact_of_two {contact : Contact} (bare : table.walls = [])
    (two : table.balls.length = 2) (there : contact.At table) : contact = .pair 0 1 := by
  cases contact with
  | wall ball side => exact absurd (bare ▸ there.2) (Nat.not_lt_zero _)
  | pair a b =>
    obtain ⟨less, inside⟩ := there
    rw [two] at inside
    obtain rfl : b = 1 := Nat.le_antisymm (Nat.le_of_lt_succ inside) (Nat.zero_lt_of_lt less)
    obtain rfl : a = 0 := Nat.lt_one_iff.1 less
    rfl

/-- If that is forecast, nothing else is. -/
theorem forecasts_of_two {one other : Ball ℝ}
    (bare : table.walls = []) (two : table.balls = [one, other])
    (touch : one.untilBall? other = some delay) : table.forecasts = [⟨delay, .pair 0 1⟩] := by
  have back : other.untilBall? one = some delay := (Ball.untilBall?_comm one other).trans touch
  have range : List.range 2 = [0, 1] := rfl
  simp [Table.forecasts, Table.forecastsOf, Table.wallForecasts, Table.pairForecasts, bare, two,
    Table.countsFor, Contact.between, range, touch, back]

end Table

namespace Simulation

variable {C : Type} [Canvas ℝ C] {scene : Scene ℝ}

/-- Balls that exchange momentum never overlap. If no two balls of a checked scene overlap at first
and none is so small that its mass is negligible, then no two balls ever overlap, as long as, at
every arming, contacts of balls are discerned. This is after every single move, and every call is a
sequence of moves. -/
theorem no_balls_overlap {canvas : C} {first last : Simulation ℝ C Conductor}
    (made : scene.conduct id canvas = .ok first) (elastic : scene.table.response = .elastic)
    (sizable : scene.table.Sizable)
    (apart : scene.table.balls.Pairwise fun ball other =>
      ball.radius + other.radius ≤ ball.position.dist other.position)
    (course : Course Table.Discerned first last) :
    last.stage.table.balls.map (·.radius) = scene.table.balls.map (·.radius) ∧
      last.stage.table.balls.Pairwise fun ball other =>
        ball.radius + other.radius ≤ ball.position.dist other.position := by
  obtain ⟨poised, table, fine⟩ := Poised.of_conduct made
  have alike : first.stage.table.Resembles scene.table := table ▸ .refl _
  have wide {table : Table ℝ} (alike : table.Resembles scene.table) {ball other : Ball ℝ}
      (member : ball ∈ table.balls) (member' : other ∈ table.balls) :
      0 ≤ ball.radius + other.radius := by
    have size := sizable.of_resembles alike ball member
    have size' := sizable.of_resembles alike other member'
    linarith
  have lasting {a b : BallId} (less : a < b) :
      Lasting scene.table Table.Discerned (Table.Apart a b) := by
    refine ⟨fun _ _ => id, fun _ _ _ => id, ?_, ?_⟩
    · exact fun _ _ apart => apart.mono fun _ member => by cases member
    · exact fun alike discerned apart follows reacts => Table.Apart.react
        (sizable.of_resembles alike) (alike.response.trans elastic) less discerned.discernible apart
        follows reacts
  have kept {a b : BallId} (less : a < b) : ∃ waiting : Conductor,
      last.stage.table.Resembles scene.table ∧ last.stage.table.Apart a b waiting.settled := by
    have begun : first.stage.table.Apart a b (Conductor.new scene.interval).settled := by
      intro ball other here there
      rw [table] at here there
      obtain ⟨inA, rfl⟩ := List.getElem?_eq_some_iff.1 here
      obtain ⟨inB, rfl⟩ := List.getElem?_eq_some_iff.1 there
      refine ⟨?_, fun settled => by cases settled⟩
      rw [Ball.clearance_nonneg_iff (wide (.refl _) (List.getElem_mem _) (List.getElem_mem _))]
      exact List.pairwise_iff_getElem.1 apart a b inA inB less
    obtain ⟨waiting, _, alike, apart, _⟩ :=
      (lasting less).of_course poised alike begun (fun armed => absurd rfl armed) course
    exact ⟨waiting, alike, apart⟩
  obtain ⟨_, alike, _⟩ := kept Nat.zero_lt_one
  refine ⟨alike.radii, List.pairwise_iff_getElem.2 ?_⟩
  intro a b inA inB less
  obtain ⟨waiting, _, apart⟩ := kept less
  have clear := (apart _ _ (List.getElem?_eq_getElem inA) (List.getElem?_eq_getElem inB)).1
  rwa [Ball.clearance_nonneg_iff (wide alike (List.getElem_mem _) (List.getElem_mem _))] at clear

/-- Two balls head for each other. -/
def duel {K : Type} [Scalar K] : Scene K where
  table :=
    { walls := []
      balls := [⟨Vec.zero, ⟨10.0, 0.0⟩, 1.0⟩, ⟨⟨10.0, 0.0⟩, ⟨-10.0, 0.0⟩, 1.0⟩]
      turret := Scene.standardTurret
      reach := .line
      response := .elastic }
  interval := some 1000

section Duel

/-- The balls of the duel. -/
noncomputable def duelists : Ball ℝ × Ball ℝ :=
  (⟨Vec.zero, ⟨10.0, 0.0⟩, 1.0⟩, ⟨⟨10.0, 0.0⟩, ⟨-10.0, 0.0⟩, 1.0⟩)

theorem parting_duelists : duelists.1.parting duelists.2 = -200 := by
  simp only [duelists, Ball.parting, Ball.gap, Ball.drive, Vec.zero_eq, Vec.dot_eq, Vec.sub_eq]
  norm_num

theorem pace_duelists : duelists.1.pace duelists.2 = 400 := by
  simp only [duelists, Ball.pace, Ball.drive, Vec.dot_eq, Vec.sub_eq]
  norm_num

theorem wide_duelists : 0 ≤ duelists.1.radius + duelists.2.radius := by
  norm_num [duelists]

theorem clearance_duelists : duelists.1.clearance duelists.2 = 96 := by
  simp only [duelists, Ball.clearance, Ball.gap, Vec.zero_eq, Vec.dot_eq, Vec.sub_eq]
  norm_num

theorem clear_duelists : duelists.1.radius + duelists.2.radius ≤
    duelists.1.position.dist duelists.2.position := by
  rw [← Ball.clearance_nonneg_iff wide_duelists, clearance_duelists]
  norm_num

theorem discriminant_duelists : duelists.1.discriminant duelists.2 = 40 ^ 2 := by
  rw [Ball.discriminant, parting_duelists, pace_duelists, clearance_duelists]
  norm_num

/-- The balls touch from the four hundredth millisecond to the six hundredth. -/
theorem touches_duelists : duelists.1.touches duelists.2 = (400, 600) := by
  rw [Ball.touches, parting_duelists, pace_duelists, discriminant_duelists,
    Real.sqrt_sq (by norm_num)]
  norm_num

theorem untilBall?_duelists : duelists.1.untilBall? duelists.2 = some 400 := by
  have whole : ((400 : Millis).toNat : ℝ) = 400 := by
    exact_mod_cast (rfl : (400 : Millis).toNat = 400)
  rw [Ball.untilBall?_eq, pace_duelists, discriminant_duelists, touches_duelists, if_neg,
    if_neg (not_lt.2 (sq_nonneg _)), firstContact?_of_ahead (by norm_num), Option.bind_some,
    ← whole, Scalar.wholeMillis?_toNat]
  · norm_num [instantaneous_eq]
  · norm_num [Scalar.negligible_eq]

/-- The balls of the duel right after they have met. -/
noncomputable def rebounded : Ball ℝ × Ball ℝ :=
  (⟨⟨4.0, 0.0⟩, ⟨-10.0, 0.0⟩, 1.0⟩, ⟨⟨6.0, 0.0⟩, ⟨10.0, 0.0⟩, 1.0⟩)

theorem clearance_rebounded : rebounded.1.clearance rebounded.2 = 0 := by
  simp only [rebounded, Ball.clearance, Ball.gap, Vec.sub_eq, Vec.dot_eq]
  norm_num

theorem parting_rebounded : rebounded.1.parting rebounded.2 = 40 := by
  simp only [rebounded, Ball.parting, Ball.gap, Ball.drive, Vec.sub_eq, Vec.dot_eq]
  norm_num

theorem pace_rebounded : rebounded.1.pace rebounded.2 = 400 := by
  simp only [rebounded, Ball.pace, Ball.drive, Vec.sub_eq, Vec.dot_eq]
  norm_num

/-- They exchange their velocities. -/
theorem exchange_duelists :
    (duelists.1.drift 400).exchange (duelists.2.drift 400) = rebounded := by
  have whole : (400 : Millis).toNat = 400 := rfl
  have one : duelists.1.drift 400 = ⟨⟨4, 0⟩, ⟨10, 0⟩, 1⟩ := by
    rw [Ball.drift_eq_moved, Ball.moved_eq, whole]
    simp only [duelists, Vec.zero_eq, Vec.add_eq, Vec.smul_eq]
    norm_num
  have other : duelists.2.drift 400 = ⟨⟨6, 0⟩, ⟨-10, 0⟩, 1⟩ := by
    rw [Ball.drift_eq_moved, Ball.moved_eq, whole]
    simp only [duelists, Vec.zero_eq, Vec.add_eq, Vec.smul_eq]
    norm_num
  have gap : (⟨⟨4, 0⟩, ⟨10, 0⟩, 1⟩ : Ball ℝ).gap ⟨⟨6, 0⟩, ⟨-10, 0⟩, 1⟩ = ⟨2, 0⟩ := by
    simp only [Ball.gap, Vec.sub_eq]
    norm_num
  have parting : (⟨⟨4, 0⟩, ⟨10, 0⟩, 1⟩ : Ball ℝ).parting ⟨⟨6, 0⟩, ⟨-10, 0⟩, 1⟩ = -40 := by
    rw [Ball.parting, gap]
    simp only [Ball.drive, Vec.sub_eq, Vec.dot_eq]
    norm_num
  have kick : (⟨⟨4, 0⟩, ⟨10, 0⟩, 1⟩ : Ball ℝ).kick ⟨⟨6, 0⟩, ⟨-10, 0⟩, 1⟩ = 10 := by
    rw [Ball.kick, gap, parting, Vec.norm_eq, mul_zero, add_zero,
      Real.sqrt_mul_self (by norm_num), if_neg (by norm_num [Ball.mass, Scalar.negligible_eq]),
      Vec.dot_eq]
    norm_num [Ball.mass]
  rw [one, other, Ball.exchange_eq, kick, gap]
  simp only [Ball.mass, Vec.sub_eq, Vec.add_eq, Vec.smul_eq, rebounded]
  norm_num

/-- Nothing is wrong with the duel. -/
theorem duel_fine : (duel : Scene ℝ).fault? = none := by
  refine Scene.fault?_eq_none_iff_sound.2 ⟨by decide, ?_, ?_⟩
  · intro wall member
    cases member
  · intro ball member
    rcases List.mem_pair.1 member with rfl | rfl <;> norm_num

theorem duel_discerned : (duel : Scene ℝ).table.Discerned := by
  refine List.pairwise_pair.2 ⟨.inr ?_, fun _ _ => ?_⟩
  · change _ ≤ duelists.1.pace duelists.2
    rw [pace_duelists]
    change (1e-12 : ℝ) ≤ 400
    norm_num
  · change _ < (duelists.1.touches duelists.2).2 - (duelists.1.touches duelists.2).1
    rw [touches_duelists]
    change (1e-6 : ℝ) < _
    norm_num

theorem nextContact?_duel : (duel : Scene ℝ).table.nextContact? [] = some ⟨400, .pair 0 1⟩ := by
  rw [Table.nextContact?, Table.forecasts_of_two rfl rfl untilBall?_duelists]
  rfl

/-- After four hundred milliseconds, the contact of the duel is due. -/
theorem exists_duel_run :
    ∃ (first : Simulation ℝ (Blank ℝ) Conductor) (event : Event) (rest : Agenda),
      duel.conduct id ⟨⟩ = .ok first ∧
      (first.follow [.start, .advance 400]).stage.table = (duel : Scene ℝ).table ∧
      (first.follow [.start, .advance 400]).stage.agenda.popDue?
        (first.follow [.start, .advance 400]).now = some (event, rest) ∧
      event.signal = .pair 0 1 400 :=
  Armed.exists_run_to_contact duel_fine (⟨⟩ : Blank ℝ) rfl nextContact?_duel (by decide)

/-- The table of the duel once the balls have met. -/
noncomputable def duelled : Table ℝ :=
  let met := (duelists.1.drift 400).exchange (duelists.2.drift 400)
  { (duel : Scene ℝ).table with balls := [met.1, met.2] }

theorem effect?_duel : (Contact.pair 0 1).effect? ((duel : Scene ℝ).table.drift 400) =
    some duelled := rfl

theorem duelled_discerned : duelled.Discerned := by
  rw [duelled, exchange_duelists]
  refine List.pairwise_pair.2 ⟨.inr ?_, fun closer => ?_⟩
  · rw [pace_rebounded]
    norm_num [Scalar.negligible_eq]
  · norm_num [parting_rebounded] at closer

end Duel

/-- The balls of the duel exchange their velocities where they touch, and stay clear of each
other. -/
theorem no_balls_overlap_duel :
    ∃ (first : Simulation ℝ (Blank ℝ) Conductor) (event : Event) (rest : Agenda),
      duel.conduct id ⟨⟩ = .ok first ∧
      (first.follow [.start, .advance 400]).stage.agenda.popDue?
        (first.follow [.start, .advance 400]).now = some (event, rest) ∧
      event.signal = .pair 0 1 400 ∧
      Course Table.Discerned first (first.follow [.start, .advance 400, .step]) ∧
      (first.follow [.start, .advance 400, .step]).stage.table.balls.map (·.velocity) =
        [⟨-10, 0⟩, ⟨10, 0⟩] ∧
      (first.follow [.start, .advance 400, .step]).stage.table.balls.map (·.radius) =
        (duel : Scene ℝ).table.balls.map (·.radius) ∧
      (first.follow [.start, .advance 400, .step]).stage.table.balls.Pairwise fun ball other =>
        ball.radius + other.radius ≤ ball.position.dist other.position := by
  obtain ⟨first, event, rest, made, same, popped, tells⟩ := exists_duel_run
  obtain ⟨poised, table, _⟩ := Poised.of_conduct made
  have met : (first.follow [.start, .advance 400, .step]).stage.table = duelled := by
    obtain ⟨_, ready, _⟩ := poised.follow [.start, .advance 400]
    obtain ⟨_, _, _, _, _, _, effect⟩ := ready.meets popped tells
    rw [same, effect?_duel] at effect
    exact (Option.some.inj effect).symm
  have course : Course Table.Discerned first (first.follow [.start, .advance 400, .step]) := by
    apply Course.move .step (.move (.advance 400) (.move .start .begin ?_) ?_)
    · exact fun _ => met.symm ▸ duelled_discerned
    · exact fun _ => (poised.table_start.trans table).symm ▸ duel_discerned
    · intro arms
      cases arms
  refine ⟨first, event, rest, made, popped, tells, course, ?_,
    no_balls_overlap made rfl ?_ ?_ course⟩
  · rw [met, duelled, exchange_duelists]
    norm_num [rebounded]
  · intro ball member
    rcases List.mem_pair.1 member with rfl | rfl <;> norm_num
  · exact List.pairwise_pair.2 clear_duelists

end Simulation

end Billiard
