import Billiard.Proofs.Conducting
import Billiard.Proofs.Exact

/-!
No ball sinks into a wall's line or passes through it. A ball beyond its radius is forecast to
touch a line exactly if it comes closer, and no delay exceeds the forecast; a contact is settled
only while its ball does not come closer. Both are kept together (`Beside`), by drift, by every
contact and by every arming.
-/

namespace Billiard

variable {side t u : ℝ} {ball : Ball ℝ} {wall : Segment ℝ}

/-- Every point is on one side of a line or on the other. -/
theorem exists_side (offset : ℝ) :
    ∃ side : ℝ, (side = 1 ∨ side = -1) ∧ side * offset = |offset| := by
  rcases le_total 0 offset with above | below
  · exact ⟨1, .inl rfl, by rw [one_mul, abs_of_nonneg above]⟩
  · exact ⟨-1, .inr rfl, by rw [neg_one_mul, abs_of_nonpos below]⟩

theorem abs_side_mul (sign : side = 1 ∨ side = -1) (x : ℝ) : |side * x| = |x| := by
  rcases sign with rfl | rfl <;> simp

theorem side_mul_side (sign : side = 1 ∨ side = -1) (x y : ℝ) :
    side * x * (side * y) = x * y := by
  rcases sign with rfl | rfl <;> ring

namespace Prediction

theorem firstContact?_of_le (le : t ≤ u) :
    firstContact? t u =
      if 0 < t then some t
      else if -1e-6 < t ∧ 1e-6 < u then some 0
      else if 1e-6 < u then some u
      else none := by
  have zero : (0.0 : ℝ) = 0 := by norm_num
  change (if true then _ else _) = _
  simp only [if_true, if_pos le, zero]
  rfl

/-- What begins ahead, or begins now and ends later than counts as now, is met when it begins. -/
theorem firstContact?_of_nonneg (ahead : 0 ≤ t) (le : t ≤ u)
    (lasting : t = 0 → instantaneous < u) : firstContact? t u = some t := by
  rw [firstContact?_of_le le]
  rcases ahead.lt_or_eq with later | now
  · rw [if_pos later]
  · rw [← now, if_neg (lt_irrefl _), if_pos ⟨by norm_num, lasting now.symm⟩]

/-- What begins ahead and lasts is met when it begins. -/
theorem firstContact?_of_ahead (ahead : 0 ≤ t) (lasting : instantaneous < u - t) :
    firstContact? t u = some t := by
  have short : (0 : ℝ) < instantaneous := instantaneous_pos
  exact firstContact?_of_nonneg ahead (by linarith) fun now => by linarith

/-- What is over is not met any more. -/
theorem firstContact?_of_over (le : t ≤ u) (gone : u ≤ 0) : firstContact? t u = none := by
  have short : (0 : ℝ) < 1e-6 := by norm_num
  rw [firstContact?_of_le le, if_neg (by linarith), if_neg (by rintro ⟨_, _⟩; linarith),
    if_neg (by linarith)]

theorem firstContact?_comm (t u : ℝ) : firstContact? t u = firstContact? u t := by
  rcases lt_trichotomy t u with less | same | more
  · change (if true then _ else _) = (if true then _ else _)
    simp only [if_true, if_pos less.le, if_neg (not_le.2 less)]
  · rw [same]
  · change (if true then _ else _) = (if true then _ else _)
    simp only [if_true, if_pos more.le, if_neg (not_le.2 more)]

end Prediction

open Prediction

namespace Ball

/-- How far the centre may come to a wall's line, times the wall's length. -/
noncomputable def berth (ball : Ball ℝ) (wall : Segment ℝ) : ℝ := ball.radius * wall.span.norm

/-- When a ball on this side of a wall's line touches it, if it comes closer, in milliseconds. -/
noncomputable def arrival (side : ℝ) (ball : Ball ℝ) (wall : Segment ℝ) : ℝ :=
  1000.0 * (side * ball.offset wall - ball.berth wall) / -(side * ball.rate wall)

theorem arrival_eq (side : ℝ) (ball : Ball ℝ) (wall : Segment ℝ) : ball.arrival side wall =
    1000 * (side * ball.offset wall - ball.berth wall) / -(side * ball.rate wall) := by
  have thousand : (1000.0 : ℝ) = 1000 := by norm_num
  rw [arrival, thousand]

theorem arrival_nonneg (clear : ball.berth wall ≤ side * ball.offset wall)
    (approaching : side * ball.rate wall < 0) : 0 ≤ ball.arrival side wall :=
  div_nonneg (by linarith) (by linarith)

/-- The forecast, seen from the side of the line on which the ball is. -/
theorem lineContact?_eq (sound : wall.isDegenerate = false) (sign : side = 1 ∨ side = -1) :
    ball.lineContact? wall =
      if |side * ball.rate wall| < Scalar.negligible then none
      else firstContact?
        (1000 * (ball.berth wall - side * ball.offset wall) / (side * ball.rate wall))
        (1000 * (-ball.berth wall - side * ball.offset wall) / (side * ball.rate wall)) := by
  have thousand : (1000.0 : ℝ) = 1000 := by norm_num
  have formula : ball.lineContact? wall =
      if |ball.rate wall| < Scalar.negligible then none
      else firstContact? (1000.0 * (ball.berth wall - ball.offset wall) / ball.rate wall)
        (1000.0 * (-ball.berth wall - ball.offset wall) / ball.rate wall) := by
    unfold lineContact?
    rw [sound]
    rfl
  rw [formula, thousand]
  rcases sign with rfl | rfl
  · simp
  · rw [firstContact?_comm, abs_mul, abs_neg, abs_one, one_mul]
    congr 2 <;> ring

/-- Only a ball that comes closer is forecast to touch a line that it is clear of. -/
theorem approaching_of_lineContact? (sound : wall.isDegenerate = false)
    (sign : side = 1 ∨ side = -1) (clear : ball.berth wall ≤ side * ball.offset wall)
    (wide : 0 ≤ ball.berth wall) (found : ball.lineContact? wall = some t) :
    side * ball.rate wall < 0 := by
  by_contra receding
  rw [not_lt] at receding
  rw [lineContact?_eq sound sign] at found
  split at found
  · cases found
  · have begun : 1000 * (ball.berth wall - side * ball.offset wall) / (side * ball.rate wall) ≤ 0 :=
      div_nonpos_of_nonpos_of_nonneg (by linarith) receding
    have earlier : 1000 * (-ball.berth wall - side * ball.offset wall) / (side * ball.rate wall) ≤
        1000 * (ball.berth wall - side * ball.offset wall) / (side * ball.rate wall) :=
      div_le_div_of_nonneg_right (by linarith) receding
    rw [firstContact?_comm, firstContact?_of_over earlier begun] at found
    cases found

/-- A ball that comes closer to a line would touch it on its own side first and on the other side
last. -/
theorem lineContact?_of_closer (sound : wall.isDegenerate = false) (sign : side = 1 ∨ side = -1)
    (fast : Scalar.negligible ≤ |ball.rate wall|) (approaching : side * ball.rate wall < 0) :
    ball.lineContact? wall = firstContact? (ball.arrival side wall)
      (ball.arrival side wall + 2000 * ball.berth wall / |ball.rate wall|) := by
  have size := abs_side_mul sign (ball.rate wall)
  have touch : 1000 * (ball.berth wall - side * ball.offset wall) / (side * ball.rate wall) =
      ball.arrival side wall := by
    rw [arrival_eq, ← neg_div_neg_eq]
    ring_nf
  have leave : 1000 * (-ball.berth wall - side * ball.offset wall) / (side * ball.rate wall) =
      ball.arrival side wall + 2000 * ball.berth wall / |ball.rate wall| := by
    rw [← size, abs_of_neg approaching, arrival_eq, ← add_div, ← neg_div_neg_eq]
    ring_nf
  rw [lineContact?_eq sound sign, size, if_neg (not_lt.2 fast), touch, leave]

/-- A ball that comes closer fast enough is forecast to touch the line when it is a radius away
from it, unless it is there already and is through before that counts as touching. -/
theorem lineContact?_of_clear (sound : wall.isDegenerate = false) (sign : side = 1 ∨ side = -1)
    (clear : ball.berth wall ≤ side * ball.offset wall) (wide : 0 ≤ ball.berth wall)
    (fast : Scalar.negligible ≤ |ball.rate wall|) (approaching : side * ball.rate wall < 0)
    (thick : side * ball.offset wall = ball.berth wall →
      instantaneous < 2000 * ball.berth wall / |ball.rate wall|) :
    ball.lineContact? wall = some (ball.arrival side wall) := by
  have lasting : 0 ≤ 2000 * ball.berth wall / |ball.rate wall| := by positivity
  rw [lineContact?_of_closer sound sign fast approaching]
  apply firstContact?_of_nonneg (arrival_nonneg clear approaching) (le_add_of_nonneg_right lasting)
  intro now
  have touching : side * ball.offset wall = ball.berth wall := by
    rw [arrival_eq, div_eq_zero_iff] at now
    rcases now with now | still <;> linarith
  rw [now, zero_add]
  exact thick touching

/-- A ball that comes closer fast enough is forecast to touch the line when it is a radius away
from it. -/
theorem lineContact?_of_approaching (sound : wall.isDegenerate = false)
    (sign : side = 1 ∨ side = -1) (clear : ball.berth wall ≤ side * ball.offset wall)
    (fast : Scalar.negligible ≤ |ball.rate wall|)
    (thick : instantaneous < 2000 * ball.berth wall / |ball.rate wall|)
    (approaching : side * ball.rate wall < 0) :
    ball.lineContact? wall = some (ball.arrival side wall) := by
  have moves := lt_of_lt_of_le Scalar.negligible_pos fast
  have wide := (div_pos_iff_of_pos_right moves).1 (instantaneous_pos.trans thick)
  exact lineContact?_of_clear sound sign clear (by linarith) fast approaching fun _ => thick

/-- A ball that is clear of a line is forecast to touch it when it arrives there, if at all. -/
theorem eq_arrival_of_lineContact? (sound : wall.isDegenerate = false)
    (sign : side = 1 ∨ side = -1) (clear : ball.berth wall ≤ side * ball.offset wall)
    (wide : 0 ≤ ball.berth wall) (found : ball.lineContact? wall = some t) :
    side * ball.rate wall < 0 ∧ t = ball.arrival side wall := by
  have approaching := approaching_of_lineContact? sound sign clear wide found
  refine ⟨approaching, ?_⟩
  have fast : Scalar.negligible ≤ |ball.rate wall| := by
    by_contra slow
    rw [lineContact?_eq sound sign, abs_side_mul sign, if_pos (not_le.1 slow)] at found
    cases found
  have lasting : 0 ≤ 2000 * ball.berth wall / |ball.rate wall| := by positivity
  rw [lineContact?_of_closer sound sign fast approaching,
    firstContact?_of_le (by linarith)] at found
  by_cases later : 0 < ball.arrival side wall
  · rw [if_pos later] at found
    exact (Option.some.inj found).symm
  · have now : ball.arrival side wall = 0 :=
      le_antisymm (not_lt.1 later) (arrival_nonneg clear approaching)
    rw [if_neg later, now, zero_add] at found
    by_cases thick : (1e-6 : ℝ) < 2000 * ball.berth wall / |ball.rate wall|
    · rw [if_pos ⟨by norm_num, thick⟩] at found
      exact now ▸ (Option.some.inj found).symm
    · rw [if_neg (fun both => thick both.2), if_neg thick] at found
      cases found

/-- A ball that is clear of a line stays so until it reaches the line, if it comes closer. -/
theorem berth_le_offset_moved (clear : ball.berth wall ≤ side * ball.offset wall) (ahead : 0 ≤ t)
    (early : side * ball.rate wall < 0 → t ≤ ball.arrival side wall) :
    (ball.moved t).berth wall ≤ side * (ball.moved t).offset wall := by
  change ball.berth wall ≤ _
  rw [offset_moved, mul_add, ← mul_assoc]
  by_cases approaching : side * ball.rate wall < 0
  · have within := early approaching
    rw [arrival_eq, le_div_iff₀ (by linarith)] at within
    linarith
  · have away : 0 ≤ side * ball.rate wall * (t / 1000) :=
      mul_nonneg (not_lt.1 approaching) (by positivity)
    linarith

/-- However far walls reach, what is forecast is the time at which the ball touches the line. -/
theorem exists_lineContact?_of_untilWall? {reach : Reach} {delay : Millis}
    (found : ball.untilWall? reach wall = some delay) :
    ∃ time, ball.lineContact? wall = some time ∧ Scalar.wholeMillis? time = some delay := by
  cases reach with
  | line => exact Option.bind_eq_some_iff.1 found
  | ends =>
    simp only [untilWall?, untilEnds?] at found
    split at found
    · cases found
    · next time touches =>
      refine ⟨time, touches, ?_⟩
      split at found
      · cases found
      · split at found
        · exact found
        · cases found

/-- Along a whole line, a touch after whole milliseconds is forecast as it is. -/
theorem untilWall?_of_lineContact? {delay : Millis}
    (found : ball.lineContact? wall = some (delay.toNat : ℝ)) :
    ball.untilWall? .line wall = some delay :=
  (congrArg (Option.bind · Scalar.wholeMillis?) found).trans (Scalar.wholeMillis?_toNat delay)

/-- A ball on its way to the wall at 9. -/
noncomputable def nearing : Ball ℝ := ⟨Vec.zero, ⟨10.0, 0.0⟩, 1.0⟩

end Ball

namespace Table

variable {table before after : Table ℝ} {settled : List Contact} {delay : Millis} {id : BallId}
  {place : WallId}

/-- Every ball moves along every wall, or comes and goes fast enough to be forecast, but not so
fast that it is through before it counts as touching. -/
def Measured (table : Table ℝ) : Prop :=
  ∀ ball ∈ table.balls, ∀ wall ∈ table.walls,
    ball.rate wall = 0 ∨ Scalar.negligible ≤ |ball.rate wall| ∧
      instantaneous < 2000 * ball.radius * wall.span.norm / |ball.rate wall|

/-- Every ball moves along every wall, or comes and goes fast enough to be forecast, and one that
comes closer is not so fast that it is through before it counts as touching. -/
def Noticed (table : Table ℝ) : Prop :=
  ∀ ball ∈ table.balls, ∀ wall ∈ table.walls,
    (ball.rate wall = 0 ∨ Scalar.negligible ≤ |ball.rate wall|) ∧
      (ball.offset wall * ball.rate wall < 0 →
        instantaneous < 2000 * ball.radius * wall.span.norm / |ball.rate wall|)

theorem Measured.noticed (measured : table.Measured) : table.Noticed := by
  intro ball member wall member'
  rcases measured ball member wall member' with still | ⟨fast, thick⟩
  · refine ⟨.inl still, fun closer => ?_⟩
    rw [still, mul_zero] at closer
    exact absurd closer (lt_irrefl 0)
  · exact ⟨.inr fast, fun _ => thick⟩

/-- The ball is on this side of the wall's line, at least a radius away from it, and while their
contact is settled it does not come closer. -/
def Beside (side : ℝ) (id : BallId) (place : WallId) (table : Table ℝ) (settled : List Contact) :
    Prop :=
  ∀ ball wall, table.balls[id]? = some ball → table.walls[place]? = some wall →
    ball.berth wall ≤ side * ball.offset wall ∧
      (.wall id place ∈ settled → 0 ≤ side * ball.rate wall)

theorem Sound.of_resembles {origin : Table ℝ} (sound : origin.Sound)
    (alike : table.Resembles origin) : table.Sound where
  walls wall member := sound.walls wall (alike.walls ▸ member)
  balls ball member := by
    obtain ⟨other, member, same⟩ := alike.radius_mem member
    exact same ▸ sound.balls other member

theorem Sound.berth_pos {ball : Ball ℝ} {wall : Segment ℝ} (sound : table.Sound)
    (member : ball ∈ table.balls) (member' : wall ∈ table.walls) : 0 < ball.berth wall :=
  mul_pos (sound.balls ball member) (Segment.span_norm_pos (sound.walls wall member'))

/-- On its side of a line that it is clear of, a ball comes closer to the line. -/
theorem Sound.closer_iff (sound : table.Sound) (sign : side = 1 ∨ side = -1)
    (member : ball ∈ table.balls) (member' : wall ∈ table.walls)
    (clear : ball.berth wall ≤ side * ball.offset wall) :
    ball.offset wall * ball.rate wall < 0 ↔ side * ball.rate wall < 0 := by
  have beyond := lt_of_lt_of_le (sound.berth_pos member member') clear
  rw [← side_mul_side sign]
  exact smul_neg_iff_of_pos_left beyond

/-- On a table like this, what a ball comes closer to is forecast. -/
theorem Noticed.lineContact? (noticed : table.Noticed) (sound : table.Sound)
    (sign : side = 1 ∨ side = -1) (member : ball ∈ table.balls) (member' : wall ∈ table.walls)
    (clear : ball.berth wall ≤ side * ball.offset wall)
    (approaching : side * ball.rate wall < 0) :
    ball.lineContact? wall = some (ball.arrival side wall) := by
  obtain ⟨moving, lasting⟩ := noticed ball member wall member'
  have fast := moving.resolve_left fun still => by simp [still] at approaching
  have thick := lasting ((sound.closer_iff sign member member' clear).2 approaching)
  rw [mul_assoc] at thick
  exact Ball.lineContact?_of_approaching (sound.walls wall member') sign clear fast thick
    approaching

theorem Beside.mono {fewer : List Contact} (beside : Beside side id place table settled)
    (less : ∀ contact ∈ fewer, contact ∈ settled) : Beside side id place table fewer :=
  fun ball wall found there =>
    let ⟨clear, leaving⟩ := beside ball wall found there
    ⟨clear, fun member => leaving (less _ member)⟩

/-- A ball stays beside a line for as long as it does not reach it. -/
theorem Beside.drift_of_early (beside : Beside side id place table settled)
    (early : ∀ ball wall, table.balls[id]? = some ball → table.walls[place]? = some wall →
      side * ball.rate wall < 0 → (delay.toNat : ℝ) ≤ ball.arrival side wall) :
    Beside side id place (table.drift delay) settled := by
  intro moved wall found there
  obtain ⟨ball, here, rfl⟩ : ∃ ball, table.balls[id]? = some ball ∧ ball.drift delay = moved := by
    simpa [Table.drift] using found
  have there : table.walls[place]? = some wall := there
  obtain ⟨clear, leaving⟩ := beside ball wall here there
  refine ⟨?_, leaving⟩
  rw [Ball.drift_eq_moved]
  exact Ball.berth_le_offset_moved clear (Nat.cast_nonneg _) (early ball wall here there)

/-- A ball that comes closer gets no further than to the line in a delay that no open forecast
falls short of, if it is forecast to touch the line when it arrives there. -/
theorem Beside.drift_of_forecast (line : table.reach = .line)
    (beside : Beside side id place table settled)
    (forecast : ∀ ball wall, table.balls[id]? = some ball → table.walls[place]? = some wall →
      ball.berth wall ≤ side * ball.offset wall → side * ball.rate wall < 0 →
        ball.lineContact? wall = some (ball.arrival side wall))
    (early : ∀ forecast ∈ table.forecasts, forecast.contact ∉ settled →
      delay ≤ forecast.delay) :
    Beside side id place (table.drift delay) settled := by
  apply beside.drift_of_early
  intro ball wall here there approaching
  obtain ⟨clear, leaving⟩ := beside ball wall here there
  have isOpen : Contact.wall id place ∉ settled := fun member =>
    absurd (leaving member) (not_le.2 approaching)
  have forecast := forecast ball wall here there clear approaching
  apply Scalar.toNat_le_of_early (Ball.arrival_nonneg clear approaching)
  intro whole counted
  apply early ⟨whole, .wall id place⟩ (wall_mem_forecasts.2 ⟨ball, wall, here, there, ?_⟩) isOpen
  rw [line]
  exact Option.bind_eq_some_iff.2 ⟨_, forecast, counted⟩

/-- On a table on which what comes closer is forecast, it gets no further than to the line. -/
theorem Beside.drift (sound : table.Sound) (line : table.reach = .line)
    (sign : side = 1 ∨ side = -1) (noticed : table.Noticed)
    (beside : Beside side id place table settled)
    (early : ∀ forecast ∈ table.forecasts, forecast.contact ∉ settled →
      delay ≤ forecast.delay) :
    Beside side id place (table.drift delay) settled :=
  beside.drift_of_forecast line (fun _ _ here there => noticed.lineContact? sound sign
    (List.mem_of_getElem? here) (List.mem_of_getElem? there)) early

/-- Only a ball that comes closer is forecast to touch a line that it is beside. -/
theorem Beside.approaching_of_forecast (sound : table.Sound) (sign : side = 1 ∨ side = -1)
    (beside : Beside side id place table settled)
    (member : ⟨delay, .wall id place⟩ ∈ table.forecasts) :
    ∃ ball wall, table.balls[id]? = some ball ∧ table.walls[place]? = some wall ∧
      side * ball.rate wall < 0 := by
  obtain ⟨ball, wall, here, there, forecast⟩ := wall_mem_forecasts.1 member
  have wallIn := List.mem_of_getElem? there
  obtain ⟨_, touches, _⟩ := Ball.exists_lineContact?_of_untilWall? forecast
  exact ⟨ball, wall, here, there, Ball.approaching_of_lineContact? (sound.walls wall wallIn) sign
    (beside ball wall here there).1 (sound.berth_pos (List.mem_of_getElem? here) wallIn).le touches⟩

/-- A contact turns its ball away from the wall, and what it leaves settled has the velocity with
which it was settled. -/
theorem Beside.collide {contact : Contact} {conductor : Conductor} (sound : before.Sound)
    (beside : Beside side id place before conductor.settled)
    (met : contact.effect? before = some after)
    (approach : contact = .wall id place → ∀ ball wall, before.balls[id]? = some ball →
      before.walls[place]? = some wall → side * ball.rate wall < 0) :
    Beside side id place after (conductor.settle before after contact).settled := by
  intro ball wall found there
  rw [(Contact.resembles_of_effect? met).walls] at there
  obtain ⟨old, here, position, radius, apart⟩ := Contact.balls_of_effect? met found
  obtain ⟨clear, leaving⟩ := beside old wall here there
  refine ⟨by simpa [Ball.berth, Ball.offset, position, radius] using clear, ?_⟩
  intro member
  rcases Conductor.mem_settle.1 member with rfl | ⟨held, kept⟩
  · have bounced : ball = old.bounce wall := by
      simp only [Contact.effect?, bounce?, there, here, Option.some.injEq] at met
      rw [← met] at found
      simpa [List.getElem?_set, (List.getElem?_eq_some_iff.1 here).1] using found.symm
    have incoming := approach rfl old wall here there
    rcases old.rate_bounce wall (sound.walls wall (List.mem_of_getElem? there)) with back | still
    · rw [bounced, back, mul_neg]
      linarith
    · rw [bounced, still, mul_zero]
  · have same : ball.velocity = old.velocity := by
      by_cases part : id ∈ contact.balls
      · apply velocity_of_not_deflected found here
        intro turned
        simpa [Contact.involves, Contact.balls] using kept id part turned
      · rw [apart part]
    simpa [Ball.rate, same] using leaving held

/-- What a conductor reacts with keeps a ball clear of a line, if it is clear when the conductor
comes to react. -/
theorem Beside.react_of_drift {ready waiting next : Conductor} {signal : Signal} {now : Instant}
    (sound : table.Sound) (sign : side = 1 ∨ side = -1)
    (beside : Beside side id place table waiting.settled)
    (drifted : Beside side id place (table.drift delay) waiting.settled)
    (follows : ready.follows table = some (delay, signal, waiting))
    (reacts : waiting.reaction? now signal table = some (after, next)) :
    Beside side id place after next.settled := by
  rcases Conductor.reaction_of_follows follows reacts with
    ⟨contact, found, _, same⟩ | ⟨_, _, _, same⟩
  · have member := (nextContact?_mem found).1
    obtain ⟨met, effect⟩ := Option.isSome_iff_exists.1 (Contact.effect?_isSome
      ((at_of_mem_forecasts member).of_resembles (Resembles.drift delay table).symm))
    simp only [Conductor.collided, effect, Option.getD_some, Prod.mk.injEq] at same
    obtain ⟨rfl, rfl⟩ := same
    refine Beside.collide (sound.of_resembles (.drift delay table))
      (drifted.mono fun _ => Conductor.mem_atInstant) effect ?_
    rintro rfl moved wall found there
    obtain ⟨ball, _, here, there', approaching⟩ := beside.approaching_of_forecast sound sign member
    obtain rfl := Option.some.inj (there'.symm.trans there)
    obtain rfl : ball.drift delay = moved := by simpa [Table.drift, here] using found
    exact approaching
  · simp only [Conductor.painted, Prod.mk.injEq] at same
    obtain ⟨rfl, rfl⟩ := same
    exact drifted.mono fun _ member => by cases member

/-- What a conductor reacts with keeps every ball clear of every line. -/
theorem Beside.react {ready waiting next : Conductor} {signal : Signal} {now : Instant}
    (sound : table.Sound) (line : table.reach = .line) (sign : side = 1 ∨ side = -1)
    (noticed : table.Noticed) (beside : Beside side id place table waiting.settled)
    (follows : ready.follows table = some (delay, signal, waiting))
    (reacts : waiting.reaction? now signal table = some (after, next)) :
    Beside side id place after next.settled := by
  have drifted := beside.drift sound line sign noticed (Conductor.no_sooner_of_follows follows)
  exact beside.react_of_drift sound sign drifted follows reacts

end Table

/-- How far the centre is from the line through a wall. -/
noncomputable def Ball.distance (ball : Ball ℝ) (wall : Segment ℝ) : ℝ :=
  |ball.offset wall| / wall.span.norm

namespace Simulation

section Course

variable {K C A : Type} [Canvas K C] [Agent K A]

/-- A move at which an agent looks for what to wait for: a start, or the delivery of what it has
waited for. -/
def Move.arms (move : Move) (simulation : Simulation K C A) : Prop :=
  match move with
  | .start => True
  | .step =>
    ∃ event rest, simulation.stage.agenda.popDue? simulation.now = some (event, rest) ∧
      event.signal.recurs
  | .advance _ | .press _ => False

/-- Moves lead from `first` to a state, and `holds` is true of the table at every arming on the
way. Arming comes last in a move and leaves the table as it finds it. -/
inductive Course (holds : Table K → Prop) (first : Simulation K C A) :
    Simulation K C A → Prop where
  | begin : Course holds first first
  | move {before : Simulation K C A} (move : Move) (course : Course holds first before)
      (fair : move.arms before → holds (move.take before).stage.table) :
      Course holds first (move.take before)

theorem Course.exists_moves {holds : Table K → Prop}
    {first last : Simulation K C A} (course : Course holds first last) :
    ∃ moves, last = first.follow moves := by
  induction course with
  | begin => exact ⟨[], rfl⟩
  | move move _ _ ih =>
    obtain ⟨moves, rfl⟩ := ih
    exact ⟨moves ++ [move], (follow_concat moves move first).symm⟩

end Course

section Lasting

variable {K C : Type} [Scalar K] [Canvas K C] {origin : Table K} {holds : Table K → Prop}
  {keeps : Table K → List Contact → Prop} {simulation : Simulation K C Conductor}
  {conductor : Conductor}

/-- What lasts about a table and the contacts settled at it: the turret does not matter to it, nor
that contacts are no longer settled, and every reaction keeps it, at a table that resembles
`origin` and of which `holds` is true. -/
structure Lasting (origin : Table K) (holds : Table K → Prop)
    (keeps : Table K → List Contact → Prop) : Prop where
  fair : ∀ table turret, holds table → holds { table with turret := turret }
  turret : ∀ table turret settled, keeps table settled →
    keeps { table with turret := turret } settled
  forget : ∀ table settled, keeps table settled → keeps table []
  react : ∀ {table after : Table K} {ready waiting next : Conductor} {delay : Millis}
    {signal : Signal} {now : Instant}, table.Resembles origin → holds table →
    keeps table waiting.settled → ready.follows table = some (delay, signal, waiting) →
    waiting.reaction? now signal table = some (after, next) → keeps after next.settled

theorem Lasting.take (lasting : Lasting origin holds keeps)
    (poised : simulation.Poised conductor) (alike : simulation.stage.table.Resembles origin)
    (kept : keeps simulation.stage.table conductor.settled)
    (held : conductor.phase ≠ .idle → holds simulation.stage.table) (move : Move)
    (fair : move.arms simulation → holds (move.take simulation).stage.table) :
    ∃ waiting, (move.take simulation).Poised waiting ∧
      (move.take simulation).stage.table.Resembles origin ∧
      keeps (move.take simulation).stage.table waiting.settled ∧
      (waiting.phase ≠ .idle → holds (move.take simulation).stage.table) := by
  obtain ⟨waiting, after, takes⟩ := poised.take move
  refine ⟨waiting, after, takes.resembles.trans alike, ?_⟩
  generalize move.take simulation = later at takes fair
  cases takes with
  | keeps turret table =>
    rw [table]
    exact ⟨lasting.turret _ _ _ kept, fun armed => lasting.fair _ _ (held armed)⟩
  | starts isStart starts =>
    subst isStart
    cases starts with
    | rearms table arms =>
      rw [arms.kept.1, table]
      exact ⟨lasting.forget _ _ kept, fun _ => table ▸ fair trivial⟩
  | reacts isStep popped awaited reacts arms =>
    subst isStep
    obtain ⟨ready, delay, follows, _⟩ := (awaited ▸ poised.waits).exists_follows
    have armed := Conductor.phase_of_follows follows
    rw [arms.kept.1]
    refine ⟨lasting.react alike (held armed) kept follows reacts, fun _ => ?_⟩
    exact fair ⟨_, _, popped, Conductor.recurs_of_follows follows⟩

/-- What lasts is kept along every fair course. -/
theorem Lasting.of_course (lasting : Lasting origin holds keeps)
    {first last : Simulation K C Conductor} (poised : first.Poised conductor)
    (alike : first.stage.table.Resembles origin) (kept : keeps first.stage.table conductor.settled)
    (held : conductor.phase ≠ .idle → holds first.stage.table) (course : Course holds first last) :
    ∃ waiting, last.Poised waiting ∧ last.stage.table.Resembles origin ∧
      keeps last.stage.table waiting.settled ∧
      (waiting.phase ≠ .idle → holds last.stage.table) := by
  induction course with
  | begin => exact ⟨conductor, poised, alike, kept, held⟩
  | move move _ fair ih =>
    obtain ⟨_, poised, alike, kept, held⟩ := ih
    exact lasting.take poised alike kept held move fair

end Lasting

variable {C : Type} [Canvas ℝ C] {scene : Scene ℝ} {simulation : Simulation ℝ C Conductor}
  {conductor : Conductor} {hit : BallId} {place : WallId}

/-- What every move of a fair course keeps about one ball and one wall. -/
structure Guarded (scene : Scene ℝ) (side : ℝ) (hit : BallId) (place : WallId)
    (simulation : Simulation ℝ C Conductor) (conductor : Conductor) : Prop where
  poised : simulation.Poised conductor
  alike : simulation.stage.table.Resembles scene.table
  beside : simulation.stage.table.Beside side hit place conductor.settled
  measured : conductor.phase ≠ .idle → simulation.stage.table.Measured

/-- Along a fair course, a ball that begins beside a wall's line stays there. -/
theorem Guarded.of_course (sound : scene.table.Sound) (line : scene.table.reach = .line)
    (sign : side = 1 ∨ side = -1) {first last : Simulation ℝ C Conductor}
    (guarded : Guarded scene side hit place first conductor)
    (course : Course Table.Measured first last) :
    ∃ waiting, Guarded scene side hit place last waiting := by
  have lasting : Lasting scene.table Table.Measured (Table.Beside side hit place) := by
    refine ⟨fun _ _ => id, fun _ _ _ => id, ?_, ?_⟩
    · exact fun _ _ beside => beside.mono fun _ member => by cases member
    · exact fun alike measured beside follows reacts => Table.Beside.react
        (sound.of_resembles alike) (alike.reach.trans line) sign measured.noticed beside follows
        reacts
  obtain ⟨waiting, poised, alike, beside, measured⟩ :=
    lasting.of_course guarded.poised guarded.alike guarded.beside guarded.measured course
  exact ⟨waiting, poised, alike, beside, measured⟩

/-- No ball sinks into a wall's line or passes through it. If every ball of a checked scene begins
at least its radius away from the line of every wall, then it stays on its side and a radius away
as long as, at every arming, every ball moves along every wall or comes and goes at a speed that is
measured. This is after every single move, and every call is a sequence of moves. -/
theorem no_ball_sinks {canvas : C} {first last : Simulation ℝ C Conductor}
    (made : scene.conduct id canvas = .ok first) (line : scene.table.reach = .line)
    (apart : ∀ ball ∈ scene.table.balls, ∀ wall ∈ scene.table.walls,
      ball.radius ≤ ball.distance wall)
    (course : Course Table.Measured first last) :
    last.stage.table.walls = scene.table.walls ∧
      ∀ (hit : BallId) old, scene.table.balls[hit]? = some old →
        ∃ ball, last.stage.table.balls[hit]? = some ball ∧ ball.radius = old.radius ∧
          ∀ wall ∈ scene.table.walls,
            0 < old.offset wall * ball.offset wall ∧ ball.radius ≤ ball.distance wall := by
  obtain ⟨poised, table, fine⟩ := Poised.of_conduct made
  have sound := (Scene.fault?_eq_none_iff_sound.1 fine).2
  obtain ⟨moves, led⟩ := course.exists_moves
  obtain ⟨_, _, alike⟩ := poised.follow moves
  rw [← led, table] at alike
  refine ⟨alike.walls, ?_⟩
  intro hit old here
  obtain ⟨ball, found, size⟩ : ∃ ball, last.stage.table.balls[hit]? = some ball ∧
      ball.radius = old.radius := by
    have sized := congrArg (·[hit]?) alike.radii
    simpa [here] using sized
  refine ⟨ball, found, size, ?_⟩
  intro wall member
  obtain ⟨place, there⟩ := List.mem_iff_getElem?.1 member
  obtain ⟨side, sign, far⟩ := exists_side (old.offset wall)
  have long : 0 < wall.span.norm := by
    have straight : ¬wall.isDegenerate := by simp [sound.walls wall member]
    rw [wall.isDegenerate_iff, not_lt] at straight
    exact lt_of_lt_of_le Scalar.negligible_pos straight
  have guarded : Guarded scene side hit place first (.new scene.interval) := by
    refine ⟨poised, table ▸ .refl _, ?_, fun waits => absurd rfl waits⟩
    intro begun line' found' there'
    rw [table] at found' there'
    cases here.symm.trans found'
    cases there.symm.trans there'
    refine ⟨?_, fun settled => by cases settled⟩
    rw [far, Ball.berth, ← le_div_iff₀ long]
    exact apart old (List.mem_of_getElem? here) wall member
  obtain ⟨_, guarded⟩ := guarded.of_course sound line sign course
  have clear := (guarded.beside ball wall found (alike.walls ▸ there)).1
  have radius := sound.balls old (List.mem_of_getElem? here)
  have berth : 0 < ball.berth wall := mul_pos (size ▸ radius) long
  have begun : 0 < |old.offset wall| := by
    have far := apart old (List.mem_of_getElem? here) wall member
    rw [Ball.distance, le_div_iff₀ long] at far
    exact lt_of_lt_of_le (mul_pos radius long) far
  constructor
  · have both : 0 < (side * old.offset wall) * (side * ball.offset wall) :=
      mul_pos (far ▸ begun) (lt_of_lt_of_le berth clear)
    rcases sign with rfl | rfl <;> linarith
  · rw [Ball.distance, le_div_iff₀ long]
    calc ball.berth wall ≤ side * ball.offset wall := clear
      _ ≤ |side * ball.offset wall| := le_abs_self _
      _ = |ball.offset wall| := abs_side_mul sign _

section Upright

variable (x : ℝ) (ball : Ball ℝ)

theorem upright_span : (upright x).span = ⟨0, 20⟩ := by
  simp only [upright, Segment.ofCoords, Segment.span, Vec.sub_eq]
  norm_num

theorem upright_length : (upright x).span.norm = 20 := by
  rw [upright_span, Vec.norm_eq, show (0 : ℝ) * 0 + 20 * 20 = 20 ^ 2 by norm_num]
  exact Real.sqrt_sq (by norm_num)

theorem upright_sound : (upright x).isDegenerate = false := by
  rw [← Bool.not_eq_true, Segment.isDegenerate_iff, upright_length, not_lt]
  change (1e-12 : ℝ) ≤ 20
  norm_num

theorem rate_upright : ball.rate (upright x) = -20 * ball.velocity.x := by
  rw [Ball.rate, upright_span, Vec.wedge_eq]
  ring

theorem offset_upright : ball.offset (upright x) = 20 * (x - ball.position.x) := by
  rw [Ball.offset, upright_span]
  simp only [upright, Segment.ofCoords, Vec.sub_eq, Vec.wedge_eq, zero_mul]
  ring

theorem upright_long : Scalar.negligible ≤ (upright x).span.normSq := by
  rw [upright_span, Vec.normSq_eq]
  norm_num [Scalar.negligible_eq]

end Upright

section Lane

/-- Nothing is wrong with the lane. -/
theorem lane_fine : (lane : Scene ℝ).fault? = none := by
  refine Scene.fault?_eq_none_iff_sound.2 ⟨by decide, ?_, ?_⟩
  · intro wall member
    obtain rfl := List.mem_singleton.1 member
    exact upright_sound _
  · intro ball member
    obtain rfl := List.mem_singleton.1 member
    norm_num

theorem rate_nearing : Ball.nearing.rate (upright 9.0) = -200 := by
  rw [rate_upright, Ball.nearing]
  norm_num

/-- The ball of the lane reaches the wall after eight hundred milliseconds. -/
theorem untilWall?_nearing : Ball.nearing.untilWall? .line (upright 9.0) = some 800 := by
  have whole : ((800 : Millis).toNat : ℝ) = 800 := by
    exact_mod_cast (rfl : (800 : Millis).toNat = 800)
  have offset : Ball.nearing.offset (upright 9.0) = 180 := by
    rw [offset_upright, Ball.nearing, Vec.zero_eq]
    norm_num
  have berth : Ball.nearing.berth (upright 9.0) = 20 := by
    rw [Ball.berth, upright_length, Ball.nearing]
    norm_num
  apply Ball.untilWall?_of_lineContact?
  rw [Ball.lineContact?_of_approaching (upright_sound _) (.inl rfl), Ball.arrival_eq, whole]
  all_goals
    simp only [offset, berth, rate_nearing, Scalar.negligible_eq, Prediction.instantaneous_eq]
    norm_num

theorem forecasts_lane : (lane : Scene ℝ).table.forecasts = [⟨800, .wall 0 0⟩] := by
  have soon := untilWall?_nearing
  rw [Ball.nearing] at soon
  simp [Table.forecasts, Table.forecastsOf, Table.wallForecasts, Table.pairForecasts, lane,
    Table.countsFor, soon]

/-- After eight hundred milliseconds, the contact of the lane is due. -/
theorem exists_lane_run :
    ∃ (first : Simulation ℝ (Blank ℝ) Conductor) (event : Event) (rest : Agenda),
      lane.conduct id ⟨⟩ = .ok first ∧
      (first.follow [.start, .advance 800]).stage.table = (lane : Scene ℝ).table ∧
      (first.follow [.start, .advance 800]).stage.agenda.popDue?
        (first.follow [.start, .advance 800]).now = some (event, rest) ∧
      event.signal = .wall 0 0 800 := by
  have next : (lane : Scene ℝ).table.nextContact? [] = some ⟨800, .wall 0 0⟩ := by
    rw [Table.nextContact?, forecasts_lane]
    rfl
  exact Armed.exists_run_to_contact lane_fine (⟨⟩ : Blank ℝ) rfl next (by decide)

/-- At the wall of the lane, a ball of the first one's size and speed is measured. -/
theorem measured_of_lane {table : Table ℝ} (walls : table.walls = (lane : Scene ℝ).table.walls)
    (swift : ∀ ball ∈ table.balls, ball.radius = 1 ∧ |ball.rate (upright 9.0)| = 200) :
    table.Measured := by
  intro ball member wall member'
  rw [walls] at member'
  obtain rfl := List.mem_singleton.1 member'
  obtain ⟨radius, rate⟩ := swift ball member
  rw [radius, rate, upright_length]
  right
  norm_num [Scalar.negligible_eq, Prediction.instantaneous_eq]

theorem lane_measured : (lane : Scene ℝ).table.Measured := by
  apply measured_of_lane rfl
  intro ball member
  obtain rfl := List.mem_singleton.1 member
  change Ball.nearing.radius = 1 ∧ |Ball.nearing.rate (upright 9.0)| = 200
  rw [rate_nearing]
  norm_num [Ball.nearing]

end Lane

/-- The ball of the lane hits the wall after eight hundred milliseconds, and keeps clear of it. -/
theorem no_ball_sinks_lane :
    ∃ (first : Simulation ℝ (Blank ℝ) Conductor) (event : Event) (rest : Agenda),
      lane.conduct id ⟨⟩ = .ok first ∧
      (first.follow [.start, .advance 800]).stage.agenda.popDue?
        (first.follow [.start, .advance 800]).now = some (event, rest) ∧
      event.signal = .wall 0 0 800 ∧
      Course Table.Measured first (first.follow [.start, .advance 800, .step]) ∧
      (first.follow [.start, .advance 800, .step]).stage.table.walls =
        (lane : Scene ℝ).table.walls ∧
      ∀ (hit : BallId) old, (lane : Scene ℝ).table.balls[hit]? = some old →
        ∃ ball, (first.follow [.start, .advance 800, .step]).stage.table.balls[hit]? = some ball ∧
          ball.radius = old.radius ∧
          ∀ wall ∈ (lane : Scene ℝ).table.walls,
            0 < old.offset wall * ball.offset wall ∧ ball.radius ≤ ball.distance wall := by
  obtain ⟨first, event, rest, made, same, popped, tells⟩ := exists_lane_run
  obtain ⟨poised, table, _⟩ := Poised.of_conduct made
  have bounced : (first.follow [.start, .advance 800, .step]).stage.table.Measured := by
    obtain ⟨_, ready, _⟩ := poised.follow [.start, .advance 800]
    obtain ⟨_, _, alike⟩ := poised.follow [.start, .advance 800, .step]
    have alone : _ = [Ball.nearing] := congrArg Table.balls same
    obtain ⟨wall, there, only⟩ := ready.bounces_alone alone popped tells
    rw [same] at there
    obtain rfl : upright 9.0 = wall := Option.some.inj there
    rw [table] at alike
    apply measured_of_lane alike.walls
    intro ball member
    obtain rfl := List.mem_singleton.1 (only ▸ member)
    rw [Ball.radius_bounce, Ball.rate_bounce_of_long _ (upright_sound _) (upright_long _),
      Ball.rate_drift, rate_nearing]
    norm_num [Ball.drift, Ball.nearing]
  have course : Course Table.Measured first (first.follow [.start, .advance 800, .step]) := by
    apply Course.move .step (.move (.advance 800) (.move .start .begin ?_) ?_)
    · exact fun _ => bounced
    · exact fun _ => (poised.table_start.trans table).symm ▸ lane_measured
    · intro arms
      cases arms
  refine ⟨first, event, rest, made, popped, tells, course, no_ball_sinks made rfl ?_ course⟩
  intro ball member wall member'
  obtain rfl := List.mem_singleton.1 member
  obtain rfl := List.mem_singleton.1 member'
  rw [Ball.distance, offset_upright, upright_length, Vec.zero_eq]
  norm_num

end Simulation

end Billiard
