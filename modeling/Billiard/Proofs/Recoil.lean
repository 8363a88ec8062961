import Billiard.Proofs.Conducting
import Billiard.Proofs.Foremost

/-!
Which exchanges send balls apart. An exchange makes balls part as fast as they came, if the gap
between them is long enough to have a direction and their masses are not negligible together;
otherwise it leaves them as they came. So balls that come closer still do so after an exchange
exactly if one of the two fails (`Ball.parts_of_exchange_iff`), and that is so of every contact of
two balls that a conductor deals with (`Simulation.recoils_iff`).
-/

namespace Billiard

open Scalar (negligible)

namespace Ball

theorem exchange_of_kick_eq_zero {first second : Ball ℝ} (still : first.kick second = 0) :
    first.exchange second = (first, second) := by
  rw [exchange_eq, still, mul_zero, mul_zero, Vec.sub_smul_zero, Vec.add_smul_zero]

/-- After an exchange balls do not come closer exactly if they did not before, or if the exchange
is one: the gap has a direction and the masses are not negligible together. -/
theorem parts_of_exchange_iff (first second : Ball ℝ) :
    0 ≤ (first.exchange second).1.parting (first.exchange second).2 ↔
      0 ≤ first.parting second ∨
        negligible ≤ (first.gap second).norm ∧ negligible ≤ first.mass + second.mass := by
  by_cases exchanges :
      negligible ≤ (first.gap second).norm ∧ negligible ≤ first.mass + second.mass
  · rw [parting_exchange exchanges.1 exchanges.2]
    exact iff_of_true (abs_nonneg _) (.inr exchanges)
  · have still : first.kick second = 0 := by
      rw [not_and_or, not_le, not_le] at exchanges
      exact if_pos (exchanges.imp id .inr)
    rw [exchange_of_kick_eq_zero still, or_iff_left exchanges]

end Ball

namespace Simulation

variable {C : Type} [Canvas ℝ C]

/-- Where balls exchange momentum, a delivered contact of two balls is an exchange after the drift
up to it. -/
theorem Poised.exchanges {simulation : Simulation ℝ C Conductor} {conductor : Conductor}
    {event : Event} {rest : Agenda} {a b : BallId} {elapsed : Millis}
    (poised : Poised simulation conductor) (elastic : simulation.stage.table.response = .elastic)
    (popped : simulation.stage.agenda.popDue? simulation.now = some (event, rest))
    (tells : event.signal = .pair a b elapsed) :
    ∃ one other one' other', simulation.stage.table.balls[a]? = some one ∧
      simulation.stage.table.balls[b]? = some other ∧
      simulation.step.2.stage.table.balls[a]? = some one' ∧
      simulation.step.2.stage.table.balls[b]? = some other' ∧
      (one', other') = (one.drift elapsed).exchange (other.drift elapsed) := by
  obtain ⟨one, other, less, here, there, _, met⟩ := poised.meets popped tells
  have drifted {id : BallId} {ball : Ball ℝ}
      (found : simulation.stage.table.balls[id]? = some ball) :
      (simulation.stage.table.drift elapsed).balls[id]? = some (ball.drift elapsed) := by
    simp [Table.drift, found]
  have elastic : (simulation.stage.table.drift elapsed).response = .elastic := elastic
  obtain ⟨here', there'⟩ :=
    Table.balls_of_exchange less elastic (drifted here) (drifted there) met
  exact ⟨one, other, _, _, here, there, here', there', rfl⟩

/-- Which contacts of two balls make them part, where balls exchange momentum. Two balls never come
closer after an exchange exactly if they did not before it, or the gap between them has a direction
and their masses are not negligible together; and so it is right after every delivered contact of
two balls, which is an exchange after the drift up to it. -/
theorem recoils_iff :
    (∀ first second : Ball ℝ,
      0 ≤ (first.exchange second).1.parting (first.exchange second).2 ↔
        0 ≤ first.parting second ∨
          negligible ≤ (first.gap second).norm ∧ negligible ≤ first.mass + second.mass) ∧
    ∀ (scene : Scene ℝ) (canvas : C) (first : Simulation ℝ C Conductor) (moves : List Move)
      (event : Event) (rest : Agenda) (a b : BallId) (elapsed : Millis),
      scene.conduct id canvas = .ok first → scene.table.response = .elastic →
      (first.follow moves).stage.agenda.popDue? (first.follow moves).now = some (event, rest) →
      event.signal = .pair a b elapsed →
      ∃ one other one' other',
        (first.follow moves).stage.table.balls[a]? = some one ∧
        (first.follow moves).stage.table.balls[b]? = some other ∧
        (first.follow moves).step.2.stage.table.balls[a]? = some one' ∧
        (first.follow moves).step.2.stage.table.balls[b]? = some other' ∧
        (one', other') = (one.drift elapsed).exchange (other.drift elapsed) ∧
        (0 ≤ one'.parting other' ↔
          0 ≤ (one.drift elapsed).parting (other.drift elapsed) ∨
            negligible ≤ ((one.drift elapsed).gap (other.drift elapsed)).norm ∧
              negligible ≤ one.mass + other.mass) := by
  refine ⟨Ball.parts_of_exchange_iff, ?_⟩
  intro scene canvas first moves event rest a b elapsed made elastic popped tells
  obtain ⟨poised, table, _⟩ := Poised.of_conduct made
  obtain ⟨conductor, poised, alike⟩ := poised.follow moves
  rw [table] at alike
  obtain ⟨one, other, one', other', here, there, here', there', same⟩ :=
    poised.exchanges (alike.response.trans elastic) popped tells
  refine ⟨one, other, one', other', here, there, here', there', same, ?_⟩
  obtain ⟨rfl, rfl⟩ := Prod.mk.inj same
  exact Ball.parts_of_exchange_iff _ _

/-- A ball as small as a mote. -/
noncomputable def mote (x v : ℝ) : Ball ℝ := ⟨⟨x, 0⟩, ⟨v, 0⟩, 1 / 2097152⟩

/-- Two motes that head for each other. -/
noncomputable def motes : Scene ℝ where
  table :=
    { walls := []
      balls := [mote 0 10, mote 10 (-10)]
      turret := Scene.standardTurret
      reach := .line
      response := .elastic }
  interval := some 1000

section Motes

theorem parting_mote (x y v w : ℝ) : (mote x v).parting (mote y w) = (y - x) * (w - v) := by
  simp [Ball.parting, Ball.gap, Ball.drive, mote, Vec.dot_eq]

theorem drift_mote (x v : ℝ) (elapsed : Millis) :
    (mote x v).drift elapsed = mote (x + v * (elapsed.toNat / 1000)) v := by
  rw [Ball.drift_eq_moved, Ball.moved_eq]
  simp [mote, Vec.add_eq, Vec.smul_eq]

theorem light_mote (x y v w : ℝ) : (mote x v).mass + (mote y w).mass < negligible := by
  norm_num [Ball.mass, mote, Scalar.negligible_eq]

theorem pace_mote (x y v w : ℝ) : (mote x v).pace (mote y w) = (w - v) * (w - v) := by
  simp [Ball.pace, Ball.drive, mote, Vec.dot_eq]

theorem clearance_motes : (mote 0 10).clearance (mote 10 (-10)) = 100 - (1 / 1048576) ^ 2 := by
  simp only [Ball.clearance, Ball.gap, mote, Vec.dot_eq, Vec.sub_eq]
  norm_num

theorem discriminant_motes :
    (mote 0 10).discriminant (mote 10 (-10)) = (20 / 1048576) ^ 2 := by
  rw [Ball.discriminant, parting_mote, pace_mote, clearance_motes]
  norm_num

theorem touches_motes :
    (mote 0 10).touches (mote 10 (-10)) = (500 - 50 / 1048576, 500 + 50 / 1048576) := by
  rw [Ball.touches, parting_mote, pace_mote, discriminant_motes, Real.sqrt_sq (by norm_num)]
  norm_num

/-- The motes touch just before half a second has passed. -/
theorem untilBall?_motes : (mote 0 10).untilBall? (mote 10 (-10)) = some 499 := by
  obtain ⟨ahead, forecast⟩ : 0 ≤ ((mote 0 10).touches (mote 10 (-10))).1 ∧
      (mote 0 10).untilBall? (mote 10 (-10)) =
        Scalar.wholeMillis? ((mote 0 10).touches (mote 10 (-10))).1 := by
    apply Ball.untilBall?_of_approaching
    · rw [clearance_motes]
      norm_num
    · rw [pace_mote]
      norm_num [Scalar.negligible_eq]
    · rw [parting_mote]
      norm_num
    · rw [discriminant_motes]
      positivity
    · rw [touches_motes]
      norm_num [Prediction.instantaneous]
  rw [forecast, Scalar.wholeMillis?_eq_some_iff ahead, touches_motes]
  have floored : ⌊(500 - 50 / 1048576 : ℝ)⌋₊ = 499 := by
    rw [Nat.floor_eq_iff (by norm_num)]
    norm_num
  rw [floored]
  exact ⟨by norm_num, rfl⟩

/-- After four hundred and ninety-nine milliseconds, the contact of the motes is due. -/
theorem exists_motes_run :
    ∃ (first : Simulation ℝ (Blank ℝ) Conductor) (event : Event) (rest : Agenda),
      motes.conduct id ⟨⟩ = .ok first ∧
      (first.follow [.start, .advance 499]).stage.table = motes.table ∧
      (first.follow [.start, .advance 499]).stage.agenda.popDue?
        (first.follow [.start, .advance 499]).now = some (event, rest) ∧
      event.signal = .pair 0 1 499 := by
  have fine : motes.fault? = none := by
    refine Scene.fault?_eq_none_iff_sound.2 ⟨by decide, ?_, ?_⟩
    · intro wall member
      cases member
    · intro ball member
      rcases List.mem_pair.1 member with rfl | rfl <;> norm_num [mote]
  have next : motes.table.nextContact? [] = some ⟨499, .pair 0 1⟩ := by
    rw [Table.nextContact?, Table.forecasts_of_two rfl rfl untilBall?_motes]
    rfl
  exact Armed.exists_run_to_contact fine (⟨⟩ : Blank ℝ) rfl next (by decide)

/-- At the contact of the motes. -/
theorem recoils_iff_motes :
    ∃ (first : Simulation ℝ (Blank ℝ) Conductor) (event : Event) (rest : Agenda),
      motes.conduct id ⟨⟩ = .ok first ∧ motes.table.response = .elastic ∧
      (first.follow [.start, .advance 499]).stage.agenda.popDue?
        (first.follow [.start, .advance 499]).now = some (event, rest) ∧
      event.signal = .pair 0 1 499 ∧
      ∃ one other one' other',
        (first.follow [.start, .advance 499]).stage.table.balls[0]? = some one ∧
        (first.follow [.start, .advance 499]).stage.table.balls[1]? = some other ∧
        (first.follow [.start, .advance 499]).step.2.stage.table.balls[0]? = some one' ∧
        (first.follow [.start, .advance 499]).step.2.stage.table.balls[1]? = some other' ∧
        (one', other') = (one.drift 499).exchange (other.drift 499) ∧
        (0 ≤ one'.parting other' ↔
          0 ≤ (one.drift 499).parting (other.drift 499) ∨
            negligible ≤ ((one.drift 499).gap (other.drift 499)).norm ∧
              negligible ≤ one.mass + other.mass) := by
  obtain ⟨first, event, rest, made, _, popped, tells⟩ := exists_motes_run
  exact ⟨first, event, rest, made, rfl, popped, tells,
    recoils_iff.2 _ _ _ _ _ _ _ _ _ made rfl popped tells⟩

/-- The motes still come closer after their contact, though they are apart. -/
theorem motes_pass :
    ∃ (first : Simulation ℝ (Blank ℝ) Conductor) (event : Event) (rest : Agenda)
      (one other : Ball ℝ), motes.conduct id ⟨⟩ = .ok first ∧ motes.table.response = .elastic ∧
      (first.follow [.start, .advance 499]).stage.agenda.popDue?
        (first.follow [.start, .advance 499]).now = some (event, rest) ∧
      event.signal = .pair 0 1 499 ∧
      (first.follow [.start, .advance 499]).step.2.stage.table.balls[0]? = some one ∧
      (first.follow [.start, .advance 499]).step.2.stage.table.balls[1]? = some other ∧
      (one, other) = ((mote 0 10).drift 499).exchange ((mote 10 (-10)).drift 499) ∧
      0 < one.radius ∧ 0 < other.radius ∧ negligible ≤ (other.position - one.position).norm ∧
      0 < (one.velocity - other.velocity).dot (other.position - one.position) := by
  obtain ⟨first, event, rest, made, table, popped, tells⟩ := exists_motes_run
  obtain ⟨conductor, poised, _⟩ := (Poised.of_conduct made).1.follow [.start, .advance 499]
  have elastic : (first.follow [.start, .advance 499]).stage.table.response = .elastic :=
    table ▸ rfl
  obtain ⟨one, other, one', other', here, there, here', there', same⟩ :=
    poised.exchanges elastic popped tells
  rw [table] at here there
  obtain rfl : mote 0 10 = one := Option.some.inj here
  obtain rfl : mote 10 (-10) = other := Option.some.inj there
  have untouched : ((mote 0 10).drift 499).exchange ((mote 10 (-10)).drift 499) =
      ((mote 0 10).drift 499, (mote 10 (-10)).drift 499) := by
    apply Ball.exchange_of_kick_eq_zero
    rw [drift_mote, drift_mote]
    exact if_pos (.inr (.inr (light_mote _ _ _ _)))
  obtain ⟨rfl, rfl⟩ := Prod.mk.inj (same.trans untouched)
  have whole : (499 : Millis).toNat = 499 := rfl
  have gap : ((mote 10 (-10)).drift 499).position - ((mote 0 10).drift 499).position =
      ⟨1 / 50, 0⟩ := by
    rw [drift_mote, drift_mote, whole]
    simp only [mote, Vec.sub_eq]
    norm_num
  refine ⟨first, event, rest, _, _, made, rfl, popped, tells, here', there', same, ?_, ?_, ?_, ?_⟩
  · norm_num [Ball.drift, mote]
  · norm_num [Ball.drift, mote]
  · rw [gap, Vec.norm_eq, mul_zero, add_zero, Real.sqrt_mul_self (by norm_num)]
    norm_num [Scalar.negligible_eq]
  · rw [gap]
    norm_num [Ball.drift, mote, Vec.sub_eq, Vec.dot_eq]

end Motes

end Simulation

end Billiard
