import Billiard.Proofs.Reflection
import Billiard.Proofs.Spells

/-!
A ball is forecast to touch a wall's line when it first does. In free motion its distance from the
line falls and rises again at one rate, and is less than the radius for a spell of time
(`Ball.covers_of_lineSpell?`). A ball that is clear of the line touches it first when the spell
begins, if that lies ahead, and otherwise never; a ball that overlaps it touches it again when the
spell ends (`Ball.untilLine?_first_touch`).
-/

namespace Billiard

open Prediction Scalar

namespace Ball

variable {ball : Ball ℝ} {wall : Segment ℝ} {spell : Spell} {t : ℝ} {delay : Millis}

/-- The distance from a line is that from the nearest of its points. -/
theorem distance_isLeast (sound : wall.isDegenerate = false) (ball : Ball ℝ) :
    IsLeast (Set.range fun share : ℝ => (wall.start + wall.span * share).dist ball.position)
      (ball.distance wall) := by
  have long := Segment.span_norm_pos sound
  have parts (share : ℝ) :
      (wall.span.norm * (wall.start + wall.span * share).dist ball.position) ^ 2 =
        ((ball.position - wall.start).dot wall.span - share * wall.span.normSq) ^ 2 +
          ball.offset wall ^ 2 := by
    have whole := Vec.normSq_mul_normSq wall.span
      (ball.position - (wall.start + wall.span * share))
    rw [Vec.normSq, Vec.normSq, ← Vec.norm_mul_norm, ← Vec.norm_mul_norm] at whole
    rw [Vec.dist, mul_pow, sq, sq, whole, offset]
    simp only [Vec.dot_eq, Vec.wedge_eq, Vec.normSq_eq, Vec.quarterTurn_eq, Vec.sub_eq, Vec.add_eq,
      Vec.smul_eq]
    ring
  have size (share : ℝ) :
      0 ≤ wall.span.norm * (wall.start + wall.span * share).dist ball.position :=
    mul_nonneg long.le (Vec.norm_nonneg _)
  constructor
  · have square : wall.span.normSq ≠ 0 := by
      rw [Vec.normSq, ← Vec.norm_mul_norm]
      exact (mul_pos long long).ne'
    refine ⟨(ball.position - wall.start).dot wall.span / wall.span.normSq, ?_⟩
    have nearest := parts ((ball.position - wall.start).dot wall.span / wall.span.normSq)
    rw [div_mul_cancel₀ _ square, sub_self, zero_pow two_ne_zero, zero_add,
      sq_eq_sq_iff_abs_eq_abs, abs_of_nonneg (size _), mul_comm, ← eq_div_iff long.ne'] at nearest
    exact nearest
  · rintro _ ⟨share, rfl⟩
    rw [distance, div_le_iff₀ long, mul_comm]
    apply abs_le_of_sq_le_sq _ (size share)
    exact (le_add_of_nonneg_left (sq_nonneg _)).trans_eq (parts share).symm

/-- The times ahead, in milliseconds, at which a ball touches a wall's line. -/
def lineTimes (ball : Ball ℝ) (wall : Segment ℝ) : Set ℝ :=
  {t | 0 < t ∧ (ball.moved t).distance wall = ball.radius}

/-- How much the distance from a line changes in a millisecond. -/
noncomputable def closing (ball : Ball ℝ) (wall : Segment ℝ) : ℝ :=
  |ball.rate wall| / (1000.0 * wall.span.norm)

/-- Where the middle of a spell at a line is, and how long half of the spell lasts. -/
theorem middle_of_lineSpell? (found : ball.lineSpell? wall = some spell) :
    ball.rate wall ≠ 0 ∧
      (spell.begins + spell.ends) / 2 = -(1000 * (ball.offset wall / ball.rate wall)) ∧
      (spell.ends - spell.begins) / 2 = 1000 * ball.berth wall / |ball.rate wall| := by
  rw [lineSpell?_eq] at found
  obtain ⟨moves, same⟩ := Option.ite_none_left_eq_some.1 found
  obtain rfl := Option.some.inj same
  exact ⟨moves, by ring, by ring⟩

/-- The distance changes evenly with the time from the middle of the spell, and is a radius after
half of it. -/
theorem distance_moved (sound : wall.isDegenerate = false)
    (found : ball.lineSpell? wall = some spell) :
    0 < ball.closing wall ∧
      ball.radius = ball.closing wall * ((spell.ends - spell.begins) / 2) ∧
      ∀ t, (ball.moved t).distance wall =
        ball.closing wall * |t - (spell.begins + spell.ends) / 2| := by
  have long := Segment.span_norm_pos sound
  obtain ⟨moves, middle, half⟩ := middle_of_lineSpell? found
  have fast := abs_pos.2 moves
  have thousand : (1000.0 : ℝ) = 1000 := by norm_num
  refine ⟨div_pos fast (mul_pos (by norm_num) long), ?_, fun t => ?_⟩
  · rw [half, closing, thousand, berth]
    field_simp
  · have affine : (ball.moved t).offset wall =
        ball.rate wall / 1000 * (t - -(1000 * (ball.offset wall / ball.rate wall))) := by
      rw [offset_moved]
      field_simp
      ring
    have positive : |(1000 : ℝ)| = 1000 := abs_of_pos (by norm_num)
    rw [middle, distance, affine, closing, thousand, abs_mul, abs_div, positive]
    ring

/-- The spell at a line is the time for which the ball overlaps the line. -/
theorem covers_of_lineSpell? (sound : wall.isDegenerate = false) (size : 0 < ball.radius)
    (found : ball.lineSpell? wall = some spell) :
    spell.Covers (fun t => (ball.moved t).distance wall) ball.radius := by
  obtain ⟨closes, half, far⟩ := distance_moved sound found
  have ordered : spell.begins ≤ spell.ends :=
    begins_le_of_lineSpell? (mul_pos size (Segment.span_norm_pos sound)) found
  refine ⟨ordered, fun t => ?_, fun t => ?_⟩
  · rw [far, half, mul_right_inj' closes.ne', abs_eq (by linarith), or_comm]
    refine or_congr ?_ ?_ <;> constructor <;> intro same <;> linarith
  · rw [far, half, mul_le_mul_iff_right₀ closes, le_abs, or_comm]
    refine or_congr ?_ ?_ <;> constructor <;> intro less <;> linarith

/-- The middle of the spell lies ahead for a ball that comes closer, and in the past for one that
moves away. -/
theorem closer_iff_middle (found : ball.lineSpell? wall = some spell) :
    (ball.offset wall * ball.rate wall < 0 ↔ 0 < (spell.begins + spell.ends) / 2) ∧
      (0 < ball.offset wall * ball.rate wall ↔ (spell.begins + spell.ends) / 2 < 0) := by
  obtain ⟨_, middle, _⟩ := middle_of_lineSpell? found
  rw [middle, mul_neg_iff, ← div_neg_iff, mul_pos_iff, ← div_pos_iff]
  constructor <;> constructor <;> intro sign <;> linarith

/-- The forecast for a line is that the spell at it is noticed. -/
theorem untilLine?_eq_spell (sound : wall.isDegenerate = false)
    (fast : negligible ≤ |ball.rate wall|) :
    ∃ spell, ball.lineSpell? wall = some spell ∧
      ball.untilLine? wall = spell.notice?.bind wholeMillis? := by
  have moves : ball.rate wall ≠ 0 := abs_pos.1 (lt_of_lt_of_le negligible_pos fast)
  refine ⟨_, if_neg moves, ?_⟩
  rw [untilLine?, lineContact?_eq_spell sound (.inr fast), lineSpell?, if_neg moves]
  rfl

/-- A ball that touches a line and comes closer is forecast to touch it now, if it touches it again
later than counts as now; if it moves away there is no forecast. -/
theorem untilLine?_of_touching (sound : wall.isDegenerate = false) (size : 0 < ball.radius)
    (fast : negligible ≤ |ball.rate wall|) (touching : ball.distance wall = ball.radius) :
    (ball.offset wall * ball.rate wall < 0 →
        (∃ t, instantaneous < t ∧ (ball.moved t).distance wall = ball.radius) →
          ball.untilLine? wall = some 0) ∧
      (0 < ball.offset wall * ball.rate wall → ball.untilLine? wall = none) := by
  obtain ⟨spell, found, forecast⟩ := untilLine?_eq_spell sound fast
  have covers := covers_of_lineSpell? sound size found
  have ordered := covers.ordered
  obtain ⟨closer, away⟩ := closer_iff_middle found
  have now : 0 = spell.begins ∨ 0 = spell.ends := by
    rw [← covers.touches, moved_zero]
    exact touching
  rw [forecast]
  constructor
  · intro approaching again
    have ahead := closer.1 approaching
    have begins : 0 = spell.begins := now.resolve_right fun ends => by linarith
    exact covers.forecast_now begins.symm again
  · intro leaving
    have behind := away.1 leaving
    have ended : 0 = spell.ends := now.resolve_left fun begins => by linarith
    rw [Spell.notice?_of_over ordered ended.ge]
    rfl

/-- A ball that has overlapped a line for longer than counts as now is forecast to touch it when it
leaves it, if that does not count as now. -/
theorem untilLine?_of_overlapping (sound : wall.isDegenerate = false) (size : 0 < ball.radius)
    (fast : negligible ≤ |ball.rate wall|)
    (overlaps : ∀ u, -instantaneous < u → u ≤ 0 → (ball.moved u).distance wall < ball.radius)
    (later : instantaneous < t) (leaves : (ball.moved t).distance wall = ball.radius) :
    ball.untilLine? wall = some delay ↔ ⌊t⌋₊ < 2 ^ 64 ∧ delay.toNat = ⌊t⌋₊ := by
  obtain ⟨spell, found, forecast⟩ := untilLine?_eq_spell sound fast
  obtain ⟨_, touches, clear⟩ := covers_of_lineSpell? sound size found
  have short : (0 : ℝ) < instantaneous := instantaneous_pos
  have inside : ¬(0 ≤ spell.begins ∨ spell.ends ≤ 0) := by
    rw [← clear, not_le]
    exact overlaps 0 (neg_lt_zero.2 short) (le_refl 0)
  obtain ⟨past, _⟩ := not_or.1 inside
  have begun : spell.begins ≤ -instantaneous := by
    by_contra recent
    have overlap := overlaps _ (not_le.1 recent) (not_le.1 past).le
    exact absurd ((touches _).2 (.inl rfl)) overlap.ne
  have ends : t = spell.ends := ((touches t).1 leaves).resolve_left fun same => by linarith
  rw [forecast, Spell.notice?_of_begun begun (ends ▸ later), Option.bind_some, ← ends]
  exact wholeMillis?_eq_some_iff (short.trans later).le

/-- A ball is forecast to touch a wall's line when it first does. Of a ball whose speed across the
line is measured: if it is clear of the line, the forecast is the floor of the least time ahead at
which it touches the line, provided that there is such a time and that its whole milliseconds are
counted, and until then it does not overlap the line; if there is no such time, there is no
forecast. If it touches the line and comes closer, it is forecast to touch it now, provided that it
touches it again later than counts as now, and if it moves away there is no forecast. If it has
overlapped the line for longer than counts as now, the forecast is the floor of the time at which it
touches the line again, provided that this is later than counts as now and counted. -/
theorem untilLine?_first_touch (sound : wall.isDegenerate = false) (size : 0 < ball.radius)
    (fast : negligible ≤ |ball.rate wall|) :
    (ball.radius < ball.distance wall →
      ((ball.lineTimes wall).Nonempty → ∃ t, IsLeast (ball.lineTimes wall) t) ∧
      (∀ delay, ball.untilLine? wall = some delay ↔
        ∃ t, IsLeast (ball.lineTimes wall) t ∧ ⌊t⌋₊ < 2 ^ 64 ∧ delay.toNat = ⌊t⌋₊) ∧
      ∀ delay, ball.untilLine? wall = some delay → ∀ t : ℝ, 0 ≤ t → t ≤ delay.toNat →
        ball.radius ≤ (ball.moved t).distance wall) ∧
    (ball.distance wall = ball.radius →
      (ball.offset wall * ball.rate wall < 0 →
        (∃ t, instantaneous < t ∧ (ball.moved t).distance wall = ball.radius) →
          ball.untilLine? wall = some 0) ∧
      (0 < ball.offset wall * ball.rate wall → ball.untilLine? wall = none)) ∧
    ((∀ u, -instantaneous < u → u ≤ 0 → (ball.moved u).distance wall < ball.radius) →
      ∀ t, instantaneous < t → (ball.moved t).distance wall = ball.radius →
        ∀ delay, ball.untilLine? wall = some delay ↔ ⌊t⌋₊ < 2 ^ 64 ∧ delay.toNat = ⌊t⌋₊) := by
  refine ⟨fun apart => ?_, untilLine?_of_touching sound size fast, ?_⟩
  · obtain ⟨spell, found, forecast⟩ := untilLine?_eq_spell sound fast
    have covers := covers_of_lineSpell? sound size found
    have far : ball.radius < (ball.moved 0).distance wall := ball.moved_zero.symm ▸ apart
    rw [forecast]
    exact ⟨covers.exists_least far, fun delay => covers.forecast_iff far,
      fun delay soon t _ early => covers.clear_until far soon early⟩
  · intro overlaps t later leaves delay
    exact untilLine?_of_overlapping sound size fast overlaps later leaves

section Nearing

open Simulation

theorem offset_nearing (t : ℝ) : (nearing.moved t).offset (upright 9.0) = 20 * (9 - t / 100) := by
  rw [offset_moved, rate_nearing, offset_upright, nearing, Vec.zero_eq]
  norm_num
  ring

theorem distance_nearing (t : ℝ) :
    (nearing.moved t).distance (upright 9.0) = |9 - t / 100| := by
  rw [distance, offset_nearing, upright_length, abs_mul, abs_of_pos (by norm_num : (0 : ℝ) < 20)]
  exact mul_div_cancel_left₀ _ (by norm_num)

/-- The ball touches the wall first at the eight hundredth millisecond and leaves it at the
thousandth. -/
theorem untilLine?_first_touch_nearing :
    (upright (9.0 : ℝ)).isDegenerate = false ∧ 0 < nearing.radius ∧
      negligible ≤ |nearing.rate (upright 9.0)| ∧
      nearing.untilLine? (upright 9.0) = some 800 ∧
      (∀ t : ℝ, 0 ≤ t → t ≤ (800 : Millis).toNat →
        nearing.radius ≤ (nearing.moved t).distance (upright 9.0)) ∧
      (nearing.moved 800).untilLine? (upright 9.0) = some 0 ∧
      (nearing.moved 850).untilLine? (upright 9.0) = some 150 := by
  have sound : (upright (9.0 : ℝ)).isDegenerate = false := upright_sound _
  have one : nearing.radius = 1 := by norm_num [nearing]
  have size : 0 < nearing.radius := one ▸ one_pos
  have fast : negligible ≤ |nearing.rate (upright 9.0)| := by
    rw [rate_nearing]
    norm_num [negligible_eq]
  have touches (t : ℝ) : (nearing.moved t).distance (upright 9.0) = nearing.radius ↔
      t = 800 ∨ t = 1000 := by
    rw [distance_nearing, one, abs_eq one_pos.le]
    refine or_congr ?_ ?_ <;> constructor <;> intro same <;> linarith
  have apart : nearing.radius < nearing.distance (upright 9.0) := by
    have begun := distance_nearing 0
    rw [moved_zero] at begun
    rw [begun, one]
    norm_num
  obtain ⟨_, forecast, clear⟩ := (untilLine?_first_touch sound size fast).1 apart
  have soon : nearing.untilLine? (upright 9.0) = some 800 := by
    refine (forecast 800).2 ⟨800, ⟨⟨by norm_num, (touches 800).2 (.inl rfl)⟩, ?_⟩, ?_⟩
    · rintro t ⟨_, touching⟩
      rcases (touches t).1 touching with rfl | rfl <;> norm_num
    · norm_num
      rfl
  refine ⟨sound, size, fast, soon, clear 800 soon, ?_, ?_⟩
  · have still : 0 < (nearing.moved 800).radius := size
    have arrived := (untilLine?_first_touch sound still fast).2.1 ((touches 800).2 (.inl rfl))
    refine arrived.1 ?_ ⟨200, ?_, ?_⟩
    · rw [offset_nearing]
      change _ * nearing.rate _ < 0
      rw [rate_nearing]
      norm_num
    · norm_num [instantaneous_eq]
    · rw [moved_moved]
      exact (touches _).2 (.inr (by norm_num))
  · have still : 0 < (nearing.moved 850).radius := size
    refine ((untilLine?_first_touch sound still fast).2.2 ?_ 150 ?_ ?_ 150).2 ?_
    · intro u recent past
      rw [instantaneous_eq] at recent
      rw [moved_moved, distance_nearing]
      change _ < nearing.radius
      rw [one, abs_lt]
      constructor <;> linarith
    · norm_num [instantaneous_eq]
    · rw [moved_moved]
      exact (touches _).2 (.inr (by norm_num))
    · norm_num
      rfl

end Nearing

end Ball

end Billiard
