import Mathlib.Analysis.SpecialFunctions.Trigonometric.Inverse
import Billiard.Proofs.Waiting

/-!
The rules of motion read as exact arithmetic: the numbers are the reals, and every operation is
the one that its machine counterpart approximates. Each definition of the plane gets its formula
here, so that later proofs work with coordinates only.
-/

namespace Billiard

noncomputable instance : Scalar ℝ where
  decLt := inferInstance
  decLe := inferInstance
  sqrt := Real.sqrt
  abs x := |x|
  sin := Real.sin
  cos := Real.cos
  acos := Real.arccos
  pi := Real.pi
  isFinite _ := true
  ofMillis duration := duration.toNat
  wholeMillis? x := if 0 ≤ x ∧ x < 2 ^ 64 then some (.ofNat ⌊x⌋₊) else none

namespace Scalar

theorem negligible_eq : (negligible : ℝ) = 1e-12 := rfl

theorem negligible_pos : 0 < (negligible : ℝ) := by norm_num [negligible_eq]

/-- A length of time is floored to whole milliseconds. -/
theorem toNat_of_wholeMillis? {x : ℝ} {whole : Millis} (found : wholeMillis? x = some whole) :
    0 ≤ x ∧ whole.toNat = ⌊x⌋₊ := by
  obtain ⟨⟨notNegative, small⟩, same⟩ := Option.ite_none_right_eq_some.1 found
  refine ⟨notNegative, ?_⟩
  cases same
  have below : ⌊x⌋₊ < 2 ^ 64 := (Nat.floor_lt notNegative).2 (by exact_mod_cast small)
  simpa using Nat.mod_eq_of_lt below

/-- Lengths of time that are not counted in milliseconds lie in the past or very far ahead. -/
theorem large_of_wholeMillis?_eq_none {x : ℝ} (notNegative : 0 ≤ x)
    (nothing : wholeMillis? x = none) : 2 ^ 64 ≤ x := by
  by_contra small
  have counted : wholeMillis? x = some (.ofNat ⌊x⌋₊) := if_pos ⟨notNegative, not_le.1 small⟩
  simp [counted] at nothing

/-- What is due no later than the whole milliseconds of a time is due no later than the time. -/
theorem toNat_le_of_early {x : ℝ} {delay : Millis} (notNegative : 0 ≤ x)
    (early : ∀ whole, wholeMillis? x = some whole → delay ≤ whole) : (delay.toNat : ℝ) ≤ x := by
  cases counted : wholeMillis? x with
  | none =>
    have far := large_of_wholeMillis?_eq_none notNegative counted
    have small : (delay.toNat : ℝ) < 2 ^ 64 := by exact_mod_cast delay.toNat_lt
    linarith
  | some whole =>
    calc (delay.toNat : ℝ) ≤ whole.toNat := by
          exact_mod_cast UInt64.le_iff_toNat_le.1 (early whole counted)
      _ = ⌊x⌋₊ := by rw [(toNat_of_wholeMillis? counted).2]
      _ ≤ x := Nat.floor_le notNegative

/-- What is counted in whole milliseconds. -/
theorem wholeMillis?_eq_some_iff {x : ℝ} {delay : Millis} (notNegative : 0 ≤ x) :
    wholeMillis? x = some delay ↔ ⌊x⌋₊ < 2 ^ 64 ∧ delay.toNat = ⌊x⌋₊ := by
  have small : ⌊x⌋₊ < 2 ^ 64 ↔ x < 2 ^ 64 := by
    rw [Nat.floor_lt notNegative]
    norm_num
  constructor
  · intro counted
    have within : x < 2 ^ 64 := (Option.ite_none_right_eq_some.1 counted).1.2
    exact ⟨small.2 within, (toNat_of_wholeMillis? counted).2⟩
  · rintro ⟨within, floored⟩
    have counted : wholeMillis? x = some (.ofNat ⌊x⌋₊) := if_pos ⟨notNegative, small.1 within⟩
    rw [counted, ← floored, UInt64.ofNat_toNat]

/-- Whole milliseconds are counted. -/
theorem wholeMillis?_toNat (delay : Millis) : wholeMillis? (delay.toNat : ℝ) = some delay := by
  have small : (delay.toNat : ℝ) < 2 ^ 64 := by exact_mod_cast delay.toNat_lt
  change (if 0 ≤ (delay.toNat : ℝ) ∧ (delay.toNat : ℝ) < 2 ^ 64 then
    some (UInt64.ofNat ⌊(delay.toNat : ℝ)⌋₊) else none) = some delay
  rw [if_pos ⟨Nat.cast_nonneg _, small⟩, Nat.floor_natCast, UInt64.ofNat_toNat]

/-- What passes in whole milliseconds is taken off the count. -/
theorem wholeMillis?_sub {x : ℝ} {delay elapsed : Millis} (counted : wholeMillis? x = some delay)
    (early : elapsed ≤ delay) :
    (elapsed.toNat : ℝ) ≤ x ∧ wholeMillis? (x - elapsed.toNat) = some (delay - elapsed) := by
  obtain ⟨notNegative, floored⟩ := toNat_of_wholeMillis? counted
  have whole := UInt64.le_iff_toNat_le.1 early
  have passed : (elapsed.toNat : ℝ) ≤ x := (Nat.le_floor_iff notNegative).1 (floored ▸ whole)
  refine ⟨passed, (wholeMillis?_eq_some_iff (sub_nonneg.2 passed)).2 ?_⟩
  rw [Nat.floor_sub_natCast, ← floored, UInt64.toNat_sub_of_le _ _ early]
  have bound := delay.toNat_lt
  exact ⟨by omega, rfl⟩

/-- Less than a millisecond is no time. -/
theorem wholeMillis?_of_lt_one {x : ℝ} (notNegative : 0 ≤ x) (short : x < 1) :
    wholeMillis? x = some 0 := by
  change (if 0 ≤ x ∧ x < 2 ^ 64 then some (UInt64.ofNat ⌊x⌋₊) else none) = some 0
  rw [if_pos ⟨notNegative, short.trans (by norm_num)⟩, Nat.floor_eq_zero.2 short]
  rfl

end Scalar

theorem Prediction.instantaneous_eq : (instantaneous : ℝ) = 1e-6 := rfl

theorem Prediction.instantaneous_pos : 0 < (instantaneous : ℝ) := by norm_num [instantaneous_eq]

namespace Vec

variable (v w : Vec ℝ)

theorem dot_eq : v.dot w = v.x * w.x + v.y * w.y := rfl

theorem wedge_eq : v.wedge w = v.x * w.y - v.y * w.x := rfl

theorem normSq_eq : v.normSq = v.x * v.x + v.y * v.y := rfl

theorem norm_eq : v.norm = √(v.x * v.x + v.y * v.y) := rfl

theorem zero_eq : (zero : Vec ℝ) = ⟨0, 0⟩ := by
  change (⟨0.0, 0.0⟩ : Vec ℝ) = ⟨0, 0⟩
  norm_num

theorem add_eq : v + w = ⟨v.x + w.x, v.y + w.y⟩ := rfl

theorem sub_eq : v - w = ⟨v.x - w.x, v.y - w.y⟩ := rfl

theorem smul_eq (s : ℝ) : v * s = ⟨v.x * s, v.y * s⟩ := rfl

theorem div_eq (s : ℝ) : v / s = ⟨v.x / s, v.y / s⟩ := rfl

theorem quarterTurn_eq : v.quarterTurn = ⟨-v.y, v.x⟩ := rfl

theorem norm_nonneg : 0 ≤ v.norm := Real.sqrt_nonneg _

variable {v w} in
theorem eq_of_parts (x : v.x = w.x) (y : v.y = w.y) : v = w := by
  cases v
  cases w
  exact congrArg₂ Vec.mk x y

instance : LawfulBEq (Vec ℝ) where
  eq_of_beq {v w} same := by
    have parts : (v.x == w.x && v.y == w.y) = true := same
    simp only [Bool.and_eq_true, beq_iff_eq] at parts
    exact eq_of_parts parts.1 parts.2
  rfl {v} := by
    change (v.x == v.x && v.y == v.y) = true
    simp

end Vec

/-- Too short to have a direction. -/
theorem Segment.isDegenerate_iff (wall : Segment ℝ) :
    wall.isDegenerate ↔ wall.span.norm < Scalar.negligible := by
  change decide (_ ∨ _) = true ↔ _
  rw [decide_eq_true_iff]
  change (!true) = true ∨ _ ↔ _
  simp [Segment.length]

theorem Segment.span_norm_pos {wall : Segment ℝ} (sound : wall.isDegenerate = false) :
    0 < wall.span.norm := by
  rw [← Bool.not_eq_true, wall.isDegenerate_iff, not_lt] at sound
  exact lt_of_lt_of_le Scalar.negligible_pos sound

/-- Across a wall it is as far as along it. -/
theorem Segment.normSq_across (wall : Segment ℝ) : wall.across.normSq = wall.span.normSq := by
  simp only [Segment.across, Vec.normSq_eq, Vec.quarterTurn_eq]
  ring

namespace Ball

variable (ball : Ball ℝ) (wall : Segment ℝ)

/-- The signed distance of the centre from the line through a wall, times the wall's length. -/
noncomputable def offset : ℝ := wall.span.wedge (ball.position - wall.start)

/-- How fast the offset changes. -/
noncomputable def rate : ℝ := wall.span.wedge ball.velocity

/-- The ball after `t` milliseconds of free motion, be they whole or not. -/
noncomputable def moved (t : ℝ) (ball : Ball ℝ) : Ball ℝ :=
  { ball with position := ball.position + ball.velocity * (t / 1000.0) }

theorem moved_eq (t : ℝ) : ball.moved t =
    { ball with position := ball.position + ball.velocity * (t / 1000) } := by
  have thousand : (1000.0 : ℝ) = 1000 := by norm_num
  rw [moved, thousand]

theorem moved_zero : ball.moved 0 = ball := by
  rw [moved_eq, zero_div]
  simp [Vec.smul_eq, Vec.add_eq]

theorem moved_moved (s t : ℝ) : (ball.moved s).moved t = ball.moved (s + t) := by
  simp only [moved_eq, Vec.add_eq, Vec.smul_eq]
  congr 2 <;> ring

theorem drift_eq_moved (elapsed : Millis) : ball.drift elapsed = ball.moved elapsed.toNat := rfl

theorem offset_moved (t : ℝ) :
    (ball.moved t).offset wall = ball.offset wall + ball.rate wall * (t / 1000) := by
  simp only [moved_eq, offset, rate, Vec.wedge_eq, Vec.sub_eq, Vec.add_eq, Vec.smul_eq]
  ring

theorem offset_drift (elapsed : Millis) :
    (ball.drift elapsed).offset wall =
      ball.offset wall + ball.rate wall * (elapsed.toNat / 1000) := by
  rw [drift_eq_moved, offset_moved]

theorem rate_drift (elapsed : Millis) : (ball.drift elapsed).rate wall = ball.rate wall := rfl

theorem rate_eq_dot : ball.rate wall = ball.velocity.dot wall.across := by
  simp only [rate, Segment.across, Vec.wedge_eq, Vec.dot_eq, Vec.quarterTurn_eq]
  ring

variable {wall}

theorem velocity_bounce (sound : wall.isDegenerate = false) : (ball.bounce wall).velocity =
    ball.velocity.along wall.span - ball.velocity.along wall.across := by
  simp [bounce, sound]

/-- Off a wall of measurable length, a ball keeps its velocity along the wall. -/
theorem dot_span_bounce (sound : wall.isDegenerate = false)
    (long : Scalar.negligible ≤ wall.span.normSq) :
    (ball.bounce wall).velocity.dot wall.span = ball.velocity.dot wall.span := by
  have positive : wall.span.normSq ≠ 0 := (lt_of_lt_of_le Scalar.negligible_pos long).ne'
  let part := ball.velocity.dot wall.span
  calc
    _ = wall.span.normSq * (part / wall.span.normSq) := by
      simp only [velocity_bounce ball sound, Vec.along, wall.normSq_across, if_neg (not_lt.2 long)]
      simp only [Segment.across, Vec.quarterTurn_eq, Vec.sub_eq, Vec.smul_eq, Vec.dot_eq, part]
      rw [Vec.normSq_eq]
      ring
    _ = part := mul_div_cancel₀ _ positive

/-- Off a wall of measurable length, a ball reverses its velocity across the wall. -/
theorem dot_across_bounce (sound : wall.isDegenerate = false)
    (long : Scalar.negligible ≤ wall.span.normSq) :
    (ball.bounce wall).velocity.dot wall.across = -ball.velocity.dot wall.across := by
  have positive : wall.span.normSq ≠ 0 := (lt_of_lt_of_le Scalar.negligible_pos long).ne'
  let part := ball.velocity.dot wall.across
  calc
    _ = -(wall.span.normSq * (part / wall.span.normSq)) := by
      simp only [velocity_bounce ball sound, Vec.along, wall.normSq_across, if_neg (not_lt.2 long)]
      simp only [Segment.across, Vec.quarterTurn_eq, Vec.sub_eq, Vec.smul_eq, Vec.dot_eq, part]
      rw [Vec.normSq_eq]
      ring
    _ = -part := by rw [mul_div_cancel₀ _ positive]

/-- A wall along which no velocity can be measured stops a ball. -/
theorem velocity_bounce_of_short (sound : wall.isDegenerate = false)
    (short : wall.span.normSq < Scalar.negligible) : (ball.bounce wall).velocity = ⟨0, 0⟩ := by
  simp [velocity_bounce ball sound, Vec.along, wall.normSq_across, if_pos short, Vec.zero_eq,
    Vec.sub_eq]

theorem rate_bounce_of_long (sound : wall.isDegenerate = false)
    (long : Scalar.negligible ≤ wall.span.normSq) :
    (ball.bounce wall).rate wall = -ball.rate wall := by
  rw [rate_eq_dot, rate_eq_dot, dot_across_bounce ball sound long]

theorem rate_bounce_of_short (sound : wall.isDegenerate = false)
    (short : wall.span.normSq < Scalar.negligible) : (ball.bounce wall).rate wall = 0 := by
  simp [rate, velocity_bounce_of_short ball sound short, Vec.wedge_eq]

variable (wall)

/-- Off a wall, a ball leaves as fast as it came, or not at all. -/
theorem rate_bounce (sound : wall.isDegenerate = false) :
    (ball.bounce wall).rate wall = -ball.rate wall ∨ (ball.bounce wall).rate wall = 0 := by
  by_cases short : wall.span.normSq < Scalar.negligible
  · exact .inr (rate_bounce_of_short ball sound short)
  · exact .inl (rate_bounce_of_long ball sound (not_lt.1 short))

end Ball

/-- Every wall has a direction and every ball a size. -/
structure Table.Sound (table : Table ℝ) : Prop where
  walls : ∀ wall ∈ table.walls, wall.isDegenerate = false
  balls : ∀ ball ∈ table.balls, 0 < ball.radius

/-- As no number is infinite, a scene passes its check if its beats are apart and its table is
sound. -/
theorem Scene.fault?_eq_none_iff_sound {scene : Scene ℝ} :
    scene.fault? = none ↔ scene.interval ≠ some 0 ∧ scene.table.Sound := by
  have wallFault (place : WallId) (wall : Segment ℝ) :
      wallFault? place wall = none ↔ wall.isDegenerate = false := by
    simp [wallFault?, wallIsFinite, Scalar.isFinite]
  have ballFault (id : BallId) (ball : Ball ℝ) : ballFault? id ball = none ↔ 0 < ball.radius := by
    have zero : (0.0 : ℝ) = 0 := by norm_num
    simp [ballFault?, ballIsFinite, Scalar.isFinite, zero]
  simp only [fault?_eq_none, wallFault, ballFault]
  apply and_congr_right
  intro _
  constructor
  · rintro ⟨walls, balls⟩
    constructor
    · intro wall member
      obtain ⟨place, there⟩ := List.mem_iff_getElem?.1 member
      exact walls place wall there
    · intro ball member
      obtain ⟨id, there⟩ := List.mem_iff_getElem?.1 member
      exact balls id ball there
  · intro sound
    constructor
    · intro _ wall there
      exact sound.walls wall (List.mem_of_getElem? there)
    · intro _ ball there
      exact sound.balls ball (List.mem_of_getElem? there)

/-- A ball that is not deflected has its velocity. -/
theorem Table.velocity_of_not_deflected {before after : Table ℝ} {hit : BallId}
    {ball old : Ball ℝ} (found : after.balls[hit]? = some ball)
    (here : before.balls[hit]? = some old)
    (straight : ¬Conductor.deflected before after hit) : ball.velocity = old.velocity := by
  simpa [Conductor.deflected, velocity?, found, here] using straight

end Billiard
