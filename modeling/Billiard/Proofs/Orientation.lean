import Billiard.Proofs.Clearance

/-!
It does not matter which end of a wall is its start. From the other end the line runs the other
way, so a ball's offset and its rate change their signs and the two times at which the line is
touched change places; the foot of a point is counted from the other end; and a bounce takes the
same parts of the velocity. Hence a table with some walls reversed has the same contacts ahead, and
each contact does the same to its balls.
-/

namespace Billiard

open Prediction

/-- The same segment from its other end. -/
def Segment.reversed {K : Type} (segment : Segment K) : Segment K :=
  ⟨segment.finish, segment.start⟩

/-- The same table with some of its walls reversed. -/
def Table.reversed {K : Type} (which : WallId → Bool) (table : Table K) : Table K :=
  { table with
    walls := table.walls.mapIdx fun place wall => if which place then wall.reversed else wall }

/-- The same scene with some of its walls reversed. -/
def Scene.reversed {K : Type} (which : WallId → Bool) (scene : Scene K) : Scene K :=
  { scene with table := scene.table.reversed which }

namespace Segment

variable (wall : Segment ℝ)

theorem span_reversed : wall.reversed.span = ⟨-wall.span.x, -wall.span.y⟩ := by
  simp [reversed, span, Vec.sub_eq]

theorem across_reversed : wall.reversed.across = ⟨-wall.across.x, -wall.across.y⟩ := by
  rw [across, span_reversed]
  rfl

theorem normSq_span_reversed : wall.reversed.span.normSq = wall.span.normSq := by
  simp [span_reversed, Vec.normSq_eq]

theorem norm_span_reversed : wall.reversed.span.norm = wall.span.norm :=
  congrArg Real.sqrt wall.normSq_span_reversed

@[simp] theorem isDegenerate_reversed : wall.reversed.isDegenerate = wall.isDegenerate := by
  rw [Bool.eq_iff_iff, isDegenerate_iff, isDegenerate_iff, norm_span_reversed]

/-- From the other end, a foot is as far as it was from the finish. -/
theorem foot?_reversed (p : Vec ℝ) : wall.reversed.foot? p = (wall.foot? p).map (1 - ·) := by
  simp only [foot?, normSq_span_reversed]
  by_cases short : wall.span.normSq < Scalar.negligible
  · simp [short]
  · have long : wall.span.normSq ≠ 0 := (lt_of_lt_of_le Scalar.negligible_pos (not_lt.1 short)).ne'
    have turned : (p - wall.finish).dot wall.reversed.span =
        wall.span.normSq - (p - wall.start).dot wall.span := by
      rw [span_reversed]
      simp only [span, Vec.normSq_eq, Vec.dot_eq, Vec.sub_eq]
      ring
    simp only [if_neg short, Option.map_some, Option.some.injEq]
    change (p - wall.finish).dot wall.reversed.span / _ = _
    rw [turned, sub_div, div_self long]

end Segment

/-- What a vector has along an axis it has along the opposite axis. -/
theorem Vec.along_neg (v axis : Vec ℝ) : v.along ⟨-axis.x, -axis.y⟩ = v.along axis := by
  have same : (⟨-axis.x, -axis.y⟩ : Vec ℝ).normSq = axis.normSq := by simp [Vec.normSq_eq]
  simp only [along, same, Vec.dot_eq, Vec.smul_eq]
  split
  · rfl
  · congr 1 <;> ring

namespace Ball

variable (ball : Ball ℝ) (wall : Segment ℝ)

theorem offset_reversed : ball.offset wall.reversed = -ball.offset wall := by
  simp only [offset, Segment.reversed, Segment.span, Vec.wedge_eq, Vec.sub_eq]
  ring

theorem rate_reversed : ball.rate wall.reversed = -ball.rate wall := by
  simp only [rate, Segment.reversed, Segment.span, Vec.wedge_eq, Vec.sub_eq]
  ring

theorem berth_reversed : ball.berth wall.reversed = ball.berth wall := by
  rw [berth, wall.norm_span_reversed, berth]

/-- From the other end, a ball is on the other side of the line and touches it at the same time. -/
theorem lineContact?_reversed : ball.lineContact? wall.reversed = ball.lineContact? wall := by
  cases sound : wall.isDegenerate with
  | true => simp [lineContact?, sound]
  | false =>
    have sound' : wall.reversed.isDegenerate = false := by rw [wall.isDegenerate_reversed, sound]
    rw [lineContact?_eq sound' (.inl rfl), lineContact?_eq sound (.inr rfl), offset_reversed,
      rate_reversed, berth_reversed]
    simp only [one_mul, neg_one_mul]

theorem untilLine?_reversed : ball.untilLine? wall.reversed = ball.untilLine? wall := by
  rw [untilLine?, lineContact?_reversed, untilLine?]

/-- Between the ends is between the ends. -/
theorem untilEnds?_reversed : ball.untilEnds? wall.reversed = ball.untilEnds? wall := by
  unfold untilEnds?
  rw [lineContact?_reversed]
  cases ball.lineContact? wall with
  | none => rfl
  | some time =>
    simp only [wall.foot?_reversed]
    cases wall.foot? (ball.position + ball.velocity * (time / 1000.0)) with
    | none => rfl
    | some foot =>
      have zero : (0.0 : ℝ) = 0 := by norm_num
      have one : (1.0 : ℝ) = 1 := by norm_num
      have between : 0.0 ≤ 1 - foot ∧ 1 - foot ≤ (1.0 : ℝ) ↔ 0.0 ≤ foot ∧ foot ≤ (1.0 : ℝ) := by
        rw [zero, one]
        constructor <;> rintro ⟨_, _⟩ <;> constructor <;> linarith
      simp only [Option.map_some, between]

theorem untilWall?_reversed (reach : Reach) :
    ball.untilWall? reach wall.reversed = ball.untilWall? reach wall := by
  cases reach with
  | line => exact ball.untilLine?_reversed wall
  | ends => exact ball.untilEnds?_reversed wall

theorem bounce_reversed : ball.bounce wall.reversed = ball.bounce wall := by
  simp only [bounce, Segment.isDegenerate_reversed, Segment.span_reversed,
    Segment.across_reversed, Vec.along_neg]

end Ball

namespace Table

variable (which : WallId → Bool) (table : Table ℝ)

theorem getElem?_walls_reversed (place : WallId) : (table.reversed which).walls[place]? =
    table.walls[place]?.map fun wall => if which place then wall.reversed else wall := by
  simp [reversed]

theorem zipIdx_walls_reversed : (table.reversed which).walls.zipIdx =
    table.walls.zipIdx.map fun (wall, place) =>
      (if which place then wall.reversed else wall, place) := by
  apply List.ext_getElem?
  intro place
  rw [List.getElem?_zipIdx, getElem?_walls_reversed, List.getElem?_map, List.getElem?_zipIdx]
  cases table.walls[place]? <;> simp

theorem wallForecasts_reversed (id : BallId) (ball : Ball ℝ) :
    (table.reversed which).wallForecasts id ball = table.wallForecasts id ball := by
  have same (place : WallId) (wall : Segment ℝ) :
      ball.untilWall? table.reach (if which place then wall.reversed else wall) =
        ball.untilWall? table.reach wall := by
    split
    · exact ball.untilWall?_reversed wall table.reach
    · rfl
  simp only [wallForecasts, zipIdx_walls_reversed, List.filterMap_map]
  congr 1
  funext entry
  exact congrArg (Option.map _) (same entry.2 entry.1)

/-- The same contacts are ahead. -/
theorem nextContact?_reversed (settled : List Contact) :
    (table.reversed which).nextContact? settled = table.nextContact? settled := by
  have balls : (table.reversed which).balls = table.balls := rfl
  have ofBall (id : BallId) : (table.reversed which).forecastsOf id = table.forecastsOf id := by
    unfold forecastsOf
    rw [balls]
    split
    · rfl
    · rw [wallForecasts_reversed]
      rfl
  simp only [nextContact?, forecasts, balls, ofBall]

theorem bounce?_reversed (ball : BallId) (place : WallId) :
    (table.reversed which).bounce? ball place =
      (table.bounce? ball place).map (reversed which) := by
  have balls : (table.reversed which).balls = table.balls := rfl
  simp only [bounce?, getElem?_walls_reversed, balls]
  cases table.walls[place]? with
  | none => rfl
  | some wall =>
    cases table.balls[ball]? with
    | none => rfl
    | some hit =>
      have same : hit.bounce (if which place then wall.reversed else wall) = hit.bounce wall := by
        split
        · exact hit.bounce_reversed wall
        · rfl
      simp only [Option.map_some, same]
      rfl

theorem meet?_reversed (a b : BallId) :
    (table.reversed which).meet? a b = (table.meet? a b).map (reversed which) := by
  simp only [meet?, reversed]
  generalize (if a < b then a else b) = lower
  generalize (if a < b then b else a) = upper
  by_cases same : lower = upper
  · simp only [if_pos same]
    rfl
  · simp only [if_neg same]
    split
    · split <;> rfl
    · rfl

end Table

/-- A contact does the same, whichever end a wall starts from. -/
theorem Contact.effect?_reversed (which : WallId → Bool) (contact : Contact) (table : Table ℝ) :
    contact.effect? (table.reversed which) =
      (contact.effect? table).map (Table.reversed which) := by
  cases contact with
  | wall ball side => exact table.bounce?_reversed which ball side
  | pair a b => exact table.meet?_reversed which a b

/-- A wall has a direction from either end. -/
theorem Scene.fault?_reversed (which : WallId → Bool) {scene : Scene ℝ}
    (fine : scene.fault? = none) : (scene.reversed which).fault? = none := by
  obtain ⟨moving, walls, balls⟩ := fault?_eq_none_iff_sound.1 fine
  refine fault?_eq_none_iff_sound.2 ⟨moving, ?_, balls⟩
  intro wall member
  obtain ⟨place, inside, rfl⟩ := List.mem_mapIdx.1 member
  have sound := walls _ (List.getElem_mem inside)
  split
  · rw [Segment.isDegenerate_reversed, sound]
  · exact sound

end Billiard
