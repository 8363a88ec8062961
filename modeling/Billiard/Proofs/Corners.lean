import Billiard.Proofs.Clearance

/-!
No ball leaves a box through a corner, even if walls can be hit only between their ends. Of the
lines that a ball comes closer to, there is one that it reaches first. It is clear of the others
until then, so it meets this one between the ends of the wall, and that contact is forecast
(`untilEnds?_of_first`). Of the contacts after it the forecasts may miss some.
-/

namespace Billiard

open Scalar (negligible)

variable {side : ℝ} {ball : Ball ℝ} {wall first : Segment ℝ} {walls : List (Segment ℝ)}

namespace Segment

/-- These walls leave no gap: what is on this side of all their lines is next to each of them,
between its ends. -/
def Enclosing (side : ℝ) (walls : List (Segment ℝ)) : Prop :=
  ∀ p, (∀ wall ∈ walls, 0 ≤ side * wall.span.wedge (p - wall.start)) →
    ∀ wall ∈ walls, ∃ foot, wall.foot? p = some foot ∧ 0 ≤ foot ∧ foot ≤ 1

theorem foot?_of_long {p : Vec ℝ} (long : negligible ≤ wall.span.normSq) :
    wall.foot? p = some ((p - wall.start).dot wall.span / wall.span.normSq) :=
  if_neg (not_lt.2 long)

theorem exists_foot {p : Vec ℝ} (long : negligible ≤ wall.span.normSq)
    (after : 0 ≤ (p - wall.start).dot wall.span)
    (before : (p - wall.start).dot wall.span ≤ wall.span.normSq) :
    ∃ foot, wall.foot? p = some foot ∧ 0 ≤ foot ∧ foot ≤ 1 := by
  have positive : 0 < wall.span.normSq := lt_of_lt_of_le Scalar.negligible_pos long
  exact ⟨_, foot?_of_long long, div_nonneg after positive.le, (div_le_one positive).2 before⟩

end Segment

namespace Ball

/-- Of all lines that a ball comes closer to, there is one that it reaches first. -/
theorem exists_first_arrival (side : ℝ) (ball : Ball ℝ)
    (closer : ∃ wall ∈ walls, side * ball.rate wall < 0) :
    ∃ first ∈ walls, side * ball.rate first < 0 ∧
      ∀ wall ∈ walls, side * ball.rate wall < 0 →
        ball.arrival side first ≤ ball.arrival side wall := by
  have finite : {wall | wall ∈ walls ∧ side * ball.rate wall < 0}.Finite :=
    walls.finite_toSet.subset fun _ both => both.1
  obtain ⟨first, ⟨member, approaching⟩, least⟩ :=
    Set.exists_min_image _ (ball.arrival side) finite closer
  exact ⟨first, member, approaching, fun wall member closer => least wall ⟨member, closer⟩⟩

/-- Where the ball would touch the line decides whether the contact is forecast. -/
theorem untilEnds?_of_foot {t foot : ℝ} (forecast : ball.lineContact? wall = some t)
    (there : wall.foot? (ball.moved t).position = some foot) :
    ball.untilEnds? wall = if 0 ≤ foot ∧ foot ≤ 1 then Scalar.wholeMillis? t else none := by
  have zero : (0.0 : ℝ) = 0 := by norm_num
  have one : (1.0 : ℝ) = 1 := by norm_num
  have there : wall.foot? (ball.position + ball.velocity * (t / 1000.0)) = some foot := there
  simp only [untilEnds?, forecast, there, zero, one]

/-- The wall that a ball reaches first is met between its ends. -/
theorem untilEnds?_of_first (enclosing : Segment.Enclosing side walls)
    (inside : ∀ wall ∈ walls, ball.berth wall ≤ side * ball.offset wall)
    (wide : ∀ wall ∈ walls, 0 ≤ ball.berth wall) (member : first ∈ walls)
    (approaching : side * ball.rate first < 0)
    (least : ∀ wall ∈ walls, side * ball.rate wall < 0 →
      ball.arrival side first ≤ ball.arrival side wall)
    (forecast : ball.lineContact? first = some (ball.arrival side first)) :
    ball.untilEnds? first = Scalar.wholeMillis? (ball.arrival side first) := by
  have ahead := arrival_nonneg (inside first member) approaching
  have clear (wall : Segment ℝ) (member : wall ∈ walls) :
      0 ≤ side * (ball.moved (ball.arrival side first)).offset wall :=
    calc 0 ≤ ball.berth wall := wide wall member
      _ ≤ _ := berth_le_offset_moved (inside wall member) ahead (least wall member)
  obtain ⟨foot, found, after, before⟩ := enclosing _ clear first member
  rw [untilEnds?_of_foot forecast found, if_pos ⟨after, before⟩]

end Ball

namespace Table

variable {table after : Table ℝ} {settled : List Contact} {delay : Millis}

/-- Every ball is on this side of every line, at least a radius away from it, and does not come
closer while their contact is settled. -/
def Enclosed (side : ℝ) (table : Table ℝ) (settled : List Contact) : Prop :=
  ∀ id place, Beside side id place table settled

theorem Enclosed.clear (enclosed : Enclosed side table settled) (member : ball ∈ table.balls)
    (member' : wall ∈ table.walls) : ball.berth wall ≤ side * ball.offset wall := by
  obtain ⟨id, here⟩ := List.mem_iff_getElem?.1 member
  obtain ⟨place, there⟩ := List.mem_iff_getElem?.1 member'
  exact (enclosed id place ball wall here there).1

/-- No ball gets past a line in a delay that no open forecast falls short of, as the line that it
reaches first is open and forecast. -/
theorem Enclosed.drift (sound : table.Sound) (ends : table.reach = .ends)
    (sign : side = 1 ∨ side = -1) (enclosing : Segment.Enclosing side table.walls)
    (noticed : table.Noticed) (enclosed : Enclosed side table settled)
    (early : ∀ forecast ∈ table.forecasts, forecast.contact ∉ settled → delay ≤ forecast.delay) :
    Enclosed side (table.drift delay) settled := by
  intro id place
  apply (enclosed id place).drift_of_early
  intro ball wall here there approaching
  have ballIn := List.mem_of_getElem? here
  have inside (wall : Segment ℝ) (member : wall ∈ table.walls) := enclosed.clear ballIn member
  obtain ⟨first, member, closer, least⟩ :=
    ball.exists_first_arrival side ⟨wall, List.mem_of_getElem? there, approaching⟩
  obtain ⟨nearest, there'⟩ := List.mem_iff_getElem?.1 member
  have isOpen : Contact.wall id nearest ∉ settled := fun held =>
    absurd closer (not_lt.2 ((enclosed id nearest ball first here there').2 held))
  have forecast := Ball.untilEnds?_of_first enclosing inside
    (fun _ member => (sound.berth_pos ballIn member).le) member closer least
    (noticed.lineContact? sound sign ballIn member (inside first member) closer)
  calc (delay.toNat : ℝ) ≤ ball.arrival side first := by
        apply Scalar.toNat_le_of_early (Ball.arrival_nonneg (inside first member) closer)
        intro whole counted
        apply early ⟨whole, .wall id nearest⟩ (wall_mem_forecasts.2 ⟨ball, first, here, there', ?_⟩)
          isOpen
        rw [ends]
        exact forecast.trans counted
    _ ≤ ball.arrival side wall := least wall (List.mem_of_getElem? there) approaching

/-- What a conductor reacts with leaves every ball enclosed. -/
theorem Enclosed.react {ready waiting next : Conductor} {signal : Signal} {now : Instant}
    (sound : table.Sound) (ends : table.reach = .ends) (sign : side = 1 ∨ side = -1)
    (enclosing : Segment.Enclosing side table.walls) (noticed : table.Noticed)
    (enclosed : Enclosed side table waiting.settled)
    (follows : ready.follows table = some (delay, signal, waiting))
    (reacts : waiting.reaction? now signal table = some (after, next)) :
    Enclosed side after next.settled := by
  have drifted : Enclosed side (table.drift delay) waiting.settled :=
    enclosed.drift sound ends sign enclosing noticed (Conductor.no_sooner_of_follows follows)
  exact fun id place =>
    (enclosed id place).react_of_drift sound sign (drifted id place) follows reacts

end Table

namespace Scene.Frame

variable {frame : Frame ℝ}

theorem forall_walls {P : Segment ℝ → Prop} : (∀ wall ∈ frame.walls, P wall) ↔
    P ⟨⟨frame.left, frame.top⟩, ⟨frame.left + frame.width, frame.top⟩⟩ ∧
      P ⟨⟨frame.left + frame.width, frame.top⟩,
        ⟨frame.left + frame.width, frame.top + frame.height⟩⟩ ∧
      P ⟨⟨frame.left + frame.width, frame.top + frame.height⟩,
        ⟨frame.left, frame.top + frame.height⟩⟩ ∧
      P ⟨⟨frame.left, frame.top + frame.height⟩, ⟨frame.left, frame.top⟩⟩ := by
  simp [walls, Segment.ofCoords]

/-- A rectangle has no gap at its corners: along each side, the foot is as far from the two ends as
the point is from the two sides that meet it there. -/
theorem enclosing (width : 0 < frame.width) (height : 0 < frame.height)
    (wide : negligible ≤ frame.width * frame.width)
    (high : negligible ≤ frame.height * frame.height) : Segment.Enclosing 1 frame.walls := by
  intro p
  simp only [forall_walls, Segment.span, Vec.sub_eq, Vec.wedge_eq]
  rintro ⟨top, right, bottom, left⟩
  have top : 0 ≤ p.y - frame.top := nonneg_of_mul_nonneg_right (by linarith) width
  have right : 0 ≤ frame.left + frame.width - p.x :=
    nonneg_of_mul_nonneg_right (by linarith) height
  have bottom : 0 ≤ frame.top + frame.height - p.y :=
    nonneg_of_mul_nonneg_right (by linarith) width
  have left : 0 ≤ p.x - frame.left := nonneg_of_mul_nonneg_right (by linarith) height
  have alongTop := mul_nonneg width.le left
  have againstTop := mul_nonneg width.le right
  have alongRight := mul_nonneg height.le top
  have againstRight := mul_nonneg height.le bottom
  refine ⟨?_, ?_, ?_, ?_⟩
  all_goals
    apply Segment.exists_foot
    all_goals
      simp only [Segment.span, Vec.sub_eq, Vec.dot_eq, Vec.normSq_eq]
      linarith

end Scene.Frame

/-- The whole disc is in the rectangle. -/
structure Ball.Within (frame : Scene.Frame ℝ) (ball : Ball ℝ) : Prop where
  left : frame.left + ball.radius ≤ ball.position.x
  right : ball.position.x + ball.radius ≤ frame.left + frame.width
  top : frame.top + ball.radius ≤ ball.position.y
  bottom : ball.position.y + ball.radius ≤ frame.top + frame.height

/-- A disc is in the rectangle if its centre is a radius away from every side. -/
theorem Ball.within_iff {frame : Scene.Frame ℝ} (width : 0 < frame.width)
    (height : 0 < frame.height) : ball.Within frame ↔
      ∀ wall ∈ frame.walls, ball.berth wall ≤ 1 * ball.offset wall := by
  have flat (s : ℝ) : √(s * s + 0 * 0) = |s| := by
    rw [mul_zero, add_zero, Real.sqrt_mul_self_eq_abs]
  have steep (s : ℝ) : √(0 * 0 + s * s) = |s| := by
    rw [mul_zero, zero_add, Real.sqrt_mul_self_eq_abs]
  simp only [Scene.Frame.forall_walls, berth, offset, Segment.span, Vec.sub_eq, Vec.norm_eq,
    Vec.wedge_eq, add_sub_cancel_left, sub_add_cancel_left, sub_self, flat, steep, abs_neg,
    abs_of_pos width, abs_of_pos height]
  constructor
  · rintro ⟨left, right, top, bottom⟩
    have top := mul_le_mul_of_nonneg_left top width.le
    have right := mul_le_mul_of_nonneg_left right height.le
    have bottom := mul_le_mul_of_nonneg_left bottom width.le
    have left := mul_le_mul_of_nonneg_left left height.le
    refine ⟨?_, ?_, ?_, ?_⟩ <;> linarith
  · rintro ⟨top, right, bottom, left⟩
    exact {
      left := le_of_mul_le_mul_left (by linarith) height
      right := le_of_mul_le_mul_left (by linarith) height
      top := le_of_mul_le_mul_left (by linarith) width
      bottom := le_of_mul_le_mul_left (by linarith) width }

namespace Simulation

variable {C : Type} [Canvas ℝ C] {scene : Scene ℝ}

/-- Between walls without gaps, along a fair course, every ball stays on its side and a radius
away. -/
theorem stays_enclosed {canvas : C} {first last : Simulation ℝ C Conductor}
    (made : scene.conduct id canvas = .ok first) (ends : scene.table.reach = .ends)
    (sign : side = 1 ∨ side = -1) (enclosing : Segment.Enclosing side scene.table.walls)
    (inside : ∀ ball ∈ scene.table.balls, ∀ wall ∈ scene.table.walls,
      ball.berth wall ≤ side * ball.offset wall)
    (course : Course Table.Measured first last) :
    last.stage.table.Resembles scene.table ∧
      ∀ ball ∈ last.stage.table.balls, ∀ wall ∈ scene.table.walls,
        ball.berth wall ≤ side * ball.offset wall := by
  obtain ⟨poised, table, fine⟩ := Poised.of_conduct made
  have sound := (Scene.fault?_eq_none_iff_sound.1 fine).2
  have lasting : Lasting scene.table Table.Measured (Table.Enclosed side) := by
    refine ⟨fun _ _ => id, fun _ _ _ => id, ?_, ?_⟩
    · exact fun _ _ enclosed id place => (enclosed id place).mono fun _ member => by cases member
    · intro now later _ _ _ _ _ _ alike measured enclosed follows reacts
      exact enclosed.react (sound.of_resembles alike) (alike.reach.trans ends) sign
        (alike.walls ▸ enclosing) measured.noticed follows reacts
  have begun : Table.Enclosed side first.stage.table [] := by
    intro id place ball wall here there
    rw [table] at here there
    refine ⟨?_, fun settled => by cases settled⟩
    exact inside ball (List.mem_of_getElem? here) wall (List.mem_of_getElem? there)
  obtain ⟨_, _, alike, enclosed, _⟩ :=
    lasting.of_course poised (table ▸ .refl _) begun (fun waits => absurd rfl waits) course
  refine ⟨alike, fun ball member wall member' => ?_⟩
  exact enclosed.clear member (alike.walls ▸ member')

/-- No ball leaves a box. If every ball of a checked scene begins fully inside a rectangle whose
sides are the walls, then it stays fully inside as long as, at every arming, every ball moves along
every wall or comes and goes at a speed that is measured, even though a side cannot be hit beyond
its ends. Whether balls exchange momentum does not matter. -/
theorem no_ball_leaves_box {frame : Scene.Frame ℝ} {canvas : C}
    {first last : Simulation ℝ C Conductor} (made : scene.conduct id canvas = .ok first)
    (box : scene.table.walls = frame.walls) (ends : scene.table.reach = .ends)
    (width : 0 < frame.width) (height : 0 < frame.height)
    (wide : negligible ≤ frame.width * frame.width)
    (high : negligible ≤ frame.height * frame.height)
    (inside : ∀ ball ∈ scene.table.balls, ball.Within frame)
    (course : Course Table.Measured first last) :
    last.stage.table.walls = frame.walls ∧
      last.stage.table.balls.map (·.radius) = scene.table.balls.map (·.radius) ∧
      ∀ ball ∈ last.stage.table.balls, ball.Within frame := by
  have enclosing := Scene.Frame.enclosing width height wide high
  obtain ⟨alike, kept⟩ := stays_enclosed made ends (.inl rfl) (box ▸ enclosing)
    (fun ball member wall member' =>
      (Ball.within_iff width height).1 (inside ball member) wall (box ▸ member')) course
  refine ⟨alike.walls.trans box, alike.radii, fun ball member => ?_⟩
  rw [Ball.within_iff width height, ← box]
  exact kept ball member

/-- A ball that comes to the left wall first. Where it would touch the line of the upper wall later
lies beyond the end of that wall. -/
noncomputable def cornering : Ball ℝ := ⟨⟨120.0, 135.0⟩, ⟨-100.0, -100.0⟩, 10.0⟩

/-- The ball in the standard rectangle, near a corner. -/
noncomputable def corner : Scene ℝ where
  table :=
    { walls := (Scene.standardFrame : Scene.Frame ℝ).walls
      balls := [cornering]
      turret := Scene.standardTurret
      reach := .ends
      response := .elastic }
  interval := some 1000

section Corner

/-- The walls of the standard rectangle, clockwise from the top. -/
theorem getElem?_standard_walls {place : WallId} {wall : Segment ℝ}
    (there : (Scene.standardFrame : Scene.Frame ℝ).walls[place]? = some wall) :
    place = 0 ∧ wall = ⟨⟨100, 100⟩, ⟨300, 100⟩⟩ ∨ place = 1 ∧ wall = ⟨⟨300, 100⟩, ⟨300, 300⟩⟩ ∨
      place = 2 ∧ wall = ⟨⟨300, 300⟩, ⟨100, 300⟩⟩ ∨
      place = 3 ∧ wall = ⟨⟨100, 300⟩, ⟨100, 100⟩⟩ := by
  have near : (100.0 : ℝ) = 100 := by norm_num
  have far : (100 + 200.0 : ℝ) = 300 := by norm_num
  simp only [Scene.standardFrame, Scene.Frame.walls, Segment.ofCoords, near, far] at there
  rcases place with _ | _ | _ | _ | beyond
  · exact .inl ⟨rfl, (Option.some.inj there).symm⟩
  · exact .inr (.inl ⟨rfl, (Option.some.inj there).symm⟩)
  · exact .inr (.inr (.inl ⟨rfl, (Option.some.inj there).symm⟩))
  · exact .inr (.inr (.inr ⟨rfl, (Option.some.inj there).symm⟩))
  · cases there

theorem normSq_standard_wall {wall : Segment ℝ}
    (member : wall ∈ (Scene.standardFrame : Scene.Frame ℝ).walls) :
    wall.span.normSq = 200 * 200 := by
  obtain ⟨place, there⟩ := List.mem_iff_getElem?.1 member
  rcases getElem?_standard_walls there with ⟨_, rfl⟩ | ⟨_, rfl⟩ | ⟨_, rfl⟩ | ⟨_, rfl⟩
  all_goals
    simp only [Segment.span, Vec.sub_eq, Vec.normSq_eq]
    norm_num

theorem norm_standard_wall {wall : Segment ℝ}
    (member : wall ∈ (Scene.standardFrame : Scene.Frame ℝ).walls) : wall.span.norm = 200 := by
  change √wall.span.normSq = 200
  rw [normSq_standard_wall member]
  exact Real.sqrt_mul_self (by norm_num)

theorem standard_wall_sound {wall : Segment ℝ}
    (member : wall ∈ (Scene.standardFrame : Scene.Frame ℝ).walls) :
    wall.isDegenerate = false := by
  rw [← Bool.not_eq_true, Segment.isDegenerate_iff, norm_standard_wall member]
  norm_num [Scalar.negligible_eq]

/-- In the standard rectangle, every speed is measured that is a hundred both ways. -/
theorem measured_of_swift {table : Table ℝ}
    (walls : table.walls = (Scene.standardFrame : Scene.Frame ℝ).walls)
    (swift : ∀ ball ∈ table.balls,
      ball.radius = 10 ∧ |ball.velocity.x| = 100 ∧ |ball.velocity.y| = 100) :
    table.Measured := by
  intro ball member wall member'
  rw [walls] at member'
  obtain ⟨radius, x, y⟩ := swift ball member
  have rate : |ball.rate wall| = 20000 := by
    obtain ⟨place, there⟩ := List.mem_iff_getElem?.1 member'
    rcases getElem?_standard_walls there with ⟨_, rfl⟩ | ⟨_, rfl⟩ | ⟨_, rfl⟩ | ⟨_, rfl⟩
    all_goals
      simp only [Ball.rate, Segment.span, Vec.sub_eq, Vec.wedge_eq]
      norm_num [abs_mul, x, y]
  rw [rate, radius, norm_standard_wall member']
  right
  norm_num [Scalar.negligible_eq, Prediction.instantaneous_eq]

/-- Nothing is wrong with the corner. -/
theorem corner_fine : corner.fault? = none := by
  refine Scene.fault?_eq_none_iff_sound.2 ⟨by decide, fun _ => standard_wall_sound, ?_⟩
  intro ball member
  obtain rfl := List.mem_singleton.1 member
  norm_num [cornering]

theorem corner_measured : corner.table.Measured := by
  apply measured_of_swift rfl
  intro ball member
  obtain rfl := List.mem_singleton.1 member
  norm_num [cornering]

theorem berth_cornering {wall : Segment ℝ}
    (member : wall ∈ (Scene.standardFrame : Scene.Frame ℝ).walls) :
    cornering.berth wall = 2000 := by
  rw [Ball.berth, norm_standard_wall member, cornering]
  norm_num

/-- The ball hits a wall that it comes closer to if the foot lies between its ends. -/
theorem untilWall?_cornering_of_closer {wall : Segment ℝ} (t foot : ℝ)
    (member : wall ∈ (Scene.standardFrame : Scene.Frame ℝ).walls)
    (closer : cornering.rate wall = -20000) (ahead : 0 ≤ t)
    (far : cornering.offset wall = 2000 + 20 * t)
    (there : ((cornering.moved t).position - wall.start).dot wall.span = 40000 * foot) :
    cornering.untilWall? .ends wall =
      if 0 ≤ foot ∧ foot ≤ 1 then Scalar.wholeMillis? t else none := by
  have sound := (Scene.fault?_eq_none_iff_sound.1 corner_fine).2
  have berth := berth_cornering member
  have arrives : cornering.arrival 1 wall = t := by
    rw [Ball.arrival_eq, closer, berth, far]
    ring
  have forecast := corner_measured.noticed.lineContact? sound (.inl rfl)
    (List.mem_singleton_self _) member (by linarith) (by linarith)
  rw [arrives] at forecast
  apply Ball.untilEnds?_of_foot forecast
  have length := normSq_standard_wall member
  rw [Segment.foot?_of_long (by norm_num [length, Scalar.negligible_eq]), there, length]
  congr 1
  ring

theorem untilWall?_cornering_of_away {wall : Segment ℝ}
    (member : wall ∈ (Scene.standardFrame : Scene.Frame ℝ).walls)
    (away : cornering.rate wall = 20000) (far : 2000 ≤ cornering.offset wall) :
    cornering.untilWall? .ends wall = none := by
  have berth := berth_cornering member
  cases found : cornering.lineContact? wall with
  | none => simp [Ball.untilWall?, Ball.untilEnds?, found]
  | some time =>
    have closer := Ball.approaching_of_lineContact? (standard_wall_sound member) (.inl rfl)
      (by linarith) (by linarith) found
    linarith

/-- The ball reaches the lines of the left wall and then of the upper one, but it is forecast to hit
the left one only. -/
theorem untilWall?_cornering {place : WallId} {wall : Segment ℝ}
    (there : (Scene.standardFrame : Scene.Frame ℝ).walls[place]? = some wall) :
    cornering.untilWall? .ends wall = if place = 3 then some 100 else none := by
  have member := List.mem_of_getElem? there
  have whole : (100 : Millis).toNat = 100 := rfl
  rcases getElem?_standard_walls there with ⟨rfl, rfl⟩ | ⟨rfl, rfl⟩ | ⟨rfl, rfl⟩ | ⟨rfl, rfl⟩
  · rw [untilWall?_cornering_of_closer 250 (-1 / 40) member, if_neg (by norm_num),
      if_neg (by decide)]
    all_goals
      norm_num [Ball.rate, Ball.offset, Ball.moved_eq, Segment.span, Vec.sub_eq, Vec.add_eq,
        Vec.smul_eq, Vec.wedge_eq, Vec.dot_eq, cornering]
  · apply untilWall?_cornering_of_away member <;>
      norm_num [Ball.rate, Ball.offset, Segment.span, Vec.sub_eq, Vec.wedge_eq, cornering]
  · apply untilWall?_cornering_of_away member <;>
      norm_num [Ball.rate, Ball.offset, Segment.span, Vec.sub_eq, Vec.wedge_eq, cornering]
  · rw [untilWall?_cornering_of_closer (100 : Millis).toNat (7 / 8) member, if_pos (by norm_num),
      Scalar.wholeMillis?_toNat, if_pos rfl]
    all_goals
      norm_num [Ball.rate, Ball.offset, Ball.moved_eq, Segment.span, Vec.sub_eq, Vec.add_eq,
        Vec.smul_eq, Vec.wedge_eq, Vec.dot_eq, cornering, whole]

theorem mem_forecasts_corner {forecast : Forecast} :
    forecast ∈ corner.table.forecasts ↔ forecast = ⟨100, .wall 0 3⟩ := by
  obtain ⟨delay, contact⟩ := forecast
  cases contact with
  | pair a b =>
    constructor
    · intro member
      obtain ⟨less, inside⟩ := Table.at_of_mem_forecasts member
      exact absurd (Nat.lt_one_iff.1 inside) (Nat.ne_of_gt (Nat.zero_lt_of_lt less))
    · intro same
      cases same
  | wall hit place =>
    rw [Table.wall_mem_forecasts]
    constructor
    · rintro ⟨ball, wall, here, there, forecast⟩
      obtain rfl : hit = 0 := Nat.lt_one_iff.1 (List.getElem?_eq_some_iff.1 here).1
      obtain rfl : cornering = ball := Option.some.inj here
      obtain ⟨rfl, rfl⟩ : place = 3 ∧ 100 = delay := by
        simpa using (untilWall?_cornering there).symm.trans forecast
      rfl
    · intro same
      cases same
      have inside : 3 < (Scene.standardFrame : Scene.Frame ℝ).walls.length := Nat.lt_succ_self 3
      have there := List.getElem?_eq_getElem inside
      exact ⟨cornering, _, rfl, there, (untilWall?_cornering there).trans (if_pos rfl)⟩

theorem nextContact?_corner : corner.table.nextContact? [] = some ⟨100, .wall 0 3⟩ := by
  cases found : corner.table.nextContact? [] with
  | none => cases Table.nextContact?_eq_none.1 found _ (mem_forecasts_corner.2 rfl)
  | some soonest => rw [mem_forecasts_corner.1 (Table.nextContact?_mem found).1]

/-- Off the left wall, the ball is as fast as before. -/
theorem velocity_bounce_cornering {wall : Segment ℝ}
    (there : (Scene.standardFrame : Scene.Frame ℝ).walls[3]? = some wall) :
    ((cornering.drift 100).bounce wall).velocity = ⟨100, -100⟩ := by
  have member := List.mem_of_getElem? there
  have long : negligible ≤ wall.span.normSq := by
    norm_num [normSq_standard_wall member, Scalar.negligible_eq]
  have along := (cornering.drift 100).dot_span_bounce (standard_wall_sound member) long
  have across := (cornering.drift 100).dot_across_bounce (standard_wall_sound member) long
  rcases getElem?_standard_walls there with ⟨same, _⟩ | ⟨same, _⟩ | ⟨same, _⟩ | ⟨_, rfl⟩
  · cases same
  · cases same
  · cases same
  generalize ((cornering.drift 100).bounce _).velocity = velocity at along across
  simp only [Segment.across, Segment.span, Vec.sub_eq, Vec.quarterTurn_eq, Vec.dot_eq, Ball.drift,
    cornering] at along across
  apply Vec.eq_of_parts
  · change velocity.x = 100
    linarith
  · change velocity.y = -100
    linarith

end Corner

/-- The ball hits the left wall a tenth of a second after the start, and is in the box still. -/
theorem no_ball_leaves_box_corner :
    ∃ (first : Simulation ℝ (Blank ℝ) Conductor) (event : Event) (rest : Agenda),
      corner.conduct id ⟨⟩ = .ok first ∧
      (first.follow [.start, .advance 100]).stage.agenda.popDue?
        (first.follow [.start, .advance 100]).now = some (event, rest) ∧
      event.signal = .wall 0 3 100 ∧
      Course Table.Measured first (first.follow [.start, .advance 100, .step]) ∧
      (first.follow [.start, .advance 100, .step]).stage.table.walls =
        (Scene.standardFrame : Scene.Frame ℝ).walls ∧
      (first.follow [.start, .advance 100, .step]).stage.table.balls.map (·.radius) =
        corner.table.balls.map (·.radius) ∧
      ∀ ball ∈ (first.follow [.start, .advance 100, .step]).stage.table.balls,
        ball.Within Scene.standardFrame := by
  obtain ⟨first, event, rest, made, same, popped, tells⟩ :=
    Armed.exists_run_to_contact corner_fine (⟨⟩ : Blank ℝ) rfl nextContact?_corner (by decide)
  obtain ⟨poised, table, _⟩ := Poised.of_conduct made
  have bounced : (first.follow [.start, .advance 100, .step]).stage.table.Measured := by
    obtain ⟨_, ready, _⟩ := poised.follow [.start, .advance 100]
    obtain ⟨_, _, alike⟩ := poised.follow [.start, .advance 100, .step]
    have alone : _ = [cornering] := congrArg Table.balls same
    obtain ⟨wall, there, only⟩ := ready.bounces_alone alone popped tells
    rw [same] at there
    rw [table] at alike
    apply measured_of_swift alike.walls
    intro ball member
    obtain rfl := List.mem_singleton.1 (only ▸ member)
    rw [velocity_bounce_cornering there, Ball.radius_bounce]
    norm_num [Ball.drift, cornering]
  have course : Course Table.Measured first (first.follow [.start, .advance 100, .step]) := by
    apply Course.move .step (.move (.advance 100) (.move .start .begin ?_) ?_)
    · exact fun _ => bounced
    · exact fun _ => (poised.table_start.trans table).symm ▸ corner_measured
    · intro arms
      cases arms
  have large : negligible ≤ (200.0 * 200.0 : ℝ) := by norm_num [Scalar.negligible_eq]
  have long : 0 < (200.0 : ℝ) := by norm_num
  refine ⟨first, event, rest, made, popped, tells, course,
    no_ball_leaves_box made rfl rfl long long large large ?_ course⟩
  intro ball member
  obtain rfl := List.mem_singleton.1 member
  constructor <;> norm_num [Scene.standardFrame, cornering]

end Simulation

end Billiard
