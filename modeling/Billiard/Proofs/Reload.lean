import Billiard.Proofs.Short
import Billiard.Scene.Document

/-!
What becomes of a scene that is saved and loaded again. Every part is read from where it was written
(`reads_scene`), so only the machine numbers decide: the scene is the same exactly when each of its
numbers, saved and loaded by itself, is the same, and short numbers are (`Scene.reloads_iff`).
Reading rounds the digits of a number before it divides them by a power of ten, and so a long number
may not come back (`Scene.long_place_moves`).
-/

namespace Billiard.Scene.Document

open Json (Codec Field Values)
open Json.Field (rereadAll_cons_iff rereadAll_one_iff)

theorem local_numberField (name : String) : (numberField name).codec.Local :=
  Codec.finds_float.isLocal

theorem reads_vec : vec.Reads fun v back =>
    Codec.float.reread v.x = .ok back.x ∧ Codec.float.reread v.y = .ok back.y := by
  let parts (v : Vec Float) : Values [numberField "x", numberField "y"] := (v.x, v.y, ())
  refine (Codec.finds_tuple parts (fun _ => rfl) ?_).reads_parts (fun _ => rfl) (fun _ => rfl) ?_
  · simp only [List.forall_mem_cons]
    exact ⟨local_numberField _, local_numberField _, nofun⟩
  intro v back
  refine rereadAll_cons_iff.trans (and_congr_right' ?_)
  exact rereadAll_one_iff

theorem reads_turret : turret.Reads fun turret back =>
    Codec.float.reread turret.angle = .ok back.angle ∧
      Codec.float.reread turret.length = .ok back.length ∧
        Codec.float.reread turret.width = .ok back.width ∧
          vec.reread turret.pivot = .ok back.pivot := by
  refine (Codec.finds_record ?_ (by decide)).reads_parts (fun _ => rfl) (fun _ => rfl) ?_
  · simp only [List.forall_mem_cons]
    exact ⟨local_numberField _, local_numberField _, local_numberField _, reads_vec.isLocal, nofun⟩
  intro turret back
  refine rereadAll_cons_iff.trans (and_congr_right' ?_)
  refine rereadAll_cons_iff.trans (and_congr_right' ?_)
  refine rereadAll_cons_iff.trans (and_congr_right' ?_)
  exact rereadAll_one_iff

theorem reads_sceneWall : sceneWall.Reads fun wall back =>
    Codec.float.reread wall.start.x = .ok back.start.x ∧
      Codec.float.reread wall.start.y = .ok back.start.y ∧
        Codec.float.reread wall.finish.x = .ok back.finish.x ∧
          Codec.float.reread wall.finish.y = .ok back.finish.y := by
  refine (Codec.finds_record ?_ (by decide)).reads_parts (fun _ => rfl) (fun _ => rfl) ?_
  · simp only [List.forall_mem_cons]
    exact ⟨local_numberField _, local_numberField _, local_numberField _, local_numberField _,
      nofun⟩
  intro wall back
  refine rereadAll_cons_iff.trans (and_congr_right' ?_)
  refine rereadAll_cons_iff.trans (and_congr_right' ?_)
  refine rereadAll_cons_iff.trans (and_congr_right' ?_)
  exact rereadAll_one_iff

theorem reads_sceneBall : sceneBall.Reads fun ball back =>
    Codec.float.reread ball.position.x = .ok back.position.x ∧
      Codec.float.reread ball.position.y = .ok back.position.y ∧
        Codec.float.reread ball.velocity.x = .ok back.velocity.x ∧
          Codec.float.reread ball.velocity.y = .ok back.velocity.y ∧
            Codec.float.reread ball.radius = .ok back.radius := by
  refine (Codec.finds_record ?_ (by decide)).reads_parts (fun _ => rfl) (fun _ => rfl) ?_
  · simp only [List.forall_mem_cons]
    exact ⟨local_numberField _, local_numberField _, local_numberField _, local_numberField _,
      local_numberField _, nofun⟩
  intro ball back
  refine rereadAll_cons_iff.trans (and_congr_right' ?_)
  refine rereadAll_cons_iff.trans (and_congr_right' ?_)
  refine rereadAll_cons_iff.trans (and_congr_right' ?_)
  refine rereadAll_cons_iff.trans (and_congr_right' ?_)
  exact rereadAll_one_iff

theorem reads_interval : (Codec.optional Codec.whole).Reads Eq := by
  have present (value : Millis) (style : Json.Document.Style) (depth : Nat) :
      ((Codec.whole.write value).render style depth).toList.head? ≠ some 'n' := by
    change (Json.Document.render style depth (.natural value.toNat)).toList.head? ≠ _
    obtain ⟨c, more, text, digit⟩ := (Json.Number.isMagnitude_toDigits value.toNat).exists_cons
    rw [Json.Document.render, Nat.toList_repr, text]
    rintro ⟨⟩
    cases digit
  refine (Codec.finds_optional Codec.finds_whole present).reads ?_
  rintro (_ | value) back
  · exact ⟨Except.ok.inj, congrArg _⟩
  · exact ⟨Except.ok.inj, congrArg _⟩

theorem reads_reach : reach.Reads Eq :=
  (Codec.finds_choice (by rintro (_ | _) <;> rfl)).reads ⟨Except.ok.inj, congrArg _⟩

theorem reads_response : response.Reads Eq :=
  (Codec.finds_choice (by rintro (_ | _) <;> rfl)).reads ⟨Except.ok.inj, congrArg _⟩

theorem local_walls : (Codec.list sceneWall).Local :=
  (Codec.finds_list reads_sceneWall.isLocal).isLocal

theorem local_balls : (Codec.list sceneBall).Local :=
  (Codec.finds_list reads_sceneBall.isLocal).isLocal

theorem reads_scene : Document.scene.Reads fun scene back =>
    (Codec.list sceneWall).reread scene.table.walls = .ok back.table.walls ∧
      (Codec.list sceneBall).reread scene.table.balls = .ok back.table.balls ∧
        scene.interval = back.interval ∧
          Document.turret.reread scene.table.turret = .ok back.table.turret ∧
            scene.table.reach = back.table.reach ∧ scene.table.response = back.table.response := by
  refine (Codec.finds_record ?_ (by decide)).reads_parts (fun _ => rfl) (fun _ => rfl) ?_
  · simp only [List.forall_mem_cons]
    exact ⟨local_walls, local_balls, reads_interval.isLocal, reads_turret.isLocal,
      reads_reach.isLocal, reads_response.isLocal, nofun⟩
  intro scene back
  refine rereadAll_cons_iff.trans (and_congr_right' ?_)
  refine rereadAll_cons_iff.trans (and_congr_right' ?_)
  refine rereadAll_cons_iff.trans (and_congr reads_interval.reread_iff ?_)
  refine rereadAll_cons_iff.trans (and_congr_right' ?_)
  refine rereadAll_cons_iff.trans (and_congr reads_reach.reread_iff ?_)
  exact rereadAll_one_iff.trans reads_response.reread_iff

end Billiard.Scene.Document

namespace Billiard

open Json (Codec)

/-- The numbers of a pair of coordinates. -/
def Vec.numbers (v : Vec Float) : List Float := [v.x, v.y]

/-- The numbers of a wall. -/
def Segment.numbers (s : Segment Float) : List Float :=
  [s.start.x, s.start.y, s.finish.x, s.finish.y]

/-- The numbers of a ball. -/
def Ball.numbers (ball : Ball Float) : List Float :=
  [ball.position.x, ball.position.y, ball.velocity.x, ball.velocity.y, ball.radius]

/-- The numbers of the turret. -/
def Turret.numbers (turret : Turret Float) : List Float :=
  turret.angle :: turret.length :: turret.width :: turret.pivot.numbers

/-- All machine numbers of a scene. -/
def Scene.numbers (scene : Scene Float) : List Float :=
  scene.table.walls.flatMap Segment.numbers ++ scene.table.balls.flatMap Ball.numbers ++
    scene.table.turret.numbers

/-- A number that is saved by itself and loaded again is the same. -/
def Json.Number.Reloads (x : Float) : Prop := ∃ y, Codec.float.reread x = .ok y ∧ y == x

namespace Json.Number

theorem isFinite_of_reread {x y : Float} (again : Codec.float.reread x = .ok y) : x.isFinite := by
  rw [Codec.finds_float.reread_eq, Number.again] at again
  split at again
  · next finite => exact finite
  · cases again

/-- Zeros are found with their signs, so a number that reloads is found as it is. -/
theorem reloads_iff_reread {x : Float} : Reloads x ↔ Codec.float.reread x = .ok x := by
  constructor
  · rintro ⟨y, again, same⟩
    rcases Decimal.eq_of_beq same with rfl | ⟨_, rfl | rfl⟩
    · exact again
    · exact reread_zero
    · exact reread_neg_zero
  · exact fun again => ⟨x, again, Decimal.beq_self (isFinite_of_reread again)⟩

theorem Reloads.found {x : Float} (reloads : Reloads x) : Codec.float.reread x = .ok x :=
  reloads_iff_reread.1 reloads

theorem Short.reloads {x : Float} (short : Short x) : Reloads x :=
  reloads_iff_reread.2 (reread_of_short short)

theorem Reloads.beq_self {x : Float} (reloads : Reloads x) : x == x :=
  Decimal.beq_self (isFinite_of_reread (reloads_iff_reread.1 reloads))

end Json.Number

/-- Values with these numbers are found again, equal or as they are, if their numbers are. -/
structure Json.Codec.Carries {α : Type} [BEq α] (codec : Codec α) (numbers : α → List Float) :
    Prop where
  reloads : ∀ {value back}, codec.reread value = .ok back → back == value →
    ∀ x ∈ numbers value, Number.Reloads x
  reread : ∀ {value}, (∀ x ∈ numbers value, Number.Reloads x) →
    codec.reread value = .ok value ∧ value == value

open Json.Number (Reloads Short)

/-- A list is found again if its items are. -/
theorem Json.Codec.Carries.list {α : Type} [BEq α] {codec : Codec α} {numbers : α → List Float}
    (carries : codec.Carries numbers) (isLocal : codec.Local) :
    (Codec.list codec).Carries fun values => values.flatMap numbers := by
  have found : (Codec.list codec).reread = List.mapM codec.reread :=
    (Codec.finds_list isLocal).reread_eq
  constructor
  · intro values back again same
    rw [found] at again
    induction values generalizing back with
    | nil => exact nofun
    | cons value values ih =>
      rw [List.mapM_cons] at again
      cases head : codec.reread value with
      | error fault =>
        rw [head] at again
        cases again
      | ok first =>
        cases tail : values.mapM codec.reread with
        | error fault =>
          rw [head, tail] at again
          cases again
        | ok others =>
          rw [head, tail] at again
          cases again
          obtain ⟨sameHead, sameTail⟩ : first == value ∧ others == values :=
            Bool.and_eq_true_iff.1 same
          rw [List.flatMap_cons, List.forall_mem_append]
          exact ⟨carries.reloads head sameHead, ih tail sameTail⟩
  · intro values all
    rw [found]
    induction values with
    | nil => exact ⟨rfl, rfl⟩
    | cons value values ih =>
      rw [List.flatMap_cons, List.forall_mem_append] at all
      obtain ⟨head, sameHead⟩ := carries.reread all.1
      obtain ⟨tail, sameTail⟩ := ih all.2
      rw [List.mapM_cons, head, tail]
      exact ⟨rfl, Bool.and_eq_true_iff.2 ⟨sameHead, sameTail⟩⟩

namespace Scene.Document

theorem carries_vec : vec.Carries Vec.numbers where
  reloads {v back} again same := by
    obtain ⟨x, y⟩ := reads_vec.reread_iff.1 again
    obtain ⟨sameX, sameY⟩ : back.x == v.x ∧ back.y == v.y := Bool.and_eq_true_iff.1 same
    simp only [Vec.numbers, List.forall_mem_cons]
    exact ⟨⟨_, x, sameX⟩, ⟨_, y, sameY⟩, nofun⟩
  reread {v} all := by
    simp only [Vec.numbers, List.forall_mem_cons] at all
    obtain ⟨x, y, _⟩ := all
    refine ⟨reads_vec.reread_iff.2 ⟨x.found, y.found⟩, ?_⟩
    exact Bool.and_eq_true_iff.2 ⟨x.beq_self, y.beq_self⟩

theorem carries_turret : turret.Carries Turret.numbers where
  reloads {turret back} again same := by
    change (_ && (_ && (_ && _))) = true at same
    simp only [Bool.and_eq_true] at same
    obtain ⟨angle, length, width, pivot⟩ := reads_turret.reread_iff.1 again
    simp only [Turret.numbers, List.forall_mem_cons]
    exact ⟨⟨_, angle, same.1⟩, ⟨_, length, same.2.1⟩, ⟨_, width, same.2.2.1⟩,
      carries_vec.reloads pivot same.2.2.2⟩
  reread {turret} all := by
    simp only [Turret.numbers, List.forall_mem_cons] at all
    obtain ⟨angle, length, width, both⟩ := all
    obtain ⟨pivot, same⟩ := carries_vec.reread both
    refine ⟨reads_turret.reread_iff.2
      ⟨angle.found, length.found, width.found, pivot⟩, ?_⟩
    change (_ && (_ && (_ && _))) = true
    simp only [Bool.and_eq_true]
    exact ⟨angle.beq_self, length.beq_self, width.beq_self, same⟩

theorem carries_sceneWall : sceneWall.Carries Segment.numbers where
  reloads {wall back} again same := by
    change ((_ && _) && (_ && _)) = true at same
    simp only [Bool.and_eq_true] at same
    obtain ⟨x₀, y₀, x₁, y₁⟩ := reads_sceneWall.reread_iff.1 again
    simp only [Segment.numbers, List.forall_mem_cons]
    exact ⟨⟨_, x₀, same.1.1⟩, ⟨_, y₀, same.1.2⟩, ⟨_, x₁, same.2.1⟩, ⟨_, y₁, same.2.2⟩, nofun⟩
  reread {wall} all := by
    simp only [Segment.numbers, List.forall_mem_cons] at all
    obtain ⟨x₀, y₀, x₁, y₁, _⟩ := all
    refine ⟨reads_sceneWall.reread_iff.2
      ⟨x₀.found, y₀.found, x₁.found, y₁.found⟩, ?_⟩
    change ((_ && _) && (_ && _)) = true
    simp only [Bool.and_eq_true]
    exact ⟨⟨x₀.beq_self, y₀.beq_self⟩, x₁.beq_self, y₁.beq_self⟩

theorem carries_sceneBall : sceneBall.Carries Ball.numbers where
  reloads {ball back} again same := by
    change ((_ && _) && ((_ && _) && _)) = true at same
    simp only [Bool.and_eq_true] at same
    obtain ⟨x, y, vx, vy, radius⟩ := reads_sceneBall.reread_iff.1 again
    simp only [Ball.numbers, List.forall_mem_cons]
    exact ⟨⟨_, x, same.1.1⟩, ⟨_, y, same.1.2⟩, ⟨_, vx, same.2.1.1⟩, ⟨_, vy, same.2.1.2⟩,
      ⟨_, radius, same.2.2⟩, nofun⟩
  reread {ball} all := by
    simp only [Ball.numbers, List.forall_mem_cons] at all
    obtain ⟨x, y, vx, vy, radius, _⟩ := all
    refine ⟨reads_sceneBall.reread_iff.2 ⟨x.found, y.found, vx.found,
      vy.found, radius.found⟩, ?_⟩
    change ((_ && _) && ((_ && _) && _)) = true
    simp only [Bool.and_eq_true]
    exact ⟨⟨x.beq_self, y.beq_self⟩, ⟨vx.beq_self, vy.beq_self⟩, radius.beq_self⟩

theorem carries_walls : (Codec.list sceneWall).Carries fun walls => walls.flatMap Segment.numbers :=
  carries_sceneWall.list reads_sceneWall.isLocal

theorem carries_balls : (Codec.list sceneBall).Carries fun balls => balls.flatMap Ball.numbers :=
  carries_sceneBall.list reads_sceneBall.isLocal

theorem carries_scene : Document.scene.Carries Scene.numbers where
  reloads {scene back} again same := by
    change ((_ && (_ && (_ && (_ && _)))) && _) = true at same
    simp only [Bool.and_eq_true] at same
    obtain ⟨walls, balls, _, turret, _⟩ := reads_scene.reread_iff.1 again
    simp only [Scene.numbers, List.forall_mem_append]
    exact ⟨⟨carries_walls.reloads walls same.1.1, carries_balls.reloads balls same.1.2.1⟩,
      carries_turret.reloads turret same.1.2.2.1⟩
  reread {scene} all := by
    simp only [Scene.numbers, List.forall_mem_append] at all
    obtain ⟨walls, sameWalls⟩ := carries_walls.reread all.1.1
    obtain ⟨balls, sameBalls⟩ := carries_balls.reread all.1.2
    obtain ⟨turret, sameTurret⟩ := carries_turret.reread all.2
    refine ⟨reads_scene.reread_iff.2 ⟨walls, balls, rfl, turret, rfl, rfl⟩, ?_⟩
    change ((_ && (_ && (_ && (_ && _)))) && _) = true
    simp only [Bool.and_eq_true]
    exact ⟨⟨sameWalls, sameBalls, sameTurret, beq_self_eq_true _, beq_self_eq_true _⟩,
      beq_self_eq_true _⟩

end Scene.Document

namespace Scene

/-- A text holds a scene if it reads as the scene and nothing is wrong with it. -/
theorem ofJson?_eq_ok_iff {text : String} {scene : Scene Float} :
    ofJson? text = .ok scene ↔
      Document.scene.decode text = .ok scene ∧ scene.check = .ok () := by
  unfold ofJson?
  cases Document.scene.decode text with
  | error fault => exact ⟨nofun, nofun⟩
  | ok found =>
    constructor
    · intro loaded
      split at loaded
      · next fault read => cases read
      · next found' read =>
        cases read
        split at loaded
        · cases loaded
        · next fine =>
          cases loaded
          exact ⟨rfl, fine⟩
    · rintro ⟨⟨⟩, fine⟩
      simp only [fine]

/-- A scene that was loaded, saved and loaded again is the same scene exactly when each of its
numbers, saved and loaded by itself, is the same number. Every short number is. -/
theorem reloads_iff {text : String} {scene : Scene Float} (loaded : ofJson? text = .ok scene) :
    ((∃ back, ofJson? scene.toJson = .ok back ∧ back == scene) ↔
        ∀ x ∈ scene.numbers, Reloads x) ∧
      ∀ x ∈ scene.numbers, Short x → Reloads x := by
  refine ⟨⟨?_, ?_⟩, fun _ _ => Short.reloads⟩
  · rintro ⟨back, again, same⟩
    exact Document.carries_scene.reloads (ofJson?_eq_ok_iff.1 again).1 same
  · intro all
    obtain ⟨read, same⟩ := Document.carries_scene.reread all
    exact ⟨scene, ofJson?_eq_ok_iff.2 ⟨read, (ofJson?_eq_ok_iff.1 loaded).2⟩, same⟩

private theorem exists_of_numbers {text : String} {numbers : List Float}
    (found : (ofJson? text).toOption.map Scene.numbers = some numbers) :
    ∃ scene, ofJson? text = .ok scene ∧ scene.numbers = numbers := by
  cases loaded : ofJson? text with
  | error fault => simp [loaded, Except.toOption] at found
  | ok scene =>
    rw [loaded] at found
    exact ⟨scene, rfl, Option.some.inj found⟩

/-- A ball that rolls towards a wall. -/
def laneText : String :=
  "\x7b\"walls\":[\x7b\"x0\":9,\"y0\":-6,\"x1\":9,\"y1\":6\x7d]," ++
    "\"bodies\":[\x7b\"x\":0,\"y\":-2,\"vx\":10,\"vy\":0,\"radius\":1\x7d]\x7d"

/-- A scene of short numbers is found again. -/
theorem reloads_lane : ∃ scene, ofJson? laneText = .ok scene ∧
    ∃ back, ofJson? scene.toJson = .ok back ∧ back == scene := by
  have found : (ofJson? laneText).toOption.map Scene.numbers =
      some [9.0, -6.0, 9.0, 6.0, 0.0, -2.0, 10.0, 0.0, 1.0, 0.0, 10.0, 10.0, 200.0, 200.0] := by
    decide +kernel
  obtain ⟨scene, loaded, numbers⟩ := exists_of_numbers found
  have short : ∀ x ∈ scene.numbers, Short x := by
    rw [numbers]
    decide +kernel
  obtain ⟨same, reloads⟩ := reloads_iff loaded
  exact ⟨scene, loaded, same.2 fun x member => reloads x member (short x member)⟩

/-- One ball at a place with many digits. -/
def longText : String :=
  "\x7b\"walls\":[],\"bodies\":[\x7b\"x\":7205759403792796,\"y\":0," ++
    "\"vx\":0,\"vy\":0,\"radius\":1\x7d]\x7d"

/-- The place is loaded as it is, but not found again: with the zero behind the point, its digits
round up, and so does their tenth. -/
theorem long_place_moves : ∃ scene, ofJson? longText = .ok scene ∧
    ¬∃ back, ofJson? scene.toJson = .ok back ∧ back == scene := by
  have found : (ofJson? longText).toOption.map Scene.numbers =
      some [7205759403792796.0, 0.0, 0.0, 0.0, 1.0, 0.0, 10.0, 10.0, 200.0, 200.0] := by
    decide +kernel
  obtain ⟨scene, loaded, numbers⟩ := exists_of_numbers found
  refine ⟨scene, loaded, fun ⟨back, again, same⟩ => ?_⟩
  have long : (7205759403792796.0 : Float) ∈ scene.numbers := numbers ▸ List.mem_cons_self
  obtain ⟨place, read, equal⟩ :=
    Document.carries_scene.reloads (ofJson?_eq_ok_iff.1 again).1 same _ long
  have wrote : Codec.float.encode Json.Document.pretty 7205759403792796.0 =
      "7205759403792796.0" := by decide +kernel
  have tenths : Codec.float.decode "7205759403792796.0" =
      .ok (Json.Number.divide (72057594037927960 : UInt64).toFloat 1) := rfl
  rw [Json.Number.reread_of_tenths wrote tenths] at read
  cases read
  revert equal
  decide +kernel

end Scene

end Billiard
