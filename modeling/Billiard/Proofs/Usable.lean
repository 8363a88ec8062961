import Billiard.Proofs.Reload
import Billiard.Proofs.Waiting

/-!
Which scenes pass their check. It looks at the beats, then at the walls, then at the balls, and
complains about the first of them that is flawed; the turret it does not look at. So a scene is
usable, and every one of its numbers is written as a number, exactly if it passes and the numbers of
its turret are finite (`usable_iff_checked`). A scene can pass with a turret that points nowhere
(`nowhere_passes`).
-/

namespace Billiard

namespace Json

namespace Document

mutual

/-- The machine numbers in a document, in order. -/
def floats : Document → List Float
  | .null | .natural _ | .text _ => []
  | .float value => [value]
  | .list items => itemFloats items
  | .object members => memberFloats members

/-- The machine numbers in items. -/
def itemFloats : List Document → List Float
  | [] => []
  | item :: rest => item.floats ++ itemFloats rest

/-- The machine numbers in the values of keys. -/
def memberFloats : List (String × Document) → List Float
  | [] => []
  | (_, value) :: rest => value.floats ++ memberFloats rest

end

/-- Exactly the numbers that are not finite are written as null. -/
theorem floatText_eq_null_iff {value : Float} : floatText value = "null" ↔ ¬value.isFinite := by
  constructor
  · intro nothing finite
    obtain ⟨c, more, text, begins⟩ := (floatText_isNumeral finite).exists_cons
    rw [nothing] at text
    obtain rfl : 'n' = c := (List.cons.inj text).1
    simp at begins
  · exact fun infinite => if_neg infinite

end Document

/-- The machine numbers that a codec writes. -/
def Codec.Writes {α : Type} (codec : Codec α) (numbers : α → List Float) : Prop :=
  ∀ value, (codec.write value).floats = numbers value

theorem Codec.Writes.list {α : Type} {codec : Codec α} {numbers : α → List Float}
    (writes : codec.Writes numbers) : (Codec.list codec).Writes (List.flatMap numbers) := by
  intro values
  change Document.itemFloats (values.map codec.write) = _
  induction values with
  | nil => rfl
  | cons value values ih =>
    rw [List.map_cons, Document.itemFloats, writes, ih, List.flatMap_cons]

end Json

/-- A part of a scene that can be flawed. -/
inductive Scene.Part where
  | interval
  | wall (id : WallId)
  | ball (id : BallId)

namespace Scene.Part

/-- What a part is called in reports. -/
def name : Part → String
  | .interval => "paint_interval_ms"
  | .wall id => "wall " ++ Nat.repr id
  | .ball id => "ball " ++ Nat.repr id

/-- Beats come first, then walls, then balls. -/
def Precedes : Part → Part → Prop
  | .interval, .interval => False
  | .interval, .wall _ | .interval, .ball _ => True
  | .wall id, .wall other => id < other
  | .wall _, .ball _ => True
  | .ball id, .ball other => id < other
  | .wall _, .interval | .ball _, .interval | .ball _, .wall _ => False

end Scene.Part

/-- The part of the scene that a complaint is about. -/
def SceneFault.part : SceneFault Float → Scene.Part
  | .stillInterval => .interval
  | .badWall id => .wall id
  | .boundlessBall id | .badRadius id _ => .ball id

namespace Scene

open Json (Codec)

theorem Document.writes_sceneWall : Document.sceneWall.Writes Segment.numbers := fun _ => rfl

theorem Document.writes_sceneBall : Document.sceneBall.Writes Ball.numbers := fun _ => rfl

/-- All machine numbers of a scene are written, and no others. -/
theorem Document.writes_scene : Document.scene.Writes Scene.numbers := by
  intro scene
  have walls := Document.writes_sceneWall.list scene.table.walls
  have balls := Document.writes_sceneBall.list scene.table.balls
  have interval : ((Codec.optional Codec.whole).write scene.interval).floats = [] := by
    cases scene.interval <;> rfl
  change ((Codec.list sceneWall).write scene.table.walls).floats ++
    (((Codec.list sceneBall).write scene.table.balls).floats ++
      (((Codec.optional Codec.whole).write scene.interval).floats ++
        scene.table.turret.numbers)) = _
  rw [walls, balls, interval, List.nil_append, ← List.append_assoc]
  rfl

/-- A wall with finite ends and a length that gives it a direction. -/
structure UsableWall (wall : Segment Float) : Prop where
  finite : ∀ x ∈ wall.numbers, x.isFinite
  measured : wall.length.isFinite
  long : Scalar.negligible ≤ wall.length

/-- A ball that is somewhere, moves somewhere and has a size. -/
structure UsableBall (ball : Ball Float) : Prop where
  finite : ∀ x ∈ ball.numbers, x.isFinite
  sized : 0.0 < ball.radius

/-- Something is wrong with a part of the scene. -/
def Flawed (scene : Scene Float) : Part → Prop
  | .interval => scene.interval = some 0
  | .wall id => ∃ wall, scene.table.walls[id]? = some wall ∧ ¬UsableWall wall
  | .ball id => ∃ ball, scene.table.balls[id]? = some ball ∧ ¬UsableBall ball

/-- Time passes between beats, all numbers are finite, walls have a direction and balls a size. -/
structure Usable (scene : Scene Float) : Prop where
  interval : scene.interval ≠ some 0
  finite : ∀ x ∈ scene.numbers, x.isFinite
  walls : ∀ wall ∈ scene.table.walls, wall.length.isFinite ∧ Scalar.negligible ≤ wall.length
  balls : ∀ ball ∈ scene.table.balls, 0.0 < ball.radius

/-- The numbers of the turret are finite. -/
def Aimed (scene : Scene Float) : Prop := ∀ x ∈ scene.table.turret.numbers, x.isFinite

variable {scene : Scene Float} {fault : SceneFault Float}

theorem forall_not_flawed_iff : (∀ part, ¬scene.Flawed part) ↔ scene.interval ≠ some 0 ∧
    (∀ (id : WallId) wall, scene.table.walls[id]? = some wall → UsableWall wall) ∧
      ∀ (id : BallId) ball, scene.table.balls[id]? = some ball → UsableBall ball := by
  constructor
  · intro sound
    refine ⟨sound .interval, fun id wall there => ?_, fun id ball there => ?_⟩
    · exact Classical.byContradiction fun useless => sound (.wall id) ⟨wall, there, useless⟩
    · exact Classical.byContradiction fun useless => sound (.ball id) ⟨ball, there, useless⟩
  · rintro ⟨moving, walls, balls⟩ (_ | id | id)
    · exact moving
    · exact fun ⟨wall, there, useless⟩ => useless (walls id wall there)
    · exact fun ⟨ball, there, useless⟩ => useless (balls id ball there)

/-- A scene is usable if no part is flawed and the turret points somewhere. -/
theorem usable_iff : scene.Usable ↔ (∀ part, ¬scene.Flawed part) ∧ scene.Aimed := by
  rw [forall_not_flawed_iff]
  constructor
  · rintro ⟨moving, finite, walls, balls⟩
    simp only [numbers, List.forall_mem_append, List.forall_mem_flatMap] at finite
    refine ⟨⟨moving, fun id wall there => ?_, fun id ball there => ?_⟩, finite.2⟩
    · have member := List.mem_of_getElem? there
      exact ⟨finite.1.1 wall member, (walls wall member).1, (walls wall member).2⟩
    · have member := List.mem_of_getElem? there
      exact ⟨finite.1.2 ball member, balls ball member⟩
  · rintro ⟨⟨moving, walls, balls⟩, aimed⟩
    have walls (wall) (member : wall ∈ scene.table.walls) : UsableWall wall :=
      (List.mem_iff_getElem?.1 member).elim fun id there => walls id wall there
    have balls (ball) (member : ball ∈ scene.table.balls) : UsableBall ball :=
      (List.mem_iff_getElem?.1 member).elim fun id there => balls id ball there
    refine ⟨moving, ?_, fun wall member => ?_, fun ball member => (balls ball member).sized⟩
    · simp only [numbers, List.forall_mem_append, List.forall_mem_flatMap]
      exact ⟨⟨fun wall member => (walls wall member).finite,
        fun ball member => (balls ball member).finite⟩, aimed⟩
    · exact ⟨(walls wall member).measured, (walls wall member).long⟩

theorem wallFault?_eq_none_iff {id : WallId} {wall : Segment Float} :
    wallFault? id wall = none ↔ UsableWall wall := by
  have finite : wallIsFinite wall = true ↔ ∀ x ∈ wall.numbers, x.isFinite := List.all_eq_true
  have straight : wall.isDegenerate = false ↔
      wall.length.isFinite ∧ Scalar.negligible ≤ wall.length := by
    have least : (Scalar.negligible : Float).isFinite := by decide +kernel
    have measured : wall.isDegenerate = false ↔
        wall.length.isFinite ∧ ¬wall.length < Scalar.negligible := by
      simp [Segment.isDegenerate, Scalar.isFinite]
    rw [measured]
    exact and_congr_right fun measured => Decimal.not_lt_iff measured least
  simp only [wallFault?, ite_eq_right_iff, reduceCtorEq, imp_false, not_or, Bool.not_eq_true',
    Bool.not_eq_false, Bool.not_eq_true, finite, straight]
  exact ⟨fun ⟨finite, measured, long⟩ => ⟨finite, measured, long⟩,
    fun usable => ⟨usable.finite, usable.measured, usable.long⟩⟩

theorem ballFault?_eq_none_iff {id : BallId} {ball : Ball Float} :
    ballFault? id ball = none ↔ UsableBall ball := by
  have finite : (∀ x ∈ ball.numbers, x.isFinite) ↔
      ballIsFinite ball = true ∧ ball.radius.isFinite := by
    simp [ballIsFinite, Ball.numbers, Scalar.isFinite, and_assoc]
  constructor
  · intro fine
    unfold ballFault? at fine
    split at fine
    · cases fine
    · next still =>
      split at fine
      · next sized => exact ⟨finite.2 ⟨by simpa using still, sized.1⟩, sized.2⟩
      · cases fine
  · rintro ⟨all, sized⟩
    obtain ⟨still, radius⟩ := finite.1 all
    have good : Scalar.isFinite ball.radius = true ∧ 0.0 < ball.radius := ⟨radius, sized⟩
    simp [ballFault?, still, good]

/-- A scene passes its check if no part is flawed, whatever the turret is like. -/
theorem check_eq_ok_iff : scene.check = .ok () ↔ ∀ part, ¬scene.Flawed part := by
  have passes : scene.check = .ok () ↔ scene.fault? = none := by
    unfold check
    cases scene.fault? <;> simp
  rw [passes, fault?_eq_none, forall_not_flawed_iff]
  simp only [wallFault?_eq_none_iff, ballFault?_eq_none_iff]

/-- What is found from the first entry on is wrong with an entry, and nothing with those before. -/
theorem exists_first_fault {α β : Type} {entries : List α} {fault? : Nat → α → Option β} {fault : β}
    (found : (entries.zipIdx.findSome? fun (entry, id) => fault? id entry) = some fault) :
    ∃ id entry, entries[id]? = some entry ∧ fault? id entry = some fault ∧
      ∀ earlier other, earlier < id → entries[earlier]? = some other →
        fault? earlier other = none := by
  induction entries generalizing fault? with
  | nil => cases found
  | cons entry rest ih =>
    rw [List.zipIdx_cons, List.findSome?_cons] at found
    cases here : fault? 0 entry with
    | some first =>
      simp only [here, Option.some.injEq] at found
      exact ⟨0, entry, rfl, found ▸ here, fun _ _ less => absurd less (Nat.not_lt_zero _)⟩
    | none =>
      simp only [here, List.zipIdx_succ, List.findSome?_map] at found
      have later : (rest.zipIdx.findSome? fun (other, id) => fault? (id + 1) other) =
          some fault := found
      obtain ⟨id, other, there, wrong, fine⟩ := @ih (fun id => fault? (id + 1)) later
      refine ⟨id + 1, other, there, wrong, ?_⟩
      rintro (_ | earlier) before less place
      · cases place
        exact here
      · exact fine earlier before (Nat.lt_of_succ_lt_succ less) place

theorem part_of_wallFault? {id : WallId} {wall : Segment Float}
    (wrong : wallFault? id wall = some fault) : fault.part = .wall id ∧ ¬UsableWall wall := by
  refine ⟨?_, fun usable => by simp [wallFault?_eq_none_iff.2 usable] at wrong⟩
  unfold wallFault? at wrong
  split at wrong <;> cases wrong
  rfl

theorem part_of_ballFault? {id : BallId} {ball : Ball Float}
    (wrong : ballFault? id ball = some fault) : fault.part = .ball id ∧ ¬UsableBall ball := by
  refine ⟨?_, fun usable => by simp [ballFault?_eq_none_iff.2 usable] at wrong⟩
  unfold ballFault? at wrong
  repeat' split at wrong
  all_goals cases wrong
  all_goals rfl

/-- What is complained about is flawed, and nothing that is looked at before it is. -/
theorem first_flaw (rejected : scene.check = .error fault) :
    scene.Flawed fault.part ∧ ∀ other : Part, other.Precedes fault.part → ¬scene.Flawed other := by
  have found : scene.fault? = some fault := by
    unfold check at rejected
    split at rejected <;> cases rejected
    assumption
  unfold fault? at found
  split at found
  · next still =>
    cases found
    exact ⟨still, fun other before => by cases other <;> cases before⟩
  next moving =>
  cases walls : scene.table.walls.zipIdx.findSome? fun (wall, id) => wallFault? id wall with
  | some first =>
    obtain rfl : first = fault := by simpa [walls] using found
    obtain ⟨id, wall, there, wrong, fine⟩ := exists_first_fault walls
    obtain ⟨part, useless⟩ := part_of_wallFault? wrong
    rw [part]
    refine ⟨⟨wall, there, useless⟩, ?_⟩
    rintro (_ | earlier | _) before
    · exact moving
    · rintro ⟨other, place, useless⟩
      exact useless (wallFault?_eq_none_iff.1 (fine earlier other before place))
    · cases before
  | none =>
    rw [walls] at found
    have balls : (scene.table.balls.zipIdx.findSome? fun (ball, id) => ballFault? id ball) =
        some fault := found
    obtain ⟨id, ball, there, wrong, fine⟩ := exists_first_fault balls
    obtain ⟨part, useless⟩ := part_of_ballFault? wrong
    have sound := findSome?_zipIdx_eq_none.1 walls
    rw [part]
    refine ⟨⟨ball, there, useless⟩, ?_⟩
    rintro (_ | side | earlier) before
    · exact moving
    · rintro ⟨wall, place, useless⟩
      exact useless (wallFault?_eq_none_iff.1 (sound side wall place))
    · rintro ⟨other, place, useless⟩
      exact useless (ballFault?_eq_none_iff.1 (fine earlier other before place))

/-- Every complaint begins with the name of what it is about. -/
theorem exists_message (fault : SceneFault Float) :
    ∃ rest, fault.message = fault.part.name ++ " " ++ rest := by
  cases fault with
  | stillInterval => exact ⟨"must be positive (use null for headless)", rfl⟩
  | badWall id =>
    refine ⟨"is degenerate or not finite", ?_⟩
    rw [String.append_assoc]
    rfl
  | boundlessBall id =>
    refine ⟨"is not finite", ?_⟩
    rw [String.append_assoc]
    rfl
  | badRadius id radius =>
    refine ⟨"radius must be positive, got " ++ Decimal.prose.render radius, ?_⟩
    rw [← String.append_assoc, @String.append_assoc _ " "]
    rfl

/-- What makes a scene usable is checked but for the turret: a scene is usable exactly if it passes
its check and the numbers of its turret are finite. A complaint is about the first part that is
flawed, beats before walls before balls, and begins with its name. All numbers of a scene are
written; of a scene that passes, none of them is written as null exactly if those of the turret are
finite. -/
theorem usable_iff_checked (scene : Scene Float) :
    (scene.check = .ok () ↔ ∀ part, ¬scene.Flawed part) ∧
      (scene.Usable ↔ scene.check = .ok () ∧ scene.Aimed) ∧
      (∀ fault, scene.check = .error fault → scene.Flawed fault.part ∧
        (∀ other : Part, other.Precedes fault.part → ¬scene.Flawed other) ∧
        ∃ rest, fault.message = fault.part.name ++ " " ++ rest) ∧
      (Document.scene.write scene).floats = scene.numbers ∧
      (scene.check = .ok () →
        ((∀ x ∈ scene.numbers, Json.Document.floatText x ≠ "null") ↔ scene.Aimed)) := by
  refine ⟨check_eq_ok_iff, ?_, ?_, Document.writes_scene scene, ?_⟩
  · rw [check_eq_ok_iff, usable_iff]
  · intro fault rejected
    obtain ⟨flawed, first⟩ := first_flaw rejected
    exact ⟨flawed, first, exists_message fault⟩
  · intro passes
    have sound := check_eq_ok_iff.1 passes
    have written (x : Float) : Json.Document.floatText x ≠ "null" ↔ x.isFinite := by
      rw [Ne, Json.Document.floatText_eq_null_iff, not_not]
    simp only [written]
    constructor
    · exact fun finite x member => finite x (List.mem_append_right _ member)
    · exact fun aimed => (usable_iff.2 ⟨sound, aimed⟩).finite

/-- Nothing but a turret, and that points nowhere. -/
def nowhere : Scene Float where
  table :=
    { walls := []
      balls := []
      turret := { (standardTurret : Turret Float) with angle := 0.0 / 0.0 }
      reach := .line
      response := .pass }
  interval := some standardInterval

/-- The scene passes, although it is not usable: one of its numbers is written as null, so it cannot
be read again. -/
theorem nowhere_passes : nowhere.check = .ok () ∧ ¬nowhere.Usable ∧
    (∃ x ∈ nowhere.numbers, Json.Document.floatText x = "null") ∧
    ∀ back, ofJson? nowhere.toJson ≠ .ok back := by
  have aimless : (0.0 / 0.0 : Float).isFinite = false := by decide +kernel
  have member : (0.0 / 0.0 : Float) ∈ nowhere.numbers := List.mem_cons_self
  refine ⟨rfl, fun usable => ?_, ⟨_, member, ?_⟩, fun back again => ?_⟩
  · rw [usable.finite _ member] at aimless
    cases aimless
  · simp [Json.Document.floatText, aimless]
  · have reread := (Document.reads_scene.reread_iff.1 (ofJson?_eq_ok_iff.1 again).1).2.2.2.1
    have angle := Json.Number.isFinite_of_reread (Document.reads_turret.reread_iff.1 reread).1
    change (0.0 / 0.0 : Float).isFinite = true at angle
    rw [angle] at aimless
    cases aimless

end Scene

end Billiard
