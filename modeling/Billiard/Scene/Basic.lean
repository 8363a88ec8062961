import Billiard.Conductor
import Billiard.Simulation.Basic

/-!
A scene: what a simulation begins with. `check` refuses the first thing that makes no sense, and a
checked scene with a conductor is a simulation.
-/

namespace Billiard

/-- A table, and the time between two beats if there are any. -/
structure Scene (K : Type) where
  table : Table K
  interval : Option Millis
deriving BEq, Repr

namespace Scene

variable {K : Type} [Scalar K]

/-- Left, top, width and height of a rectangle. -/
structure Frame (K : Type) where
  left : K
  top : K
  width : K
  height : K
deriving DecidableEq, Repr

/-- The rectangle of the standard scene. -/
def standardFrame : Frame K := ⟨100.0, 100.0, 200.0, 200.0⟩

/-- The four sides, clockwise from the top. -/
def Frame.walls (frame : Frame K) : List (Segment K) :=
  let (x₀, y₀) := (frame.left, frame.top)
  let (x₁, y₁) := (frame.left + frame.width, frame.top + frame.height)
  [.ofCoords x₀ y₀ x₁ y₀, .ofCoords x₁ y₀ x₁ y₁, .ofCoords x₁ y₁ x₀ y₁, .ofCoords x₀ y₁ x₀ y₀]

/-- Upright in the middle of the standard rectangle. -/
def standardTurret : Turret K where
  angle := 0.0
  length := 10.0
  width := 10.0
  pivot :=
    let frame : Frame K := standardFrame
    ⟨frame.left + frame.width / 2.0, frame.top + frame.height / 2.0⟩

/-- Five balls. -/
def standardBalls : List (Ball K) := [
  ⟨⟨200.0, 200.0⟩, ⟨200.0, 120.0⟩, 10.0⟩,
  ⟨⟨150.0, 150.0⟩, ⟨100.0, 60.0⟩, 15.0⟩,
  ⟨⟨250.0, 150.0⟩, ⟨-50.0, -5.0⟩, 20.0⟩,
  ⟨⟨250.0, 250.0⟩, ⟨-100.0, 0.0⟩, 25.0⟩,
  ⟨⟨150.0, 250.0⟩, ⟨0.0, 100.0⟩, 30.0⟩]

/-- Twenty beats a second. -/
def standardInterval : Millis := 50

/-- Five balls in a square, with beats, that pass through each other. -/
def standard : Scene K where
  table :=
    { walls := (standardFrame : Frame K).walls
      balls := standardBalls
      turret := standardTurret
      reach := .line
      response := .pass }
  interval := some standardInterval

/-- All four coordinates are finite. -/
def wallIsFinite (wall : Segment K) : Bool :=
  [wall.start.x, wall.start.y, wall.finish.x, wall.finish.y].all Scalar.isFinite

/-- Position and velocity are finite. -/
def ballIsFinite (ball : Ball K) : Bool :=
  [ball.position.x, ball.position.y, ball.velocity.x, ball.velocity.y].all Scalar.isFinite

/-- What is wrong with one wall. -/
def wallFault? (id : WallId) (wall : Segment K) : Option (SceneFault K) :=
  if !wallIsFinite wall ∨ wall.isDegenerate then some (.badWall id) else none

/-- What is wrong with one ball. -/
def ballFault? (id : BallId) (ball : Ball K) : Option (SceneFault K) :=
  if !ballIsFinite ball then some (.boundlessBall id)
  else if Scalar.isFinite ball.radius ∧ 0.0 < ball.radius then none
  else some (.badRadius id ball.radius)

/-- The first thing that is wrong: with the beats, with the walls, with the balls. -/
def fault? (scene : Scene K) : Option (SceneFault K) :=
  if scene.interval = some 0 then some .stillInterval
  else
    (scene.table.walls.zipIdx.findSome? fun (wall, id) => wallFault? id wall) <|>
      scene.table.balls.zipIdx.findSome? fun (ball, id) => ballFault? id ball

/-- Nothing is wrong with the scene. -/
def check (scene : Scene K) : Except (SceneFault K) Unit :=
  match scene.fault? with
  | none => .ok ()
  | some fault => .error fault

/-- A simulation of the scene with one conductor, which listens to the keys. `seat` makes an agent
of the conductor. -/
def conduct {C A : Type} [Agent K A] (seat : Conductor → A) (canvas : C) (scene : Scene K) :
    Except (SceneFault K) (Simulation K C A) := do
  scene.check
  let (id, simulation) := (Simulation.new scene.table canvas).join (seat (.new scene.interval))
  return { simulation with listener := some id }

end Scene

end Billiard
