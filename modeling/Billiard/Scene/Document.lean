import Billiard.Json.Codec
import Billiard.Scene.Basic

/-!
Scenes and tables as JSON documents. A scene is laid out for people to read and change, so some of
its parts may be left out: the beats, the turret, how far walls reach and how balls respond then
are as in the standard scene.
-/

namespace Billiard.Scene.Document

open Json (Codec Field Values)

/-- A field that must be there. -/
def required {α : Type} (name : String) (codec : Codec α) : Field := ⟨α, name, codec, none⟩

/-- A field that may be left out. -/
def withDefault {α : Type} (name : String) (codec : Codec α) (default : α) : Field :=
  ⟨α, name, codec, some default⟩

/-- A number under a name. -/
def numberField (name : String) : Field := required name .float

/-- A pair of coordinates. -/
def vec : Codec (Vec Float) :=
  .tuple "a sequence of 2 f64 values" [numberField "x", numberField "y"]
    (fun v => [.float v.x, .float v.y]) fun (x, y, ()) => ⟨x, y⟩

/-- A segment by its ends. -/
def segment : Codec (Segment Float) :=
  .record "struct Line" [required "begin" vec, required "end" vec]
    (fun s => (s.start, s.finish, ())) fun (start, finish, ()) => ⟨start, finish⟩

/-- A wall of a table. -/
def wall : Codec (Segment Float) :=
  .record "struct Wall" [required "line" segment] (fun s => (s, ())) fun (line, ()) => line

/-- A ball of a table. -/
def ball : Codec (Ball Float) :=
  .record "struct Body"
    [required "position" vec, required "velocity" vec, numberField "radius"]
    (fun ball => (ball.position, ball.velocity, ball.radius, ()))
    fun (position, velocity, radius, ()) => ⟨position, velocity, radius⟩

/-- The turret. -/
def turret : Codec (Turret Float) :=
  .record "struct Shooter"
    [numberField "angle", numberField "length", numberField "width", required "pivot" vec]
    (fun turret => (turret.angle, turret.length, turret.width, turret.pivot, ()))
    fun (angle, length, width, pivot, ()) => ⟨angle, length, width, pivot⟩

/-- How far walls reach. -/
def reach : Codec Reach := .choice [("infinite", .line), ("segment", .ends)]

/-- How balls respond. -/
def response : Codec Response := .choice [("pass_through", .pass), ("elastic", .elastic)]

/-- How far walls reach, by default along their lines. -/
def reachField : Field := withDefault "wall_extent" reach .line

/-- How balls respond, by default not at all. -/
def responseField : Field := withDefault "body_response" response .pass

/-- A table. -/
def table : Codec (Table Float) :=
  .record "struct World"
    [required "walls" (.list wall), required "bodies" (.list ball), required "shooter" turret,
      reachField, responseField]
    (fun table => (table.walls, table.balls, table.turret, table.reach, table.response, ()))
    fun (walls, balls, turret, reach, response, ()) => ⟨walls, balls, turret, reach, response⟩

/-- A wall of a scene. -/
def sceneWall : Codec (Segment Float) :=
  .record "struct WallSpec"
    [numberField "x0", numberField "y0", numberField "x1", numberField "y1"]
    (fun s => (s.start.x, s.start.y, s.finish.x, s.finish.y, ()))
    fun (x₀, y₀, x₁, y₁, ()) => .ofCoords x₀ y₀ x₁ y₁

/-- A ball of a scene. -/
def sceneBall : Codec (Ball Float) :=
  .record "struct BodySpec"
    [numberField "x", numberField "y", numberField "vx", numberField "vy", numberField "radius"]
    (fun ball =>
      (ball.position.x, ball.position.y, ball.velocity.x, ball.velocity.y, ball.radius, ()))
    fun (x, y, vx, vy, radius, ()) => ⟨⟨x, y⟩, ⟨vx, vy⟩, radius⟩

/-- A scene. -/
def scene : Codec (Scene Float) :=
  .record "struct SimConfig"
    [required "walls" (.list sceneWall), required "bodies" (.list sceneBall),
      withDefault "paint_interval_ms" (.optional .whole) (some standardInterval),
      withDefault "shooter" turret standardTurret, reachField, responseField]
    (fun scene =>
      (scene.table.walls, scene.table.balls, scene.interval, scene.table.turret,
        scene.table.reach, scene.table.response, ()))
    fun (walls, balls, interval, turret, reach, response, ()) =>
      ⟨⟨walls, balls, turret, reach, response⟩, interval⟩

end Document

/-- The text in which a scene is kept. -/
def toJson (scene : Scene Float) : String := Document.scene.encode Json.Document.pretty scene

/-- The scene in a text, if it is one and nothing is wrong with it. -/
def ofJson? (text : String) : Except (Fault Float) (Scene Float) :=
  match Document.scene.decode text with
  | .error fault => .error (.document fault)
  | .ok scene =>
    match scene.check with
    | .error fault => .error (.scene fault)
    | .ok () => .ok scene

/-- What a file should hold, read: the scene and a note about it. -/
def loaded (path : String) (content : Except Folder.Fault String) :
    Except (Fault Float) (Scene Float × Note Float) :=
  match content with
  | .error fault => .error (.file fault)
  | .ok text => do
    let scene ← ofJson? text
    return (scene, .loaded path scene.table.walls.length scene.table.balls.length)

/-- Reads a scene from a file. -/
def load (folder : Folder) (path : String) : Except (Fault Float) (Scene Float × Note Float) :=
  loaded path (folder.readText? path)

/-- Writes a scene to a file. -/
def save (folder : Folder) (path : String) (scene : Scene Float) :
    Except (Fault Float) (Folder × Note Float) :=
  match folder.write? path scene.toJson.toUTF8 with
  | .error fault => .error (.file fault)
  | .ok folder => .ok (folder, .saved path)

end Billiard.Scene
