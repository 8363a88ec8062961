import Billiard.Cli.Options
import Billiard.Scene.Document
import Billiard.Scene.Scatter
import Billiard.Simulation.Pump
import Billiard.Text.Plain

/-!
What the command line does, apart from reading files and waiting: it finds a scene, starts it with
captions for its frames, runs it, and reports where everything is in the end.
-/

namespace Billiard.Session

/-- Why a session fails. -/
inductive Fault where
  | usage (fault : Options.Fault)
  | simulation (fault : Billiard.Fault Float)
  /-- There is no room for so many balls, and the program breaks down. -/
  | overfull

/-- The text of a fault. -/
def Fault.message : Fault → String
  | .usage fault => unusable fault.message
  | .simulation fault => fault.message
  | .overfull => "capacity overflow"

/-- One line of what is logged. -/
inductive Line where
  | starting
  | generating (seed : UInt64)
  | note (entry : Note Float)
  | painted (frames : Nat)
  | summary (now : Instant) (delivered : Nat) (energy : Float)
  | ball (id : BallId) (last : Ball Float)
  | failed (fault : Fault)

namespace Line

/-- How much a line matters. -/
def level : Line → Level
  | .note entry => entry.level
  | .failed _ => .error
  | _ => .info

/-- A line in words. -/
def text : Line → String
  | .starting => "Bounce Box starting..."
  | .generating seed => "Generating scene with seed: " ++ Nat.repr seed.toNat
  | .note entry => entry.text
  | .painted frames => Nat.repr frames ++ " frames painted"
  | .summary now delivered energy =>
    Instant.text now ++ ": " ++ Nat.repr delivered ++ " events delivered, kinetic energy "
      ++ Decimal.fixed 1 energy
  | .ball id last =>
    "  ball " ++ Nat.repr id ++ ": pos " ++ last.position.text ++ " vel " ++ last.velocity.text
  | .failed fault => fault.message

/-- How far the rows of a line are set in behind its first row. -/
def indent : Nat := 4

/-- What is written for a line, its end included. -/
def written (line : Line) : String := Text.plain (Text.indented indent line.text ++ "\n")

end Line

/-- The lines that are logged of a fault. A program that breaks down logs nothing more. -/
def Fault.lines : Fault → List Line
  | .overfull => []
  | fault => [.failed fault]

/-- The complaint of a session that failed. -/
def complaint : Fault → String
  | .overfull => Fault.overfull.message
  | fault => "bounce-box: " ++ fault.message

/-- What a session that failed tells the system. -/
def Fault.exitCode : Fault → Nat
  | .overfull => 101
  | _ => 1

/-- A scene under one conductor, with captions. -/
abbrev Performance := Simulation Float (Captioner Float) Conductor

/-- How long a session runs unless told otherwise. -/
def standardMillis : Millis := 10000

/-- How many balls a random scene has unless told otherwise. -/
def standardCount : UInt64 := 5

/-- The scene that is asked for: one from a file before a random one before the standard one. -/
def scene (read : String → Except Folder.Fault String) (options : Options) :
    List Line × Except Fault (Scene Float) :=
  match options.scene with
  | some path =>
    match Scene.loaded path (read path) with
    | .error fault => ([], .error (.simulation fault))
    | .ok (scene, entry) => ([.note entry], .ok scene)
  | none =>
    if options.seed.isNone ∧ options.balls.isNone then ([], .ok Scene.standard)
    else
      let seed := options.seed.getD 0
      match Scene.ofSeed seed (options.balls.getD standardCount).toNat with
      | none => ([.generating seed], .error .overfull)
      | some (scene, notes) => (.generating seed :: notes.map .note, .ok scene)

/-- A fault behind which there may be an agent that broke down. -/
def ofBreak : Break Float → Fault
  | .fault fault => .simulation fault
  | .crash => .simulation .poisoned

/-- What the performance has noted. -/
def notes (performance : Performance) : List Line :=
  performance.stage.journal.toList.map .note

/-- Options and a performance that has started, and what was logged before it. -/
def opening (read : String → Except Folder.Fault String) (arguments : List String) :
    List Line × Except Fault (Options × Performance) :=
  match Options.ofArguments arguments with
  | .error fault => ([.starting], .error (.usage fault))
  | .ok options =>
    match scene read options with
    | (lines, .error fault) => (.starting :: lines, .error fault)
    | (lines, .ok scene) =>
      match scene.conduct id Captioner.new with
      | .error fault => (.starting :: lines, .error (.simulation (.scene fault)))
      | .ok performance =>
        match Simulation.start performance with
        | (.error cause, performance) =>
          (.starting :: lines ++ notes performance, .error (ofBreak cause))
        | (.ok (), performance) => (.starting :: lines, .ok (options, performance))

/-- Runs a performance to its end at once. -/
def rush (rounds : Nat) (millis : Millis) (performance : Performance) :
    Option (Except Fault Unit × Performance) :=
  match performance.runFor rounds millis with
  | none => none
  | some (.error cause, performance) => some (.error (ofBreak cause), performance)
  | some (.ok _, performance) => some (.ok (), performance)

/-- Lets a pump deliver what is due at `now`. -/
def keepUp (rounds : Nat) (now : Instant) (performance : Performance) :
    Option (Except Fault Unit × Performance) :=
  match (Reservoir.mk (performance.advance now) false).pump rounds with
  | none => none
  | some (.error fault, reservoir) => some (.error (.simulation fault), reservoir.simulation)
  | some (.ok (), reservoir) => some (.ok (), reservoir.simulation)

/-- Where everything is in the end. -/
def report (performance : Performance) : List Line :=
  let table := performance.stage.table
  .painted performance.stage.canvas.frames
    :: .summary performance.now performance.delivered table.energy
    :: table.balls.zipIdx.map fun (ball, id) => .ball id ball

/-- What a session logs, and what it fails on if it does. -/
structure Record where
  lines : List Line
  fault : Option Fault

/-- A session that failed. -/
def Record.ofFault (lines : List Line) (fault : Fault) : Record :=
  ⟨lines ++ fault.lines, some fault⟩

/-- Zero for success. -/
def Record.exitCode (record : Record) : Nat := (record.fault.map Fault.exitCode).getD 0

/-- A whole session. In real time it is as if the pump looked for events only once, at the end:
agents do not see the clock. -/
def run (read : String → Except Folder.Fault String) (rounds : Nat) (arguments : List String) :
    Option Record :=
  match opening read arguments with
  | (lines, .error fault) => some (.ofFault lines fault)
  | (lines, .ok (options, performance)) =>
    let millis := options.millis.getD standardMillis
    match (if options.realtime then keepUp else rush) rounds millis performance with
    | none => none
    | some (.error fault, performance) => some (.ofFault (lines ++ notes performance) fault)
    | some (.ok (), performance) => some ⟨lines ++ notes performance ++ report performance, none⟩

end Billiard.Session
