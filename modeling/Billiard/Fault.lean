import Billiard.Event
import Billiard.Folder
import Billiard.Json.Fault

/-!
Why something cannot go on. Geometry and prediction never fail; what fails is a scene that makes no
sense, a file that cannot be read, an agent that has nothing to wait for, and a pump whose
simulation broke off in the middle of a delivery.
-/

namespace Billiard

/-- What makes a scene unusable, the first that is met. -/
inductive SceneFault (K : Type) where
  | stillInterval
  | badWall (wall : WallId)
  | boundlessBall (ball : BallId)
  | badRadius (ball : BallId) (radius : K)
deriving BEq, Repr

/-- Every way to fail. -/
inductive Fault (K : Type) where
  /-- An agent has nothing to wait for. -/
  | stalled (agent : AgentId) (now : Instant)
  | scene (fault : SceneFault K)
  | document (fault : Json.Fault)
  | file (fault : Folder.Fault)
  /-- A handler broke off while a pump was delivering to it. -/
  | poisoned

/-- How agents are named in reports. -/
def AgentId.title (agent : AgentId) : String := "object#" ++ Nat.repr agent

/-- How balls are named in reports. -/
def BallId.title (ball : BallId) : String := "body#" ++ Nat.repr ball

/-- How walls are named in reports. -/
def WallId.title (wall : WallId) : String := "wall#" ++ Nat.repr wall

/-- An instant in reports. -/
def Instant.text (now : Instant) : String := "t=" ++ Nat.repr now.toNat ++ "ms"

/-- The text of what is wrong with a scene. -/
def SceneFault.message : SceneFault Float → String
  | .stillInterval => "paint_interval_ms must be positive (use null for headless)"
  | .badWall wall => "wall " ++ Nat.repr wall ++ " is degenerate or not finite"
  | .boundlessBall ball => "ball " ++ Nat.repr ball ++ " is not finite"
  | .badRadius ball radius =>
    "ball " ++ Nat.repr ball ++ " radius must be positive, got " ++ Decimal.prose.render radius

/-- What stands before the text of a setting that makes no sense. -/
def unusable (text : String) : String := "Invalid configuration: " ++ text

/-- The text of a fault. -/
def Fault.message : Fault Float → String
  | .stalled agent now =>
    AgentId.title agent ++ " cannot compute a next event at " ++ Instant.text now
  | .scene fault => unusable fault.message
  | .document fault => "Configuration parse error: " ++ fault.message
  | .file fault => "I/O error: " ++ fault.message
  | .poisoned => "Simulation lock poisoned by a panicking handler"

end Billiard
