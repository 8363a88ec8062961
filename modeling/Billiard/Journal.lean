import Billiard.Fault

/-!
What happens is noted in a journal. A note holds what it is about; its text is made when it is
read, and only then are numbers rounded. Agents and canvases can make remarks, and the simulation
notes the rest, so what a journal says about deliveries is what has happened.
-/

namespace Billiard

/-- How much a note matters. -/
inductive Level where
  | error
  | warn
  | info
  | debug
  | trace
deriving DecidableEq, Repr

namespace Level

/-- The more it matters, the smaller. -/
def rank : Level → Nat
  | .error => 1
  | .warn => 2
  | .info => 3
  | .debug => 4
  | .trace => 5

/-- The word in front of a note. -/
def label : Level → String
  | .error => "ERROR"
  | .warn => "WARN"
  | .info => "INFO"
  | .debug => "DEBUG"
  | .trace => "TRACE"

end Level

/-- Something that an agent or a canvas has to say. -/
inductive Remark (K : Type) where
  /-- What an agent forecasts. -/
  | foresaw (agent : AgentId) (next : Option Forecast)
  /-- An agent is waiting for something else. -/
  | ignored (agent : AgentId) (signal : Signal) (state : String)
  /-- A contact names a ball or a wall that is not there. -/
  | missed (agent : AgentId) (contact : Contact)
  /-- The turret was turned to an angle. -/
  | turned (angle : K)
  /-- A frame was shown, with so many lines and balls at these places. -/
  | frame (number lines : Nat) (balls : List (Vec K))

/-- Something that happened. -/
inductive Note (K : Type) where
  /-- An agent joined. -/
  | joined (agent : AgentId) (name : String)
  /-- Every agent has started. -/
  | started (now : Instant) (balls walls pending : Nat)
  /-- An event is being delivered to an agent. -/
  | delivering (event : Event) (name state : String)
  /-- An event is for no agent. -/
  | undeliverable (event : Event)
  /-- An agent waits for another event in place of these. -/
  | replaced (agent : AgentId) (events : List Event)
  | said (remark : Remark K)
  | pumpStarted (quantum : Millis)
  | pumpStopped
  | pumpFailed (fault : Fault K)
  /-- Fewer balls found a place than were wanted. -/
  | crowded (placed wanted : Nat)
  /-- A scene was read from a file. -/
  | loaded (path : String) (walls balls : Nat)
  /-- A scene was written to a file. -/
  | saved (path : String)

/-- The notes, oldest first. -/
abbrev Journal (K : Type) := Array (Note K)

/-- How a contact is shown. -/
def Contact.text : Contact → String
  | .wall ball side =>
    "Wall \x7b body: BodyId(" ++ Nat.repr ball ++ "), wall: WallId(" ++ Nat.repr side ++ ") \x7d"
  | .pair a b =>
    "Bodies \x7b a: BodyId(" ++ Nat.repr a ++ "), b: BodyId(" ++ Nat.repr b ++ ") \x7d"

/-- How a forecast is shown, or that there is none. -/
def Forecast.text : Option Forecast → String
  | none => "None"
  | some forecast =>
    "Some(Prediction \x7b delay: " ++ Nat.repr forecast.delay.toNat ++ ", collision: "
      ++ forecast.contact.text ++ " \x7d)"

/-- Coordinates in parentheses, to one place. -/
def Vec.text (v : Vec Float) : String :=
  "(" ++ Decimal.fixed 1 v.x ++ ", " ++ Decimal.fixed 1 v.y ++ ")"

namespace Remark

/-- How much it matters. -/
def level {K : Type} : Remark K → Level
  | .missed .. => .warn
  | .turned _ | .frame .. => .debug
  | .foresaw .. | .ignored .. => .trace

/-- The remark in words. -/
def text : Remark Float → String
  | .foresaw agent next => AgentId.title agent ++ ": next collision " ++ Forecast.text next
  | .ignored agent signal state =>
    AgentId.title agent ++ ": ignoring " ++ signal.label ++ " in state " ++ state
  | .missed agent contact =>
    AgentId.title agent ++ ": collision " ++ contact.text ++ " refers to a missing body or wall"
  | .turned angle => "shooter angle " ++ Decimal.fixed 3 angle
  | .frame number lines balls =>
    "frame " ++ Nat.repr number ++ ": " ++ Nat.repr lines ++ " lines, balls "
      ++ Text.quotedList (balls.map Vec.text)

end Remark

namespace Note

/-- How much it matters. -/
def level {K : Type} : Note K → Level
  | .pumpFailed _ => .error
  | .undeliverable _ | .crowded .. => .warn
  | .started .. | .pumpStarted _ | .pumpStopped | .loaded .. | .saved _ => .info
  | .joined .. | .delivering .. | .replaced .. => .debug
  | .said remark => remark.level

/-- The note in words. -/
def text : Note Float → String
  | .joined agent name => "registered " ++ name ++ " as " ++ AgentId.title agent
  | .started now balls walls pending =>
    "simulation started at " ++ Instant.text now ++ " with " ++ Nat.repr balls ++ " bodies, "
      ++ Nat.repr walls ++ " walls, " ++ Nat.repr pending ++ " pending event(s)"
  | .delivering event name state =>
    Instant.text event.due ++ " deliver " ++ event.signal.label ++ " to " ++ name
      ++ " (" ++ state ++ ")"
  | .undeliverable event =>
    "dropping " ++ event.signal.label ++ " for unknown " ++ AgentId.title event.target
  | .replaced agent events =>
    AgentId.title agent ++ ": replaced " ++ Nat.repr events.length ++ " pending event(s)"
  | .said remark => remark.text
  | .pumpStarted quantum => "pump started, quantum " ++ Nat.repr quantum.toNat ++ "ms"
  | .pumpStopped => "pump stopped"
  | .pumpFailed fault => "pump stopped: " ++ fault.message
  | .crowded placed wanted =>
    "random_box: placed " ++ Nat.repr placed ++ " of " ++ Nat.repr wanted ++ " balls"
  | .loaded path walls balls =>
    "Loaded scene from " ++ path ++ ": " ++ Nat.repr walls ++ " walls, "
      ++ Nat.repr balls ++ " balls"
  | .saved path => "Scene saved to " ++ path

end Note

end Billiard
