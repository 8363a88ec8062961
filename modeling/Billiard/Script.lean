import Billiard.Conductor

/-!
Scripted agents, for trying out a simulation: what they do at the start and about each delivery is
written down beforehand, whatever the delivery says.
-/

namespace Billiard

/-- One thing that a script can call for. -/
inductive Action where
  | send (delay : Millis) (signal : Signal)
  | await (delay : Millis) (signal : Signal)
  /-- All balls drift. -/
  | drift (elapsed : Millis)
  /-- Report that there is nothing to wait for, and leave out what follows. -/
  | stall
  /-- Break down, and leave out what follows. -/
  | crash
deriving DecidableEq, Repr

/-- What to do at the start, and what to do about the deliveries that are still to come, one entry
for each. -/
structure Script where
  opening : List Action
  scenes : List (List Action)
deriving DecidableEq, Repr

namespace Script

variable {K : Type} [Scalar K]

/-- Does one thing after another. -/
def perform (visit : Visit) : List Action → Plan K (Except (Break K) Unit)
  | [] => return .ok ()
  | .send delay signal :: rest => do
    let _ ← Plan.sendIn delay signal
    perform visit rest
  | .await delay signal :: rest => do
    let _ ← Plan.awaitIn delay signal
    perform visit rest
  | .drift elapsed :: rest => do
    Plan.modifyTable (Table.drift elapsed)
    perform visit rest
  | .stall :: _ => return .error (.fault (.stalled visit.agent visit.now))
  | .crash :: _ => return .error .crash

/-- Plays the opening. -/
def start (visit : Visit) (script : Script) : Plan K (Outcome K Script) := do
  return (script, ← perform visit script.opening)

/-- Plays the next scene, if one is left. -/
def handle (visit : Visit) (script : Script) : Plan K (Outcome K Script) := do
  return ({ script with scenes := script.scenes.tail }, ← perform visit (script.scenes.headD []))

instance : Agent K Script where
  name _ := "script"
  state _ := "scripted"
  start visit script := script.start visit
  handle visit _ script := script.handle visit

end Script

/-- A conductor or a script. -/
inductive Player where
  | conductor (agent : Conductor)
  | script (agent : Script)
deriving DecidableEq, Repr

namespace Player

variable {K : Type} [Scalar K]

instance : Agent K Player where
  name
    | .conductor agent => Agent.name (K := K) agent
    | .script agent => Agent.name (K := K) agent
  state
    | .conductor agent => Agent.state (K := K) agent
    | .script agent => Agent.state (K := K) agent
  start visit
    | .conductor agent => do
      let (agent, result) ← agent.start visit
      return (.conductor agent, result)
    | .script agent => do
      let (agent, result) ← agent.start visit
      return (.script agent, result)
  handle visit event
    | .conductor agent => do
      let (agent, result) ← agent.handle visit event.signal
      return (.conductor agent, result)
    | .script agent => do
      let (agent, result) ← agent.handle visit
      return (.script agent, result)

end Player

end Billiard
