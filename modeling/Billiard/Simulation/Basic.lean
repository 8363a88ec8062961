import Billiard.Agent

/-!
A simulation: agents around one stage, and a clock. It delivers events one at a time, each to the
agent it is for, and whatever a handler did before it broke off stays done.
-/

namespace Billiard

/-- Agents, the stage they share, and the time. -/
structure Simulation (K C A : Type) where
  stage : Stage K C
  now : Instant
  agents : List A
  /-- Who is told about keys. -/
  listener : Option AgentId
  /-- How many deliveries came to their end. -/
  delivered : Nat

namespace Simulation

variable {K C A : Type}

/-- The simulation after an action on it, and what came of it. -/
abbrev After (K C A α : Type) := Except (Break K) α × Simulation K C A

/-- A table at the beginning of time, without agents. -/
def new (table : Table K) (canvas : C) : Simulation K C A where
  stage := ⟨table, canvas, .empty, #[]⟩
  now := 0
  agents := []
  listener := none
  delivered := 0

/-- Notes something. -/
def note (simulation : Simulation K C A) (entry : Note K) : Simulation K C A :=
  { simulation with stage := simulation.stage.note entry }

/-- Adds an agent, behind the others. -/
def join [Agent K A] (simulation : Simulation K C A) (agent : A) : AgentId × Simulation K C A :=
  let id := simulation.agents.length
  (id,
   { simulation with agents := simulation.agents ++ [agent] }.note
     (.joined id (Agent.name (K := K) agent)))

variable [Canvas K C] [Agent K A]

/-- Starts agents one after another, the first one being number `id`, until one of them breaks
off. -/
def startFrom (now : Instant) :
    (id : AgentId) → List A → Stage K C → Except (Break K) Unit × List A × Stage K C
  | _, [], stage => (.ok (), [], stage)
  | id, agent :: rest, stage =>
    let visit : Visit := ⟨id, now⟩
    match (Agent.start visit agent).run visit stage with
    | ((agent, .error cause), stage) => (.error cause, agent :: rest, stage)
    | ((agent, .ok ()), stage) =>
      let (result, rest, stage) := startFrom now (id + 1) rest stage
      (result, agent :: rest, stage)

/-- Starts every agent. -/
def start (simulation : Simulation K C A) : After K C A Unit :=
  match startFrom simulation.now 0 simulation.agents simulation.stage with
  | (.error cause, agents, stage) =>
    (.error cause, { simulation with agents := agents, stage := stage })
  | (.ok (), agents, stage) =>
    (.ok (),
     { simulation with agents := agents, stage := stage }.note
       (.started simulation.now stage.table.balls.length stage.table.walls.length
         stage.agenda.size))

/-- Delivers an event to the agent it is for. The agent sees the instant at which the event was
due. -/
def deliver (simulation : Simulation K C A) (event : Event) : After K C A Unit :=
  match simulation.agents[event.target]? with
  | none => (.ok (), simulation.note (.undeliverable event))
  | some agent =>
    let visit : Visit := ⟨event.target, event.due⟩
    let stage := simulation.stage.note
      (.delivering event (Agent.name (K := K) agent) (Agent.state (K := K) agent))
    match (Agent.handle visit event agent).run visit stage with
    | ((agent, result), stage) =>
      let simulation :=
        { simulation with stage := stage, agents := simulation.agents.set event.target agent }
      match result with
      | .error cause => (.error cause, simulation)
      | .ok () => (.ok (), { simulation with delivered := simulation.delivered + 1 })

/-- Delivers the next event if it is due; the answer is what it said. -/
def step (simulation : Simulation K C A) : After K C A (Option Signal) :=
  match simulation.stage.agenda.popDue? simulation.now with
  | none => (.ok none, simulation)
  | some (event, agenda) =>
    let simulation := { simulation with stage := { simulation.stage with agenda := agenda } }
    match simulation.deliver event with
    | (.error cause, simulation) => (.error cause, simulation)
    | (.ok (), simulation) => (.ok (some event.signal), simulation)

/-- Tells the listener about a key, as soon as possible. -/
def press (way : Turn) (simulation : Simulation K C A) : Option EventId × Simulation K C A :=
  match simulation.listener with
  | none => (none, simulation)
  | some listener =>
    let (id, agenda) := simulation.stage.agenda.schedule listener simulation.now (.key way)
    (some id, { simulation with stage := { simulation.stage with agenda := agenda } })

/-- Moves the clock and delivers nothing. Events that it passes are delivered late. -/
def advance (t : Instant) (simulation : Simulation K C A) : Simulation K C A :=
  { simulation with now := simulation.now.advance t }

/-- Moves the clock to the next event, whenever that is, and delivers it. -/
def stepNext (simulation : Simulation K C A) : After K C A (Option Signal) :=
  match simulation.stage.agenda.nextDue? with
  | none => (.ok none, simulation)
  | some due => (simulation.advance due).step

end Simulation

end Billiard
