import Billiard.Simulation.Run

/-!
A pump delivers in the background whatever is due. When an agent breaks down under it, it leaves
the simulation in the middle of a delivery, and no pump touches that simulation again.
-/

namespace Billiard

/-- A simulation that pumps may work on. -/
structure Reservoir (K C A : Type) where
  simulation : Simulation K C A
  /-- An agent broke down under a pump. -/
  poisoned : Bool

namespace Reservoir

variable {K C A : Type} [Canvas K C] [Agent K A]

/-- How often a pump looks for events. -/
def quantum : Millis := 10

/-- Lets a pump deliver what is due and then stops it. -/
def pump (rounds : Nat) (reservoir : Reservoir K C A) :
    Option (Except (Fault K) Unit × Reservoir K C A) :=
  let simulation := reservoir.simulation.note (.pumpStarted quantum)
  if reservoir.poisoned then
    some (.error .poisoned, { reservoir with simulation := simulation })
  else
    match simulation.dispatchDue rounds with
    | none => none
    | some (.ok _, simulation) => some (.ok (), ⟨simulation.note .pumpStopped, false⟩)
    | some (.error (.fault fault), simulation) =>
      some (.error fault, ⟨simulation.note (.pumpFailed fault), false⟩)
    | some (.error .crash, simulation) => some (.error .poisoned, ⟨simulation, true⟩)

end Reservoir

end Billiard
