import Billiard.Simulation.Basic

/-!
Delivering many events in one go. Handlers schedule further events, so nothing bounds the number of
deliveries beforehand: each loop is given a number of rounds and answers `none` if they do not
suffice. More rounds never change an answer.
-/

namespace Billiard.Simulation

variable {K C A : Type} [Canvas K C] [Agent K A]

/-- Delivers what is due, after `count` deliveries. -/
def dispatchFrom (count : Nat) :
    (rounds : Nat) → Simulation K C A → Option (After K C A Nat)
  | 0, _ => none
  | rounds + 1, simulation =>
    match simulation.step with
    | (.error cause, simulation) => some (.error cause, simulation)
    | (.ok none, simulation) => some (.ok count, simulation)
    | (.ok (some _), simulation) => dispatchFrom (count + 1) rounds simulation

/-- Delivers everything that is due now or becomes due meanwhile; the answer is how many events
that were. -/
def dispatchDue (rounds : Nat) (simulation : Simulation K C A) : Option (After K C A Nat) :=
  dispatchFrom 0 rounds simulation

/-- Goes on until `horizon`, after `count` deliveries. -/
def runFrom (horizon : Instant) (count : Nat) :
    (rounds : Nat) → Simulation K C A → Option (After K C A Nat)
  | 0, _ => none
  | rounds + 1, simulation =>
    let finished := some (.ok count, simulation.advance horizon)
    match simulation.stage.agenda.nextDue? with
    | none => finished
    | some due =>
      if due ≤ horizon then
        match (simulation.advance due).step with
        | (.error cause, simulation) => some (.error cause, simulation)
        | (.ok none, simulation) => runFrom horizon count rounds simulation
        | (.ok (some _), simulation) => runFrom horizon (count + 1) rounds simulation
      else finished

/-- Moves the clock from event to event up to `horizon` and leaves it there; the answer is how many
events were delivered. -/
def runUntil (rounds : Nat) (horizon : Instant) (simulation : Simulation K C A) :
    Option (After K C A Nat) :=
  runFrom horizon 0 rounds simulation

/-- The same for a length of time from now. -/
def runFor (rounds : Nat) (duration : Millis) (simulation : Simulation K C A) :
    Option (After K C A Nat) :=
  simulation.runUntil rounds (simulation.now.after duration)

/-- More rounds do not change what is delivered. -/
theorem dispatchFrom_mono {count rounds more : Nat} {simulation : Simulation K C A}
    {after : After K C A Nat} (finished : dispatchFrom count rounds simulation = some after)
    (le : rounds ≤ more) : dispatchFrom count more simulation = some after := by
  induction rounds generalizing count more simulation with
  | zero => simp [dispatchFrom] at finished
  | succ rounds ih =>
    obtain ⟨more, rfl⟩ : ∃ n, more = n + 1 := ⟨more - 1, by omega⟩
    unfold dispatchFrom at finished ⊢
    split at finished
    · exact finished
    · exact finished
    · exact ih finished (by omega)

/-- More rounds do not change a run. -/
theorem runFrom_mono {horizon : Instant} {count rounds more : Nat}
    {simulation : Simulation K C A} {after : After K C A Nat}
    (finished : runFrom horizon count rounds simulation = some after) (le : rounds ≤ more) :
    runFrom horizon count more simulation = some after := by
  induction rounds generalizing count more simulation with
  | zero => simp [runFrom] at finished
  | succ rounds ih =>
    obtain ⟨more, rfl⟩ : ∃ n, more = n + 1 := ⟨more - 1, by omega⟩
    unfold runFrom at finished ⊢
    split at finished
    · exact finished
    · split at finished
      · next within =>
        simp only [if_pos within]
        split at finished
        · exact finished
        · exact ih finished (by omega)
        · exact ih finished (by omega)
      · next beyond => simpa only [if_neg beyond] using finished

end Billiard.Simulation
