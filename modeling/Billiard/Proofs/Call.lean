import Mathlib.Data.List.Induction
import Billiard.Proofs.Pending
import Billiard.Simulation.Run

/-!
What can be asked of a simulation from outside, and what a simulation can come to. Calls that
deliver many events are loops over smaller ones, so whatever four kinds of moves preserve (start,
deliver one event, move the clock, press a key) holds in every state that calls lead to
(`Reaches.induct`), whether they succeed or fail.
-/

namespace Billiard.Simulation

/-- Everything that can be asked of a simulation. -/
inductive Call where
  | start
  | step
  | stepNext
  | dispatchDue
  | runUntil (horizon : Instant)
  | runFor (duration : Millis)
  | advance (t : Instant)
  | press (way : Turn)
deriving DecidableEq, Repr

/-- What a call that succeeds has to say. -/
inductive Answer where
  | done
  /-- What the delivered event said, if one was delivered. -/
  | told (signal : Option Signal)
  /-- How many events were delivered. -/
  | count (deliveries : Nat)
  /-- The number of the event for the key, if anyone listens. -/
  | pressed (id : Option EventId)
deriving DecidableEq, Repr

variable {K C A α β : Type}

/-- The same outcome, said in another way. -/
def After.map (f : α → β) (outcome : After K C A α) : After K C A β :=
  (outcome.1.map f, outcome.2)

theorem After.of_map_eq_ok {f : α → β} {outcome : After K C A α} {answer : β}
    {after : Simulation K C A} (same : outcome.map f = (.ok answer, after)) :
    ∃ value, outcome = (.ok value, after) ∧ f value = answer := by
  obtain ⟨_ | value, last⟩ := outcome <;> cases same
  exact ⟨value, rfl, rfl⟩

variable [Canvas K C] [Agent K A]

/-- What comes of a call whose loops may go through `rounds` rounds, if they suffice. -/
def Call.perform (rounds : Nat) (call : Call) (simulation : Simulation K C A) :
    Option (After K C A Answer) :=
  match call with
  | .start => some (simulation.start.map fun _ => .done)
  | .step => some (simulation.step.map .told)
  | .stepNext => some (simulation.stepNext.map .told)
  | .dispatchDue => (simulation.dispatchDue rounds).map (After.map .count)
  | .runUntil horizon => (simulation.runUntil rounds horizon).map (After.map .count)
  | .runFor duration => (simulation.runFor rounds duration).map (After.map .count)
  | .advance t => some (.ok .done, simulation.advance t)
  | .press way => some (.ok (.pressed (simulation.press way).1), (simulation.press way).2)

/-- More rounds do not change what comes of a call. -/
theorem Call.perform_mono {call : Call} {rounds more : Nat} {simulation : Simulation K C A}
    {outcome : After K C A Answer} (ended : call.perform rounds simulation = some outcome)
    (le : rounds ≤ more) : call.perform more simulation = some outcome := by
  cases call with
  | start | step | stepNext | advance t | press way => exact ended
  | dispatchDue =>
    obtain ⟨last, finished, same⟩ := Option.map_eq_some_iff.1 ended
    exact Option.map_eq_some_iff.2 ⟨last, dispatchFrom_mono finished le, same⟩
  | runUntil horizon =>
    obtain ⟨last, finished, same⟩ := Option.map_eq_some_iff.1 ended
    exact Option.map_eq_some_iff.2 ⟨last, runFrom_mono finished le, same⟩
  | runFor duration =>
    obtain ⟨last, finished, same⟩ := Option.map_eq_some_iff.1 ended
    exact Option.map_eq_some_iff.2 ⟨last, runFrom_mono finished le, same⟩

/-- Only one thing can come of a call. -/
theorem Call.perform_unique {call : Call} {rounds others : Nat} {simulation : Simulation K C A}
    {outcome outcome' : After K C A Answer} (ended : call.perform rounds simulation = some outcome)
    (ended' : call.perform others simulation = some outcome') : outcome = outcome' := by
  have here := call.perform_mono ended (Nat.le_max_left rounds others)
  have there := call.perform_mono ended' (Nat.le_max_right rounds others)
  exact Option.some.inj (here.symm.trans there)

/-- The moves that every call consists of. -/
inductive Move where
  | start
  | step
  | advance (t : Instant)
  | press (way : Turn)
deriving DecidableEq, Repr

/-- The simulation after a move, whatever came of it. -/
def Move.take (move : Move) (simulation : Simulation K C A) : Simulation K C A :=
  match move with
  | .start => simulation.start.2
  | .step => simulation.step.2
  | .advance t => simulation.advance t
  | .press way => (simulation.press way).2

/-- The simulation after one move after another. -/
def follow (moves : List Move) (simulation : Simulation K C A) : Simulation K C A :=
  moves.foldl (fun simulation move => move.take simulation) simulation

/-- Calls lead from `first` to a state, some of them perhaps failing on the way. -/
inductive Reaches (first : Simulation K C A) : Simulation K C A → Prop where
  | begin : Reaches first first
  | call {before after : Simulation K C A} (call : Call) (rounds : Nat)
      {result : Except (Break K) Answer} (reached : Reaches first before)
      (ended : call.perform rounds before = some (result, after)) : Reaches first after

theorem follow_append (moves others : List Move) (simulation : Simulation K C A) :
    simulation.follow (moves ++ others) = (simulation.follow moves).follow others :=
  List.foldl_append

theorem follow_concat (moves : List Move) (move : Move) (simulation : Simulation K C A) :
    simulation.follow (moves ++ [move]) = move.take (simulation.follow moves) := by
  rw [follow_append]
  rfl

variable {before after : Simulation K C A}

/-- The moves of deliveries of what is due, in at most so many rounds. -/
def dispatchMoves : (rounds : Nat) → Simulation K C A → List Move
  | 0, _ => []
  | rounds + 1, simulation =>
    .step :: match simulation.step with
      | (.ok (some _), after) => dispatchMoves rounds after
      | (.ok none, _) | (.error _, _) => []

/-- The moves of a run up to a horizon, in at most so many rounds. -/
def runMoves (horizon : Instant) : (rounds : Nat) → Simulation K C A → List Move
  | 0, _ => []
  | rounds + 1, simulation =>
    match simulation.stage.agenda.nextDue? with
    | none => [.advance horizon]
    | some due =>
      if due ≤ horizon then
        .advance due :: .step :: match (simulation.advance due).step with
          | (.ok _, after) => runMoves horizon rounds after
          | (.error _, _) => []
      else [.advance horizon]

/-- The moves of a call, in at most so many rounds of its loop. -/
def Call.moves (rounds : Nat) (call : Call) (simulation : Simulation K C A) : List Move :=
  match call with
  | .start => [.start]
  | .step => [.step]
  | .stepNext =>
    match simulation.stage.agenda.nextDue? with
    | none => []
    | some due => [.advance due, .step]
  | .dispatchDue => simulation.dispatchMoves rounds
  | .runUntil horizon => simulation.runMoves horizon rounds
  | .runFor duration => simulation.runMoves (simulation.now.after duration) rounds
  | .advance t => [.advance t]
  | .press way => [.press way]

theorem follow_dispatchMoves {count rounds : Nat} {outcome : After K C A Nat}
    (ended : dispatchFrom count rounds before = some outcome) :
    before.follow (before.dispatchMoves rounds) = outcome.2 := by
  induction rounds generalizing count before with
  | zero => simp [dispatchFrom] at ended
  | succ rounds ih =>
    unfold dispatchFrom at ended
    split at ended
    · next failed =>
      cases ended
      simp [dispatchMoves, failed, follow, Move.take]
    · next nothing =>
      cases ended
      simp [dispatchMoves, nothing, follow, Move.take]
    · next delivered =>
      have later := ih ended
      simpa [dispatchMoves, delivered, follow, Move.take] using later

theorem follow_runMoves {horizon : Instant} {count rounds : Nat} {outcome : After K C A Nat}
    (ended : runFrom horizon count rounds before = some outcome) :
    before.follow (before.runMoves horizon rounds) = outcome.2 := by
  induction rounds generalizing count before with
  | zero => simp [runFrom] at ended
  | succ rounds ih =>
    unfold runFrom at ended
    split at ended
    · next nothing =>
      cases ended
      simp [runMoves, nothing, follow, Move.take]
    · next due next =>
      split at ended
      · next within =>
        split at ended
        · next failed =>
          cases ended
          simp [runMoves, next, within, failed, follow, Move.take]
        · next nothing =>
          have later := ih ended
          simpa [runMoves, next, within, nothing, follow, Move.take] using later
        · next delivered =>
          have later := ih ended
          simpa [runMoves, next, within, delivered, follow, Move.take] using later
      · next beyond =>
        cases ended
        simp [runMoves, next, beyond, follow, Move.take]

/-- A call that comes to an end leads where its moves lead, whether it succeeds or fails. -/
theorem Call.follow_moves {call : Call} {rounds : Nat} {result : Except (Break K) Answer}
    (ended : call.perform rounds before = some (result, after)) :
    before.follow (call.moves rounds before) = after := by
  cases call with
  | start | step | advance t | press way =>
    cases ended
    rfl
  | stepNext =>
    cases ended
    cases next : before.stage.agenda.nextDue? with
    | none => simp [moves, Simulation.stepNext, next, follow]
    | some due => simp [moves, Simulation.stepNext, next, follow, Move.take]
  | dispatchDue =>
    obtain ⟨outcome, finished, same⟩ := Option.map_eq_some_iff.1 ended
    have last : outcome.2 = after := congrArg Prod.snd same
    exact (follow_dispatchMoves finished).trans last
  | runUntil horizon =>
    obtain ⟨outcome, finished, same⟩ := Option.map_eq_some_iff.1 ended
    have last : outcome.2 = after := congrArg Prod.snd same
    exact (follow_runMoves finished).trans last
  | runFor duration =>
    obtain ⟨outcome, finished, same⟩ := Option.map_eq_some_iff.1 ended
    have last : outcome.2 = after := congrArg Prod.snd same
    exact (follow_runMoves finished).trans last

theorem start_not_mem_dispatchMoves (rounds : Nat) (simulation : Simulation K C A) :
    .start ∉ simulation.dispatchMoves rounds := by
  induction rounds generalizing simulation with
  | zero => simp [dispatchMoves]
  | succ rounds ih =>
    unfold dispatchMoves
    split <;> simp [ih]

theorem start_not_mem_runMoves (horizon : Instant) (rounds : Nat) (simulation : Simulation K C A) :
    .start ∉ simulation.runMoves horizon rounds := by
  induction rounds generalizing simulation with
  | zero => simp [runMoves]
  | succ rounds ih =>
    unfold runMoves
    split
    · simp
    · split
      · split <;> simp [ih]
      · simp

/-- Every call but a start is a sequence of other moves than starts, and so is one that fails up to
the failure. -/
theorem Call.exists_moves_of_ne_start {call : Call} {rounds : Nat}
    {result : Except (Break K) Answer} (other : call ≠ .start)
    (ended : call.perform rounds before = some (result, after)) :
    ∃ moves, .start ∉ moves ∧ after = before.follow moves := by
  refine ⟨call.moves rounds before, ?_, (Call.follow_moves ended).symm⟩
  cases call with
  | start => exact absurd rfl other
  | step | advance t | press way => simp [moves]
  | stepNext =>
    simp only [moves]
    split <;> simp
  | dispatchDue => exact start_not_mem_dispatchMoves rounds before
  | runUntil horizon => exact start_not_mem_runMoves horizon rounds before
  | runFor duration => exact start_not_mem_runMoves _ rounds before

theorem Reaches.exists_moves {first last : Simulation K C A} (reached : Reaches first last) :
    ∃ moves, last = first.follow moves := by
  induction reached with
  | begin => exact ⟨[], rfl⟩
  | call call _ _ ended ih =>
    obtain ⟨moves, rfl⟩ := ih
    exact ⟨moves ++ call.moves _ _, (Call.follow_moves ended).symm.trans
      (follow_append moves _ first).symm⟩

/-- What every move preserves holds wherever moves lead. -/
theorem follow_induct {first : Simulation K C A} {motive : Simulation K C A → Prop}
    (begins : motive first)
    (keeps : ∀ simulation (move : Move), motive simulation → motive (move.take simulation))
    (moves : List Move) : motive (first.follow moves) := by
  induction moves using List.reverseRecOn with
  | nil => exact begins
  | append_singleton moves move ih =>
    rw [follow_concat]
    exact keeps _ move ih

/-- What every move preserves holds in every state that calls lead to. -/
theorem Reaches.induct {first last : Simulation K C A} {motive : Simulation K C A → Prop}
    (reached : Reaches first last) (begins : motive first)
    (keeps : ∀ simulation (move : Move), motive simulation → motive (move.take simulation)) :
    motive last := by
  obtain ⟨moves, rfl⟩ := reached.exists_moves
  exact follow_induct begins keeps moves

end Billiard.Simulation
