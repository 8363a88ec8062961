import Mathlib.Data.Option.Basic
import Billiard.Proofs.Undisturbed

/-!
Two simulations side by side. If a relation of them agrees on the clock and on what is due next, and
every move keeps it and is answered alike (`Lockstep`), then calls are answered alike, however many
events they deliver, and a script that plays in the one plays in the other with the same answers
(`Lockstep.plays`).
-/

namespace Billiard.Simulation

variable {K C A α β : Type} {related : Simulation K C A → Simulation K C A → Prop}

/-- Two outcomes have the same answer and leave related simulations. -/
inductive Matches (related : Simulation K C A → Simulation K C A → Prop) :
    After K C A α → After K C A α → Prop where
  | intro (answer : Except (Break K) α) {after after' : Simulation K C A}
      (later : related after after') : Matches related (answer, after) (answer, after')

namespace Matches

variable {outcome other : After K C A α}

theorem symm (same : Matches related outcome other) :
    Matches (fun other simulation => related simulation other) other outcome := by
  cases same with
  | intro answer later => exact .intro answer later

theorem map (same : Matches related outcome other) (say : α → β) :
    Matches related (outcome.map say) (other.map say) := by
  cases same with
  | intro answer later => exact .intro _ later

end Matches

/-- Moves that take related simulations to related simulations, with the same answer. -/
structure Lockstep [Canvas K C] [Agent K A]
    (related : Simulation K C A → Simulation K C A → Prop) : Prop where
  clock {simulation other} : related simulation other → other.now = simulation.now
  due {simulation other} : related simulation other →
    other.stage.agenda.nextDue? = simulation.stage.agenda.nextDue?
  start {simulation other} : related simulation other →
    Matches related simulation.start other.start
  step {simulation other} : related simulation other →
    Matches related simulation.step other.step
  advance {simulation other} (t : Instant) : related simulation other →
    related (simulation.advance t) (other.advance t)
  press {simulation other} (way : Turn) : related simulation other →
    (other.press way).1 = (simulation.press way).1 ∧
      related (simulation.press way).2 (other.press way).2

namespace Lockstep

section

variable [Canvas K C] [Agent K A] {simulation other : Simulation K C A}

/-- Lockstep goes both ways. -/
theorem symm (lockstep : Lockstep related) : Lockstep fun other simulation =>
    related simulation other where
  clock pair := (lockstep.clock pair).symm
  due pair := (lockstep.due pair).symm
  start pair := (lockstep.start pair).symm
  step pair := (lockstep.step pair).symm
  advance t pair := lockstep.advance t pair
  press way pair := ⟨(lockstep.press way pair).1.symm, (lockstep.press way pair).2⟩

theorem dispatchFrom (lockstep : Lockstep related) (pair : related simulation other)
    (count rounds : Nat) : Option.Rel (Matches related)
      (Simulation.dispatchFrom count rounds simulation)
      (Simulation.dispatchFrom count rounds other) := by
  induction rounds generalizing simulation other count with
  | zero => exact .none
  | succ rounds ih =>
    have same := lockstep.step pair
    unfold Simulation.dispatchFrom
    generalize simulation.step = outcome at same
    generalize other.step = outcome' at same
    cases same with
    | intro answer later =>
      rcases answer with cause | _ | signal
      · exact .some (.intro _ later)
      · exact .some (.intro _ later)
      · exact ih later (count + 1)

theorem runFrom (lockstep : Lockstep related) (pair : related simulation other)
    (horizon : Instant) (count rounds : Nat) : Option.Rel (Matches related)
      (Simulation.runFrom horizon count rounds simulation)
      (Simulation.runFrom horizon count rounds other) := by
  induction rounds generalizing simulation other count with
  | zero => exact .none
  | succ rounds ih =>
    unfold Simulation.runFrom
    simp only [lockstep.due pair]
    cases simulation.stage.agenda.nextDue? with
    | none => exact .some (.intro _ (lockstep.advance horizon pair))
    | some due =>
      by_cases within : due ≤ horizon
      · have same := lockstep.step (lockstep.advance due pair)
        simp only [if_pos within]
        generalize (simulation.advance due).step = outcome at same
        generalize (other.advance due).step = outcome' at same
        cases same with
        | intro answer later =>
          rcases answer with cause | _ | signal
          · exact .some (.intro _ later)
          · exact ih later count
          · exact ih later (count + 1)
      · simp only [if_neg within]
        exact .some (.intro _ (lockstep.advance horizon pair))

omit [Canvas K C] [Agent K A] in
theorem map {outcome outcome' : Option (After K C A α)}
    (same : Option.Rel (Matches related) outcome outcome') (say : α → β) :
    Option.Rel (Matches related) (outcome.map (After.map say)) (outcome'.map (After.map say)) := by
  cases same with
  | none => exact .none
  | some same => exact .some (same.map say)

/-- Every call is answered alike, or not at all in either. -/
theorem perform (lockstep : Lockstep related) (pair : related simulation other) (call : Call)
    (rounds : Nat) :
    Option.Rel (Matches related) (call.perform rounds simulation) (call.perform rounds other) := by
  cases call with
  | start => exact .some ((lockstep.start pair).map _)
  | step => exact .some ((lockstep.step pair).map _)
  | stepNext =>
    have same : Matches related simulation.stepNext other.stepNext := by
      unfold stepNext
      simp only [lockstep.due pair]
      cases simulation.stage.agenda.nextDue? with
      | none => exact .intro _ pair
      | some due => exact lockstep.step (lockstep.advance due pair)
    exact .some (same.map _)
  | dispatchDue => exact map (lockstep.dispatchFrom pair 0 rounds) _
  | runUntil horizon => exact map (lockstep.runFrom pair horizon 0 rounds) _
  | runFor duration =>
    have same := lockstep.runFrom pair (simulation.now.after duration) 0 rounds
    have horizon : other.runFor rounds duration =
        other.runUntil rounds (simulation.now.after duration) := by
      rw [runFor, lockstep.clock pair]
    simp only [Call.perform, horizon]
    exact map same _
  | advance t => exact .some (.intro _ (lockstep.advance t pair))
  | press way =>
    obtain ⟨answer, later⟩ := lockstep.press way pair
    simp only [Call.perform, answer]
    exact .some (.intro _ later)

end

/-- What plays in the one plays in the other. -/
theorem plays [Scalar K] [Canvas K C]
    {related : Simulation K C Conductor → Simulation K C Conductor → Prop}
    (lockstep : Lockstep related) {first other last : Simulation K C Conductor}
    (begins : related first other) {history : List (Call × Except (Break K) Answer)}
    (plays : first.Plays history last) :
    ∃ last', other.Plays history last' ∧ related last last' := by
  induction plays with
  | begin => exact ⟨other, .begin, begins⟩
  | call call rounds _ ended ih =>
    obtain ⟨before, played, pair⟩ := ih
    have same := lockstep.perform pair call rounds
    rw [ended] at same
    generalize ended' : call.perform rounds before = outcome at same
    cases same with
    | some same =>
      cases same with
      | intro result later => exact ⟨_, .call call rounds played ended', later⟩

end Lockstep

end Billiard.Simulation
