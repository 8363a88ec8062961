import Billiard.Proofs.Call
import Billiard.Script

/-!
Late or split delivery makes no difference. A delivery reads the stage and the agents, never the
clock, so every call that only delivers makes the first deliveries of the one run up to the
horizon (`Forward`), and the run that follows makes the others (`runUntil_after_served`).
-/

namespace Billiard.Simulation

variable {K C A : Type}

/-- The same simulation with its clock at `now`. -/
def setClock (now : Instant) (simulation : Simulation K C A) : Simulation K C A :=
  { simulation with now := now }

/-- The same simulation with other events pending. -/
def withAgenda (agenda : Agenda) (simulation : Simulation K C A) : Simulation K C A :=
  { simulation with stage := { simulation.stage with agenda := agenda } }

variable [Canvas K C] [Agent K A] {simulation before after last : Simulation K C A}
  {event : Event} {rest : Agenda} {horizon now t : Instant}

/-- The number of deliveries that came to their end, when one more ends with `result`. -/
def tally (delivered : Nat) : Except (Break K) Unit → Nat
  | .ok () => delivered + 1
  | .error _ => delivered

/-- A delivery is what the agent's plan makes of the stage. -/
theorem deliver_of_run {agent agent' : A} {result : Except (Break K) Unit} {stage : Stage K C}
    (found : simulation.agents[event.target]? = some agent)
    (ran : (Agent.handle ⟨event.target, event.due⟩ event agent).run ⟨event.target, event.due⟩
      (simulation.stage.note
        (.delivering event (Agent.name (K := K) agent) (Agent.state (K := K) agent))) =
      ((agent', result), stage)) :
    simulation.deliver event =
      (result, { simulation with
        stage := stage
        agents := simulation.agents.set event.target agent'
        delivered := tally simulation.delivered result }) := by
  unfold deliver
  simp only [found, ran]
  cases result <;> rfl

/-- A delivery does not see the clock and does not move it. -/
theorem deliver_setClock (simulation : Simulation K C A) (now : Instant) (event : Event) :
    (simulation.setClock now).deliver event =
      ((simulation.deliver event).1, (simulation.deliver event).2.setClock now) := by
  cases found : simulation.agents[event.target]? with
  | none => simp [deliver, setClock, found, note]
  | some agent =>
    cases ran : (Agent.handle ⟨event.target, event.due⟩ event agent).run
      ⟨event.target, event.due⟩ (simulation.stage.note
        (.delivering event (Agent.name (K := K) agent) (Agent.state (K := K) agent))) with
    | mk outcome stage =>
      have found' : (simulation.setClock now).agents[event.target]? = some agent := found
      rw [deliver_of_run found ran, deliver_of_run found' ran]
      rfl

theorem now_deliver (simulation : Simulation K C A) (event : Event) :
    (simulation.deliver event).2.now = simulation.now := by
  cases found : simulation.agents[event.target]? with
  | none => simp [deliver, found, note]
  | some agent =>
    cases ran : (Agent.handle ⟨event.target, event.due⟩ event agent).run
      ⟨event.target, event.due⟩ (simulation.stage.note
        (.delivering event (Agent.name (K := K) agent) (Agent.state (K := K) agent))) with
    | mk outcome stage => rw [deliver_of_run found ran]

/-- A step with something due delivers the first pending event. -/
theorem step_of_pop? (popped : simulation.stage.agenda.pop? = some (event, rest))
    (due : event.due ≤ simulation.now) :
    simulation.step =
      ((simulation.withAgenda rest).deliver event).map fun _ => some event.signal := by
  have poppedDue := Agenda.popDue?_eq_some_iff.2 ⟨popped, due⟩
  unfold step
  simp only [poppedDue]
  cases outcome : (simulation.withAgenda rest).deliver event with
  | mk result after =>
    unfold withAgenda at outcome
    simp only [outcome]
    cases result <;> rfl

/-- A step with nothing due does nothing. -/
theorem step_of_popDue?_eq_none (nothing : simulation.stage.agenda.popDue? simulation.now = none) :
    simulation.step = (.ok none, simulation) := by
  unfold step
  simp only [nothing]

theorem le_advance (now t : Instant) : now ≤ now.advance t := by
  rw [UInt64.le_iff_toNat_le, Instant.toNat_advance]
  omega

theorem advance_of_le (le : now ≤ horizon) : now.advance horizon = horizon := by
  rw [UInt64.le_iff_toNat_le] at le
  apply UInt64.toNat_inj.1
  rw [Instant.toNat_advance]
  omega

theorem due_le_advance (now due : Instant) : due ≤ now.advance due := by
  rw [UInt64.le_iff_toNat_le, Instant.toNat_advance]
  omega

theorem advance_le (first : now ≤ horizon) (second : t ≤ horizon) : now.advance t ≤ horizon := by
  rw [UInt64.le_iff_toNat_le] at first second ⊢
  rw [Instant.toNat_advance]
  omega

/-- Moving the clock to the first event and stepping delivers that event, and the clock stays
where it was moved. -/
theorem step_advance_of_pop? (popped : simulation.stage.agenda.pop? = some (event, rest)) :
    (simulation.advance event.due).step =
      (((simulation.withAgenda rest).deliver event).1.map fun _ => some event.signal,
        ((simulation.withAgenda rest).deliver event).2.setClock
          (simulation.now.advance event.due)) := by
  have moved : (simulation.advance event.due).stage.agenda.pop? = some (event, rest) := popped
  rw [step_of_pop? moved (due_le_advance _ _)]
  change ((simulation.withAgenda rest).setClock (simulation.now.advance event.due)
    |>.deliver event).map _ = _
  rw [deliver_setClock]
  rfl

/-- One round of a run in which the first event lies within the horizon. -/
theorem runFrom_of_pop? {count rounds : Nat}
    (popped : simulation.stage.agenda.pop? = some (event, rest)) (within : event.due ≤ horizon) :
    runFrom horizon count (rounds + 1) simulation =
      match (simulation.withAgenda rest).deliver event with
      | (.error cause, after) =>
        some (.error cause, after.setClock (simulation.now.advance event.due))
      | (.ok (), after) =>
        runFrom horizon (count + 1) rounds
          (after.setClock (simulation.now.advance event.due)) := by
  rw [runFrom, Agenda.nextDue?_of_pop? popped]
  simp only [if_pos within, step_advance_of_pop? popped]
  cases (simulation.withAgenda rest).deliver event with
  | mk result after => cases result <;> rfl

/-- The last round of a run. -/
theorem runFrom_of_beyond {count rounds : Nat}
    (beyond : ∀ due, simulation.stage.agenda.nextDue? = some due → horizon < due) :
    runFrom horizon count (rounds + 1) simulation =
      some (.ok count, simulation.advance horizon) := by
  rw [runFrom]
  cases next : simulation.stage.agenda.nextDue? with
  | none => rfl
  | some due => simp only [if_neg (UInt64.not_le.2 (beyond due next))]

theorem advance_of_ge (ge : t ≤ now) : now.advance t = now := by
  simp only [Instant.advance, UInt64.not_lt.2 ge, if_false]

/-- To deliver what is due is to run up to the present. -/
theorem dispatchFrom_eq_runFrom (count rounds : Nat) (simulation : Simulation K C A) :
    dispatchFrom count rounds simulation = runFrom simulation.now count rounds simulation := by
  induction rounds generalizing count simulation with
  | zero => rfl
  | succ rounds ih =>
    rw [dispatchFrom]
    cases due : simulation.stage.agenda.popDue? simulation.now with
    | none =>
      rw [step_of_popDue?_eq_none due, runFrom_of_beyond (Agenda.popDue?_eq_none_iff.1 due)]
      simp only [advance, advance_of_ge (UInt64.le_refl simulation.now)]
    | some pair =>
      obtain ⟨event, rest⟩ := pair
      obtain ⟨popped, early⟩ := Agenda.popDue?_eq_some_iff.1 due
      have clock := now_deliver (simulation.withAgenda rest) event
      rw [step_of_pop? popped early, runFrom_of_pop? popped early]
      cases delivered : (simulation.withAgenda rest).deliver event with
      | mk result after =>
        rw [delivered] at clock
        have still : after.setClock (simulation.now.advance event.due) = after := by
          rw [advance_of_ge early]
          exact congrArg after.setClock clock.symm
        cases result with
        | error cause =>
          change some (Except.error cause, after) = some (.error cause, after.setClock _)
          rw [still]
        | ok _ =>
          change dispatchFrom (count + 1) rounds after =
            runFrom simulation.now (count + 1) rounds (after.setClock _)
          rw [still, ih, show after.now = simulation.now from clock]

/-- Up to where a call delivers, if it delivers all that is due by then. -/
def Call.horizon? (now : Instant) : Call → Option Instant
  | .dispatchDue => some now
  | .runUntil horizon => some horizon
  | .runFor duration => some (now.after duration)
  | .start | .step | .stepNext | .advance _ | .press _ => none

/-- One loop serves for all calls that deliver up to a horizon. -/
theorem Call.perform_of_horizon? {call : Call} (loops : call.horizon? simulation.now = some horizon)
    (rounds : Nat) :
    call.perform rounds simulation =
      (runFrom horizon 0 rounds simulation).map (After.map .count) := by
  cases call with
  | start | step | stepNext | advance t | press way => cases loops
  | dispatchDue =>
    cases loops
    simp only [perform, Simulation.dispatchDue, dispatchFrom_eq_runFrom]
  | runUntil horizon =>
    cases loops
    rfl
  | runFor duration =>
    cases loops
    rfl

/-- Such a call succeeds with its loop, and reports what that counts. -/
theorem Call.exists_runFrom_of_perform {call : Call} {rounds : Nat} {answer : Answer}
    (loops : call.horizon? simulation.now = some horizon)
    (ended : call.perform rounds simulation = some (.ok answer, after)) :
    ∃ deliveries, runFrom horizon 0 rounds simulation = some (.ok deliveries, after) ∧
      answer = .count deliveries := by
  rw [perform_of_horizon? loops] at ended
  obtain ⟨outcome, finished, same⟩ := Option.map_eq_some_iff.1 ended
  obtain ⟨deliveries, rfl, rfl⟩ := After.of_map_eq_ok same
  exact ⟨deliveries, finished, rfl⟩

/-- Two runs end alike: neither ends within the rounds, or both end well and in the same state, or
both fail with the same cause and in the same state up to the clock. The state includes the
journal, whose last delivery is the event that failed. -/
def EndAlike : Option (After K C A Nat) → Option (After K C A Nat) → Prop
  | none, none => True
  | some (.ok _, last), some (.ok _, other) => last = other
  | some (.error cause, last), some (.error cause', other) =>
    cause = cause' ∧ ∃ now, other = last.setClock now
  | _, _ => False

omit [Canvas K C] [Agent K A] in
private theorem EndAlike.trans {a b c : Option (After K C A Nat)} (first : EndAlike a b)
    (second : EndAlike b c) : EndAlike a c := by
  match a, b, c with
  | none, none, none => trivial
  | some (.ok _, _), some (.ok _, _), some (.ok _, _) => exact Eq.trans first second
  | some (.error _, last), some (.error _, _), some (.error _, _) =>
    obtain ⟨rfl, _, rfl⟩ := first
    obtain ⟨rfl, now, rfl⟩ := second
    exact ⟨rfl, now, rfl⟩
  | none, some _, _ => exact first.elim
  | some (.ok _, _), none, _ => exact first.elim
  | some (.error _, _), none, _ => exact first.elim
  | some (.ok _, _), some (.error _, _), _ => exact first.elim
  | some (.error _, _), some (.ok _, _), _ => exact first.elim
  | none, none, some _ => exact second.elim
  | some (.ok _, _), some (.ok _, _), none => exact second.elim
  | some (.ok _, _), some (.ok _, _), some (.error _, _) => exact second.elim
  | some (.error _, _), some (.error _, _), none => exact second.elim
  | some (.error _, _), some (.error _, _), some (.ok _, _) => exact second.elim

/-- A run does not depend on where its clock begins, nor on what it has counted before. -/
theorem runFrom_setClock {count count' rounds : Nat} (early : simulation.now ≤ horizon)
    (early' : now ≤ horizon) :
    EndAlike (runFrom horizon count rounds simulation)
      (runFrom horizon count' rounds (simulation.setClock now)) := by
  induction rounds generalizing simulation now count count' with
  | zero => trivial
  | succ rounds ih =>
    rcases simulation.stage.agenda.beyond_or_pop? horizon with
      beyond | ⟨event, rest, popped, within⟩
    · have beyond' : ∀ due, (simulation.setClock now).stage.agenda.nextDue? = some due →
          horizon < due := beyond
      rw [runFrom_of_beyond beyond, runFrom_of_beyond beyond']
      change simulation.setClock (simulation.now.advance horizon) =
        simulation.setClock (now.advance horizon)
      rw [advance_of_le early, advance_of_le early']
    · have popped' : (simulation.setClock now).stage.agenda.pop? = some (event, rest) := popped
      rw [runFrom_of_pop? popped within, runFrom_of_pop? popped' within]
      change EndAlike _ (match ((simulation.withAgenda rest).setClock now).deliver event with
        | (.error cause, after) => some (.error cause, after.setClock (now.advance event.due))
        | (.ok (), after) => runFrom horizon (count' + 1) rounds
          (after.setClock (now.advance event.due)))
      rw [deliver_setClock]
      cases (simulation.withAgenda rest).deliver event with
      | mk result after =>
        cases result with
        | error cause => exact ⟨rfl, now.advance event.due, rfl⟩
        | ok done =>
          cases done
          have last : (after.setClock (simulation.now.advance event.due)).now ≤ horizon :=
            advance_le early within
          exact ih last (advance_le early' within)

/-- `after` is `before` some successful deliveries later, each of an event due by the horizon, and
with the clock somewhere else up to the horizon. -/
inductive Forward (horizon : Instant) :
    Simulation K C A → Simulation K C A → Prop where
  | rest (simulation : Simulation K C A) {now : Instant} (early : now ≤ horizon) :
    Forward horizon simulation (simulation.setClock now)
  | deliver {simulation after last : Simulation K C A} {event : Event} {rest : Agenda}
    (popped : simulation.stage.agenda.pop? = some (event, rest)) (within : event.due ≤ horizon)
    (delivered : (simulation.withAgenda rest).deliver event = (.ok (), after))
    (forward : Forward horizon after last) : Forward horizon simulation last

namespace Forward

theorem of_setClock (forward : Forward horizon (simulation.setClock now) last) :
    Forward horizon simulation last := by
  generalize start : simulation.setClock now = moved at forward
  induction forward generalizing simulation now with
  | rest _ early =>
    subst start
    exact .rest simulation early
  | deliver popped within delivered _ ih =>
    subst start
    rename_i event rest _
    have same := deliver_setClock (simulation.withAgenda rest) now event
    change ((simulation.withAgenda rest).setClock now).deliver event = _ at delivered
    rw [same] at delivered
    cases outcome : (simulation.withAgenda rest).deliver event with
    | mk result after =>
      rw [outcome] at delivered
      cases delivered
      exact .deliver popped within outcome (ih rfl)

theorem trans (first : Forward horizon before after) (second : Forward horizon after last) :
    Forward horizon before last := by
  induction first with
  | rest _ _ => exact of_setClock second
  | deliver popped within delivered _ ih => exact .deliver popped within delivered (ih second)

theorem refl (early : simulation.now ≤ horizon) : Forward horizon simulation simulation :=
  .rest simulation early

end Forward

/-- A run from further on ends like the run from before, with fewer rounds left to do. -/
theorem runFrom_of_forward (forward : Forward horizon before after)
    (early : before.now ≤ horizon) :
    ∃ delivered, ∀ count count' rounds,
      EndAlike (runFrom horizon count (rounds + delivered) before)
        (runFrom horizon count' rounds after) := by
  induction forward with
  | rest simulation early' => exact ⟨0, fun _ _ _ => runFrom_setClock early early'⟩
  | deliver popped within delivered _ ih =>
    rename_i simulation next _ event rest _
    have clock : next.now = simulation.now := by
      have kept := now_deliver (simulation.withAgenda rest) event
      rwa [delivered] at kept
    obtain ⟨deliveries, alike⟩ := ih (clock ▸ early)
    refine ⟨deliveries + 1, ?_⟩
    intro count count' rounds
    rw [← Nat.add_assoc, runFrom_of_pop? popped within, delivered]
    have here : (next.setClock (simulation.now.advance event.due)).now ≤ horizon :=
      advance_le early within
    have there : next.now ≤ horizon := clock ▸ early
    exact (runFrom_setClock here there).trans (alike (count + 1) count' rounds)

theorem now_start (simulation : Simulation K C A) : simulation.start.2.now = simulation.now := by
  unfold start
  split <;> rfl

theorem now_step (simulation : Simulation K C A) : simulation.step.2.now = simulation.now := by
  cases due : simulation.stage.agenda.popDue? simulation.now with
  | none => rw [step_of_popDue?_eq_none due]
  | some pair =>
    obtain ⟨event, rest⟩ := pair
    obtain ⟨popped, early⟩ := Agenda.popDue?_eq_some_iff.1 due
    rw [step_of_pop? popped early]
    exact now_deliver (simulation.withAgenda rest) event

/-- Clocks never run backwards. -/
theorem now_le_take (move : Move) (simulation : Simulation K C A) :
    simulation.now ≤ (move.take simulation).now := by
  cases move with
  | start => exact UInt64.le_of_eq (now_start simulation).symm
  | step => exact UInt64.le_of_eq (now_step simulation).symm
  | advance t => exact le_advance simulation.now t
  | press way =>
    simp only [Move.take, press]
    split <;> exact UInt64.le_refl _

theorem now_le_of_moves (led : ∃ moves, after = before.follow moves) : before.now ≤ after.now := by
  obtain ⟨moves, rfl⟩ := led
  exact follow_induct (motive := fun later => before.now ≤ later.now) (UInt64.le_refl _)
    (fun later move le => UInt64.le_trans le (now_le_take move later)) moves

theorem Forward.of_step {told : Option Signal} (stepped : simulation.step = (.ok told, after))
    (early : after.now ≤ horizon) : Forward horizon simulation after := by
  cases due : simulation.stage.agenda.popDue? simulation.now with
  | none =>
    rw [step_of_popDue?_eq_none due] at stepped
    cases stepped
    exact .refl early
  | some pair =>
    obtain ⟨event, rest⟩ := pair
    obtain ⟨popped, passed⟩ := Agenda.popDue?_eq_some_iff.1 due
    have clock := now_step simulation
    rw [step_of_pop? popped passed] at stepped
    cases delivered : (simulation.withAgenda rest).deliver event with
    | mk result next =>
      rw [step_of_pop? popped passed, delivered] at clock
      rw [delivered] at stepped
      cases result with
      | error cause => cases stepped
      | ok done =>
        cases stepped
        have within : event.due ≤ horizon := UInt64.le_trans passed (clock ▸ early)
        exact .deliver popped within delivered (.refl early)

theorem Forward.of_stepNext {told : Option Signal}
    (stepped : simulation.stepNext = (.ok told, after)) (early : after.now ≤ horizon) :
    Forward horizon simulation after := by
  unfold stepNext at stepped
  cases next : simulation.stage.agenda.nextDue? with
  | none =>
    simp only [next] at stepped
    cases stepped
    exact .refl early
  | some due =>
    simp only [next] at stepped
    exact .of_setClock (.of_step stepped early)

theorem Forward.of_runFrom {t : Instant} {count deliveries rounds : Nat}
    (ended : runFrom t count rounds simulation = some (.ok deliveries, after))
    (early : after.now ≤ horizon) : Forward horizon simulation after := by
  induction rounds generalizing count simulation with
  | zero => simp [runFrom] at ended
  | succ rounds ih =>
    have later {mid : Simulation K C A} {told : Option Signal} {count : Nat} {due : Instant}
        (next : simulation.stage.agenda.nextDue? = some due)
        (stepped : (simulation.advance due).step = (.ok told, mid))
        (ended : runFrom t count rounds mid = some (.ok deliveries, after)) :
        Forward horizon simulation after := by
      have clock := now_le_of_moves ⟨_, (follow_runMoves ended).symm⟩
      have stepped : simulation.stepNext = (.ok told, mid) := by
        simp only [stepNext, next, stepped]
      exact (Forward.of_stepNext stepped (UInt64.le_trans clock early)).trans (ih ended)
    unfold runFrom at ended
    split at ended
    · cases ended
      exact .rest simulation early
    · next due next =>
      split at ended
      · split at ended
        · cases ended
        · next stepped => exact later next stepped ended
        · next stepped => exact later next stepped ended
      · cases ended
        exact .rest simulation early

/-- A call that does nothing but deliver events and move the clock. -/
def Call.onlyDelivers : Call → Bool
  | .start | .press _ => false
  | .step | .stepNext | .dispatchDue | .runUntil _ | .runFor _ | .advance _ => true

theorem Forward.of_call {call : Call} {rounds : Nat} {answer : Answer}
    (delivers : call.onlyDelivers)
    (ended : call.perform rounds simulation = some (.ok answer, after))
    (early : after.now ≤ horizon) : Forward horizon simulation after := by
  cases loops : call.horizon? simulation.now with
  | some t =>
    obtain ⟨deliveries, finished, _⟩ := Call.exists_runFrom_of_perform loops ended
    exact .of_runFrom finished early
  | none =>
    cases call with
    | start | press way => cases delivers
    | dispatchDue | runUntil t | runFor duration => cases loops
    | step =>
      obtain ⟨told, stepped, _⟩ := After.of_map_eq_ok (Option.some.inj ended)
      exact .of_step stepped early
    | stepNext =>
      obtain ⟨told, stepped, _⟩ := After.of_map_eq_ok (Option.some.inj ended)
      exact .of_stepNext stepped early
    | advance t =>
      cases ended
      exact .rest simulation early

/-- Calls that only deliver lead from `before` to here; each of them succeeds and leaves the clock
no later than the horizon. -/
inductive Served (horizon : Instant) (before : Simulation K C A) : Simulation K C A → Prop where
  | nothing : Served horizon before before
  | call {simulation after : Simulation K C A} (call : Call) (rounds : Nat) {answer : Answer}
      (served : Served horizon before simulation) (delivers : call.onlyDelivers)
      (ended : call.perform rounds simulation = some (.ok answer, after))
      (early : after.now ≤ horizon) : Served horizon before after

private theorem Served.forward (served : Served horizon before after) :
    after = before ∨ before.now ≤ horizon ∧ after.now ≤ horizon ∧ Forward horizon before after := by
  induction served with
  | nothing => exact .inl rfl
  | call call _ _ delivers ended early ih =>
    have forward := Forward.of_call delivers ended early
    have clock := now_le_of_moves ⟨_, (Call.follow_moves ended).symm⟩
    rcases ih with rfl | ⟨first, _, earlier⟩
    · exact .inr ⟨UInt64.le_trans clock early, early, forward⟩
    · exact .inr ⟨first, early, earlier.trans forward⟩

/-- Late or split delivery does not change a run: after any successful calls that only deliver and
leave the clock no later than the horizon, a run up to the horizon ends like the same run without
them. Neither comes to an end; or both end well and in the same state, clock and journal included;
or both fail with the same cause and in the same state up to the clock, and then the last delivery
in the journal, the one that failed, is the same too. -/
theorem runUntil_after_served (served : Served horizon before after) :
    ((∀ rounds, before.runUntil rounds horizon = none) ∧
      ∀ rounds, after.runUntil rounds horizon = none) ∨
    (∃ rounds deliveries deliveries' last,
      before.runUntil rounds horizon = some (.ok deliveries, last) ∧
        after.runUntil rounds horizon = some (.ok deliveries', last)) ∨
    ∃ rounds cause last now,
      before.runUntil rounds horizon = some (.error cause, last) ∧
        after.runUntil rounds horizon = some (.error cause, last.setClock now) := by
  obtain ⟨delivered, alike⟩ : ∃ delivered, ∀ rounds,
      EndAlike (before.runUntil (rounds + delivered) horizon) (after.runUntil rounds horizon) := by
    rcases served.forward with rfl | ⟨early, _, forward⟩
    · refine ⟨0, ?_⟩
      intro rounds
      rw [Nat.add_zero]
      match after.runUntil rounds horizon with
      | none => trivial
      | some (.ok _, last) => rfl
      | some (.error _, last) => exact ⟨rfl, last.now, rfl⟩
    · obtain ⟨delivered, alike⟩ := runFrom_of_forward forward early
      exact ⟨delivered, fun rounds => alike 0 0 rounds⟩
  by_cases ends : ∃ rounds last, after.runUntil rounds horizon = some last
  · obtain ⟨rounds, ⟨result, last⟩, finished⟩ := ends
    have same := alike rounds
    have more := runFrom_mono finished (Nat.le_add_right rounds delivered)
    rw [finished] at same
    cases earlier : before.runUntil (rounds + delivered) horizon with
    | none =>
      rw [earlier] at same
      exact same.elim
    | some outcome =>
      obtain ⟨result', first⟩ := outcome
      rw [earlier] at same
      cases result' with
      | ok deliveries =>
        cases result with
        | error cause => exact same.elim
        | ok deliveries' =>
          cases same
          exact .inr (.inl ⟨rounds + delivered, deliveries, deliveries', _, earlier, more⟩)
      | error cause =>
        cases result with
        | ok deliveries => exact same.elim
        | error cause' =>
          obtain ⟨rfl, now, rfl⟩ := same
          exact .inr (.inr ⟨rounds + delivered, _, _, now, earlier, more⟩)
  · have never : ∀ rounds, after.runUntil rounds horizon = none := by
      intro rounds
      cases ended : after.runUntil rounds horizon with
      | none => rfl
      | some last => exact absurd ⟨rounds, last, ended⟩ ends
    refine .inl ⟨?_, never⟩
    intro rounds
    cases ended : before.runUntil rounds horizon with
    | none => rfl
    | some last =>
      have same := alike rounds
      rw [never rounds, runUntil, runFrom_mono ended (Nat.le_add_right rounds delivered)] at same
      obtain ⟨result, last⟩ := last
      cases result <;> exact same.elim

/-- A script at its start: a key and a beat are to come, and the first of them calls for another
beat. -/
def duet : Simulation Float (Blank Float) Script :=
  ((new ⟨[], [], ⟨0.0, 10.0, 10.0, ⟨0.0, 0.0⟩⟩, .line, .pass⟩ ⟨⟩).join
    ⟨[.send 3 (.key .left), .send 5 (.beat 5)], [[.send 1 (.beat 1)]]⟩).2.start.2

/-- In the duet, the key comes late, and alone. -/
theorem runUntil_after_served_duet :
    Served 10 duet (duet.advance 7).step.2 ∧
      (((∀ rounds, duet.runUntil rounds 10 = none) ∧
        ∀ rounds, (duet.advance 7).step.2.runUntil rounds 10 = none) ∨
      (∃ rounds deliveries deliveries' last,
        duet.runUntil rounds 10 = some (.ok deliveries, last) ∧
          (duet.advance 7).step.2.runUntil rounds 10 = some (.ok deliveries', last)) ∨
      ∃ rounds cause last now,
        duet.runUntil rounds 10 = some (.error cause, last) ∧
          (duet.advance 7).step.2.runUntil rounds 10 =
            some (.error cause, last.setClock now)) := by
  have moved : Served 10 duet (duet.advance 7) :=
    .call (.advance 7) 0 .nothing rfl rfl (by decide)
  have stepped : Call.step.perform 0 (duet.advance 7) =
      some (.ok (.told (some (.key .left))), (duet.advance 7).step.2) := rfl
  have served : Served 10 duet (duet.advance 7).step.2 :=
    .call .step 0 moved rfl stepped (by decide)
  exact ⟨served, runUntil_after_served served⟩
end Billiard.Simulation
