import Billiard.Proofs.History
import Billiard.Script

/-!
What a stall leaves behind, whatever other agents share the table with a conductor. No agent touches
what another one waits for, so a conductor waits for at most one event at any time; a delivery that
it stalls on has taken that one from the agenda. A start takes nothing: a conductor that stalls when
it is started again leaves behind what it was waiting for (`Simulation.stalls_leave`). Idle as it is
then, it does no more than turn the turret.
-/

namespace Billiard

variable {K C A α : Type}

/-- What one agent does is nothing to what another one waits for. -/
theorem Plan.awaitedBy_run [Canvas K C] (visit : Visit) {id : AgentId} (apart : visit.agent ≠ id)
    (plan : Plan K α) (stage : Stage K C) :
    (plan.run visit stage).2.agenda.awaitedBy id = stage.agenda.awaitedBy id := by
  induction plan generalizing stage with
  | done result => rfl
  | look next ih => exact ih stage.table stage
  | lay table next ih => exact ih { stage with table := table }
  | draw stroke next ih => exact ih (stage.draw stroke)
  | remark words next ih => exact ih (stage.note (.said words))
  | send delay signal next ih =>
    exact (ih _ (stage.send visit delay signal).2).trans (Agenda.awaitedBy_schedule_of_ne apart)
  | await delay signal next ih =>
    refine (ih _ ((stage.withdraw visit).send visit delay signal).2).trans ?_
    refine (Agenda.awaitedBy_schedule_of_ne apart).trans ?_
    rw [Stage.agenda_withdraw]
    exact Agenda.awaitedBy_withdraw_of_ne apart

namespace Simulation

variable [Canvas K C] [Agent K A] {simulation : Simulation K C A} {id : Nat} {agent : A}

/-- A start of other agents is nothing to what an agent waits for. -/
theorem awaitedBy_startFrom (now : Instant) (first : Nat) (agents : List A)
    (apart : id < first ∨ first + agents.length ≤ id) (stage : Stage K C) :
    (startFrom now first agents stage).2.2.agenda.awaitedBy id = stage.agenda.awaitedBy id := by
  induction agents generalizing first stage with
  | nil => rfl
  | cons agent rest ih =>
    rw [List.length_cons] at apart
    have other : first ≠ id := by omega
    have started := Plan.awaitedBy_run ⟨first, now⟩ other (Agent.start ⟨first, now⟩ agent) stage
    unfold startFrom
    cases ran : (Agent.start ⟨first, now⟩ agent).run ⟨first, now⟩ stage with
    | mk outcome last =>
      rw [ran] at started
      obtain ⟨agent, _ | _⟩ := outcome
      · simpa only [ran] using started
      · simp only [ran]
        exact (ih (first + 1) (by omega) last).trans started

/-- Agents are started one after another. -/
theorem startFrom_append (now : Instant) (first : Nat) (agents more : List A)
    (stage : Stage K C) :
    startFrom now first (agents ++ more) stage =
      match startFrom now first agents stage with
      | (.error cause, started, last) => (.error cause, started ++ more, last)
      | (.ok (), started, last) =>
        let (result, others, final) := startFrom now (first + agents.length) more last
        (result, started ++ others, final) := by
  induction agents generalizing first stage with
  | nil => rfl
  | cons agent rest ih =>
    rw [List.cons_append, startFrom, startFrom]
    cases ran : (Agent.start ⟨first, now⟩ agent).run ⟨first, now⟩ stage with
    | mk outcome last =>
      obtain ⟨agent, _ | _⟩ := outcome
      · simp only [List.cons_append]
      · simp only [ih, List.length_cons]
        rw [Nat.add_right_comm, Nat.add_assoc]
        split <;> simp_all

/-- On a start, an agent has its turn on this stage: those before it were started without an
error. -/
def TurnOf (simulation : Simulation K C A) (id : AgentId) (stage : Stage K C) : Prop :=
  ∃ started, startFrom simulation.now 0 (simulation.agents.take id) simulation.stage =
    (.ok (), started, stage)

/-- What a start is to one of the agents: it does not come to its turn, or it is started, and what
it leaves is left. -/
inductive Starts (simulation : Simulation K C A) (id : AgentId) (agent : A) : Prop where
  | waits (out : ∀ stage, ¬simulation.TurnOf id stage)
      (stays : simulation.start.2.agents[id]? = some agent)
      (awaited : simulation.start.2.stage.agenda.awaitedBy id =
        simulation.stage.agenda.awaitedBy id)
  | starts {stage last : Stage K C} {changed : A} {result : Except (Break K) Unit}
      (turn : simulation.TurnOf id stage)
      (before : stage.agenda.awaitedBy id = simulation.stage.agenda.awaitedBy id)
      (ran : (Agent.start ⟨id, simulation.now⟩ agent).run ⟨id, simulation.now⟩ stage =
        ((changed, result), last))
      (becomes : simulation.start.2.agents[id]? = some changed)
      (awaited : simulation.start.2.stage.agenda.awaitedBy id = last.agenda.awaitedBy id)
      (fails : ∀ cause, result = .error cause → simulation.start.1 = .error cause)

theorem starts_of_getElem? (here : simulation.agents[id]? = some agent) :
    simulation.Starts id agent := by
  obtain ⟨inside, same⟩ := List.getElem?_eq_some_iff.1 here
  have split : simulation.agents =
      simulation.agents.take id ++ agent :: simulation.agents.drop (id + 1) := by
    rw [← same, List.getElem_cons_drop, List.take_append_drop]
  have count : (simulation.agents.take id).length = id := List.length_take_of_le inside.le
  obtain ⟨result, started, agenda⟩ :
      simulation.start.1 = (startFrom simulation.now 0 simulation.agents simulation.stage).1 ∧
      simulation.start.2.agents =
        (startFrom simulation.now 0 simulation.agents simulation.stage).2.1 ∧
      simulation.start.2.stage.agenda =
        (startFrom simulation.now 0 simulation.agents simulation.stage).2.2.agenda := by
    unfold start
    rcases startFrom simulation.now 0 simulation.agents simulation.stage with
      ⟨cause | _, started, last⟩ <;> exact ⟨rfl, rfl, rfl⟩
  have before := awaitedBy_startFrom simulation.now 0 (simulation.agents.take id)
    (.inr (by omega : 0 + (simulation.agents.take id).length ≤ id)) simulation.stage
  have length := length_startFrom simulation.now 0 (simulation.agents.take id) simulation.stage
  have whole := startFrom_append simulation.now 0 (simulation.agents.take id)
    (agent :: simulation.agents.drop (id + 1)) simulation.stage
  rw [← split, count, Nat.zero_add] at whole
  rw [count] at length
  have behind (others more : List A) (same : others.length = id) :
      (others ++ more)[id]? = more.head? := by
    rw [List.getElem?_append_right same.le, same, Nat.sub_self, List.head?_eq_getElem?]
  rcases turn : startFrom simulation.now 0 (simulation.agents.take id) simulation.stage with
    ⟨cause | _, others, stage⟩
  · rw [turn] at whole before length
    refine .waits ?_ ?_ ?_
    · rintro stage ⟨_, reached⟩
      rw [turn] at reached
      cases reached
    · rw [started, whole]
      exact behind _ _ length
    · rw [agenda, whole]
      exact before
  · rw [turn] at whole before length
    cases ran : (Agent.start ⟨id, simulation.now⟩ agent).run ⟨id, simulation.now⟩ stage with
    | mk outcome last =>
      obtain ⟨changed, cause | _⟩ := outcome
      · simp only [startFrom, ran] at whole
        refine .starts ⟨others, turn⟩ before ran ?_ ?_ ?_
        · rw [started, whole]
          exact behind _ _ length
        · rw [agenda, whole]
        · intro cause same
          rw [result, whole, ← same]
      · simp only [startFrom, ran] at whole
        have after := awaitedBy_startFrom simulation.now (id + 1)
          (simulation.agents.drop (id + 1)) (.inl (Nat.lt_succ_self id)) last
        refine .starts ⟨others, turn⟩ before ran ?_ ?_ ?_
        · rw [started, whole]
          exact behind _ _ length
        · rw [agenda, whole]
          exact after
        · intro cause same
          cases same

/-- The stage once it is noted that the event is delivered to an agent. -/
def announce (simulation : Simulation K C A) (event : Event) (agent : A) : Stage K C :=
  simulation.stage.note (.delivering event (Agent.name (K := K) agent) (Agent.state (K := K) agent))

/-- A delivery to one agent is nothing to another one and to what that waits for. -/
theorem deliver_of_ne {event : Event} (apart : event.target ≠ id) (simulation : Simulation K C A) :
    (simulation.deliver event).2.agents[id]? = simulation.agents[id]? ∧
      (simulation.deliver event).2.stage.agenda.awaitedBy id =
        simulation.stage.agenda.awaitedBy id := by
  cases found : simulation.agents[event.target]? with
  | none =>
    simp only [deliver, found]
    exact ⟨rfl, rfl⟩
  | some agent =>
    let visit : Visit := ⟨event.target, event.due⟩
    have handled := Plan.awaitedBy_run visit apart (Agent.handle visit event agent)
      (simulation.announce event agent)
    cases ran : (Agent.handle visit event agent).run visit (simulation.announce event agent) with
    | mk outcome last =>
      rw [ran] at handled
      rw [deliver_of_run found ran]
      exact ⟨List.getElem?_set_ne apart, handled⟩

end Simulation

variable [Scalar K] [Canvas K C] [Agent K A]

/-- A conductor in such a seat is started and handles events as it does alone. -/
structure Seats (K : Type) {A : Type} [Scalar K] [Agent K A] (seat : Conductor → A) : Prop where
  start : ∀ visit conductor, Agent.start (K := K) visit (seat conductor) = do
    let (next, result) ← conductor.start visit
    return (seat next, result)
  handle : ∀ visit event conductor, Agent.handle (K := K) visit event (seat conductor) = do
    let (next, result) ← conductor.handle visit event.signal
    return (seat next, result)

namespace Seats

variable {seat : Conductor → A}

theorem run_start (seats : Seats K seat) (visit : Visit) (conductor : Conductor)
    (stage : Stage K C) :
    (Agent.start visit (seat conductor)).run visit stage =
      let ran := (conductor.start visit).run visit stage
      ((seat ran.1.1, ran.1.2), ran.2) := by
  rw [seats.start, Plan.run_bind]
  rfl

theorem run_handle (seats : Seats K seat) (visit : Visit) (event : Event) (conductor : Conductor)
    (stage : Stage K C) :
    (Agent.handle visit event (seat conductor)).run visit stage =
      let ran := (conductor.handle visit event.signal).run visit stage
      ((seat ran.1.1, ran.1.2), ran.2) := by
  rw [seats.handle, Plan.run_bind]
  rfl

end Seats

/-- The table after a signal to which nobody reacts: keys turn the turret all the same. -/
def Table.turnedBy (table : Table K) : Signal → Table K
  | .key way => table.turn way
  | .wall .. | .pair .. | .beat _ => table

namespace Conductor

variable {visit : Visit} {signal : Signal} {conductor ready next : Conductor}
  {table after : Table K} {agenda rearmed : Agenda} {outcome : Outcome K Conductor}
  {cause : Break K}

/-- An idle conductor does no more than turn the turret. -/
theorem run_handle_of_idle (visit : Visit) (signal : Signal) (idle : conductor.phase = .idle)
    (stage : Stage K C) :
    ∃ journal, (conductor.handle visit signal).run visit stage =
      ((conductor, .ok ()),
        { stage with table := stage.table.turnedBy signal, journal := journal }) := by
  unfold handle
  rw [idle]
  cases signal <;> exact ⟨_, rfl⟩

omit [Canvas K C] in
/-- A conductor that arms itself waits for at most one event, if it did before. -/
theorem Arms.awaited_le (arms : Arms visit ready table agenda outcome rearmed)
    (few : (agenda.awaitedBy visit.agent).length ≤ 1) :
    (rearmed.awaitedBy visit.agent).length ≤ 1 := by
  cases arms with
  | waits follows =>
    rw [Agenda.awaitedBy_schedule_withdraw (recurs_of_follows follows)]
    exact Nat.le_refl 1
  | stalls _ => exact few

/-- A conductor that cannot arm itself stalls, and leaves the agenda as it is. -/
theorem Arms.of_error (arms : Arms visit ready table agenda (next, .error cause) rearmed) :
    cause = .fault (.stalled visit.agent visit.now) ∧ next.phase = .idle ∧ rearmed = agenda := by
  cases arms with
  | stalls _ => exact ⟨rfl, rfl, rfl⟩

theorem Handles.awaited_le (handles : Handles visit signal conductor table agenda outcome after
    rearmed) (few : (agenda.awaitedBy visit.agent).length ≤ 1) :
    (rearmed.awaitedBy visit.agent).length ≤ 1 := by
  cases handles with
  | key _ => exact few
  | reacts _ arms => exact arms.awaited_le few
  | ignores _ _ => exact few

/-- A delivery fails only if the conductor has reacted to what it was waiting for, and stalls. -/
theorem Handles.of_error (handles : Handles visit signal conductor table agenda
    (next, .error cause) after rearmed) :
    signal.recurs ∧ cause = .fault (.stalled visit.agent visit.now) ∧ next.phase = .idle ∧
      rearmed = agenda := by
  cases handles with
  | reacts reacts arms =>
    refine ⟨?_, arms.of_error⟩
    by_contra once
    obtain ⟨way, rfl⟩ := Signal.exists_key (Bool.not_eq_true _ ▸ once)
    simp [reaction?] at reacts

end Conductor

namespace Simulation

variable {seat : Conductor → A} {simulation first here : Simulation K C A} {id : Nat}
  {conductor : Conductor} {event : Event} {rest : Agenda} {moves : List Move}

/-- A delivery to a seat is handled by the conductor that sits there. -/
theorem deliver_of_seat (seats : Seats K seat) (simulation : Simulation K C A)
    (there : simulation.agents[event.target]? = some (seat conductor)) :
    let visit : Visit := ⟨event.target, event.due⟩
    let ran := (conductor.handle visit event.signal).run visit
      (simulation.announce event (seat conductor))
    simulation.deliver event =
      (ran.1.2, { simulation with
        stage := ran.2
        agents := simulation.agents.set event.target (seat ran.1.1)
        delivered := tally simulation.delivered ran.1.2 }) :=
  deliver_of_run there (seats.run_handle ⟨event.target, event.due⟩ event conductor _)

/-- A delivery to a conductor is to it what it is to a conductor that is alone. -/
theorem deliver_seated (seats : Seats K seat) (simulation : Simulation K C A)
    (there : simulation.agents[event.target]? = some (seat conductor)) :
    ∃ next, conductor.Handles ⟨event.target, event.due⟩ event.signal simulation.stage.table
        simulation.stage.agenda (next, (simulation.deliver event).1)
        (simulation.deliver event).2.stage.table (simulation.deliver event).2.stage.agenda ∧
      (simulation.deliver event).2.agents[event.target]? = some (seat next) := by
  have inside := (List.getElem?_eq_some_iff.1 there).1
  rw [deliver_of_seat seats simulation there]
  have handles := (Conductor.handles_run_handle ⟨event.target, event.due⟩ event.signal conductor
    (simulation.announce event (seat conductor))).1
  exact ⟨_, handles, List.getElem?_set_self inside⟩

/-- A conductor sits there, and waits for at most one event. -/
def Seated (seat : Conductor → A) (id : AgentId) (simulation : Simulation K C A) : Prop :=
  (∃ conductor, simulation.agents[id]? = some (seat conductor)) ∧
    (simulation.stage.agenda.awaitedBy id).length ≤ 1

/-- What a start does for a conductor, if it gets to it. -/
theorem arms_of_run (seats : Seats K seat) {stage last : Stage K C} {visit : Visit} {changed : A}
    {result : Except (Break K) Unit}
    (ran : (Agent.start visit (seat conductor)).run visit stage = ((changed, result), last)) :
    ∃ next, changed = seat next ∧ (conductor.restarted visit.now).Arms visit stage.table
      stage.agenda (next, result) last.agenda := by
  have arms := (Conductor.arms_run_start visit conductor stage).1
  rw [seats.run_start] at ran
  cases ran
  exact ⟨_, rfl, arms⟩

/-- A conductor keeps its seat, and never waits for more than one event. -/
theorem Seated.take (seats : Seats K seat) (seated : simulation.Seated seat id) (move : Move) :
    (move.take simulation).Seated seat id := by
  obtain ⟨⟨conductor, here⟩, few⟩ := seated
  cases move with
  | advance t => exact ⟨⟨conductor, here⟩, few⟩
  | press way =>
    simp only [Move.take, press]
    split
    · exact ⟨⟨conductor, here⟩, few⟩
    · refine ⟨⟨conductor, here⟩, ?_⟩
      simpa only [Agenda.awaitedBy_schedule_key] using few
  | step =>
    cases due : simulation.stage.agenda.popDue? simulation.now with
    | none =>
      rw [Move.take, step_of_popDue?_eq_none due]
      exact ⟨⟨conductor, here⟩, few⟩
    | some pair =>
      obtain ⟨event, rest⟩ := pair
      obtain ⟨popped, early⟩ := Agenda.popDue?_eq_some_iff.1 due
      have others : (rest.awaitedBy id).length ≤ 1 := by
        rw [Agenda.awaitedBy_of_pop? popped] at few
        split at few
        · exact Nat.le_of_succ_le few
        · exact few
      rw [Move.take, step_of_pop? popped early]
      by_cases mine : event.target = id
      · subst mine
        obtain ⟨next, handles, becomes⟩ := deliver_seated seats (simulation.withAgenda rest) here
        exact ⟨⟨next, becomes⟩, handles.awaited_le others⟩
      · obtain ⟨stays, awaited⟩ := deliver_of_ne mine (simulation.withAgenda rest)
        exact ⟨⟨conductor, stays.trans here⟩, (congrArg List.length awaited).trans_le others⟩
  | start =>
    cases starts_of_getElem? here with
    | waits _ stays awaited =>
      exact ⟨⟨conductor, stays⟩, (congrArg List.length awaited).trans_le few⟩
    | starts _ before ran becomes awaited _ =>
      obtain ⟨next, rfl, arms⟩ := arms_of_run seats ran
      refine ⟨⟨next, becomes⟩, (congrArg List.length awaited).trans_le (arms.awaited_le ?_)⟩
      exact (congrArg List.length before).trans_le few

omit [Scalar K] [Canvas K C] in
theorem Assembled.seated (assembled : first.Assembled)
    (there : first.agents[id]? = some (seat conductor)) : first.Seated seat id := by
  refine ⟨⟨conductor, there⟩, ?_⟩
  rw [assembled.idle.agenda]
  exact Nat.zero_le 1

/-- A conductor sits there, and is idle. -/
def Stalled (seat : Conductor → A) (id : AgentId) (simulation : Simulation K C A) : Prop :=
  ∃ conductor, simulation.agents[id]? = some (seat conductor) ∧ conductor.phase = .idle

/-- On a start, an agent that has its turn fails. -/
def StartFails (simulation : Simulation K C A) (id : AgentId) (cause : Break K) : Prop :=
  ∃ stage agent changed last, simulation.TurnOf id stage ∧ simulation.agents[id]? = some agent ∧
    (Agent.start ⟨id, simulation.now⟩ agent).run ⟨id, simulation.now⟩ stage =
      ((changed, .error cause), last)

/-- No start among these moves gets to an agent. -/
def Unstarted (simulation : Simulation K C A) (id : AgentId) (moves : List Move) : Prop :=
  ∀ part, part ++ [.start] <+: moves → ∀ stage, ¬(simulation.follow part).TurnOf id stage

/-- The delivery takes its event from the agenda, and turns the turret if that is a key. -/
structure Delivery.OnlyTurns (delivery : Delivery K C A) : Prop where
  result : delivery.result = .ok ()
  agents : delivery.after.agents = delivery.before.agents
  table : delivery.after.stage.table = delivery.before.stage.table.turnedBy delivery.event.signal
  canvas : delivery.after.stage.canvas = delivery.before.stage.canvas
  agenda : delivery.before.stage.agenda.pop? = some (delivery.event, delivery.after.stage.agenda)

/-- A conductor that fails about a delivery stalls, and had waited for what was delivered. -/
theorem Seated.stalls_of_step {cause : Break K} {after : Simulation K C A} (seats : Seats K seat)
    (seated : here.Seated seat id)
    (popped : here.stage.agenda.popDue? here.now = some (event, rest)) (mine : event.target = id)
    (failed : here.step = (.error cause, after)) :
    cause = .fault (.stalled id event.due) ∧ after.Stalled seat id ∧
      after.stage.agenda.awaitedBy id = [] := by
  subst mine
  obtain ⟨⟨conductor, there⟩, few⟩ := seated
  obtain ⟨popped, early⟩ := Agenda.popDue?_eq_some_iff.1 popped
  rw [step_of_pop? popped early] at failed
  obtain ⟨next, handles, becomes⟩ := deliver_seated seats (here.withAgenda rest) there
  cases delivered : (here.withAgenda rest).deliver event with
  | mk result last =>
    rw [delivered] at failed handles becomes
    cases result with
    | ok _ => cases failed
    | error cause =>
      cases failed
      obtain ⟨recurs, stalled, idle, same⟩ := handles.of_error
      have awaited : event.recursFor event.target = true := by simp [Event.recursFor, recurs]
      rw [Agenda.awaitedBy_of_pop? popped, if_pos awaited, List.length_cons] at few
      have none : rest.awaitedBy event.target = [] := List.length_eq_zero_iff.1 (by omega)
      exact ⟨stalled, ⟨next, becomes, idle⟩, same ▸ none⟩

/-- A conductor that fails on a start stalls, and what it was waiting for stays pending. -/
theorem stalls_of_start {cause : Break K} (seats : Seats K seat)
    (there : here.agents[id]? = some (seat conductor)) (failed : here.StartFails id cause) :
    here.start.1 = .error cause ∧ cause = .fault (.stalled id here.now) ∧
      here.start.2.Stalled seat id ∧
      here.start.2.stage.agenda.awaitedBy id = here.stage.agenda.awaitedBy id := by
  obtain ⟨stage, agent, changed, last, turn, found, ran⟩ := failed
  obtain rfl := Option.some.inj (found.symm.trans there)
  cases starts_of_getElem? there with
  | waits out _ _ => exact absurd turn (out stage)
  | starts turn' before ran' becomes awaited fails =>
    obtain ⟨_, started⟩ := turn
    obtain ⟨_, started'⟩ := turn'
    cases started.symm.trans started'
    cases ran.symm.trans ran'
    obtain ⟨next, rfl, arms⟩ := arms_of_run seats ran
    obtain ⟨stalled, idle, same⟩ := arms.of_error
    exact ⟨fails cause rfl, stalled, ⟨next, becomes, idle⟩,
      awaited.trans ((congrArg (Agenda.awaitedBy · id) same).trans before)⟩

/-- A delivery to a stalled conductor only turns the turret. -/
theorem onlyTurns_of_idle (seats : Seats K seat)
    (there : simulation.agents[event.target]? = some (seat conductor))
    (idle : conductor.phase = .idle)
    (popped : simulation.stage.agenda.pop? = some (event, rest)) :
    Delivery.OnlyTurns ⟨event, simulation, ((simulation.withAgenda rest).deliver event).1,
      ((simulation.withAgenda rest).deliver event).2⟩ := by
  have found : (simulation.withAgenda rest).agents[event.target]? = some (seat conductor) := there
  obtain ⟨inside, same⟩ := List.getElem?_eq_some_iff.1 there
  obtain ⟨journal, turned⟩ := Conductor.run_handle_of_idle ⟨event.target, event.due⟩ event.signal
    idle ((simulation.withAgenda rest).announce event (seat conductor))
  rw [deliver_of_seat seats _ found, turned]
  refine ⟨rfl, ?_, rfl, rfl, popped⟩
  change simulation.agents.set event.target (seat conductor) = simulation.agents
  rw [← same, List.set_getElem_self]

/-- A stalled conductor stays stalled, and only turns the turret, until a start gets to it. -/
theorem stays_stalled (seats : Seats K seat) (there : here.agents[id]? = some (seat conductor))
    (idle : conductor.phase = .idle) (unstarted : here.Unstarted id moves) :
    (here.follow moves).agents[id]? = some (seat conductor) ∧
      ∀ delivery ∈ here.history moves, delivery.event.target = id → delivery.OnlyTurns := by
  induction moves using List.reverseRecOn with
  | nil => exact ⟨there, List.forall_mem_nil _⟩
  | append_singleton moves move ih =>
    obtain ⟨stays, turns⟩ := ih fun part isPart =>
      unstarted part (isPart.trans (List.prefix_append moves [move]))
    rw [follow_concat, history_concat, List.forall_mem_append]
    cases move with
    | advance t => exact ⟨stays, turns, List.forall_mem_nil _⟩
    | press way =>
      refine ⟨?_, turns, List.forall_mem_nil _⟩
      simp only [Move.take, press]
      split <;> exact stays
    | start =>
      refine ⟨?_, turns, List.forall_mem_nil _⟩
      cases starts_of_getElem? stays with
      | waits _ stays _ => exact stays
      | starts turn _ _ _ _ _ => exact absurd turn (unstarted moves (List.prefix_refl _) _)
    | step =>
      simp only [Move.take, Move.delivery?]
      cases due : (here.follow moves).stage.agenda.popDue? (here.follow moves).now with
      | none =>
        rw [step_of_popDue?_eq_none due]
        exact ⟨stays, turns, List.forall_mem_nil _⟩
      | some pair =>
        obtain ⟨event, rest⟩ := pair
        obtain ⟨popped, early⟩ := Agenda.popDue?_eq_some_iff.1 due
        rw [step_of_pop? popped early]
        simp only [Option.map_some, Option.toList_some, List.forall_mem_singleton]
        by_cases mine : event.target = id
        · subst mine
          have only := onlyTurns_of_idle seats stays idle popped
          exact ⟨(congrArg (·[event.target]?) only.agents).trans stays, turns, fun _ => only⟩
        · have others := (deliver_of_ne mine ((here.follow moves).withAgenda rest)).1
          exact ⟨others.trans stays, turns, fun same => absurd same mine⟩

/-- What a stall leaves behind, at every point of every run of whatever agents there are. A
conductor that fails about a delivery has stalled, and nothing is pending that it waits for. One
that fails on a start has stalled too, but what it was waiting for before that start stays pending;
so nothing is left exactly if nothing was pending. In both cases nothing that is delivered to it
does more than turn the turret until a start gets to it again. -/
theorem stalls_leave (seats : Seats K seat) (assembled : first.Assembled)
    (there : first.agents[id]? = some (seat conductor)) (visits : first.Visits moves here) :
    (∀ event rest cause after, here.stage.agenda.popDue? here.now = some (event, rest) →
      event.target = id → here.step = (.error cause, after) →
      cause = .fault (.stalled id event.due) ∧ after.Stalled seat id ∧
        after.stage.agenda.awaitedBy id = []) ∧
    (∀ cause, here.StartFails id cause →
      here.start.1 = .error cause ∧ cause = .fault (.stalled id here.now) ∧
        here.start.2.Stalled seat id ∧
        here.start.2.stage.agenda.awaitedBy id = here.stage.agenda.awaitedBy id) ∧
    ∀ idle, idle.phase = .idle → here.agents[id]? = some (seat idle) →
      ∀ more, here.Unstarted id more →
        (here.follow more).agents[id]? = some (seat idle) ∧
          ∀ delivery ∈ here.history more, delivery.event.target = id → delivery.OnlyTurns := by
  have seated : here.Seated seat id := by
    rw [← visits.follow]
    exact follow_induct (assembled.seated there) (fun _ move seated => seated.take seats move) moves
  refine ⟨?_, ?_, ?_⟩
  · intro event rest cause after popped mine failed
    exact seated.stalls_of_step seats popped mine failed
  · intro cause failed
    obtain ⟨⟨conductor, there⟩, _⟩ := seated
    exact stalls_of_start seats there failed
  · intro conductor idle there more unstarted
    exact stays_stalled seats there idle unstarted

/-- The seat of a conductor among players. -/
theorem seats_player : Seats Float Player.conductor := ⟨fun _ _ => rfl, fun _ _ _ => rfl⟩

/-- A conductor without beats in the lane, and a script that moves the ball past the wall whenever
it is started. -/
def outpaced : Simulation Float (Blank Float) Player :=
  (((new (lane : Scene Float).table ⟨⟩).join (.conductor (.new none))).2.join
    (.script ⟨[.drift 5000], []⟩)).2

theorem outpaced_assembled : outpaced.Assembled := .join (.join (.new _ _ 0) _) _

theorem outpaced_started : outpaced.Visits [.start] outpaced.start.2 :=
  .within .start 0 .begin (List.prefix_refl _)

/-- After the start of the conductor that is outpaced. -/
theorem stalls_leave_outpaced :
    Seats Float Player.conductor ∧ outpaced.Assembled ∧
      outpaced.agents[0]? = some (.conductor (.new none)) ∧
      outpaced.Visits [.start] outpaced.start.2 ∧
      (∀ event rest cause after,
        outpaced.start.2.stage.agenda.popDue? outpaced.start.2.now = some (event, rest) →
        event.target = 0 → outpaced.start.2.step = (.error cause, after) →
        cause = .fault (.stalled 0 event.due) ∧ after.Stalled .conductor 0 ∧
          after.stage.agenda.awaitedBy 0 = []) ∧
      (∀ cause, outpaced.start.2.StartFails 0 cause →
        outpaced.start.2.start.1 = .error cause ∧
          cause = .fault (.stalled 0 outpaced.start.2.now) ∧
          outpaced.start.2.start.2.Stalled .conductor 0 ∧
          outpaced.start.2.start.2.stage.agenda.awaitedBy 0 =
            outpaced.start.2.stage.agenda.awaitedBy 0) ∧
      ∀ idle : Conductor, idle.phase = .idle →
        outpaced.start.2.agents[0]? = some (.conductor idle) →
        ∀ more, outpaced.start.2.Unstarted 0 more →
          (outpaced.start.2.follow more).agents[0]? = some (.conductor idle) ∧
            ∀ delivery ∈ outpaced.start.2.history more, delivery.event.target = 0 →
              delivery.OnlyTurns :=
  ⟨seats_player, outpaced_assembled, rfl, outpaced_started,
    stalls_leave seats_player outpaced_assembled rfl outpaced_started⟩

/-- Started again, the outpaced conductor stalls, and its contact is still pending. -/
theorem outpaced_leaves_contact :
    Seats Float Player.conductor ∧ outpaced.Assembled ∧
      outpaced.agents[0]? = some (.conductor (.new none)) ∧
      outpaced.Visits [.start] outpaced.start.2 ∧
      outpaced.start.2.StartFails 0 (.fault (.stalled 0 0)) ∧
      outpaced.start.2.start.1 = .error (.fault (.stalled 0 0)) ∧
      outpaced.start.2.start.2.Stalled .conductor 0 ∧
      outpaced.start.2.start.2.stage.agenda.awaitedBy 0 = [⟨0, 0, 800, .wall 0 0 800⟩] := by
  have first : outpaced.agents[0]? = some (.conductor (.new none)) := rfl
  have seated : outpaced.start.2.Seated Player.conductor 0 :=
    (outpaced_assembled.seated first).take seats_player .start
  obtain ⟨⟨conductor, there⟩, _⟩ := seated
  have waits : outpaced.start.2.stage.agenda.awaitedBy 0 = [⟨0, 0, 800, .wall 0 0 800⟩] :=
    Agenda.awaitedBy_eq_singleton (by decide +kernel) (by decide +kernel) rfl
  have broken : (outpaced.start.2.agents[0]?.map fun agent =>
      ((Agent.start ⟨0, outpaced.start.2.now⟩ agent).run ⟨0, outpaced.start.2.now⟩
        outpaced.start.2.stage).1.2.toOption) = some none := by
    decide +kernel
  have clock : outpaced.start.2.now = 0 := now_start outpaced
  rw [there, Option.map_some, Option.some.injEq] at broken
  rcases ran : (Agent.start (K := Float) ⟨0, outpaced.start.2.now⟩ (Player.conductor conductor)).run
      ⟨0, outpaced.start.2.now⟩ outpaced.start.2.stage with ⟨⟨changed, cause | _⟩, last⟩
  · have failed : outpaced.start.2.StartFails 0 cause :=
      ⟨_, _, changed, last, ⟨[], rfl⟩, there, ran⟩
    obtain ⟨result, rfl, stalled, kept⟩ := stalls_of_start seats_player there failed
    rw [clock] at failed result
    exact ⟨seats_player, outpaced_assembled, rfl, outpaced_started, failed, result, stalled,
      kept.trans waits⟩
  · rw [ran] at broken
    cases broken

end Simulation

end Billiard
