import Mathlib.Data.Option.Basic
import Billiard.Proofs.Lateness
import Billiard.Proofs.Reaction
import Billiard.Scene.Basic

/-!
The conductor waits for exactly one event, and for the one that follows from the table. `Poised`
ties the agenda, the conductor and the table together; every move keeps it, whether it succeeds or
fails (`Poised.take`), so it holds wherever calls lead (`awaits_one`). A stalled conductor has
nothing pending: where one contact is open there is one when none is settled, so a start that
replaces an event never stalls.
-/

namespace Billiard

variable {K C : Type} [Scalar K] [Canvas K C] {table after : Table K} {agenda rearmed : Agenda}
  {delay : Millis} {signal : Signal} {conductor ready waiting : Conductor} {now : Instant}
  {visit : Visit} {events : List Event} {event : Event} {outcome : Outcome K Conductor}

/-- Only keys come without being waited for. -/
theorem Signal.exists_key (once : signal.recurs = false) : ∃ way, signal = .key way := by
  cases signal with
  | key way => exact ⟨way, rfl⟩
  | wall _ _ _ => cases once
  | pair _ _ _ => cases once
  | beat _ => cases once

/-- No entry has a fault if none is found from the first one on. -/
theorem findSome?_zipIdx_eq_none {α β : Type} {entries : List α} {fault? : Nat → α → Option β} :
    (entries.zipIdx.findSome? fun (entry, place) => fault? place entry) = none ↔
      ∀ place entry, entries[place]? = some entry → fault? place entry = none := by
  rw [List.findSome?_eq_none_iff]
  constructor
  · intro none place entry there
    exact none (entry, place) (List.mem_zipIdx_iff_getElem?.2 there)
  · rintro none ⟨entry, place⟩ member
    exact none place entry (List.mem_zipIdx_iff_getElem?.1 member)

/-- A scene passes its check if nothing is wrong with any part of it. -/
theorem Scene.fault?_eq_none {K : Type} [Scalar K] {scene : Scene K} :
    scene.fault? = none ↔
      scene.interval ≠ some 0 ∧
        (∀ place wall, scene.table.walls[place]? = some wall → wallFault? place wall = none) ∧
        ∀ id ball, scene.table.balls[id]? = some ball → ballFault? id ball = none := by
  unfold fault?
  split
  · next still => simp [still]
  · next paced =>
    rw [Option.orElse_eq_none, findSome?_zipIdx_eq_none, findSome?_zipIdx_eq_none]
    simp [paced]

omit [Canvas K C] in
/-- A scene that passes its check can be simulated. -/
theorem Scene.exists_conduct {scene : Scene K} (fine : scene.fault? = none) (canvas : C) :
    ∃ first : Simulation K C Conductor, scene.conduct id canvas = .ok first := by
  rw [conduct, check, fine]
  exact ⟨_, rfl⟩

omit [Canvas K C] in
/-- What is found of a simulation is found of one that there is. -/
theorem Scene.exists_conduct_of_map {scene : Scene K} {canvas : C} {Finding : Type}
    {look : Simulation K C Conductor → Finding} {seen : Finding}
    (found : (scene.conduct id canvas).toOption.map look = some seen) :
    ∃ first : Simulation K C Conductor, scene.conduct id canvas = .ok first ∧
      look first = seen := by
  cases made : scene.conduct id canvas with
  | error fault => simp [made, Except.toOption] at found
  | ok first =>
    rw [made] at found
    exact ⟨first, rfl, Option.some.inj found⟩

namespace Conductor

/-- The events of which a conductor waits for at most one: none while it is idle, and otherwise
the one that follows from the table and the conductor that was ready for it. -/
inductive Waits (table : Table K) (conductor : Conductor) : List Event → Prop where
  | idle (idle : conductor.phase = .idle) : Waits table conductor []
  | armed {ready : Conductor} {delay : Millis} {event : Event}
      (follows : ready.follows table = some (delay, event.signal, conductor))
      (due : event.due = conductor.settledAt.after delay) : Waits table conductor [event]

/-- What a conductor waits for, and about what is on the table; keys are always welcome. -/
def Welcomes (conductor : Conductor) (table : Table K) : Signal → Prop
  | .wall ball side _ =>
    conductor.phase = .contact ∧ ball < table.balls.length ∧ side < table.walls.length
  | .pair a b _ => conductor.phase = .contact ∧ a < b ∧ b < table.balls.length
  | .beat _ => conductor.phase = .beat
  | .key _ => True

theorem recurs_of_follows (follows : ready.follows table = some (delay, signal, waiting)) :
    signal.recurs := by
  rcases follows_cases follows with ⟨⟨_, contact⟩, _, _, rfl, _⟩ | ⟨_, _, rfl, _, _⟩
  · cases contact <;> rfl
  · rfl

theorem phase_of_follows (follows : ready.follows table = some (delay, signal, waiting)) :
    waiting.phase ≠ .idle := by
  rcases follows_cases follows with ⟨_, _, _, _, ⟨_, rfl⟩ | ⟨_, _, rfl⟩⟩ | ⟨_, _, _, rfl, _⟩ <;>
    simp

theorem welcomes_of_follows (follows : ready.follows table = some (delay, signal, waiting)) :
    waiting.Welcomes table signal := by
  rcases follows_cases follows with ⟨⟨_, contact⟩, next, _, rfl, waits⟩ | ⟨_, _, rfl, rfl, _⟩
  · have there := Table.at_of_mem_forecasts (Table.nextContact?_mem next).1
    have phase : waiting.phase = .contact := by
      rcases waits with ⟨_, rfl⟩ | ⟨_, _, rfl⟩ <;> rfl
    cases contact <;> exact ⟨phase, there⟩
  · rfl

theorem targets_of_welcomes (welcome : conductor.Welcomes table signal) (elapsed : Millis) :
    Targets signal (table.drift elapsed) := by
  intro contact announced
  cases signal with
  | wall ball side _ =>
    cases announced
    simpa [Contact.At, Table.drift] using welcome.2
  | pair a b _ =>
    cases announced
    simpa [Contact.between, Nat.le_of_lt welcome.2.1, Contact.At, Table.drift] using welcome.2
  | beat _ => cases announced
  | key _ => cases announced

theorem exists_reaction?_of_welcomes (welcome : conductor.Welcomes table signal)
    (recurs : signal.recurs) (now : Instant) :
    ∃ after ready, conductor.reaction? now signal table = some (after, ready) := by
  cases signal with
  | wall ball side elapsed => exact ⟨_, _, by simp [reaction?, welcome.1]; rfl⟩
  | pair a b elapsed => exact ⟨_, _, by simp [reaction?, welcome.1]; rfl⟩
  | beat elapsed =>
    have phase : conductor.phase = .beat := welcome
    exact ⟨_, _, by simp [reaction?, phase]; rfl⟩
  | key way => cases recurs

/-- A reaction settles contacts of its own instant only. -/
theorem settledAt_of_reaction?
    (reacts : conductor.reaction? now signal table = some (after, ready)) :
    ready.settledAt = now := by
  have inTime (contact : Contact) (elapsed : Millis) :
      (conductor.collided now contact elapsed table).2.settledAt = now := by
    simp only [collided, settle, atInstant]
    split
    · next same => exact same.symm
    · rfl
  unfold reaction? at reacts
  split at reacts
  · exact congrArg (·.2.settledAt) (Option.some.inj reacts) ▸ inTime _ _
  · exact congrArg (·.2.settledAt) (Option.some.inj reacts) ▸ inTime _ _
  · cases reacts
    rfl
  · cases reacts

theorem Waits.exists_follows (waits : Waits table conductor [event]) :
    ∃ (ready : Conductor) (delay : Millis),
      ready.follows table = some (delay, event.signal, conductor) ∧
        event.due = conductor.settledAt.after delay := by
  cases waits with
  | armed follows due => exact ⟨_, _, follows, due⟩

/-- Where an event is pending, starting again does not stall. -/
theorem Waits.eq_nil_of_stall (waits : Waits table conductor events)
    (nothing : (conductor.restarted now).follows table = none) : events = [] := by
  obtain ⟨silent, none⟩ := follows_eq_none.1 nothing
  cases waits with
  | idle _ => rfl
  | armed follows _ =>
    rcases follows_cases follows with ⟨_, next, _⟩ | ⟨paced, _⟩
    · exact absurd none (Table.nextContact?_nil_ne_none next)
    · rw [← (follows_kept follows).2.2] at paced
      exact absurd silent paced

/-- The turret plays no part in what a conductor waits for. -/
theorem Waits.turn (waits : Waits table conductor events) (way : Turn) :
    Waits (table.turn way) conductor events := by
  cases waits with
  | idle idle => exact .idle idle
  | armed follows due => exact .armed follows due

/-- Arming leaves exactly the event to wait for, if nothing was pending where it stalls. -/
theorem Waits.of_arms (arms : Arms visit ready table agenda outcome rearmed)
    (settled : ready.settledAt = visit.now)
    (free : ready.follows table = none → agenda.awaitedBy visit.agent = []) :
    Waits table outcome.1 (rearmed.awaitedBy visit.agent) := by
  cases arms with
  | waits follows =>
    rw [Agenda.awaitedBy_schedule_withdraw (recurs_of_follows follows)]
    refine .armed follows ?_
    rw [(follows_kept follows).2.1, settled]
    rfl
  | stalls nothing =>
    rw [free nothing]
    exact .idle rfl

/-- Arming schedules for nobody else. -/
theorem Arms.mine (arms : Arms visit ready table agenda outcome rearmed)
    (mine : ∀ event ∈ agenda.toList, event.target = visit.agent) :
    ∀ event ∈ rearmed.toList, event.target = visit.agent := by
  cases arms with
  | waits follows =>
    intro event member
    rcases Agenda.mem_toList_schedule.1 member with rfl | member
    · rfl
    · rw [Agenda.toList_withdraw] at member
      exact mine event (List.mem_filter.1 member).1
  | stalls nothing => exact mine

end Conductor

theorem Signal.ofContact_inj {contact contact' : Contact} {delay delay' : Millis} :
    ofContact contact delay = ofContact contact' delay' ↔ contact = contact' ∧ delay = delay' := by
  cases contact <;> cases contact' <;> simp [ofContact, and_assoc]

namespace Simulation

variable {simulation : Simulation K C Conductor} {rest : Agenda}
  {result : Except (Break K) Unit}

/-- One conductor runs the simulation, listens to the keys, and waits for what follows from the
table; all events are for it, and it had nothing to complain about. -/
structure Poised (simulation : Simulation K C Conductor) (conductor : Conductor) : Prop where
  alone : simulation.agents = [conductor]
  listens : simulation.listener = some 0
  mine : ∀ event ∈ simulation.stage.agenda.toList, event.target = 0
  waits : conductor.Waits simulation.stage.table (simulation.stage.agenda.awaitedBy 0)
  calm : simulation.stage.Calm

namespace Poised

/-- An event that is pending is a key, or all that the conductor waits for. -/
theorem head_cases (poised : Poised simulation conductor)
    (popped : simulation.stage.agenda.pop? = some (event, rest)) :
    event.target = 0 ∧ (∀ other ∈ rest.toList, other.target = 0) ∧
      ((∃ way, event.signal = .key way) ∧
          rest.awaitedBy 0 = simulation.stage.agenda.awaitedBy 0 ∨
        simulation.stage.agenda.awaitedBy 0 = [event] ∧ rest.awaitedBy 0 = [] ∧
          ∃ (ready : Conductor) (delay : Millis),
            ready.follows simulation.stage.table = some (delay, event.signal, conductor) ∧
              event.due = conductor.settledAt.after delay) := by
  have list := Agenda.toList_of_pop? popped
  have mine := poised.mine
  rw [list] at mine
  have target := mine event List.mem_cons_self
  refine ⟨target, fun other member => mine other (List.mem_cons_of_mem _ member), ?_⟩
  have waits := poised.waits
  cases recurs : event.signal.recurs with
  | false =>
    exact .inl ⟨Signal.exists_key recurs,
      by simp [Agenda.awaitedBy, list, Event.recursFor, recurs]⟩
  | true =>
    have first : simulation.stage.agenda.awaitedBy 0 = event :: rest.awaitedBy 0 := by
      simp [Agenda.awaitedBy, list, Event.recursFor, recurs, target]
    rw [first] at waits
    generalize others : rest.awaitedBy 0 = more at waits first
    cases waits with
    | armed follows due => exact .inr ⟨first, rfl, _, _, follows, due⟩

/-- What a delivery does: a key turns the turret, and any other event leads to a new arming. -/
inductive Delivers (simulation : Simulation K C Conductor) (conductor : Conductor) (event : Event)
    (rest : Agenda) : Except (Break K) Unit → Simulation K C Conductor → Conductor → Prop where
  | key {way : Turn} {after : Simulation K C Conductor} (key : event.signal = .key way)
      (table : after.stage.table = simulation.stage.table.turn way)
      (agenda : after.stage.agenda = rest) :
      Delivers simulation conductor event rest (.ok ()) after conductor
  | rearms {ready waiting : Conductor} {result : Except (Break K) Unit}
      {after : Simulation K C Conductor}
      (awaited : simulation.stage.agenda.awaitedBy 0 = [event])
      (reacts : conductor.reaction? event.due event.signal simulation.stage.table =
        some (after.stage.table, ready))
      (arms : ready.Arms ⟨0, event.due⟩ after.stage.table rest (waiting, result)
        after.stage.agenda) :
      Delivers simulation conductor event rest result after waiting

/-- A delivery leaves the conductor poised. -/
theorem deliver (poised : Poised simulation conductor)
    (popped : simulation.stage.agenda.pop? = some (event, rest)) :
    ∃ waiting, Poised ((simulation.withAgenda rest).deliver event).2 waiting ∧
      Delivers simulation conductor event rest ((simulation.withAgenda rest).deliver event).1
        ((simulation.withAgenda rest).deliver event).2 waiting := by
  obtain ⟨target, mine, kind⟩ := poised.head_cases popped
  let stage := (simulation.withAgenda rest).stage.note
    (.delivering event (Agent.name (K := K) conductor) (Agent.state (K := K) conductor))
  obtain ⟨handles, calm⟩ :=
    Conductor.handles_run_handle ⟨0, event.due⟩ event.signal conductor stage
  have here : (simulation.withAgenda rest).agents[event.target]? = some conductor := by
    rw [target]
    exact congrArg (·[0]?) poised.alone
  have before : stage.Calm := Stage.calm_note poised.calm (by simp)
  obtain ⟨⟨⟨waiting, result⟩, last⟩, ran⟩ : ∃ last,
      (conductor.handle ⟨0, event.due⟩ event.signal).run ⟨0, event.due⟩ stage = last := ⟨_, rfl⟩
  rw [ran] at handles calm
  obtain ⟨table, canvas, agenda, journal⟩ := last
  change Conductor.Handles _ _ _ simulation.stage.table rest (waiting, result) table agenda
    at handles
  have handled : (Agent.handle ⟨event.target, event.due⟩ event conductor).run
      ⟨event.target, event.due⟩ stage = ((waiting, result), ⟨table, canvas, agenda, journal⟩) := by
    rw [target]
    exact ran
  rw [deliver_of_run here handled]
  have alone : (simulation.withAgenda rest).agents.set event.target waiting = [waiting] := by
    rw [target]
    exact congrArg (·.set 0 waiting) poised.alone
  cases handles with
  | key key =>
    obtain ⟨_, pending⟩ : _ ∧ rest.awaitedBy 0 = simulation.stage.agenda.awaitedBy 0 := by
      rcases kind with kind | ⟨_, _, _, _, follows, _⟩
      · exact kind
      · have recurs := Conductor.recurs_of_follows follows
        simp [key, Signal.recurs] at recurs
    refine ⟨conductor, ⟨alone, poised.listens, mine, ?_, ?_⟩, .key key rfl rfl⟩
    · exact pending ▸ poised.waits.turn _
    · have nothing (elapsed : Millis) :
          Conductor.Targets event.signal (simulation.stage.table.drift elapsed) := by
        intro contact announced
        simp [key, Signal.contact?] at announced
      exact calm (.inr (by simp [key, Signal.recurs])) nothing before
  | reacts reacts arms =>
    obtain ⟨first, free, ready, delay, follows, due⟩ := kind.resolve_left (by
      rintro ⟨⟨way, key⟩, _⟩
      simp [Conductor.reaction?, key] at reacts)
    refine ⟨waiting, ⟨alone, poised.listens, ?_, ?_, ?_⟩, .rearms first reacts arms⟩
    · exact arms.mine mine
    · exact Conductor.Waits.of_arms arms (Conductor.settledAt_of_reaction? reacts) fun _ => free
    · exact calm (.inl (Option.isSome_iff_exists.2 ⟨_, reacts⟩))
        (Conductor.targets_of_welcomes (Conductor.welcomes_of_follows follows)) before
  | ignores recurs unwelcome =>
    rcases kind with ⟨⟨way, key⟩, _⟩ | ⟨_, _, _, _, follows, _⟩
    · simp [key, Signal.recurs] at recurs
    · obtain ⟨_, _, welcome⟩ := Conductor.exists_reaction?_of_welcomes
        (Conductor.welcomes_of_follows follows) recurs event.due
      exact absurd (unwelcome.symm.trans welcome) (by simp)

/-- What a start does: the conductor is armed anew for the same table. -/
inductive Starts (simulation : Simulation K C Conductor) (conductor : Conductor) :
    Except (Break K) Unit → Simulation K C Conductor → Conductor → Prop where
  | rearms {waiting : Conductor} {result : Except (Break K) Unit}
      {after : Simulation K C Conductor} (table : after.stage.table = simulation.stage.table)
      (arms : (conductor.restarted simulation.now).Arms ⟨0, simulation.now⟩
        simulation.stage.table simulation.stage.agenda (waiting, result) after.stage.agenda) :
      Starts simulation conductor result after waiting

/-- A start leaves the conductor poised, and so does one that stalls. -/
theorem start (poised : Poised simulation conductor) :
    ∃ waiting, Poised simulation.start.2 waiting ∧
      Starts simulation conductor simulation.start.1 simulation.start.2 waiting := by
  let visit : Visit := ⟨0, simulation.now⟩
  obtain ⟨arms, table, calm⟩ := Conductor.arms_run_start visit conductor simulation.stage
  obtain ⟨⟨⟨waiting, result⟩, last⟩, ran⟩ : ∃ last,
      (conductor.start visit).run visit simulation.stage = last := ⟨_, rfl⟩
  rw [ran] at arms table calm
  have waits := Conductor.Waits.of_arms arms rfl poised.waits.eq_nil_of_stall
  rw [← table] at waits
  have started : simulation.start = (result, { simulation with
      agents := [waiting]
      stage := match result with
        | .error _ => last
        | .ok () => last.note (.started simulation.now last.table.balls.length
            last.table.walls.length last.agenda.size) }) := by
    have ran : (Agent.start (K := K) visit conductor).run visit simulation.stage =
      ((waiting, result), last) := ran
    unfold Simulation.start
    simp only [poised.alone, startFrom, visit] at ran ⊢
    rw [ran]
    cases result <;> rfl
  rw [started]
  refine ⟨waiting, ?_, ?_⟩
  · cases result with
    | error cause =>
      exact ⟨rfl, poised.listens, arms.mine poised.mine, waits, calm poised.calm⟩
    | ok _ =>
      exact ⟨rfl, poised.listens, arms.mine poised.mine, waits,
        Stage.calm_note (calm poised.calm) (by simp)⟩
  · cases result with
    | error cause => exact .rearms table arms
    | ok _ => exact .rearms table arms

/-- A start leaves the table as it is. -/
theorem table_start (poised : Poised simulation conductor) :
    simulation.start.2.stage.table = simulation.stage.table := by
  obtain ⟨_, _, starts⟩ := poised.start
  generalize simulation.start.1 = result at starts
  generalize simulation.start.2 = after at starts
  cases starts with
  | rearms kept _ => exact kept

/-- What a move does: it arms the conductor anew, at a start or for the event that was waited for,
or it changes no more than the turret. -/
inductive Takes (move : Move) (simulation : Simulation K C Conductor) (conductor : Conductor) :
    Simulation K C Conductor → Conductor → Prop where
  | keeps {after : Simulation K C Conductor} (turret : Turret K)
      (table : after.stage.table = { simulation.stage.table with turret := turret }) :
      Takes move simulation conductor after conductor
  | starts {result : Except (Break K) Unit} {after : Simulation K C Conductor}
      {waiting : Conductor} (isStart : move = .start)
      (starts : Starts simulation conductor result after waiting) :
      Takes move simulation conductor after waiting
  | reacts {event : Event} {rest : Agenda} {ready waiting : Conductor}
      {result : Except (Break K) Unit} {after : Simulation K C Conductor}
      (isStep : move = .step) (popped : simulation.stage.agenda.popDue? simulation.now =
        some (event, rest))
      (awaited : simulation.stage.agenda.awaitedBy 0 = [event])
      (reacts : conductor.reaction? event.due event.signal simulation.stage.table =
        some (after.stage.table, ready))
      (arms : ready.Arms ⟨0, event.due⟩ after.stage.table rest (waiting, result)
        after.stage.agenda) :
      Takes move simulation conductor after waiting

/-- Every move leaves the conductor poised. -/
theorem take (poised : Poised simulation conductor) (move : Move) :
    ∃ waiting, Poised (move.take simulation) waiting ∧
      Takes move simulation conductor (move.take simulation) waiting := by
  cases move with
  | start =>
    obtain ⟨waiting, started, starts⟩ := poised.start
    exact ⟨waiting, started, .starts rfl starts⟩
  | step =>
    cases due : simulation.stage.agenda.popDue? simulation.now with
    | none =>
      rw [Move.take, step_of_popDue?_eq_none due]
      exact ⟨conductor, poised, .keeps _ rfl⟩
    | some pair =>
      obtain ⟨event, rest⟩ := pair
      obtain ⟨popped, early⟩ := Agenda.popDue?_eq_some_iff.1 due
      obtain ⟨waiting, delivered, delivers⟩ := poised.deliver popped
      rw [Move.take, step_of_pop? popped early]
      generalize (simulation.withAgenda rest).deliver event = outcome at delivered delivers
      obtain ⟨result, after⟩ := outcome
      refine ⟨waiting, delivered, ?_⟩
      cases delivers with
      | key _ table _ => exact .keeps _ table
      | rearms awaited reacts arms => exact .reacts rfl due awaited reacts arms
  | advance t =>
    exact ⟨conductor, ⟨poised.alone, poised.listens, poised.mine, poised.waits, poised.calm⟩,
      .keeps _ rfl⟩
  | press way =>
    simp only [Move.take, press, poised.listens]
    refine ⟨conductor, ⟨poised.alone, rfl, ?_, ?_, poised.calm⟩, .keeps _ rfl⟩
    · intro event member
      rcases Agenda.mem_toList_schedule.1 member with rfl | member
      · rfl
      · exact poised.mine event member
    · simpa only [Agenda.awaitedBy_schedule_key] using poised.waits

/-- A contact that is delivered was forecast from the table as it is, and has its effect after the
drift up to it. -/
theorem collides (poised : Poised simulation conductor) {contact : Contact} {elapsed : Millis}
    (popped : simulation.stage.agenda.popDue? simulation.now = some (event, rest))
    (tells : event.signal = .ofContact contact elapsed) :
    ⟨elapsed, contact⟩ ∈ simulation.stage.table.forecasts ∧
      contact.effect? (simulation.stage.table.drift elapsed) =
        some simulation.step.2.stage.table := by
  obtain ⟨popped, due⟩ := Agenda.popDue?_eq_some_iff.1 popped
  obtain ⟨waiting, _, delivers⟩ := poised.deliver popped
  rw [step_of_pop? popped due]
  generalize (simulation.withAgenda rest).deliver event = outcome at delivers
  obtain ⟨result, after⟩ := outcome
  cases delivers with
  | key key _ _ =>
    rw [tells] at key
    cases contact <;> cases key
  | rearms awaited reacts _ =>
    obtain ⟨ready, delay, follows, _⟩ := (awaited ▸ poised.waits).exists_follows
    rcases Conductor.reaction_of_follows follows reacts with
      ⟨found, next, announced, same⟩ | ⟨beat, _⟩
    · obtain ⟨rfl, rfl⟩ := Signal.ofContact_inj.1 (tells.symm.trans announced)
      have member := (Table.nextContact?_mem next).1
      have there : contact.At (simulation.stage.table.drift elapsed) :=
        (Table.at_of_mem_forecasts member).of_resembles (Table.Resembles.drift _ _).symm
      obtain ⟨met, effect⟩ := Option.isSome_iff_exists.1 (Contact.effect?_isSome there)
      have left : met = after.stage.table := by
        simpa [Conductor.collided, effect] using congrArg Prod.fst same
      exact ⟨member, left ▸ effect⟩
    · rw [tells] at beat
      cases contact <;> cases beat

/-- At a wall contact that is delivered, its ball bounces after the drift up to it. -/
theorem bounces (poised : Poised simulation conductor) {hit : BallId} {place : WallId}
    {elapsed : Millis}
    (popped : simulation.stage.agenda.popDue? simulation.now = some (event, rest))
    (tells : event.signal = .wall hit place elapsed) :
    ∃ ball wall, simulation.stage.table.balls[hit]? = some ball ∧
      simulation.stage.table.walls[place]? = some wall ∧
      ball.untilWall? simulation.stage.table.reach wall = some elapsed ∧
      simulation.step.2.stage.table.balls[hit]? = some ((ball.drift elapsed).bounce wall) := by
  have tells : event.signal = .ofContact (.wall hit place) elapsed := tells
  obtain ⟨member, met⟩ := poised.collides popped tells
  obtain ⟨ball, wall, here, there, forecast⟩ := Table.wall_mem_forecasts.1 member
  have moved : (simulation.stage.table.drift elapsed).balls[hit]? = some (ball.drift elapsed) := by
    simp [Table.drift, here]
  obtain ⟨after, effect, bounced⟩ := Table.exists_bounce? moved there
  obtain rfl := Option.some.inj (effect.symm.trans met)
  exact ⟨ball, wall, here, there, forecast, bounced⟩

/-- At a contact of two balls that is delivered, they meet after the drift up to it. -/
theorem meets (poised : Poised simulation conductor) {a b : BallId} {elapsed : Millis}
    (popped : simulation.stage.agenda.popDue? simulation.now = some (event, rest))
    (tells : event.signal = .pair a b elapsed) :
    ∃ first second, a < b ∧ simulation.stage.table.balls[a]? = some first ∧
      simulation.stage.table.balls[b]? = some second ∧
      first.untilBall? second = some elapsed ∧
      (Contact.pair a b).effect? (simulation.stage.table.drift elapsed) =
        some simulation.step.2.stage.table := by
  have tells : event.signal = .ofContact (.pair a b) elapsed := tells
  obtain ⟨member, met⟩ := poised.collides popped tells
  obtain ⟨less, first, second, here, there, forecast⟩ := Table.pair_mem_forecasts.1 member
  exact ⟨first, second, less, here, there, forecast, met⟩

/-- A simulation of a scene begins with an idle conductor and nothing pending. -/
theorem of_conduct {scene : Scene K} {canvas : C} {first : Simulation K C Conductor}
    (made : scene.conduct id canvas = .ok first) :
    Poised first (.new scene.interval) ∧ first.stage.table = scene.table ∧
      scene.fault? = none := by
  unfold Scene.conduct Scene.check at made
  cases wrong : scene.fault? with
  | some fault =>
    rw [wrong] at made
    cases made
  | none =>
    rw [wrong] at made
    cases made
    refine ⟨⟨rfl, rfl, ?_, .idle rfl, ?_⟩, rfl, rfl⟩
    · intro event member
      cases member
    · have silent : (⟨scene.table, canvas, .empty, #[]⟩ : Stage K C).Calm :=
        fun remark member => by simp at member
      exact Stage.calm_note silent (by simp)

omit [Canvas K C] in
theorem Takes.resembles {move : Move} {after : Simulation K C Conductor}
    (takes : Takes move simulation conductor after waiting) :
    after.stage.table.Resembles simulation.stage.table := by
  cases takes with
  | keeps turret table =>
    rw [table]
    exact ⟨rfl, rfl, rfl, rfl⟩
  | starts _ starts =>
    cases starts with
    | rearms table _ => exact table ▸ .refl _
  | reacts _ _ _ reacts _ => exact Conductor.resembles_of_reaction? reacts

/-- Wherever moves lead, the conductor is poised, and walls, rules and sizes are the same. -/
theorem follow {first : Simulation K C Conductor} (poised : Poised first conductor)
    (moves : List Move) :
    ∃ waiting, Poised (first.follow moves) waiting ∧
      (first.follow moves).stage.table.Resembles first.stage.table :=
  follow_induct (motive := fun last => ∃ waiting, Poised last waiting ∧
      last.stage.table.Resembles first.stage.table) ⟨conductor, poised, .refl _⟩
    (fun _ move ⟨_, poised, alike⟩ =>
      let ⟨waiting, poised, takes⟩ := poised.take move
      ⟨waiting, poised, takes.resembles.trans alike⟩) moves

/-- At a wall contact that is delivered to a ball that is alone, the balls are the one that has
bounced. -/
theorem bounces_alone (poised : Poised simulation conductor) {hit : BallId} {place : WallId}
    {elapsed : Millis} {ball : Ball K} (alone : simulation.stage.table.balls = [ball])
    (popped : simulation.stage.agenda.popDue? simulation.now = some (event, rest))
    (tells : event.signal = .wall hit place elapsed) :
    ∃ wall, simulation.stage.table.walls[place]? = some wall ∧
      simulation.step.2.stage.table.balls = [(ball.drift elapsed).bounce wall] := by
  obtain ⟨_, wall, here, there, _, bounced⟩ := poised.bounces popped tells
  obtain ⟨_, _, takes⟩ := poised.take .step
  have single : simulation.step.2.stage.table.balls.length = 1 :=
    takes.resembles.length.trans (congrArg List.length alone)
  rw [alone] at here
  obtain rfl : hit = 0 := Nat.lt_one_iff.1 (List.getElem?_eq_some_iff.1 here).1
  obtain rfl := Option.some.inj here
  refine ⟨wall, there, ?_⟩
  obtain ⟨after, only⟩ := List.length_eq_one_iff.1 single
  rw [only] at bounced ⊢
  rw [Option.some.inj bounced]

end Poised

/-- Between calls, the conductor of a scene waits for exactly one event, or for none while it is
idle; what is pending is of the kind that it waits for and names balls and walls of the table. So
no delivery is ever ignored, and none finds anything missing: no such remark is in the journal but
what a canvas makes up. -/
theorem awaits_one {scene : Scene K} {canvas : C} {first last : Simulation K C Conductor}
    (made : scene.conduct id canvas = .ok first) (reached : first.Reaches last) :
    ∃ conductor, last.agents = [conductor] ∧
      last.stage.agenda.awaited 0 = (if conductor.phase = .idle then 0 else 1) ∧
      (∀ event ∈ last.stage.agenda.toList, event.target = 0 ∧
        conductor.Welcomes last.stage.table event.signal) ∧
      last.stage.Calm := by
  obtain ⟨moves, rfl⟩ := reached.exists_moves
  obtain ⟨conductor, poised, _⟩ := (Poised.of_conduct made).1.follow moves
  refine ⟨conductor, poised.alone, ?_, fun event member => ⟨poised.mine event member, ?_⟩,
    poised.calm⟩
  · rw [Agenda.awaited_eq_length]
    have waits := poised.waits
    generalize (first.follow moves).stage.agenda.awaitedBy 0 = pending at waits
    cases waits with
    | idle idle => simp [idle]
    | armed follows _ => simp [Conductor.phase_of_follows follows]
  · cases recurs : event.signal.recurs with
    | false =>
      obtain ⟨way, key⟩ := Signal.exists_key recurs
      rw [key]
      trivial
    | true =>
      have awaited : event ∈ (first.follow moves).stage.agenda.awaitedBy 0 :=
        List.mem_filter.2 ⟨member, by simp [Event.recursFor, poised.mine event member, recurs]⟩
      have waits := poised.waits
      generalize (first.follow moves).stage.agenda.awaitedBy 0 = pending at waits awaited
      cases waits with
      | idle _ => cases awaited
      | armed follows _ =>
        rw [List.mem_singleton] at awaited
        exact awaited ▸ Conductor.welcomes_of_follows follows

/-- A wall that stands upright at `x`. -/
def upright (x : K) : Segment K := .ofCoords x (-10.0) x 10.0

/-- One ball heads for a wall eight hundred milliseconds away. -/
def lane : Scene K where
  table :=
    { walls := [upright 9.0]
      balls := [⟨Vec.zero, ⟨10.0, 0.0⟩, 1.0⟩]
      turret := Scene.standardTurret
      reach := .line
      response := .pass }
  interval := some 1000

/-- After the contact in the lane, the conductor waits for the beat. -/
theorem awaits_one_lane :
    ∃ first : Simulation Float (Blank Float) Conductor,
      lane.conduct id ⟨⟩ = .ok first ∧
      first.start.2.stepNext.2.stage.agenda.awaited 0 = 1 ∧
      ∃ conductor, first.start.2.stepNext.2.agents = [conductor] ∧
        first.start.2.stepNext.2.stage.agenda.awaited 0 =
          (if conductor.phase = .idle then 0 else 1) ∧
        (∀ event ∈ first.start.2.stepNext.2.stage.agenda.toList, event.target = 0 ∧
          conductor.Welcomes first.start.2.stepNext.2.stage.table event.signal) ∧
        first.start.2.stepNext.2.stage.Calm := by
  have waiting : (lane.conduct id (⟨⟩ : Blank Float)).toOption.map
      (fun first : Simulation Float (Blank Float) Conductor =>
        first.start.2.stepNext.2.stage.agenda.awaited 0) = some 1 := by
    decide +kernel
  obtain ⟨first, made, waits⟩ := Scene.exists_conduct_of_map waiting
  refine ⟨first, made, waits, awaits_one made ?_⟩
  exact .call .stepNext 0 (.call .start 0 .begin rfl) rfl

end Simulation

end Billiard
