import Billiard.Proofs.Ahead
import Billiard.Proofs.Elapsed

/-!
Runs in which nobody touches a key. Then nothing is pending but what the conductor waits for
(`Armed`), and a run up to a horizon is no more than one reaction after another, from a table and a
conductor that is ready to wait for what follows from it (`Conducts`): a run leads from one state to
another exactly if the conductor does (`Armed.conducts`, `Armed.exists_runFrom`).
-/

namespace Billiard

variable {K C : Type}

theorem lastDue_cons (since : Instant) (event : Event) (more : List Event) :
    lastDue since (event :: more) = lastDue event.due more := by
  cases more with
  | nil => rfl
  | cons next more => simp [lastDue, List.getLast?_cons]

/-- When each of some events was due and what it said. -/
def told (events : List Event) : List (Instant × Signal) :=
  events.map fun event => (event.due, event.signal)

namespace Simulation

/-- `holds` is true of the table at the beginning of some moves and after each of them. -/
def Throughout {A : Type} [Canvas K C] [Agent K A] (holds : Table K → Prop) (moves : List Move)
    (simulation : Simulation K C A) : Prop :=
  ∀ part, part <+: moves → holds (simulation.follow part).stage.table

section Moves

variable {A : Type} [Canvas K C] [Agent K A] {simulation after : Simulation K C A} {event : Event}
  {rest : Agenda} {horizon : Instant} {rounds : Nat} {holds : Table K → Prop}

/-- The moves of one round of a run in which the first event lies within the horizon. -/
theorem runMoves_of_pop? (popped : simulation.stage.agenda.pop? = some (event, rest))
    (within : event.due ≤ horizon)
    (delivered : (simulation.withAgenda rest).deliver event = (.ok (), after)) :
    simulation.runMoves horizon (rounds + 1) = .advance event.due :: .step ::
      (after.setClock (simulation.now.advance event.due)).runMoves horizon rounds := by
  rw [runMoves, Agenda.nextDue?_of_pop? popped]
  simp only [if_pos within, step_advance_of_pop? popped, delivered]
  rfl

/-- The move of the last round of a run. -/
theorem runMoves_of_beyond
    (beyond : ∀ due, simulation.stage.agenda.nextDue? = some due → horizon < due) :
    simulation.runMoves horizon (rounds + 1) = [.advance horizon] := by
  rw [runMoves]
  cases next : simulation.stage.agenda.nextDue? with
  | none => rfl
  | some due => simp only [if_neg (UInt64.not_le.2 (beyond due next))]

/-- What is true throughout a run is true before its first round and throughout what is left of it
after that. -/
theorem throughout_of_pop? (popped : simulation.stage.agenda.pop? = some (event, rest))
    (within : event.due ≤ horizon)
    (delivered : (simulation.withAgenda rest).deliver event = (.ok (), after)) :
    Throughout holds (simulation.runMoves horizon (rounds + 1)) simulation ↔
      holds simulation.stage.table ∧ Throughout holds
        ((after.setClock (simulation.now.advance event.due)).runMoves horizon rounds)
        (after.setClock (simulation.now.advance event.due)) := by
  rw [runMoves_of_pop? popped within delivered]
  have led (part : List Move) : simulation.follow (.advance event.due :: .step :: part) =
      (after.setClock (simulation.now.advance event.due)).follow part := by
    change (simulation.advance event.due).step.2.follow part = _
    rw [step_advance_of_pop? popped, delivered]
  constructor
  · intro throughout
    refine ⟨throughout [] List.nil_prefix, fun part isPart => ?_⟩
    rw [← led]
    apply throughout
    exact (List.prefix_cons_inj _).2 ((List.prefix_cons_inj _).2 isPart)
  · rintro ⟨here, later⟩ part isPart
    match part, isPart with
    | [], _ => exact here
    | [move], isPart =>
      obtain rfl := (List.cons_prefix_cons.1 isPart).1
      exact here
    | move :: other :: part, isPart =>
      obtain ⟨rfl, afterOne⟩ := List.cons_prefix_cons.1 isPart
      obtain ⟨rfl, afterTwo⟩ := List.cons_prefix_cons.1 afterOne
      rw [led]
      exact later part afterTwo

end Moves

variable [Scalar K] [Canvas K C] {simulation after last : Simulation K C Conductor}
  {ready waiting : Conductor} {event : Event} {agenda rest : Agenda} {now horizon : Instant}
  {result : Except (Break K) Unit} {holds : Table K → Prop} {count deliveries rounds : Nat}

/-- What comes of a table and of a conductor that is ready to wait for what follows from it, up to a
horizon: it reacts to one event after another, and `holds` is true of every table on the way. -/
inductive Conducts (holds : Table K → Prop) (horizon : Instant) :
    Table K → Conductor → List Event → Table K → Prop where
  | rests {table : Table K} {ready : Conductor} (fair : holds table)
      (beyond : ∀ delay signal waiting, ready.follows table = some (delay, signal, waiting) →
        horizon < ready.settledAt.after delay) : Conducts holds horizon table ready [] table
  | reacts {table after last : Table K} {ready waiting next : Conductor} {delay : Millis}
      {event : Event} {more : List Event} (fair : holds table)
      (follows : ready.follows table = some (delay, event.signal, waiting))
      (due : event.due = ready.settledAt.after delay) (within : event.due ≤ horizon)
      (reacts : waiting.reaction? event.due event.signal table = some (after, next))
      (goesOn : next.follows after ≠ none) (later : Conducts holds horizon after next more last) :
      Conducts holds horizon table ready (event :: more) last

/-- Nothing comes up to the horizon if no contact is ahead and the next beat is due later. -/
theorem Conducts.rests_until_beat {table : Table K} {beat : Millis} (fair : holds table)
    (beats : ready.interval = some beat) (nothing : table.nextContact? ready.settled = none)
    (late : horizon < ready.settledAt.after ready.remaining) :
    Conducts holds horizon table ready [] table := by
  refine .rests fair fun delay signal waiting follows => ?_
  rw [Conductor.follows_beat beats nothing] at follows
  cases follows
  exact late

/-- The conductor was ready to wait for what follows from the table and now waits for it, if there
is anything; nothing else is pending. -/
inductive Armed (simulation : Simulation K C Conductor) (ready : Conductor) : Prop where
  | waits {delay : Millis} {event : Event} {waiting : Conductor}
      (poised : Poised simulation waiting) (pending : simulation.stage.agenda.toList = [event])
      (follows : ready.follows simulation.stage.table = some (delay, event.signal, waiting))
      (due : event.due = ready.settledAt.after delay) : Armed simulation ready
  | stalled {waiting : Conductor} (poised : Poised simulation waiting)
      (pending : simulation.stage.agenda.toList = [])
      (nothing : ready.follows simulation.stage.table = none) : Armed simulation ready

namespace Armed

/-- Arming leaves nothing else pending than what was pending before. -/
theorem of_arms (poised : Poised after waiting) (free : agenda.toList = [])
    (settled : ready.settledAt = now)
    (arms : ready.Arms ⟨0, now⟩ after.stage.table agenda (waiting, result) after.stage.agenda) :
    Armed after ready := by
  generalize rearmed : after.stage.agenda = pending at arms
  cases arms with
  | @waits delay signal _ follows =>
    have none : (agenda.withdraw 0).2.toList = [] := by
      rw [Agenda.toList_withdraw, free]
      rfl
    have list := (agenda.withdraw 0).2.toList_schedule 0 (now.after delay) signal
    rw [none, List.perm_singleton] at list
    exact .waits poised (rearmed ▸ list) follows (settled ▸ rfl)
  | stalls nothing => exact .stalled poised (rearmed ▸ free) nothing

theorem withClock (armed : Armed simulation ready) (now : Instant) :
    Armed (simulation.setClock now) ready := by
  cases armed with
  | waits poised pending follows due => exact .waits (poised.withClock now) pending follows due
  | stalled poised pending nothing => exact .stalled (poised.withClock now) pending nothing

/-- A start of a fresh simulation arms its conductor. -/
theorem of_conduct {scene : Scene K} {canvas : C} {first : Simulation K C Conductor}
    (made : scene.conduct id canvas = .ok first) :
    Armed first.start.2 ((Conductor.new scene.interval).restarted 0) ∧
      first.start.2.stage.table = scene.table ∧ first.start.2.deliveries = [] := by
  obtain ⟨poised, table, _⟩ := Poised.of_conduct made
  obtain ⟨clock, silent, free⟩ := begins_of_conduct made
  obtain ⟨waiting, started, starts⟩ := poised.start
  have deliveries := (deliveries_start first).trans silent
  generalize first.start.1 = result at starts
  generalize first.start.2 = after at started starts deliveries ⊢
  cases starts with
  | rearms same arms =>
    rw [clock, ← same] at arms
    exact ⟨.of_arms started free rfl arms, same.trans table, deliveries⟩

/-- What first follows from a scene is due when its delay is over. -/
theorem exists_popDue?_of_conduct {scene : Scene K} {canvas : C}
    {first : Simulation K C Conductor} (made : scene.conduct id canvas = .ok first)
    {delay : Millis} {signal : Signal}
    (follows : ((Conductor.new scene.interval).restarted 0).follows scene.table =
      some (delay, signal, waiting)) :
    ∃ event rest, (first.follow [.start, .advance delay]).stage.agenda.popDue?
        (first.follow [.start, .advance delay]).now = some (event, rest) ∧
      event.signal = signal := by
  obtain ⟨armed, table, _⟩ := of_conduct made
  cases armed with
  | stalled _ _ nothing =>
    rw [table, follows] at nothing
    cases nothing
  | @waits delay' event _ _ pending follows' due =>
    rw [table, follows] at follows'
    obtain ⟨rfl, rfl, _⟩ : delay = delay' ∧ signal = event.signal ∧ _ := by simpa using follows'
    obtain ⟨rest, popped, _⟩ := Agenda.exists_pop? pending
    have soon : event.due ≤ delay := by
      rw [due, UInt64.le_iff_toNat_le, Instant.toNat_after]
      exact (min_le_left _ _).trans (Nat.zero_add _).le
    refine ⟨event, rest, Agenda.popDue?_eq_some_iff.2 ⟨popped, ?_⟩, rfl⟩
    exact UInt64.le_trans soon (due_le_advance _ _)

/-- So a checked scene runs to its first contact, if that comes before the first beat. -/
theorem exists_run_to_contact {scene : Scene K} (fine : scene.fault? = none) (canvas : C)
    {beat delay : Millis} {contact : Contact} (beats : scene.interval = some beat)
    (next : scene.table.nextContact? [] = some ⟨delay, contact⟩) (soon : delay < beat) :
    ∃ (first : Simulation K C Conductor) (event : Event) (rest : Agenda),
      scene.conduct id canvas = .ok first ∧
      (first.follow [.start, .advance delay]).stage.table = scene.table ∧
      (first.follow [.start, .advance delay]).stage.agenda.popDue?
        (first.follow [.start, .advance delay]).now = some (event, rest) ∧
      event.signal = .ofContact contact delay := by
  obtain ⟨first, made⟩ := Scene.exists_conduct fine canvas
  have early : delay < ((Conductor.new scene.interval).restarted 0).remaining := by
    rw [beats]
    exact soon
  obtain ⟨event, rest, popped, tells⟩ :=
    exists_popDue?_of_conduct made (Conductor.follows_contact beats next early)
  exact ⟨first, event, rest, made, (of_conduct made).2.1, popped, tells⟩

/-- What the conductor waits for is delivered to it, and it reacts and arms anew. The delivery fails
only if nothing follows any more. -/
theorem deliver (poised : Poised simulation waiting)
    (pending : simulation.stage.agenda.toList = [event]) {delay : Millis}
    (follows : ready.follows simulation.stage.table = some (delay, event.signal, waiting)) :
    ∃ rest result after next, simulation.stage.agenda.pop? = some (event, rest) ∧
      (simulation.withAgenda rest).deliver event = (result, after) ∧
      waiting.reaction? event.due event.signal simulation.stage.table =
        some (after.stage.table, next) ∧
      Armed after next ∧ after.deliveries = simulation.deliveries ++ [event] ∧
      (result = .ok () ↔ next.follows after.stage.table ≠ none) := by
  obtain ⟨rest, popped, free⟩ := Agenda.exists_pop? pending
  obtain ⟨target, _, _⟩ := poised.head_cases popped
  have here : (simulation.withAgenda rest).agents[event.target]? = some waiting := by
    rw [target]
    exact congrArg (·[0]?) poised.alone
  have deliveries : ((simulation.withAgenda rest).deliver event).2.deliveries =
      simulation.deliveries ++ [event] := deliveries_deliver here
  obtain ⟨rewaiting, poised, delivers⟩ := poised.deliver popped
  obtain ⟨⟨result, after⟩, delivered⟩ :
      ∃ outcome, (simulation.withAgenda rest).deliver event = outcome := ⟨_, rfl⟩
  rw [delivered] at poised delivers deliveries
  cases delivers with
  | key key _ _ =>
    have recurs := Conductor.recurs_of_follows follows
    simp [key, Signal.recurs] at recurs
  | rearms _ reacts arms =>
    refine ⟨rest, result, after, _, popped, delivered, reacts,
      .of_arms poised free (Conductor.settledAt_of_reaction? reacts) arms, deliveries, ?_⟩
    generalize after.stage.agenda = rearmed at arms
    cases arms with
    | waits follows => simp [follows]
    | stalls nothing => simp [nothing]

/-- What a run does that comes to its end without an error, a conductor does. -/
theorem conducts (armed : Armed simulation ready)
    (fair : Throughout holds (simulation.runMoves horizon rounds) simulation)
    (ended : runFrom horizon count rounds simulation = some (.ok deliveries, last)) :
    ∃ more, last.deliveries = simulation.deliveries ++ more ∧
      Conducts holds horizon simulation.stage.table ready more last.stage.table := by
  induction rounds generalizing count simulation ready with
  | zero => simp [runFrom] at ended
  | succ rounds ih =>
    have here : holds simulation.stage.table := fair [] List.nil_prefix
    have stays (beyond : ∀ due, simulation.stage.agenda.nextDue? = some due → horizon < due) :
        last = simulation.advance horizon := by
      rw [runFrom_of_beyond beyond] at ended
      cases ended
      rfl
    cases armed with
    | stalled _ pending nothing =>
      obtain rfl := stays fun due next => by simp [Agenda.nextDue?_eq, pending] at next
      exact ⟨[], (List.append_nil _).symm, .rests here fun _ _ _ => by simp [nothing]⟩
    | @waits delay event waiting poised pending follows due =>
      obtain ⟨rest, result, after, next, popped, delivered, reacts, armed, told, goesOn⟩ :=
        deliver poised pending follows
      by_cases within : event.due ≤ horizon
      · rw [runFrom_of_pop? popped within, delivered] at ended
        cases result with
        | error cause => cases ended
        | ok _ =>
          obtain ⟨_, fair⟩ := (throughout_of_pop? popped within delivered).1 fair
          obtain ⟨more, deliveries, later⟩ := ih (armed.withClock _) fair ended
          refine ⟨event :: more, ?_, .reacts here follows due within reacts (goesOn.1 rfl) later⟩
          rw [deliveries]
          change after.deliveries ++ more = _
          rw [told, List.append_assoc, List.singleton_append]
      · have late := UInt64.not_le.1 within
        obtain rfl := stays fun other next => by
          rw [Agenda.nextDue?_of_pop? popped, Option.some.injEq] at next
          exact next ▸ late
        refine ⟨[], (List.append_nil _).symm, .rests here fun _ _ _ follows' => ?_⟩
        rw [follows, Option.some.injEq, Prod.mk.injEq] at follows'
        rwa [← follows'.1, ← due]

/-- What a conductor does a run does, and comes to its end. -/
theorem exists_runFrom {table final : Table K} {events : List Event}
    (conducts : Conducts holds horizon table ready events final) (armed : Armed simulation ready)
    (here : simulation.stage.table = table) :
    ∃ rounds last more, last.deliveries = simulation.deliveries ++ more ∧
      told more = told events ∧ last.stage.table = final ∧
      Throughout holds (simulation.runMoves horizon rounds) simulation ∧
      ∀ count, runFrom horizon count rounds simulation =
        some (.ok (count + more.length), last) := by
  induction conducts generalizing simulation with
  | rests fair beyond =>
    have beyond : ∀ due, simulation.stage.agenda.nextDue? = some due → horizon < due := by
      intro due next
      cases armed with
      | waits _ pending follows same =>
        rw [Agenda.nextDue?_eq, pending] at next
        obtain rfl := Option.some.inj next
        have late := beyond _ _ _ (here ▸ follows)
        rwa [← same] at late
      | stalled _ pending _ => simp [Agenda.nextDue?_eq, pending] at next
    refine ⟨1, simulation.advance horizon, [], (List.append_nil _).symm, rfl, here, ?_,
      fun _ => runFrom_of_beyond beyond⟩
    intro part isPart
    rw [runMoves_of_beyond beyond] at isPart
    match part, isPart with
    | [], _ => exact here ▸ fair
    | [move], isPart =>
      obtain rfl := (List.cons_prefix_cons.1 isPart).1
      exact here ▸ fair
    | move :: other :: part, isPart =>
      have none := (List.cons_prefix_cons.1 isPart).2
      simp at none
  | @reacts _ _ _ _ waiting next delay event more fair follows due within reacts goesOn later ih =>
    subst here
    cases armed with
    | stalled _ _ nothing => simp [nothing] at follows
    | @waits delay' event' waiting' poised pending follows' due' =>
      rw [follows', Option.some.injEq, Prod.mk.injEq, Prod.mk.injEq] at follows
      obtain ⟨rfl, signal, rfl⟩ := follows
      have same : event'.due = event.due := due'.trans due.symm
      obtain ⟨rest, result, after, next', popped, delivered, reacts', armed, deliveries, ok⟩ :=
        deliver poised pending follows'
      rw [same, signal, reacts, Option.some.injEq, Prod.mk.injEq] at reacts'
      obtain ⟨table, rfl⟩ := reacts'
      obtain rfl := ok.2 (table ▸ goesOn)
      obtain ⟨rounds, last, others, delivers, told, ends, throughout, ended⟩ :=
        ih (armed.withClock (simulation.now.advance event'.due)) table.symm
      refine ⟨rounds + 1, last, event' :: others, ?_, ?_, ends, ?_, fun count => ?_⟩
      · rw [delivers]
        change after.deliveries ++ others = _
        rw [deliveries, List.append_assoc, List.singleton_append]
      · simpa [Billiard.told, same, signal] using told
      · exact (throughout_of_pop? popped (same ▸ within) delivered).2 ⟨fair, throughout⟩
      · rw [runFrom_of_pop? popped (same ▸ within), delivered]
        simpa [Nat.add_assoc, Nat.add_comm 1] using ended (count + 1)

end Armed

end Simulation

end Billiard
