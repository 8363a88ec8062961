import Billiard.Proofs.Waiting

/-!
What was delivered, read off the journal, and runs that start a scene once. Plans only make
remarks, so a journal tells of a delivery exactly where an event was delivered
(`deliveries_deliver`). Without a further start, a conductor goes from the event that it waits for
to the next one, with keys in between (`Poised.pass`); what those passages keep holds in every
state of a run that starts once (`StartedOnce.induct`).
-/

namespace Billiard

variable {K C A α : Type}

/-- Something holds of every event of a list and those before it. -/
def InTurn (holds : List Event → Event → Prop) (events : List Event) : Prop :=
  ∀ earlier event later, events = earlier ++ event :: later → holds earlier event

theorem inTurn_nil (holds : List Event → Event → Prop) : InTurn holds [] := by
  intro earlier event later split
  simp at split

/-- A member of a list with one more at its end is the last one, or was there. -/
theorem eq_or_split_of_concat {items earlier later : List α} {last item : α}
    (split : items ++ [last] = earlier ++ item :: later) :
    items = earlier ∧ last = item ∧ later = [] ∨
      ∃ more, later = more ++ [last] ∧ items = earlier ++ item :: more := by
  rcases List.eq_nil_or_concat later with rfl | ⟨more, final, rfl⟩
  · obtain ⟨same, final⟩ := List.append_inj' split rfl
    exact .inl ⟨same, (List.cons.inj final).1, rfl⟩
  · rw [List.concat_eq_append, ← List.cons_append, ← List.append_assoc] at split
    obtain ⟨same, final⟩ := List.append_inj' split rfl
    obtain rfl := (List.cons.inj final).1
    exact .inr ⟨more, List.concat_eq_append, same⟩

/-- One more event has to come up to it only with those that are there. -/
theorem inTurn_concat {holds : List Event → Event → Prop} {events : List Event} {last : Event} :
    InTurn holds (events ++ [last]) ↔ InTurn holds events ∧ holds events last := by
  constructor
  · intro all
    refine ⟨?_, all events last [] rfl⟩
    intro earlier event later split
    exact all earlier event (later ++ [last]) (by simp [split])
  · rintro ⟨all, newest⟩ earlier event later split
    rcases eq_or_split_of_concat split with ⟨rfl, rfl, _⟩ | ⟨more, _, split⟩
    · exact newest
    · exact all earlier event more split

/-- The event that a note says is being delivered. -/
def Note.delivered? : Note K → Option Event
  | .delivering event _ _ => some event
  | _ => none

/-- The events that were delivered to agents, oldest first. -/
def Stage.deliveries (stage : Stage K C) : List Event :=
  stage.journal.toList.filterMap Note.delivered?

/-- The events that were delivered to agents, oldest first. -/
def Simulation.deliveries (simulation : Simulation K C A) : List Event :=
  simulation.stage.deliveries

namespace Stage

theorem deliveries_note (stage : Stage K C) (entry : Note K) :
    (stage.note entry).deliveries = stage.deliveries ++ entry.delivered?.toList := by
  simp only [deliveries, note, Array.toList_push, List.filterMap_append, List.filterMap_cons,
    List.filterMap_nil]
  cases entry.delivered? <;> rfl

theorem deliveries_draw [Canvas K C] (stage : Stage K C) (stroke : Stroke K) :
    (stage.draw stroke).deliveries = stage.deliveries := by
  have silent (remarks : List (Remark K)) :
      (remarks.map Note.said).filterMap Note.delivered? = [] := by
    simp [List.filterMap_map, Note.delivered?, Function.comp_def]
  simp only [deliveries, draw, Array.toList_appendList, List.filterMap_append, silent,
    List.append_nil]

theorem deliveries_withdraw (visit : Visit) (stage : Stage K C) :
    (stage.withdraw visit).deliveries = stage.deliveries := by
  unfold withdraw
  simp only
  split
  · rfl
  · rw [deliveries_note]
    exact List.append_nil _

end Stage

/-- Nothing is delivered while a plan is carried out. -/
theorem Plan.deliveries_run [Canvas K C] (visit : Visit) (plan : Plan K α) (stage : Stage K C) :
    (plan.run visit stage).2.deliveries = stage.deliveries := by
  induction plan generalizing stage with
  | done result => rfl
  | look next ih => exact ih stage.table stage
  | lay table next ih => exact ih { stage with table := table }
  | draw stroke next ih => exact (ih _).trans (stage.deliveries_draw stroke)
  | remark words next ih =>
    exact (ih _).trans ((stage.deliveries_note _).trans (List.append_nil _))
  | send delay signal next ih => exact ih _ (stage.send visit delay signal).2
  | await delay signal next ih =>
    exact (ih _ ((stage.withdraw visit).send visit delay signal).2).trans
      (stage.deliveries_withdraw visit)

namespace Simulation

variable [Canvas K C] [Agent K A] {simulation before after first last : Simulation K C A}
  {event : Event} {agent : A}

/-- A delivery to an agent is noted once. -/
theorem deliveries_deliver (found : simulation.agents[event.target]? = some agent) :
    (simulation.deliver event).2.deliveries = simulation.deliveries ++ [event] := by
  let stage := simulation.stage.note
    (.delivering event (Agent.name (K := K) agent) (Agent.state (K := K) agent))
  have same := Plan.deliveries_run ⟨event.target, event.due⟩
    (Agent.handle ⟨event.target, event.due⟩ event agent) stage
  cases ran : (Agent.handle ⟨event.target, event.due⟩ event agent).run
    ⟨event.target, event.due⟩ stage with
  | mk outcome last =>
    rw [ran] at same
    rw [deliver_of_run found ran]
    exact same.trans (simulation.stage.deliveries_note _)

/-- An event for no agent is no delivery. -/
theorem deliveries_deliver_of_none (nobody : simulation.agents[event.target]? = none) :
    (simulation.deliver event).2.deliveries = simulation.deliveries := by
  simp only [deliver, nobody]
  exact (simulation.stage.deliveries_note _).trans (List.append_nil _)

theorem deliveries_startFrom (now : Instant) (id : AgentId) (agents : List A)
    (stage : Stage K C) : (startFrom now id agents stage).2.2.deliveries = stage.deliveries := by
  induction agents generalizing id stage with
  | nil => rfl
  | cons agent rest ih =>
    have same := Plan.deliveries_run ⟨id, now⟩ (Agent.start ⟨id, now⟩ agent) stage
    unfold startFrom
    cases ran : (Agent.start ⟨id, now⟩ agent).run ⟨id, now⟩ stage with
    | mk outcome last =>
      rw [ran] at same
      obtain ⟨agent, _ | _⟩ := outcome
      · simpa only [ran] using same
      · simpa only [ran] using (ih (id + 1) last).trans same

/-- A start delivers nothing. -/
theorem deliveries_start (simulation : Simulation K C A) :
    simulation.start.2.deliveries = simulation.deliveries := by
  have same := deliveries_startFrom simulation.now 0 simulation.agents simulation.stage
  unfold start
  split
  · next started =>
    rw [started] at same
    exact same
  · next started =>
    rw [started] at same
    exact (Stage.deliveries_note _ _).trans ((List.append_nil _).trans same)

/-- A move delivers one event that is due, or none. -/
theorem deliveries_take (move : Move) (simulation : Simulation K C A) :
    (move.take simulation).deliveries = simulation.deliveries ∨
      ∃ event : Event, event.due ≤ simulation.now ∧
        (move.take simulation).deliveries = simulation.deliveries ++ [event] := by
  cases move with
  | start => exact .inl (deliveries_start simulation)
  | advance t => exact .inl rfl
  | press way =>
    refine .inl ?_
    simp only [Move.take, press]
    split <;> rfl
  | step =>
    rw [Move.take]
    cases due : simulation.stage.agenda.popDue? simulation.now with
    | none =>
      rw [step_of_popDue?_eq_none due]
      exact .inl rfl
    | some pair =>
      obtain ⟨event, rest⟩ := pair
      obtain ⟨popped, early⟩ := Agenda.popDue?_eq_some_iff.1 due
      rw [step_of_pop? popped early]
      cases found : (simulation.withAgenda rest).agents[event.target]? with
      | none => exact .inl (deliveries_deliver_of_none found)
      | some agent => exact .inr ⟨event, early, deliveries_deliver found⟩

/-- Whatever was delivered is due by now. -/
theorem due_le_now_follow (moves : List Move)
    (begun : ∀ event ∈ simulation.deliveries, event.due ≤ simulation.now) :
    ∀ event ∈ (simulation.follow moves).deliveries,
      event.due ≤ (simulation.follow moves).now := by
  apply follow_induct (motive := fun last => ∀ event ∈ last.deliveries, event.due ≤ last.now) begun
  intro simulation move early event member
  have clock := now_le_take move simulation
  rcases deliveries_take move simulation with same | ⟨delivered, due, same⟩
  · exact UInt64.le_trans (early event (same ▸ member)) clock
  · rw [same, List.mem_append, List.mem_singleton] at member
    rcases member with member | rfl
    · exact UInt64.le_trans (early event member) clock
    · exact UInt64.le_trans due clock

/-- After a run up to a horizon, whatever is pending is due later. -/
theorem lt_nextDue?_of_runFrom {horizon : Instant} {count rounds deliveries : Nat}
    (ended : runFrom horizon count rounds before = some (.ok deliveries, after)) :
    (∀ due, after.stage.agenda.nextDue? = some due → horizon < due) ∧
      (before.now ≤ horizon → after.now = horizon) := by
  induction rounds generalizing count before with
  | zero => simp [runFrom] at ended
  | succ rounds ih =>
    rcases before.stage.agenda.beyond_or_pop? horizon with beyond | ⟨event, rest, popped, within⟩
    · rw [runFrom_of_beyond beyond] at ended
      cases ended
      exact ⟨beyond, advance_of_le⟩
    · rw [runFrom_of_pop? popped within] at ended
      have clock := now_deliver (before.withAgenda rest) event
      cases delivered : (before.withAgenda rest).deliver event with
      | mk result mid =>
        rw [delivered] at ended
        cases result with
        | error cause => cases ended
        | ok done =>
          obtain ⟨later, rests⟩ := ih ended
          exact ⟨later, fun early => rests (advance_le early within)⟩

/-- Calls other than starts lead from `before` to a state, some of them perhaps failing. -/
inductive Proceeds (before : Simulation K C A) : Simulation K C A → Prop where
  | rest : Proceeds before before
  | call {simulation after : Simulation K C A} (call : Call) (rounds : Nat)
      {result : Except (Break K) Answer} (proceeds : Proceeds before simulation)
      (other : call ≠ .start) (ended : call.perform rounds simulation = some (result, after)) :
      Proceeds before after

/-- Calls lead from `first` to `last`, some of them perhaps failing; one of them is a start, made
when the clock shows `since`. -/
inductive StartedOnce (since : Instant) (first last : Simulation K C A) : Prop where
  | intro {idle : Simulation K C A} (before : first.Proceeds idle) (clock : idle.now = since)
      (after : idle.start.2.Proceeds last)

theorem Proceeds.exists_moves (proceeds : before.Proceeds after) :
    ∃ moves, .start ∉ moves ∧ after = before.follow moves := by
  induction proceeds with
  | rest => exact ⟨[], by simp, rfl⟩
  | call call _ _ other ended ih =>
    obtain ⟨moves, noStart, rfl⟩ := ih
    obtain ⟨others, noStart', rfl⟩ := Call.exists_moves_of_ne_start other ended
    exact ⟨moves ++ others, by simp [noStart, noStart'], (follow_append moves others before).symm⟩

theorem StartedOnce.call (once : StartedOnce since first before) (call : Call) (rounds : Nat)
    {result : Except (Break K) Answer} (other : call ≠ .start)
    (ended : call.perform rounds before = some (result, after)) :
    StartedOnce since first after := by
  obtain ⟨idle, clock, later⟩ := once
  exact ⟨idle, clock, .call call rounds later other ended⟩

theorem StartedOnce.exists_moves (once : StartedOnce since first last) :
    ∃ moves, last = first.follow moves := by
  obtain ⟨idle, _, later⟩ := once
  obtain ⟨moves, _, rfl⟩ := idle.exists_moves
  obtain ⟨others, _, rfl⟩ := later.exists_moves
  refine ⟨moves ++ .start :: others, ?_⟩
  rw [follow_append]
  rfl

/-- What every move but a start preserves holds wherever calls other than starts lead. -/
theorem Proceeds.induct (proceeds : before.Proceeds after) {motive : Simulation K C A → Prop}
    (begins : motive before)
    (keeps : ∀ simulation (move : Move), move ≠ .start → motive simulation →
      motive (move.take simulation)) : motive after := by
  obtain ⟨moves, noStart, rfl⟩ := proceeds.exists_moves
  clear proceeds
  induction moves using List.reverseRecOn with
  | nil => exact begins
  | append_singleton moves move ih =>
    simp only [List.mem_append, List.mem_singleton, not_or] at noStart
    rw [follow_concat]
    exact keeps _ move (fun same => noStart.2 same.symm) (ih noStart.1)

end Simulation

theorem Contact.mem_balls_between {a b id : BallId} :
    id ∈ (between a b).balls ↔ id ∈ [a, b] := by
  unfold between
  split
  · rfl
  · simp [balls, or_comm]

/-- All balls move up to a contact, and only those that take part in it have another velocity
then. -/
theorem Contact.exists_moved [Scalar K] {table : Table K} (contact : Contact) (elapsed : Millis)
    {id : BallId} {ball : Ball K} (there : table.balls[id]? = some ball) :
    ∃ moved, ((contact.effect? (table.drift elapsed)).getD (table.drift elapsed)).balls[id]? =
        some moved ∧
      moved.position = (ball.drift elapsed).position ∧
      (id ∉ contact.balls → moved.velocity = ball.velocity) := by
  have drifted : (table.drift elapsed).balls[id]? = some (ball.drift elapsed) := by
    simp [Table.drift, there]
  cases effect : contact.effect? (table.drift elapsed) with
  | none => exact ⟨_, drifted, rfl, fun _ => rfl⟩
  | some after =>
    have within : id < after.balls.length := by
      rw [(resembles_of_effect? effect).length]
      exact (List.getElem?_eq_some_iff.1 drifted).1
    obtain ⟨old, found, position, _, apart⟩ :=
      balls_of_effect? effect (List.getElem?_eq_getElem within)
    obtain rfl := Option.some.inj (found.symm.trans drifted)
    exact ⟨_, List.getElem?_eq_getElem within, position, fun other => by rw [apart other]; rfl⟩

namespace Signal

variable [Scalar K] {conductor ready : Conductor} {table after : Table K} {now : Instant}
  {signal : Signal}

/-- The time for which balls move before the signal has its effect. -/
def elapsed : Signal → Millis
  | .wall _ _ elapsed | .pair _ _ elapsed | .beat elapsed => elapsed
  | .key _ => 0

/-- What a signal makes of a table: the balls drift for as long as it says, and then the contact
takes place, or the turret turns. -/
def play (table : Table K) : Signal → Table K
  | .wall ball side elapsed =>
    ((Contact.wall ball side).effect? (table.drift elapsed)).getD (table.drift elapsed)
  | .pair a b elapsed =>
    ((Contact.between a b).effect? (table.drift elapsed)).getD (table.drift elapsed)
  | .beat elapsed => table.drift elapsed
  | .key way => table.turn way

/-- The balls that the signal names. -/
def balls : Signal → List BallId
  | .wall ball _ _ => [ball]
  | .pair a b _ => [a, b]
  | .beat _ | .key _ => []

/-- Contacts and beats move all balls for as long as they say, and change the velocity of no ball
that they do not name. -/
theorem exists_moved {signal : Signal} (recurs : signal.recurs) {id : BallId} {ball : Ball K}
    (there : table.balls[id]? = some ball) :
    ∃ moved, (signal.play table).balls[id]? = some moved ∧
      moved.position = (ball.drift signal.elapsed).position ∧
      (id ∉ signal.balls → moved.velocity = ball.velocity) := by
  cases signal with
  | wall hit side elapsed => exact (Contact.wall hit side).exists_moved elapsed there
  | pair a b elapsed =>
    obtain ⟨moved, found, position, apart⟩ := (Contact.between a b).exists_moved elapsed there
    exact ⟨moved, found, position, fun other => apart (mt Contact.mem_balls_between.1 other)⟩
  | beat elapsed =>
    exact ⟨ball.drift elapsed, by simp [play, Table.drift, there], rfl, fun _ => rfl⟩
  | key way => cases recurs

/-- What is waited for says after how long it comes. -/
theorem elapsed_of_follows {delay : Millis} {waiting : Conductor}
    (follows : ready.follows table = some (delay, signal, waiting)) : signal.elapsed = delay := by
  rcases Conductor.follows_cases follows with ⟨⟨_, contact⟩, _, _, rfl, _⟩ | ⟨_, _, rfl, _, _⟩
  · cases contact <;> rfl
  · rfl

theorem play_of_reaction? (reacts : conductor.reaction? now signal table = some (after, ready)) :
    after = signal.play table := by
  unfold Conductor.reaction? at reacts
  split at reacts
  · exact congrArg Prod.fst (Option.some.inj reacts).symm
  · exact congrArg Prod.fst (Option.some.inj reacts).symm
  · exact congrArg Prod.fst (Option.some.inj reacts).symm
  · cases reacts

end Signal

/-- What deliveries make of a table. -/
def Table.played [Scalar K] (origin : Table K) (events : List Event) : Table K :=
  events.foldl (fun table event => event.signal.play table) origin

namespace Simulation

variable [Scalar K] [Canvas K C] {simulation first last : Simulation K C Conductor}
  {conductor waiting : Conductor} {since : Instant}

namespace Poised

/-- What becomes of a poised simulation by a move other than a start: nothing that the conductor
could notice, or a key is delivered, or the event that it waits for. -/
inductive Passage (simulation : Simulation K C Conductor) (conductor : Conductor) :
    Simulation K C Conductor → Conductor → Prop where
  | rests {after : Simulation K C Conductor} (table : after.stage.table = simulation.stage.table)
      (awaited : after.stage.agenda.awaitedBy 0 = simulation.stage.agenda.awaitedBy 0)
      (deliveries : after.deliveries = simulation.deliveries) :
      Passage simulation conductor after conductor
  | turns {event : Event} {way : Turn} {after : Simulation K C Conductor}
      (key : event.signal = .key way) (table : after.stage.table = simulation.stage.table.turn way)
      (awaited : after.stage.agenda.awaitedBy 0 = simulation.stage.agenda.awaitedBy 0)
      (deliveries : after.deliveries = simulation.deliveries ++ [event]) :
      Passage simulation conductor after conductor
  | reacts {event : Event} {rest : Agenda} {ready waiting : Conductor}
      {result : Except (Break K) Unit} {after : Simulation K C Conductor}
      (awaited : simulation.stage.agenda.awaitedBy 0 = [event])
      (free : rest.awaitedBy 0 = [])
      (deliveries : after.deliveries = simulation.deliveries ++ [event])
      (reacts : conductor.reaction? event.due event.signal simulation.stage.table =
        some (after.stage.table, ready))
      (arms : ready.Arms ⟨0, event.due⟩ after.stage.table rest (waiting, result)
        after.stage.agenda) :
      Passage simulation conductor after waiting

/-- Every move but a start is such a passage. -/
theorem pass (poised : Poised simulation conductor) {move : Move} (other : move ≠ .start) :
    ∃ waiting, Poised (move.take simulation) waiting ∧
      Passage simulation conductor (move.take simulation) waiting := by
  cases move with
  | start => exact absurd rfl other
  | advance t =>
    exact ⟨conductor, ⟨poised.alone, poised.listens, poised.mine, poised.waits, poised.calm⟩,
      .rests rfl rfl rfl⟩
  | press way =>
    obtain ⟨waiting, pressed, _⟩ := poised.take (.press way)
    have same := pressed.alone
    simp only [Move.take, press, poised.listens] at pressed same ⊢
    rw [poised.alone, List.singleton_inj] at same
    subst same
    exact ⟨conductor, pressed, .rests rfl (Agenda.awaitedBy_schedule_key way 0) rfl⟩
  | step =>
    cases due : simulation.stage.agenda.popDue? simulation.now with
    | none =>
      rw [Move.take, step_of_popDue?_eq_none due]
      exact ⟨conductor, poised, .rests rfl rfl rfl⟩
    | some pair =>
      obtain ⟨event, rest⟩ := pair
      obtain ⟨popped, early⟩ := Agenda.popDue?_eq_some_iff.1 due
      obtain ⟨target, _, kind⟩ := poised.head_cases popped
      obtain ⟨waiting, delivered, delivers⟩ := poised.deliver popped
      have here : (simulation.withAgenda rest).agents[event.target]? = some conductor := by
        rw [target]
        exact congrArg (·[0]?) poised.alone
      have noted : ((simulation.withAgenda rest).deliver event).2.deliveries =
          simulation.deliveries ++ [event] := deliveries_deliver here
      rw [Move.take, step_of_pop? popped early]
      generalize (simulation.withAgenda rest).deliver event = outcome at delivered delivers noted
      obtain ⟨result, after⟩ := outcome
      refine ⟨waiting, delivered, ?_⟩
      cases delivers with
      | key key table agenda =>
        have awaited : rest.awaitedBy 0 = simulation.stage.agenda.awaitedBy 0 := by
          rcases kind with ⟨_, same⟩ | ⟨_, _, _, _, follows, _⟩
          · exact same
          · have recurs := Conductor.recurs_of_follows follows
            simp [key, Signal.recurs] at recurs
        exact .turns key table (agenda ▸ awaited) noted
      | rearms awaited reacts arms =>
        have free : rest.awaitedBy 0 = [] := by
          rcases kind with ⟨⟨way, key⟩, _⟩ | ⟨_, free, _⟩
          · simp [Conductor.reaction?, key] at reacts
          · exact free
        exact .reacts awaited free noted reacts arms

end Poised

/-- The table is what the deliveries have made of another one. -/
def Played (origin : Table K) (simulation : Simulation K C Conductor) : Prop :=
  simulation.stage.table = origin.played simulation.deliveries

omit [Canvas K C] in
theorem Poised.Passage.played {origin : Table K} {after : Simulation K C Conductor}
    (passes : Passage simulation conductor after waiting) (played : simulation.Played origin) :
    after.Played origin := by
  unfold Played Table.played at played ⊢
  cases passes with
  | rests table _ deliveries => rw [table, deliveries, played]
  | turns key table _ deliveries =>
    rw [table, deliveries, List.foldl_append, ← played]
    simp [key, Signal.play]
  | reacts _ _ deliveries reacts _ =>
    rw [Signal.play_of_reaction? reacts, deliveries, List.foldl_append, ← played]
    rfl

/-- A scene begins at the first instant, with nothing delivered and nothing pending. -/
theorem begins_of_conduct {scene : Scene K} {canvas : C}
    (made : scene.conduct id canvas = .ok first) :
    first.now = 0 ∧ first.deliveries = [] ∧ first.stage.agenda.toList = [] := by
  obtain ⟨_, _, fine⟩ := Poised.of_conduct made
  rw [Scene.conduct, Scene.check, fine] at made
  cases made
  exact ⟨rfl, rfl, rfl⟩

/-- Nothing is drawn before a scene begins. -/
theorem canvas_of_conduct {scene : Scene K} {canvas : C}
    (made : scene.conduct id canvas = .ok first) : first.stage.canvas = canvas := by
  obtain ⟨_, _, fine⟩ := Poised.of_conduct made
  rw [Scene.conduct, Scene.check, fine] at made
  cases made
  rfl

/-- Whatever was delivered is due by now. -/
theorem StartedOnce.due_le_now {scene : Scene K} {canvas : C}
    (made : scene.conduct id canvas = .ok first) (once : first.StartedOnce since last) :
    ∀ event ∈ last.deliveries, event.due ≤ last.now := by
  obtain ⟨moves, rfl⟩ := once.exists_moves
  apply due_le_now_follow
  rw [(begins_of_conduct made).2.1]
  exact fun event member => absurd member List.not_mem_nil

/-- Until a scene is started the conductor does not move, and nothing but keys is delivered. -/
theorem Proceeds.idle {scene : Scene K} {canvas : C} (made : scene.conduct id canvas = .ok first)
    (proceeds : first.Proceeds last) :
    Poised last (.new scene.interval) ∧ last.stage.agenda.awaitedBy 0 = [] ∧
      (∀ event ∈ last.deliveries, event.signal.recurs = false) ∧ last.Played scene.table := by
  obtain ⟨poised, table, _⟩ := Poised.of_conduct made
  obtain ⟨_, silent, free⟩ := begins_of_conduct made
  apply proceeds.induct (motive := fun last => Poised last (.new scene.interval) ∧
    last.stage.agenda.awaitedBy 0 = [] ∧
    (∀ event ∈ last.deliveries, event.signal.recurs = false) ∧ last.Played scene.table)
  · refine ⟨poised, by simp [Agenda.awaitedBy, free], by simp [silent], ?_⟩
    rw [Played, silent, table]
    rfl
  · rintro simulation move other ⟨poised, free, keys, played⟩
    obtain ⟨waiting, poised, passes⟩ := poised.pass other
    have played := passes.played played
    generalize move.take simulation = after at poised passes played ⊢
    cases passes with
    | rests table awaited deliveries =>
      exact ⟨poised, awaited.trans free, deliveries ▸ keys, played⟩
    | turns key table awaited deliveries =>
      refine ⟨poised, awaited.trans free, ?_, played⟩
      rw [deliveries, List.forall_mem_append, List.forall_mem_singleton]
      exact ⟨keys, by simp [key, Signal.recurs]⟩
    | reacts awaited _ _ _ _ => simp [free] at awaited

/-- What the start of a scene brings about and what every passage keeps holds wherever a run leads
that starts the scene once. -/
theorem StartedOnce.induct {scene : Scene K} {canvas : C}
    (made : scene.conduct id canvas = .ok first) (once : first.StartedOnce since last)
    {motive : Simulation K C Conductor → Conductor → Prop}
    (starts : ∀ {after : Simulation K C Conductor} {waiting : Conductor} {agenda : Agenda}
      {result : Except (Break K) Unit}, after.Played scene.table →
      (∀ event ∈ after.deliveries, event.signal.recurs = false) → agenda.awaitedBy 0 = [] →
      ((Conductor.new scene.interval).restarted since).Arms ⟨0, since⟩ after.stage.table agenda
        (waiting, result) after.stage.agenda → motive after waiting)
    (passes : ∀ {simulation after : Simulation K C Conductor} {conductor waiting : Conductor},
      Poised simulation conductor → Poised.Passage simulation conductor after waiting →
      motive simulation conductor → motive after waiting) :
    ∃ conductor, Poised last conductor ∧ motive last conductor := by
  obtain ⟨before, rfl, later⟩ := once
  rename_i idle
  obtain ⟨poised, free, keys, played⟩ := before.idle made
  have same := deliveries_start idle
  obtain ⟨waiting, started, starting⟩ := poised.start
  have begun : motive idle.start.2 waiting := by
    generalize idle.start.1 = result at starting
    generalize idle.start.2 = after at starting same
    cases starting with
    | rearms table arms =>
      rw [← table] at arms
      refine starts ?_ (same ▸ keys) free arms
      rw [Played, table, same]
      exact played
  apply later.induct (motive := fun last => ∃ conductor, Poised last conductor ∧
    motive last conductor) ⟨waiting, started, begun⟩
  rintro simulation move other ⟨conductor, poised, held⟩
  obtain ⟨waiting, after, passage⟩ := poised.pass other
  exact ⟨waiting, after, passes poised passage held⟩

end Simulation

end Billiard
