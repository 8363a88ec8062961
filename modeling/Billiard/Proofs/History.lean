import Billiard.Proofs.Deliveries
import Billiard.Proofs.Ahead

/-!
What happens to events, move by move. Every call is made of moves, whether it comes to an end or
not (`Visits`); all that a move does to the agenda is to deliver the event that comes first, to
schedule for agents that are there, from the present instant on, and to withdraw what an agent
waits for (`happens`). What these keep holds at every point of every run (`Assembled.induct`).
-/

namespace Billiard

variable {K C A α : Type}

/-- The events that a note says are not waited for any longer, each with the agent that waits for
another one instead. -/
def Note.withdrawn : Note K → List (AgentId × Event)
  | .replaced agent events => events.map (agent, ·)
  | _ => []

/-- The events that were withdrawn, each with the agent that waits for another one instead. -/
def Stage.replacements (stage : Stage K C) : List (AgentId × Event) :=
  stage.journal.toList.flatMap Note.withdrawn

/-- The events that were withdrawn, each with the agent that waits for another one instead. -/
def Simulation.replacements (simulation : Simulation K C A) : List (AgentId × Event) :=
  simulation.stage.replacements

namespace Stage

theorem replacements_note (stage : Stage K C) (entry : Note K) :
    (stage.note entry).replacements = stage.replacements ++ entry.withdrawn := by
  simp [replacements, note]

theorem replacements_draw [Canvas K C] (stage : Stage K C) (stroke : Stroke K) :
    (stage.draw stroke).replacements = stage.replacements := by
  have silent (remarks : List (Remark K)) :
      (remarks.map Note.said).flatMap Note.withdrawn = [] := by
    simp [List.flatMap_map, Note.withdrawn]
  simp only [replacements, draw, Array.toList_appendList, List.flatMap_append, silent,
    List.append_nil]

theorem replacements_withdraw (visit : Visit) (stage : Stage K C) :
    (stage.withdraw visit).replacements =
      stage.replacements ++ (stage.agenda.withdraw visit.agent).1.map (visit.agent, ·) := by
  unfold withdraw
  simp only
  split
  · next nothing =>
    rw [List.isEmpty_iff.1 nothing]
    exact (List.append_nil _).symm
  · exact replacements_note _ _

end Stage

namespace Agenda

/-- All that agents can do to an agenda at the instant `now`, if there are so many of them: schedule
for themselves from that instant on, and withdraw what they wait for. -/
inductive Reworks (now : Instant) (agents : Nat) :
    Agenda → List (AgentId × Event) → Agenda → Prop where
  | rests (agenda : Agenda) : Reworks now agents agenda [] agenda
  | schedules {agenda after : Agenda} {replaced : List (AgentId × Event)} {target : AgentId}
      {due : Instant} {signal : Signal} (there : target < agents) (later : now ≤ due)
      (more : Reworks now agents (agenda.schedule target due signal).2 replaced after) :
      Reworks now agents agenda replaced after
  | withdraws {agenda after : Agenda} {replaced : List (AgentId × Event)} (target : AgentId)
      (more : Reworks now agents (agenda.withdraw target).2 replaced after) :
      Reworks now agents agenda ((agenda.withdraw target).1.map (target, ·) ++ replaced) after

namespace Reworks

variable {now : Instant} {agents : Nat} {agenda mid after : Agenda}
  {replaced others : List (AgentId × Event)}

theorem trans (first : Reworks now agents agenda replaced mid)
    (second : Reworks now agents mid others after) :
    Reworks now agents agenda (replaced ++ others) after := by
  induction first with
  | rests agenda => exact second
  | schedules there later _ ih => exact .schedules there later (ih second)
  | withdraws target _ ih =>
    rw [List.append_assoc]
    exact .withdraws target (ih second)

/-- Whatever is pending was so before, or is for an agent that is there, due from now on and
numbered anew. -/
theorem mem_toList (reworks : Reworks now agents agenda replaced after) {event : Event}
    (member : event ∈ after.toList) :
    event ∈ agenda.toList ∨
      event.target < agents ∧ now ≤ event.due ∧ agenda.issued ≤ event.id := by
  induction reworks with
  | rests agenda => exact .inl member
  | schedules there later _ ih =>
    rcases ih member with held | ⟨target, due, given⟩
    · rcases mem_toList_schedule.1 held with rfl | held
      · exact .inr ⟨there, later, Nat.le_refl _⟩
      · exact .inl held
    · exact .inr ⟨target, due, Nat.le_of_succ_le given⟩
  | withdraws target _ ih =>
    rcases ih member with held | given
    · rw [toList_withdraw] at held
      exact .inl (List.mem_filter.1 held).1
    · exact .inr given

theorem issued_le (reworks : Reworks now agents agenda replaced after) :
    agenda.issued ≤ after.issued := by
  induction reworks with
  | rests agenda => exact Nat.le_refl _
  | schedules _ _ _ ih => exact Nat.le_of_succ_le ih
  | withdraws _ _ ih => exact ih

/-- An agent withdraws only what it waits for itself. -/
theorem own (reworks : Reworks now agents agenda replaced after) {agent : AgentId} {event : Event}
    (member : (agent, event) ∈ replaced) : event.target = agent ∧ event.signal.recurs := by
  induction reworks with
  | rests agenda => cases member
  | schedules _ _ _ ih => exact ih member
  | withdraws target _ ih =>
    rcases List.mem_append.1 member with mine | later
    · obtain ⟨withdrawn, held, same⟩ := List.mem_map.1 mine
      cases same
      simpa [Event.recursFor] using (List.mem_filter.1 held).2
    · exact ih later

/-- What was pending and what is scheduled, numbered on from there and for agents that are there, is
withdrawn or pending afterwards. -/
theorem exists_scheduled (reworks : Reworks now agents agenda replaced after) :
    ∃ scheduled : List Event, after.issued = agenda.issued + scheduled.length ∧
      scheduled.map (·.id) = List.range' agenda.issued scheduled.length ∧
      (∀ event ∈ scheduled, event.target < agents) ∧
      (agenda.toList ++ scheduled).Perm (replaced.map (·.2) ++ after.toList) := by
  induction reworks with
  | rests agenda => exact ⟨[], rfl, rfl, by simp, by simp⟩
  | @schedules agenda after replaced target due signal there later _ ih =>
    obtain ⟨scheduled, issued, numbers, targets, balance⟩ := ih
    have count : (agenda.schedule target due signal).2.issued = agenda.issued + 1 := rfl
    refine ⟨agenda.fresh target due signal :: scheduled, ?_, ?_, ?_, ?_⟩
    · rw [issued, count, List.length_cons]
      omega
    · rw [List.map_cons, numbers, List.length_cons, List.range'_succ]
      rfl
    · exact List.forall_mem_cons.2 ⟨there, targets⟩
    · refine List.perm_middle.trans (List.Perm.trans ?_ balance)
      exact ((toList_schedule agenda target due signal).append_right scheduled).symm
  | @withdraws agenda after replaced target _ ih =>
    obtain ⟨scheduled, issued, numbers, targets, balance⟩ := ih
    have mine : ((agenda.withdraw target).1.map (target, ·)).map (·.2) =
        agenda.toList.filter (·.recursFor target) := by
      rw [List.map_map]
      exact List.map_id _
    refine ⟨scheduled, issued, numbers, targets, ?_⟩
    rw [List.map_append, mine, List.append_assoc]
    refine List.Perm.trans ?_ (balance.append_left _)
    rw [toList_withdraw, ← List.append_assoc]
    exact (List.filter_append_perm _ _).symm.append_right scheduled

end Reworks

end Agenda

open Agenda (Reworks)

/-- All that a visit does to the agenda is noted. -/
theorem Plan.reworks_run [Canvas K C] (visit : Visit) {agents : Nat} (there : visit.agent < agents)
    (plan : Plan K α) (stage : Stage K C) :
    ∃ replaced, Reworks visit.now agents stage.agenda replaced (plan.run visit stage).2.agenda ∧
      (plan.run visit stage).2.replacements = stage.replacements ++ replaced := by
  induction plan generalizing stage with
  | done result => exact ⟨[], .rests _, (List.append_nil _).symm⟩
  | look next ih => exact ih stage.table stage
  | lay table next ih => exact ih { stage with table := table }
  | draw stroke next ih =>
    obtain ⟨replaced, reworks, noted⟩ := ih (stage.draw stroke)
    rw [stage.replacements_draw] at noted
    exact ⟨replaced, reworks, noted⟩
  | remark words next ih =>
    obtain ⟨replaced, reworks, noted⟩ := ih (stage.note (.said words))
    rw [stage.replacements_note] at noted
    exact ⟨replaced, reworks, noted.trans (congrArg (· ++ replaced) (List.append_nil _))⟩
  | send delay signal next ih =>
    obtain ⟨replaced, reworks, noted⟩ := ih _ (stage.send visit delay signal).2
    exact ⟨replaced, .schedules there (Instant.le_after visit.now delay) reworks, noted⟩
  | await delay signal next ih =>
    obtain ⟨replaced, reworks, noted⟩ := ih _ ((stage.withdraw visit).send visit delay signal).2
    have sent : Reworks visit.now agents (stage.withdraw visit).agenda replaced _ :=
      .schedules there (Instant.le_after visit.now delay) reworks
    rw [Stage.agenda_withdraw] at sent
    refine ⟨_, .withdraws visit.agent sent, noted.trans ?_⟩
    change (stage.withdraw visit).replacements ++ replaced = _
    rw [stage.replacements_withdraw, List.append_assoc]

namespace Simulation

variable [Canvas K C] [Agent K A] {simulation before after first last here : Simulation K C A}
  {moves : List Move}

/-- Calls lead from `first` to `last`, some of them perhaps failing, and make these moves. -/
inductive Leads (first : Simulation K C A) : List Move → Simulation K C A → Prop where
  | begin : Leads first [] first
  | call {moves : List Move} {before after : Simulation K C A} (call : Call) (rounds : Nat)
      {result : Except (Break K) Answer} (led : Leads first moves before)
      (ended : call.perform rounds before = some (result, after)) :
      Leads first (moves ++ call.moves rounds before) after

/-- Calls lead from `first` to here, or into the middle of one more call, whether that comes to an
end or not, and make these moves. -/
inductive Visits (first : Simulation K C A) : List Move → Simulation K C A → Prop where
  | within {moves part : List Move} {before : Simulation K C A} (call : Call) (rounds : Nat)
      (led : Leads first moves before) (part_of : part <+: call.moves rounds before) :
      Visits first (moves ++ part) (before.follow part)

theorem Leads.follow (led : Leads first moves last) : first.follow moves = last := by
  induction led with
  | begin => rfl
  | call call rounds _ ended ih => rw [follow_append, ih, Call.follow_moves ended]

theorem Visits.follow (visits : Visits first moves here) : first.follow moves = here := by
  cases visits with
  | within call rounds led _ => rw [follow_append, led.follow]

/-- One delivery: the event, the simulation before it was taken from the agenda, and what came of
it. -/
structure Delivery (K C A : Type) where
  event : Event
  before : Simulation K C A
  result : Except (Break K) Unit
  after : Simulation K C A

/-- What a move delivers. -/
def Move.delivery? (move : Move) (simulation : Simulation K C A) : Option (Delivery K C A) :=
  match move with
  | .step =>
    (simulation.stage.agenda.popDue? simulation.now).map fun (event, rest) =>
      let outcome := (simulation.withAgenda rest).deliver event
      ⟨event, simulation, outcome.1, outcome.2⟩
  | .start | .advance _ | .press _ => none

/-- What is delivered by one move after another. -/
def history : List Move → Simulation K C A → List (Delivery K C A)
  | [], _ => []
  | move :: more, simulation =>
    (move.delivery? simulation).toList ++ history more (move.take simulation)

theorem history_concat (moves : List Move) (move : Move) (simulation : Simulation K C A) :
    history (moves ++ [move]) simulation =
      history moves simulation ++ (move.delivery? (simulation.follow moves)).toList := by
  induction moves generalizing simulation with
  | nil => simp [history, follow]
  | cons first more ih =>
    simp only [List.cons_append, history, ih, List.append_assoc]
    rfl

/-- A simulation that was put together, and of which nothing has been asked: agents have joined, and
one of them may listen to the keys. -/
inductive Assembled : Simulation K C A → Prop where
  | new (table : Table K) (canvas : C) (now : Instant) :
      Assembled ((Simulation.new table canvas).setClock now)
  | join {simulation : Simulation K C A} (assembled : Assembled simulation) (agent : A) :
      Assembled (simulation.join agent).2
  | listen {simulation : Simulation K C A} (assembled : Assembled simulation) {id : AgentId}
      (there : id < simulation.agents.length) :
      Assembled { simulation with listener := some id }

omit [Canvas K C] in
/-- A scene with a conductor is such a simulation. -/
theorem Assembled.of_conduct [Scalar K] {seat : Conductor → A} {canvas : C} {scene : Scene K}
    (made : scene.conduct seat canvas = .ok first) : Assembled first := by
  unfold Scene.conduct at made
  cases fine : scene.check with
  | error fault =>
    rw [fine] at made
    cases made
  | ok _ =>
    rw [fine] at made
    cases made
    exact .listen (.join (.new scene.table canvas 0) _) (Nat.lt_succ_self _)

/-- Nothing has happened so far. -/
structure Idle (simulation : Simulation K C A) : Prop where
  agenda : simulation.stage.agenda = .empty
  deliveries : simulation.deliveries = []
  replacements : simulation.replacements = []
  delivered : simulation.delivered = 0

omit [Canvas K C] in
theorem Assembled.idle (assembled : first.Assembled) : first.Idle := by
  induction assembled with
  | new table canvas now => exact ⟨rfl, rfl, rfl, rfl⟩
  | join _ agent ih =>
    refine ⟨ih.agenda, ?_, ?_, ih.delivered⟩
    · exact (Stage.deliveries_note _ _).trans ((List.append_nil _).trans ih.deliveries)
    · exact (Stage.replacements_note _ _).trans ((List.append_nil _).trans ih.replacements)
  | listen _ _ ih => exact ⟨ih.agenda, ih.deliveries, ih.replacements, ih.delivered⟩

/-- Everything is for agents that are there. -/
structure Addressed (simulation : Simulation K C A) : Prop where
  listener : ∀ id, simulation.listener = some id → id < simulation.agents.length
  pending : ∀ event ∈ simulation.stage.agenda.toList, event.target < simulation.agents.length

omit [Canvas K C] in
theorem Assembled.addressed (assembled : first.Assembled) : first.Addressed := by
  refine ⟨?_, fun event member => ?_⟩
  · induction assembled with
    | new table canvas now => exact fun id listens => nomatch listens
    | join assembled agent ih =>
      intro id listens
      have grown := Nat.lt_add_right [agent].length (ih id listens)
      rwa [← List.length_append] at grown
    | listen assembled there ih =>
      intro id listens
      cases listens
      exact there
  · rw [assembled.idle.agenda] at member
    cases member

/-- What becomes of a simulation by one move: agents do something to the agenda, be it after a
delivery or without one. -/
inductive Happens (before : Simulation K C A) :
    Option (Delivery K C A) → Simulation K C A → Prop where
  | quietly {after : Simulation K C A} {replaced : List (AgentId × Event)}
      (agents : after.agents.length = before.agents.length)
      (listener : after.listener = before.listener)
      (reworks : Reworks before.now before.agents.length before.stage.agenda replaced
        after.stage.agenda)
      (noted : after.replacements = before.replacements ++ replaced)
      (deliveries : after.deliveries = before.deliveries)
      (delivered : after.delivered = before.delivered) : Happens before none after
  | delivers {event : Event} {rest : Agenda} {agent changed : A}
      {replaced : List (AgentId × Event)} {result : Except (Break K) Unit}
      {after : Simulation K C A}
      (popped : before.stage.agenda.pop? = some (event, rest)) (due : event.due ≤ before.now)
      (found : before.agents[event.target]? = some agent)
      (ran : (Agent.handle ⟨event.target, event.due⟩ event agent).run ⟨event.target, event.due⟩
        ((before.withAgenda rest).stage.note
          (.delivering event (Agent.name (K := K) agent) (Agent.state (K := K) agent))) =
        ((changed, result), after.stage))
      (agents : after.agents = before.agents.set event.target changed)
      (listener : after.listener = before.listener)
      (reworks : Reworks event.due before.agents.length rest replaced after.stage.agenda)
      (noted : after.replacements = before.replacements ++ replaced)
      (deliveries : after.deliveries = before.deliveries ++ [event])
      (delivered : after.delivered = tally before.delivered result) :
      Happens before (some ⟨event, before, result, after⟩) after

theorem reworks_startFrom (now : Instant) {count : Nat} (id : Nat) (agents : List A)
    (within : id + agents.length ≤ count) (stage : Stage K C) :
    ∃ replaced, Reworks now count stage.agenda replaced (startFrom now id agents stage).2.2.agenda ∧
      (startFrom now id agents stage).2.2.replacements = stage.replacements ++ replaced := by
  induction agents generalizing id stage with
  | nil => exact ⟨[], .rests _, (List.append_nil _).symm⟩
  | cons agent rest ih =>
    rw [List.length_cons] at within
    have there : id < count := by omega
    have started := Plan.reworks_run ⟨id, now⟩ there (Agent.start ⟨id, now⟩ agent) stage
    unfold startFrom
    cases ran : (Agent.start ⟨id, now⟩ agent).run ⟨id, now⟩ stage with
    | mk outcome last =>
      rw [ran] at started
      obtain ⟨agent, _ | _⟩ := outcome
      · simpa only [ran] using started
      · obtain ⟨replaced, reworks, noted⟩ := started
        obtain ⟨others, more, noted'⟩ := ih (id + 1) (by omega) last
        simp only [ran]
        refine ⟨_, reworks.trans more, noted'.trans ?_⟩
        rw [noted, List.append_assoc]

theorem length_startFrom (now : Instant) (id : AgentId) (agents : List A) (stage : Stage K C) :
    (startFrom now id agents stage).2.1.length = agents.length := by
  induction agents generalizing id stage with
  | nil => rfl
  | cons agent rest ih =>
    unfold startFrom
    cases ran : (Agent.start ⟨id, now⟩ agent).run ⟨id, now⟩ stage with
    | mk outcome last =>
      obtain ⟨agent, _ | _⟩ := outcome
      · simp only [ran, List.length_cons]
      · simp only [ran, List.length_cons, ih]

private theorem happens_start (before : Simulation K C A) : Happens before none before.start.2 := by
  have length := length_startFrom before.now 0 before.agents before.stage
  have silent := deliveries_start before
  obtain ⟨replaced, reworks, noted⟩ :=
    reworks_startFrom before.now 0 before.agents (Nat.le_of_eq (Nat.zero_add _)) before.stage
  unfold start at silent ⊢
  split
  · next started =>
    rw [started] at length reworks noted silent
    exact .quietly length rfl reworks noted silent rfl
  · next started =>
    rw [started] at length reworks noted silent
    refine .quietly length rfl reworks ?_ silent rfl
    exact (Stage.replacements_note _ _).trans ((List.append_nil _).trans noted)

private theorem happens_press (addressed : before.Addressed) (way : Turn) :
    Happens before none (before.press way).2 := by
  unfold press
  split
  · exact .quietly rfl rfl (.rests _) (List.append_nil _).symm rfl rfl
  · next listener listens =>
    have sent : Reworks before.now before.agents.length before.stage.agenda []
        (before.stage.agenda.schedule listener before.now (.key way)).2 :=
      .schedules (addressed.listener listener listens) (UInt64.le_refl _) (.rests _)
    exact .quietly rfl rfl sent (List.append_nil _).symm rfl rfl

private theorem happens_step (addressed : before.Addressed) :
    Happens before (Move.delivery? .step before) before.step.2 := by
  unfold Move.delivery?
  cases due : before.stage.agenda.popDue? before.now with
  | none =>
    rw [step_of_popDue?_eq_none due]
    exact .quietly rfl rfl (.rests _) (List.append_nil _).symm rfl rfl
  | some pair =>
    obtain ⟨event, rest⟩ := pair
    obtain ⟨popped, early⟩ := Agenda.popDue?_eq_some_iff.1 due
    rw [step_of_pop? popped early]
    have there : event.target < before.agents.length :=
      addressed.pending event (by simp [Agenda.toList_of_pop? popped])
    have found : (before.withAgenda rest).agents[event.target]? =
        some before.agents[event.target] :=
      List.getElem?_eq_getElem there
    let visit : Visit := ⟨event.target, event.due⟩
    let agent := before.agents[event.target]
    let stage := (before.withAgenda rest).stage.note
      (.delivering event (Agent.name (K := K) agent) (Agent.state (K := K) agent))
    have handled := Plan.reworks_run visit there (Agent.handle visit event agent) stage
    have deliveries := deliveries_deliver found
    cases ran : (Agent.handle visit event agent).run visit stage with
    | mk outcome last =>
      rw [ran] at handled
      obtain ⟨replaced, reworks, noted⟩ := handled
      rw [deliver_of_run found ran] at deliveries
      simp only [Option.map_some, After.map, deliver_of_run found ran]
      refine .delivers popped early found ran rfl rfl reworks (noted.trans ?_) deliveries rfl
      exact congrArg (· ++ replaced) ((Stage.replacements_note _ _).trans (List.append_nil _))

/-- All that a move does to events is to deliver the one that comes first, to schedule from the
present instant on, and to withdraw what its own agent waits for. -/
theorem happens (addressed : before.Addressed) (move : Move) :
    Happens before (move.delivery? before) (move.take before) := by
  cases move with
  | start => exact happens_start before
  | step => exact happens_step addressed
  | advance t => exact .quietly rfl rfl (.rests _) (List.append_nil _).symm rfl rfl
  | press way => exact happens_press addressed way

namespace Happens

variable {delivery? : Option (Delivery K C A)}

theorem length_agents (happens : Happens before delivery? after) :
    after.agents.length = before.agents.length := by
  cases happens with
  | quietly agents _ _ _ _ _ => exact agents
  | delivers _ _ _ _ agents _ _ _ _ _ => rw [agents, List.length_set]

/-- No event is ever for an agent that is not there. -/
theorem addressed (happens : Happens before delivery? after) (addressed : before.Addressed) :
    after.Addressed := by
  have length := happens.length_agents
  cases happens with
  | quietly _ listener reworks _ _ _ =>
    refine ⟨fun id listens => length ▸ addressed.listener id (listener ▸ listens), ?_⟩
    intro event member
    rw [length]
    rcases reworks.mem_toList member with held | ⟨there, _, _⟩
    · exact addressed.pending event held
    · exact there
  | delivers popped _ _ _ _ listener reworks _ _ _ =>
    refine ⟨fun id listens => length ▸ addressed.listener id (listener ▸ listens), ?_⟩
    intro event member
    rw [length]
    rcases reworks.mem_toList member with held | ⟨there, _, _⟩
    · exact addressed.pending event (by simp [Agenda.toList_of_pop? popped, held])
    · exact there

end Happens

/-- What holds when nothing has happened, and is kept by all that can happen, holds at every point
of every run, of the deliveries up to there. -/
theorem Assembled.induct (assembled : first.Assembled)
    {motive : List (Delivery K C A) → Simulation K C A → Prop} (begins : motive [] first)
    (keeps : ∀ {deliveries : List (Delivery K C A)} {before after : Simulation K C A}
      {delivery? : Option (Delivery K C A)}, before.Addressed → before.now ≤ after.now →
      Happens before delivery? after → motive deliveries before →
      motive (deliveries ++ delivery?.toList) after)
    (moves : List Move) :
    (first.follow moves).Addressed ∧ motive (first.history moves) (first.follow moves) := by
  induction moves using List.reverseRecOn with
  | nil => exact ⟨assembled.addressed, begins⟩
  | append_singleton moves move ih =>
    obtain ⟨addressed, held⟩ := ih
    have happened := happens addressed move
    rw [follow_concat, history_concat]
    exact ⟨happened.addressed addressed,
      keeps addressed (now_le_take move _) happened held⟩

end Simulation

end Billiard
