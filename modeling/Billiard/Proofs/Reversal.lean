import Mathlib.Data.List.Forall2
import Billiard.Proofs.Lockstep
import Billiard.Proofs.Orientation
import Billiard.Proofs.Showing

/-!
Runs of a scene and of the same scene with some walls reversed. The conductor makes the same plans
for both: what it looks up on the two tables is the same, and it leaves them the same but for the
reversed walls (`Conductor.mirrors_handle`, `Conductor.mirrors_start`). So the two runs go in
lockstep, and differ in nothing but the direction in which lines are drawn (`plays_reversed`).
-/

namespace Billiard

open Canvas (draw drawAll)

/-! ## Drawings -/

/-- Two strokes that look the same: a line may be drawn from either end. -/
inductive Stroke.Alike {K : Type} : Stroke K → Stroke K → Prop where
  | same (stroke : Stroke K) : Alike stroke stroke
  | turned (start finish : Vec K) : Alike (.mark (.line start finish)) (.mark (.line finish start))

namespace Canvas

variable {K C : Type} [Canvas K C] {blank canvas other : C} {stroke stroke' : Stroke K}

/-- The same was drawn on both canvases, from the same beginning, but for the direction of lines. -/
def Alike (blank canvas other : C) : Prop :=
  ∃ strokes others : List (Stroke K), List.Forall₂ Stroke.Alike strokes others ∧
    canvas = drawAll blank strokes ∧ other = drawAll blank others

/-- A canvas that does not remark on the direction of lines. -/
def Impartial (blank : C) : Prop :=
  ∀ (canvas other : C) (stroke stroke' : Stroke K), Alike blank canvas other →
    stroke.Alike stroke' → (draw other stroke').2 = (draw canvas stroke).2

theorem Alike.draw (alike : Alike blank canvas other) (same : stroke.Alike stroke') :
    Alike blank (draw canvas stroke).1 (draw other stroke').1 := by
  obtain ⟨strokes, others, drawn, rfl, rfl⟩ := alike
  refine ⟨strokes ++ [stroke], others ++ [stroke'], ?_, ?_, ?_⟩
  · exact List.rel_append drawn (.cons same .nil)
  · rw [drawAll_concat]
  · rw [drawAll_concat]

theorem Alike.refl (blank : C) : Alike blank blank blank := ⟨[], [], .nil, rfl, rfl⟩

theorem impartial_blank (blank : Blank K) : Impartial blank := fun _ _ _ _ _ _ => rfl

theorem impartial_recorder (recorder : Recorder K) : Impartial recorder := fun _ _ _ _ _ _ => rfl

/-- A captioner counts lines and looks no further. -/
theorem impartial_captioner (captioner : Captioner K) : Impartial captioner := by
  rintro _ _ stroke stroke' ⟨strokes, others, drawn, rfl, rfl⟩ same
  have equal : drawAll captioner others = drawAll captioner strokes := by
    induction drawn generalizing captioner with
    | nil => rfl
    | cons same _ ih =>
      cases same with
      | same stroke => exact ih _
      | turned start finish => exact ih _
  rw [equal]
  cases same <;> rfl

end Canvas

/-- A table with some walls reversed looks the same. -/
theorem Table.alike_frame_reversed (which : WallId → Bool) (table : Table ℝ) :
    List.Forall₂ Stroke.Alike table.frame (table.reversed which).frame := by
  have others (strokes : List (Stroke ℝ)) : List.Forall₂ Stroke.Alike strokes strokes :=
    List.forall₂_same.2 fun stroke _ => .same stroke
  have walls : List.Forall₂ Stroke.Alike
      (table.walls.map fun wall => .mark (.line wall.start wall.finish))
      ((table.reversed which).walls.map fun wall => .mark (.line wall.start wall.finish)) := by
    refine List.forall₂_iff_get.2 ⟨by simp [reversed], fun place inside inside' => ?_⟩
    simp only [reversed, List.get_eq_getElem, List.getElem_map, List.getElem_mapIdx]
    split
    · exact .turned _ _
    · exact .same _
  have rest := others ((table.balls.map fun ball => .mark (.circle ball.position ball.radius)) ++
    table.turret.edges.map .mark ++ [.present])
  have frame : List.Forall₂ Stroke.Alike _ _ := .cons (.same .wipe) (List.rel_append walls rest)
  have balls : (table.reversed which).balls = table.balls := rfl
  have turret : (table.reversed which).turret = table.turret := rfl
  simpa [Table.frame, marks, Function.comp_def, balls, turret] using frame

namespace Stage

variable {C : Type} [Canvas ℝ C] {which : WallId → Bool} {blank : C} {stage other : Stage ℝ C}

/-- Two stages that differ in the direction of some walls. The agendas are the same, down to the
numbers of events, and so is what was delivered, what was drawn and, if the canvas is impartial, all
that was noted. -/
structure Mirrored (which : WallId → Bool) (blank : C) (stage other : Stage ℝ C) : Prop where
  table : other.table = stage.table.reversed which
  agenda : other.agenda = stage.agenda
  deliveries : other.deliveries = stage.deliveries
  canvas : Canvas.Alike blank stage.canvas other.canvas
  journal : Canvas.Impartial blank → other.journal = stage.journal

namespace Mirrored

theorem note (mirrored : Mirrored which blank stage other) (entry : Note ℝ) :
    Mirrored which blank (stage.note entry) (other.note entry) := by
  refine ⟨mirrored.table, mirrored.agenda, ?_, mirrored.canvas,
    fun impartial => congrArg (·.push entry) (mirrored.journal impartial)⟩
  rw [deliveries_note, deliveries_note, mirrored.deliveries]

theorem draw (mirrored : Mirrored which blank stage other) {stroke stroke' : Stroke ℝ}
    (same : stroke.Alike stroke') :
    Mirrored which blank (stage.draw stroke) (other.draw stroke') := by
  refine ⟨mirrored.table, mirrored.agenda, ?_, mirrored.canvas.draw same, fun impartial => ?_⟩
  · rw [deliveries_draw, deliveries_draw, mirrored.deliveries]
  · have remarks := impartial _ _ _ _ mirrored.canvas same
    simp only [Stage.draw, remarks, mirrored.journal impartial]

theorem withAgenda (mirrored : Mirrored which blank stage other) (agenda : Agenda) :
    Mirrored which blank { stage with agenda := agenda } { other with agenda := agenda } :=
  ⟨mirrored.table, rfl, mirrored.deliveries, mirrored.canvas, mirrored.journal⟩

theorem send (mirrored : Mirrored which blank stage other) (visit : Visit) (delay : Millis)
    (signal : Signal) : (other.send visit delay signal).1 = (stage.send visit delay signal).1 ∧
      Mirrored which blank (stage.send visit delay signal).2
        (other.send visit delay signal).2 := by
  simp only [Stage.send, mirrored.agenda, true_and]
  exact mirrored.withAgenda _

theorem withdraw (mirrored : Mirrored which blank stage other) (visit : Visit) :
    Mirrored which blank (stage.withdraw visit) (other.withdraw visit) := by
  simp only [Stage.withdraw, mirrored.agenda]
  split
  · exact mirrored.withAgenda _
  · exact (mirrored.withAgenda _).note _

end Mirrored

end Stage

/-! ## Plans -/

section Plans

variable {C α β γ δ : Type} [Canvas ℝ C] {which : WallId → Bool} {blank : C}

/-- Two plans that leave mirrored stages mirrored, with results that correspond. -/
def Plan.Mirrors (which : WallId → Bool) (blank : C) (same : α → β → Prop) (plan : Plan ℝ α)
    (other : Plan ℝ β) : Prop :=
  ∀ (visit : Visit) (stage stage' : Stage ℝ C), Stage.Mirrored which blank stage stage' →
    same (plan.run visit stage).1 (other.run visit stage').1 ∧
      Stage.Mirrored which blank (plan.run visit stage).2 (other.run visit stage').2

namespace Plan.Mirrors

theorem pure {same : α → β → Prop} {result : α} {result' : β} (agree : same result result') :
    Mirrors which blank same (Pure.pure result) (Pure.pure result') :=
  fun _ _ _ mirrored => ⟨agree, mirrored⟩

theorem bind {same : α → β → Prop} {same' : γ → δ → Prop} {plan : Plan ℝ α} {other : Plan ℝ β}
    {rest : α → Plan ℝ γ} {rest' : β → Plan ℝ δ} (first : Mirrors which blank same plan other)
    (later : ∀ result result', same result result' →
      Mirrors which blank same' (rest result) (rest' result')) :
    Mirrors which blank same' (plan >>= rest) (other >>= rest') := by
  intro visit stage stage' mirrored
  obtain ⟨agree, mirrored⟩ := first visit stage stage' mirrored
  rw [run_bind, run_bind]
  exact later _ _ agree visit _ _ mirrored

/-- The one looks at a table, the other at the same table with some walls reversed. -/
theorem table : Mirrors which blank (fun table table' => table' = table.reversed which)
    Plan.table Plan.table :=
  fun _ _ _ mirrored => ⟨mirrored.table, mirrored⟩

theorem setTable (table : Table ℝ) :
    Mirrors which blank Eq (Plan.setTable table) (Plan.setTable (table.reversed which)) :=
  fun _ _ _ mirrored =>
    ⟨rfl, rfl, mirrored.agenda, mirrored.deliveries, mirrored.canvas, mirrored.journal⟩

theorem say (words : Remark ℝ) : Mirrors which blank Eq (Plan.say words) (Plan.say words) :=
  fun _ _ _ mirrored => ⟨rfl, mirrored.note _⟩

theorem awaitIn (delay : Millis) (signal : Signal) :
    Mirrors which blank Eq (Plan.awaitIn delay signal) (Plan.awaitIn delay signal) := by
  intro visit stage stage' mirrored
  obtain ⟨id, mirrored⟩ := (mirrored.withdraw visit).send visit delay signal
  exact ⟨id.symm, mirrored⟩

theorem drawAll {strokes others : List (Stroke ℝ)}
    (alike : List.Forall₂ Stroke.Alike strokes others) :
    Mirrors which blank Eq (Plan.drawAll strokes) (Plan.drawAll others) := by
  induction alike with
  | nil => exact fun _ _ _ mirrored => ⟨rfl, mirrored⟩
  | cons same _ ih => exact fun visit _ _ mirrored => ih visit _ _ (mirrored.draw same)

end Plan.Mirrors

namespace Conductor

open Plan (Mirrors)

/-- Arming finds the same contacts ahead. -/
theorem mirrors_arm (visit : Visit) (ready : Conductor) :
    Mirrors which blank Eq (ready.arm (K := ℝ) visit) (ready.arm visit) := by
  refine .bind .table ?_
  rintro table _ rfl
  rw [table.nextContact?_reversed which]
  refine .bind (.say _) fun _ _ _ => ?_
  split
  · exact .bind (.awaitIn _ _) fun _ _ _ => .pure rfl
  · exact .pure rfl

/-- A conductor starts the same, whichever end a wall starts from. -/
theorem mirrors_start (visit : Visit) (conductor : Conductor) :
    Mirrors which blank Eq (Agent.start (K := ℝ) visit conductor) (Agent.start visit conductor) :=
  mirrors_arm visit _

theorem mirrors_collide (visit : Visit) (contact : Contact) (elapsed : Millis)
    (conductor : Conductor) :
    Mirrors which blank Eq (conductor.collide (K := ℝ) visit contact elapsed)
      (conductor.collide visit contact elapsed) := by
  refine .bind .table ?_
  rintro table _ rfl
  have finishes (after : Table ℝ) : Mirrors which blank Eq
      (Plan.setTable after >>= fun _ => ((conductor.atInstant visit.now).settle
        (table.drift elapsed) after contact).arm visit)
      (Plan.setTable (after.reversed which) >>= fun _ => ((conductor.atInstant visit.now).settle
        ((table.drift elapsed).reversed which) (after.reversed which) contact).arm visit) :=
    .bind (.setTable after) fun _ _ _ => mirrors_arm visit _
  have drifted : (table.reversed which).drift elapsed = (table.drift elapsed).reversed which := rfl
  have effect := contact.effect?_reversed which (table.drift elapsed)
  simp only [drifted, effect]
  cases contact.effect? (table.drift elapsed) with
  | none => exact .bind (.say _) fun _ _ _ => finishes _
  | some after => exact finishes after

theorem mirrors_paint (visit : Visit) (elapsed : Millis) (conductor : Conductor) :
    Mirrors which blank Eq (conductor.paint (K := ℝ) visit elapsed)
      (conductor.paint visit elapsed) := by
  refine .bind .table ?_
  rintro table _ rfl
  refine .bind (.setTable (table.drift elapsed)) fun _ _ _ => ?_
  refine .bind (.drawAll ((table.drift elapsed).alike_frame_reversed which)) fun _ _ _ => ?_
  exact mirrors_arm visit _

theorem mirrors_turn (way : Turn) (conductor : Conductor) :
    Mirrors which blank Eq (conductor.turn (K := ℝ) way) (conductor.turn way) := by
  refine .bind .table ?_
  rintro table _ rfl
  refine .bind (.setTable (table.turn way)) fun _ _ _ => ?_
  exact .bind (.say _) fun _ _ _ => .pure rfl

/-- A conductor makes the same of an event, whichever end a wall starts from. -/
theorem mirrors_handle (visit : Visit) (event : Event) (conductor : Conductor) :
    Mirrors which blank Eq (Agent.handle (K := ℝ) visit event conductor)
      (Agent.handle visit event conductor) := by
  change Mirrors which blank Eq (conductor.handle visit event.signal)
    (conductor.handle visit event.signal)
  unfold handle
  split
  · exact mirrors_turn _ conductor
  · exact mirrors_collide visit _ _ conductor
  · exact mirrors_collide visit _ _ conductor
  · exact mirrors_paint visit _ conductor
  · exact .bind (.say _) fun _ _ _ => .pure rfl

end Conductor

end Plans

/-! ## Runs -/

namespace Simulation

variable {C : Type} [Canvas ℝ C] {which : WallId → Bool} {blank : C}
  {simulation other : Simulation ℝ C Conductor}

/-- Two simulations that differ in the direction of some walls alone. -/
structure Mirrored (which : WallId → Bool) (blank : C)
    (simulation other : Simulation ℝ C Conductor) : Prop where
  clock : other.now = simulation.now
  agents : other.agents = simulation.agents
  listener : other.listener = simulation.listener
  delivered : other.delivered = simulation.delivered
  stage : Stage.Mirrored which blank simulation.stage other.stage

omit [Canvas ℝ C] in
theorem press_of_silent {way : Turn} (silent : simulation.listener = none) :
    simulation.press way = (none, simulation) := by
  simp only [Simulation.press, silent]

omit [Canvas ℝ C] in
theorem press_of_listens {way : Turn} {listener : AgentId}
    (listens : simulation.listener = some listener) : simulation.press way =
      (some (simulation.stage.agenda.schedule listener simulation.now (.key way)).1,
        simulation.withAgenda
          (simulation.stage.agenda.schedule listener simulation.now (.key way)).2) := by
  unfold Simulation.press
  split
  · next silent => cases listens.symm.trans silent
  · next heard =>
    cases listens.symm.trans heard
    rfl

namespace Mirrored

theorem withAgenda (mirrored : Mirrored which blank simulation other) (agenda : Agenda) :
    Mirrored which blank (simulation.withAgenda agenda) (other.withAgenda agenda) :=
  ⟨mirrored.clock, mirrored.agents, mirrored.listener, mirrored.delivered,
    mirrored.stage.withAgenda agenda⟩

theorem note (mirrored : Mirrored which blank simulation other) (entry : Note ℝ) :
    Mirrored which blank (simulation.note entry) (other.note entry) :=
  ⟨mirrored.clock, mirrored.agents, mirrored.listener, mirrored.delivered,
    mirrored.stage.note entry⟩

theorem advance (mirrored : Mirrored which blank simulation other) (t : Instant) :
    Mirrored which blank (simulation.advance t) (other.advance t) :=
  ⟨congrArg (·.advance t) mirrored.clock, mirrored.agents, mirrored.listener, mirrored.delivered,
    mirrored.stage⟩

theorem press (mirrored : Mirrored which blank simulation other) (way : Turn) :
    (other.press way).1 = (simulation.press way).1 ∧
      Mirrored which blank (simulation.press way).2 (other.press way).2 := by
  cases heard : simulation.listener with
  | none =>
    rw [press_of_silent (mirrored.listener.trans heard), press_of_silent heard]
    exact ⟨rfl, mirrored⟩
  | some listener =>
    rw [press_of_listens (mirrored.listener.trans heard), press_of_listens heard,
      mirrored.stage.agenda, mirrored.clock]
    exact ⟨rfl, mirrored.withAgenda _⟩

/-- An event is delivered to the same end. -/
theorem deliver (mirrored : Mirrored which blank simulation other) (event : Event) :
    Matches (Mirrored which blank) (simulation.deliver event) (other.deliver event) := by
  cases found : simulation.agents[event.target]? with
  | none =>
    have found' : other.agents[event.target]? = none := by rw [mirrored.agents, found]
    simp only [Simulation.deliver, found, found']
    exact .intro _ (mirrored.note _)
  | some agent =>
    have found' : other.agents[event.target]? = some agent := by rw [mirrored.agents, found]
    let visit : Visit := ⟨event.target, event.due⟩
    let entry : Note ℝ :=
      .delivering event (Agent.name (K := ℝ) agent) (Agent.state (K := ℝ) agent)
    obtain ⟨same, later⟩ := agent.mirrors_handle visit event visit _ _ (mirrored.stage.note entry)
    cases ran : (Agent.handle visit event agent).run visit (simulation.stage.note entry) with
    | mk outcome last =>
    cases ran' : (Agent.handle visit event agent).run visit (other.stage.note entry) with
    | mk outcome' last' =>
      rw [ran, ran'] at same later
      obtain rfl : outcome = outcome' := same
      rw [deliver_of_run found ran, deliver_of_run found' ran']
      refine .intro _ ⟨mirrored.clock, ?_, mirrored.listener, ?_, later⟩
      · rw [mirrored.agents]
      · rw [mirrored.delivered]

theorem step (mirrored : Mirrored which blank simulation other) :
    Matches (Mirrored which blank) simulation.step other.step := by
  cases popped : simulation.stage.agenda.popDue? simulation.now with
  | none =>
    have popped' : other.stage.agenda.popDue? other.now = none := by
      rw [mirrored.stage.agenda, mirrored.clock, popped]
    rw [step_of_popDue?_eq_none popped, step_of_popDue?_eq_none popped']
    exact .intro _ mirrored
  | some pair =>
    obtain ⟨event, rest⟩ := pair
    obtain ⟨first, due⟩ := Agenda.popDue?_eq_some_iff.1 popped
    have first' : other.stage.agenda.pop? = some (event, rest) := by
      rw [mirrored.stage.agenda, first]
    rw [step_of_pop? first due, step_of_pop? first' (mirrored.clock ▸ due)]
    exact ((mirrored.withAgenda rest).deliver event).map _

theorem startFrom (now : Instant) (id : AgentId) (agents : List Conductor)
    {stage stage' : Stage ℝ C} (mirrored : Stage.Mirrored which blank stage stage') :
    ∃ result started last last',
      Simulation.startFrom now id agents stage = (result, started, last) ∧
        Simulation.startFrom now id agents stage' = (result, started, last') ∧
        Stage.Mirrored which blank last last' := by
  induction agents generalizing id stage stage' with
  | nil => exact ⟨_, _, _, _, rfl, rfl, mirrored⟩
  | cons agent rest ih =>
    let visit : Visit := ⟨id, now⟩
    obtain ⟨same, later⟩ := agent.mirrors_start visit visit _ _ mirrored
    cases ran : (Agent.start visit agent).run visit stage with
    | mk outcome next =>
    cases ran' : (Agent.start visit agent).run visit stage' with
    | mk outcome' next' =>
      rw [ran, ran'] at same later
      obtain rfl : outcome = outcome' := same
      obtain ⟨agent', cause | _⟩ := outcome
      · refine ⟨.error cause, agent' :: rest, next, next', ?_, ?_, later⟩
        · simp only [Simulation.startFrom, visit, ran]
        · simp only [Simulation.startFrom, visit, ran']
      · obtain ⟨result, started, last, last', starts, starts', ends⟩ := ih (id + 1) later
        refine ⟨result, agent' :: started, last, last', ?_, ?_, ends⟩
        · simp only [Simulation.startFrom, visit, ran, starts]
        · simp only [Simulation.startFrom, visit, ran', starts']

/-- Both start, or neither does. -/
theorem start (mirrored : Mirrored which blank simulation other) :
    Matches (Mirrored which blank) simulation.start other.start := by
  obtain ⟨result, started, last, last', starts, starts', later⟩ :=
    startFrom simulation.now 0 simulation.agents mirrored.stage
  have walls : last'.table.walls.length = last.table.walls.length := by
    simp [later.table, Table.reversed]
  have balls : last'.table.balls = last.table.balls := by
    simp [later.table, Table.reversed]
  rw [← mirrored.agents, ← mirrored.clock] at starts'
  unfold Simulation.start
  rw [starts, starts']
  cases result with
  | error cause =>
    exact .intro _ ⟨mirrored.clock, rfl, mirrored.listener, mirrored.delivered, later⟩
  | ok _ =>
    have begun : Mirrored which blank { simulation with agents := started, stage := last }
        { other with agents := started, stage := last' } :=
      ⟨mirrored.clock, rfl, mirrored.listener, mirrored.delivered, later⟩
    have entry : Note.started other.now last'.table.balls.length last'.table.walls.length
          last'.agenda.size =
        (.started simulation.now last.table.balls.length last.table.walls.length
          last.agenda.size : Note ℝ) := by
      rw [mirrored.clock, walls, balls, later.agenda]
    simp only [entry]
    exact .intro _ (begun.note _)

end Mirrored

/-- Moves keep two simulations mirrored. -/
theorem lockstep_mirrored : Lockstep (Mirrored (C := C) which blank) where
  clock mirrored := mirrored.clock
  due mirrored := congrArg Agenda.nextDue? mirrored.stage.agenda
  start mirrored := mirrored.start
  step mirrored := mirrored.step
  advance t mirrored := mirrored.advance t
  press way mirrored := mirrored.press way

/-- A scene with some walls reversed can be simulated as well. -/
theorem exists_conduct_reversed {scene : Scene ℝ} {first : Simulation ℝ C Conductor}
    (which : WallId → Bool) (made : scene.conduct id blank = .ok first) :
    ∃ first', (scene.reversed which).conduct id blank = .ok first' ∧
      Mirrored which blank first first' := by
  obtain ⟨_, _, fine⟩ := Poised.of_conduct made
  have fine' := Scene.fault?_reversed which fine
  unfold Scene.conduct Scene.check at made ⊢
  rw [fine] at made
  rw [fine']
  cases made
  exact ⟨_, rfl, rfl, rfl, rfl, rfl, rfl, rfl, rfl, .refl blank, fun _ => rfl⟩

/-- It does not matter from which end a wall starts. Reversing it changes neither when a ball
touches its line or the wall between its ends, nor how the ball bounces off it; and a scene with
some walls reversed plays every script with the same answers and the same deliveries, and comes to
the same conductor, the same pending events and the same table but for these walls. -/
theorem plays_reversed {scene : Scene ℝ} {first : Simulation ℝ C Conductor}
    (made : scene.conduct id blank = .ok first) :
    (∀ (ball : Ball ℝ) (wall : Segment ℝ), ball.untilLine? wall.reversed = ball.untilLine? wall ∧
      ball.untilEnds? wall.reversed = ball.untilEnds? wall ∧
      ball.bounce wall.reversed = ball.bounce wall) ∧
    ∀ which : WallId → Bool, ∃ first', (scene.reversed which).conduct id blank = .ok first' ∧
      ∀ history,
        (∀ last, first.Plays history last →
          ∃ last', first'.Plays history last' ∧ Mirrored which blank last last') ∧
        ∀ last', first'.Plays history last' →
          ∃ last, first.Plays history last ∧ Mirrored which blank last last' := by
  refine ⟨fun ball wall => ⟨ball.untilLine?_reversed wall, ball.untilEnds?_reversed wall,
    ball.bounce_reversed wall⟩, fun which => ?_⟩
  obtain ⟨first', made', begins⟩ := exists_conduct_reversed which made
  refine ⟨first', made', fun history => ⟨fun last plays => ?_, fun last' plays => ?_⟩⟩
  · exact lockstep_mirrored.plays begins plays
  · exact lockstep_mirrored.symm.plays begins plays

/-- The ball in the lane meets the wall, from whichever end the wall starts. -/
theorem plays_reversed_lane :
    ∃ first first' : Simulation ℝ (Recorder ℝ) Conductor, lane.conduct id .new = .ok first ∧
      (lane.reversed fun _ => true).conduct id .new = .ok first' ∧
      ∃ history last last', history.map (·.1) = [.start, .stepNext] ∧
        first.Plays history last ∧ first'.Plays history last' ∧
        Mirrored (fun _ => true) .new last last' := by
  obtain ⟨first, made⟩ := Scene.exists_conduct lane_fine (.new : Recorder ℝ)
  obtain ⟨-, reverses⟩ := plays_reversed made
  obtain ⟨first', made', plays⟩ := reverses fun _ => true
  have played : first.Plays
      [(.start, first.start.1.map fun _ => .done), (.stepNext, first.start.2.stepNext.1.map .told)]
      first.start.2.stepNext.2 :=
    .call .stepNext 0 (.call .start 0 .begin rfl) rfl
  obtain ⟨last', played', mirrored⟩ := (plays _).1 _ played
  exact ⟨first, first', made, made', _, _, last', rfl, played, played', mirrored⟩

end Simulation

end Billiard
