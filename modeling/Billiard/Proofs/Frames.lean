import Billiard.Proofs.Beats
import Billiard.Proofs.History
import Billiard.Proofs.Turret

/-!
What the last frame shows. A conductor draws at beats and at nothing else, and then the whole table
as the drift up to the beat has left it (`Poised.draws`). So a recorder has as many frames as beats
were delivered, and shows the table of the last beat whatever came after it (`shows_last_beat`).
-/

namespace Billiard

variable {K C : Type} [Scalar K]

/-- Where the left, right and front corners of a turret are that points straight up from the
origin. -/
def Turret.unturned (turret : Turret K) : Fin 3 → Vec K
  | 0 => ⟨-turret.width / 2.0, turret.length / 2.0⟩
  | 1 => ⟨turret.width / 2.0, turret.length / 2.0⟩
  | 2 => ⟨0.0, -turret.length / 2.0⟩

/-- Where a corner is on the table: turned about the origin by the angle, then moved to the pivot.
In exact arithmetic the zeros of the origin drop out, but machine numbers have a zero below zero as
well. -/
def Turret.corner (turret : Turret K) (i : Fin 3) : Vec K where
  x := 0.0 + (((turret.unturned i).x - 0.0) * Scalar.cos turret.angle -
    ((turret.unturned i).y - 0.0) * Scalar.sin turret.angle) + turret.pivot.x
  y := 0.0 + (((turret.unturned i).x - 0.0) * Scalar.sin turret.angle +
    ((turret.unturned i).y - 0.0) * Scalar.cos turret.angle) + turret.pivot.y

theorem Turret.edges_eq (turret : Turret K) : turret.edges =
    List.ofFn fun i : Fin 3 => .line (turret.corner i) (turret.corner (i + 1)) := rfl

namespace Table

/-- Marks that show a table: each wall from end to end, then each ball in its place and size, then
each edge of the turret from one corner to the next, and no more. -/
structure DepictedBy (table : Table K) (marks : List (Mark K)) : Prop where
  length : marks.length = table.walls.length + table.balls.length + 3
  walls : ∀ (side : WallId) wall, table.walls[side]? = some wall →
    marks[side]? = some (.line wall.start wall.finish)
  balls : ∀ (id : BallId) ball, table.balls[id]? = some ball →
    marks[table.walls.length + id]? = some (.circle ball.position ball.radius)
  edges : ∀ i : Fin 3, marks[table.walls.length + table.balls.length + i]? =
    some (.line (table.turret.corner i) (table.turret.corner (i + 1)))

theorem depictedBy_marks (table : Table K) : table.DepictedBy table.marks where
  length := by
    simp [marks, Turret.edges]
    omega
  walls side wall there := by
    obtain ⟨within, rfl⟩ := List.getElem?_eq_some_iff.1 there
    simp [marks, List.getElem?_append_left, within]
  balls id ball there := by
    obtain ⟨within, rfl⟩ := List.getElem?_eq_some_iff.1 there
    simp [marks, List.getElem?_append, within]
  edges i := by
    have behind : table.marks[table.walls.length + table.balls.length + i]? =
        table.turret.edges[(i : Nat)]? := by
      rw [marks, List.getElem?_append_right (by simp)]
      simp
    rw [behind, Turret.edges_eq, List.getElem?_ofFn, dif_pos i.isLt]

end Table

namespace Simulation

variable [Canvas K C] {simulation : Simulation K C Conductor} {conductor : Conductor}

/-- What a move draws: at a beat the table as the drift up to it has left it, and nothing
otherwise. -/
inductive Draws (simulation : Simulation K C Conductor) (conductor : Conductor) :
    Option (Delivery K C Conductor) → Simulation K C Conductor → Conductor → Prop where
  | nothing {delivery? : Option (Delivery K C Conductor)} {after : Simulation K C Conductor}
      {waiting : Conductor} (quiet : ∀ delivery ∈ delivery?, ¬delivery.event.signal.isBeat)
      (canvas : after.stage.canvas = simulation.stage.canvas)
      (frames : waiting.frames = conductor.frames) :
      Draws simulation conductor delivery? after waiting
  | frame {beat : Delivery K C Conductor} {waiting : Conductor} {elapsed : Millis}
      (tells : beat.event.signal = .beat elapsed)
      (table : beat.after.stage.table = beat.before.stage.table.drift elapsed)
      (canvas : beat.after.stage.canvas =
        Canvas.drawAll simulation.stage.canvas beat.after.stage.table.frame)
      (frames : waiting.frames = conductor.frames + 1) :
      Draws simulation conductor (some beat) beat.after waiting

theorem Poised.draws_deliver {event : Event} {rest : Agenda} (poised : Poised simulation conductor)
    (popped : simulation.stage.agenda.pop? = some (event, rest)) :
    let outcome := (simulation.withAgenda rest).deliver event
    ∃ waiting, Poised outcome.2 waiting ∧
      Draws simulation conductor (some ⟨event, simulation, outcome.1, outcome.2⟩) outcome.2
        waiting := by
  intro outcome
  obtain ⟨waiting, delivered, delivers⟩ := poised.deliver popped
  have drawn := poised.canvas_deliver popped
  change Poised outcome.2 waiting at delivered
  change outcome.2.stage.canvas = _ at drawn
  change Poised.Delivers simulation conductor event rest outcome.1 outcome.2 waiting at delivers
  clear_value outcome
  obtain ⟨result, after⟩ := outcome
  refine ⟨waiting, delivered, ?_⟩
  cases delivers with
  | key key _ _ =>
    rw [Conductor.drawn_of_key key] at drawn
    exact .nothing (by simp [key, Signal.isBeat]) drawn rfl
  | rearms _ reacts arms =>
    have armed := Conductor.frames_of_arms arms
    cases (Conductor.retimes_of_reaction? reacts).2 with
    | contact phase isContact _ frames =>
      refine .nothing ?_ (drawn.trans (by simp [Conductor.drawn, phase])) (armed.trans frames)
      simp [Signal.isBeat_of_isContact isContact]
    | beat phase isBeat _ frames =>
      obtain ⟨elapsed, tells⟩ := Signal.exists_beat isBeat
      have table : after.stage.table = simulation.stage.table.drift elapsed := by
        simp only [Conductor.reaction?, phase, tells, Conductor.painted, Option.some.injEq,
          Prod.mk.injEq] at reacts
        exact reacts.1.symm
      refine .frame tells table ?_ (armed.trans frames)
      simpa [Conductor.drawn, phase, tells, table] using drawn

/-- Every move leaves the conductor poised, and a frame where it was a beat. -/
theorem Poised.draws (poised : Poised simulation conductor) (move : Move) :
    ∃ waiting, Poised (move.take simulation) waiting ∧
      Draws simulation conductor (move.delivery? simulation) (move.take simulation) waiting := by
  cases move with
  | start =>
    obtain ⟨waiting, started, starts⟩ := poised.start
    have canvas := poised.canvas_start
    refine ⟨waiting, started, .nothing (by simp [Move.delivery?]) canvas ?_⟩
    generalize simulation.start.1 = result at starts
    generalize simulation.start.2 = after at starts
    cases starts with
    | rearms _ arms => exact Conductor.frames_of_arms arms
  | step =>
    cases due : simulation.stage.agenda.popDue? simulation.now with
    | none =>
      rw [Move.take, step_of_popDue?_eq_none due]
      exact ⟨conductor, poised, .nothing (by simp [Move.delivery?, due]) rfl rfl⟩
    | some pair =>
      obtain ⟨event, rest⟩ := pair
      obtain ⟨popped, early⟩ := Agenda.popDue?_eq_some_iff.1 due
      simp only [Move.take, step_of_pop? popped early, Move.delivery?, due, Option.map_some]
      exact poised.draws_deliver popped
  | advance t =>
    obtain ⟨waiting, later, takes⟩ := poised.take (.advance t)
    cases takes with
    | keeps _ _ => exact ⟨conductor, later, .nothing (by simp [Move.delivery?]) rfl rfl⟩
    | starts isStart _ => cases isStart
    | reacts isStep _ _ _ _ => cases isStep
  | press way =>
    obtain ⟨waiting, later, takes⟩ := poised.take (.press way)
    cases takes with
    | keeps _ _ =>
      refine ⟨conductor, later, .nothing (by simp [Move.delivery?]) ?_ rfl⟩
      simp [Move.take, press, poised.listens]
    | starts isStart _ => cases isStart
    | reacts isStep _ _ _ _ => cases isStep

/-- A beat is delivered. -/
def Delivery.isBeat (delivery : Delivery K C Conductor) : Bool := delivery.event.signal.isBeat

/-- Of these deliveries, the last one of a beat. -/
def LastBeat (history : List (Delivery K C Conductor)) (beat : Delivery K C Conductor) : Prop :=
  ∃ earlier later, history = earlier ++ beat :: later ∧ beat.isBeat ∧
    ∀ delivery ∈ later, ¬delivery.isBeat

omit [Scalar K] [Canvas K C] in
theorem LastBeat.append {history more : List (Delivery K C Conductor)}
    {beat : Delivery K C Conductor} (last : LastBeat history beat)
    (quiet : ∀ delivery ∈ more, ¬delivery.isBeat) : LastBeat (history ++ more) beat := by
  obtain ⟨earlier, later, rfl, isBeat, silent⟩ := last
  refine ⟨earlier, later ++ more, by simp, isBeat, fun delivery member => ?_⟩
  rcases List.mem_append.1 member with member | member
  · exact silent delivery member
  · exact quiet delivery member

/-- Recorder and conductor have counted the beats, and the recorder shows the table that the last
of them has left. -/
structure Framed (history : List (Delivery K (Recorder K) Conductor))
    (simulation : Simulation K (Recorder K) Conductor) (conductor : Conductor) : Prop where
  recorded : simulation.stage.canvas.frames = history.countP Delivery.isBeat
  counted : conductor.frames = history.countP Delivery.isBeat
  shows : 0 < history.countP Delivery.isBeat → ∃ beat elapsed, LastBeat history beat ∧
    beat.event.signal = .beat elapsed ∧
    beat.after.stage.table = beat.before.stage.table.drift elapsed ∧
    beat.after.stage.table.DepictedBy simulation.stage.canvas.shown

theorem Framed.draws {history : List (Delivery K (Recorder K) Conductor)}
    {delivery? : Option (Delivery K (Recorder K) Conductor)}
    {simulation after : Simulation K (Recorder K) Conductor} {conductor waiting : Conductor}
    (framed : Framed history simulation conductor)
    (draws : Draws simulation conductor delivery? after waiting) :
    Framed (history ++ delivery?.toList) after waiting := by
  cases draws with
  | nothing quiet canvas frames =>
    have silent : ∀ delivery ∈ delivery?.toList, ¬delivery.isBeat := by
      simpa [Delivery.isBeat] using quiet
    have same : (history ++ delivery?.toList).countP Delivery.isBeat =
        history.countP Delivery.isBeat := by
      rw [List.countP_append, List.countP_eq_zero.2 silent, Nat.add_zero]
    refine ⟨?_, ?_, ?_⟩
    · rw [canvas, same, framed.recorded]
    · rw [frames, same, framed.counted]
    · rw [canvas, same]
      intro drawn
      obtain ⟨beat, elapsed, last, told⟩ := framed.shows drawn
      exact ⟨beat, elapsed, last.append silent, told⟩
  | @frame beat _ elapsed tells table canvas frames =>
    have isBeat : beat.isBeat := by simp [Delivery.isBeat, tells, Signal.isBeat]
    rw [Recorder.drawAll_frame] at canvas
    refine ⟨?_, ?_, fun _ => ?_⟩
    · simp [canvas, framed.recorded, isBeat]
    · simp [frames, framed.counted, isBeat]
    · refine ⟨beat, elapsed, ⟨history, [], rfl, isBeat, by simp⟩, tells, table, ?_⟩
      rw [canvas]
      exact Table.depictedBy_marks _

/-- Wherever moves lead, the frames are those of the beats up to there. -/
theorem Framed.follow {first : Simulation K (Recorder K) Conductor}
    (poised : Poised first conductor) (framed : Framed [] first conductor) (moves : List Move) :
    ∃ waiting, Poised (first.follow moves) waiting ∧
      Framed (first.history moves) (first.follow moves) waiting := by
  induction moves using List.reverseRecOn with
  | nil => exact ⟨conductor, poised, framed⟩
  | append_singleton moves move ih =>
    obtain ⟨waiting, poised, framed⟩ := ih
    obtain ⟨next, poised, draws⟩ := poised.draws move
    rw [follow_concat, history_concat]
    exact ⟨next, poised, framed.draws draws⟩

/-- In every run of a scene, recorder and conductor have counted a frame for every beat that was
delivered. From the first beat on, the last frame shows the table as the last beat has left it,
after the drift up to it, whatever was delivered since: the walls, then the balls, then the edges of
the turret, and nothing else. -/
theorem shows_last_beat {scene : Scene K} {first here : Simulation K (Recorder K) Conductor}
    {moves : List Move} (made : scene.conduct id .new = .ok first)
    (visits : first.Visits moves here) :
    ∃ conductor, here.agents = [conductor] ∧
      conductor.frames = (first.history moves).countP Delivery.isBeat ∧
      here.stage.canvas.frames = (first.history moves).countP Delivery.isBeat ∧
      (0 < here.stage.canvas.frames →
        ∃ beat elapsed, LastBeat (first.history moves) beat ∧
          beat.event.signal = .beat elapsed ∧
          beat.after.stage.table = beat.before.stage.table.drift elapsed ∧
          beat.after.stage.table.DepictedBy here.stage.canvas.shown) := by
  have canvas : first.stage.canvas = .new := canvas_of_conduct made
  have idle : Framed [] first (.new scene.interval) := ⟨by rw [canvas]; rfl, rfl, by simp⟩
  obtain ⟨conductor, poised, framed⟩ := Framed.follow (Poised.of_conduct made).1 idle moves
  rw [visits.follow] at poised framed
  exact ⟨conductor, poised.alone, framed.counted, framed.recorded,
    fun drawn => framed.shows (framed.recorded ▸ drawn)⟩

/-- In the lane, after the contact, the first beat and a key: the frame still shows the turret as it
was at the beat. -/
theorem shows_last_beat_lane :
    let moves : List Move := [.start, .advance 1000, .step, .step, .press .left, .step]
    ∃ first here : Simulation Float (Recorder Float) Conductor,
      lane.conduct id .new = .ok first ∧ first.Visits moves here ∧
      here.stage.canvas.frames = 1 ∧
      ∃ conductor, here.agents = [conductor] ∧
        conductor.frames = (first.history moves).countP Delivery.isBeat ∧
        here.stage.canvas.frames = (first.history moves).countP Delivery.isBeat ∧
        ∃ beat elapsed, LastBeat (first.history moves) beat ∧
          beat.event.signal = .beat elapsed ∧
          beat.after.stage.table = beat.before.stage.table.drift elapsed ∧
          beat.after.stage.table.DepictedBy here.stage.canvas.shown := by
  intro moves
  have drawn : (lane.conduct id (.new : Recorder Float)).toOption.map
      (fun first : Simulation Float (Recorder Float) Conductor =>
        (first.follow moves).stage.canvas.frames) = some 1 := by
    decide +kernel
  obtain ⟨first, made, once⟩ := Scene.exists_conduct_of_map drawn
  have started : first.Leads [.start] first.start.2 := .call .start 0 .begin rfl
  have late := started.call (.advance 1000) 0 rfl
  have beaten := (late.call .step 0 rfl).call .step 0 rfl
  have visits : first.Visits moves (first.follow moves) :=
    .within .step 0 (beaten.call (.press .left) 0 rfl) (List.prefix_refl [Move.step])
  obtain ⟨conductor, alone, counted, recorded, shows⟩ := shows_last_beat made visits
  exact ⟨first, _, made, visits, once, conductor, alone, counted, recorded,
    shows (once ▸ Nat.one_pos)⟩

end Simulation

end Billiard
