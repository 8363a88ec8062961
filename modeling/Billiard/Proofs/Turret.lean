import Billiard.Proofs.Waiting

/-!
The turret plays no part but in the drawings. Where it points changes no forecast and no reaction
(`Conductor.reaction?_turnedTo`), hence nothing that a conductor waits for (`Arms.turnedTo`); it
changes what is drawn by its own edges (`SameFrames`).
-/

namespace Billiard

variable {K C : Type}

/-- What an event says, to whom and when, whatever its number is. -/
def Event.unnumbered (event : Event) : AgentId × Instant × Signal :=
  (event.target, event.due, event.signal)

/-- The same table with its turret at another angle. -/
def Table.turnedTo (angle : K) (table : Table K) : Table K :=
  { table with turret := { table.turret with angle := angle } }

section Turret

variable [Scalar K] {conductor ready waiting : Conductor} {table : Table K} {angle : K}
  {visit : Visit} {agenda agenda' rearmed rearmed' : Agenda}
  {outcome outcome' : Outcome K Conductor}

theorem Table.exists_turn_turnedTo (table : Table K) (angle : K) (way : Turn) :
    ∃ other, (table.turnedTo angle).turn way = table.turnedTo other := by
  cases way <;> exact ⟨_, rfl⟩

/-- Balls meet walls and each other wherever the turret points. -/
theorem Contact.effect?_turnedTo (contact : Contact) (table : Table K) (angle : K) :
    contact.effect? (table.turnedTo angle) = (contact.effect? table).map (·.turnedTo angle) := by
  cases contact with
  | wall ball side =>
    simp only [effect?, Table.bounce?, Table.turnedTo]
    split <;> rfl
  | pair a b =>
    simp only [effect?, Table.meet?, Table.turnedTo]
    generalize (if a < b then a else b) = lower
    generalize (if a < b then b else a) = upper
    by_cases same : lower = upper
    · simp only [same, if_true]
      rfl
    · simp only [same, if_false]
      split
      · split <;> rfl
      · rfl

namespace Conductor

theorem collided_turnedTo (now : Instant) (contact : Contact) (elapsed : Millis)
    (conductor : Conductor) (table : Table K) (angle : K) :
    conductor.collided now contact elapsed (table.turnedTo angle) =
      ((conductor.collided now contact elapsed table).1.turnedTo angle,
        (conductor.collided now contact elapsed table).2) := by
  have effect := contact.effect?_turnedTo (table.drift elapsed) angle
  change contact.effect? ((table.turnedTo angle).drift elapsed) = _ at effect
  simp only [collided, effect]
  cases contact.effect? (table.drift elapsed) <;> rfl

/-- A reaction moves the balls wherever the turret points, and leaves it there. -/
theorem reaction?_turnedTo (now : Instant) (signal : Signal) (conductor : Conductor)
    (table : Table K) (angle : K) :
    conductor.reaction? now signal (table.turnedTo angle) =
      (conductor.reaction? now signal table).map fun (after, ready) =>
        (after.turnedTo angle, ready) := by
  unfold reaction?
  split
  · rw [collided_turnedTo]
    rfl
  · rw [collided_turnedTo]
    rfl
  · rfl
  · rfl

/-- Arming leads to the same wherever the turret points. -/
theorem Arms.turnedTo (arms : Arms visit ready table agenda outcome rearmed)
    (arms' : Arms visit ready (table.turnedTo angle) agenda' outcome' rearmed')
    (same : (agenda'.awaitedBy visit.agent).map Event.unnumbered =
      (agenda.awaitedBy visit.agent).map Event.unnumbered) :
    outcome' = outcome ∧
      (rearmed'.awaitedBy visit.agent).map Event.unnumbered =
        (rearmed.awaitedBy visit.agent).map Event.unnumbered := by
  have follows' : ready.follows (table.turnedTo angle) = ready.follows table := rfl
  cases arms with
  | waits follows =>
    cases arms' with
    | waits others =>
      rw [follows', follows] at others
      cases others
      have recurs := recurs_of_follows follows
      rw [Agenda.awaitedBy_schedule_withdraw recurs, Agenda.awaitedBy_schedule_withdraw recurs]
      exact ⟨rfl, rfl⟩
    | stalls nothing => simp [follows', follows] at nothing
  | stalls nothing =>
    cases arms' with
    | waits others => simp [follows', nothing] at others
    | stalls _ => exact ⟨rfl, same⟩

/-- Arming schedules no keys. -/
theorem Arms.mem_toList (arms : Arms visit ready table agenda outcome rearmed) {event : Event}
    (member : event ∈ rearmed.toList) : event ∈ agenda.toList ∨ event.signal.recurs := by
  cases arms with
  | waits follows =>
    rcases Agenda.mem_toList_schedule.1 member with rfl | held
    · exact .inr (recurs_of_follows follows)
    · rw [Agenda.toList_withdraw] at held
      exact .inl (List.mem_filter.1 held).1
  | stalls _ => exact .inl member

end Conductor

end Turret

section Drawing

variable [Canvas K C]

/-- The canvas after strokes, one after another. -/
def Canvas.drawAll (canvas : C) (strokes : List (Stroke K)) : C :=
  strokes.foldl (fun canvas stroke => (Canvas.draw canvas stroke).1) canvas

theorem Stage.canvas_drawAll (visit : Visit) (strokes : List (Stroke K)) (stage : Stage K C) :
    ((Plan.drawAll strokes).run visit stage).2.canvas =
      Canvas.drawAll stage.canvas strokes := by
  induction strokes generalizing stage with
  | nil => rfl
  | cons stroke rest ih => exact ih (stage.draw stroke)

omit [Canvas K C] in
theorem Stage.canvas_withdraw (visit : Visit) (stage : Stage K C) :
    (stage.withdraw visit).canvas = stage.canvas := by
  unfold withdraw
  simp only
  split <;> rfl

variable [Scalar K]

/-- Frames of the same tables were drawn on two canvases that were the same at first; only the
turret may have pointed elsewhere. -/
inductive SameFrames (blank : C) : C → C → Prop where
  | none : SameFrames blank blank blank
  | frame {canvas other : C} (same : SameFrames blank canvas other) (table : Table K) (angle : K) :
      SameFrames blank (Canvas.drawAll canvas table.frame)
        (Canvas.drawAll other (table.turnedTo angle).frame)

namespace Conductor

/-- What a conductor draws when it is told something. -/
def drawn (signal : Signal) (table : Table K) (conductor : Conductor) (canvas : C) : C :=
  match conductor.phase, signal with
  | .beat, .beat elapsed => Canvas.drawAll canvas (table.drift elapsed).frame
  | _, _ => canvas

theorem canvas_run_arm (visit : Visit) (ready : Conductor) (stage : Stage K C) :
    ((ready.arm visit).run visit stage).2.canvas = stage.canvas := by
  simp only [arm, Plan.run_bind, Plan.table, Plan.say, Plan.run]
  split
  · exact Stage.canvas_withdraw visit _
  · rfl

theorem canvas_run_handle (visit : Visit) (signal : Signal) (conductor : Conductor)
    (stage : Stage K C) :
    ((conductor.handle visit signal).run visit stage).2.canvas =
      conductor.drawn signal stage.table stage.canvas := by
  have collides (contact : Contact) (elapsed : Millis) :
      ((conductor.collide visit contact elapsed).run visit stage).2.canvas = stage.canvas := by
    let before := stage.table.drift elapsed
    by_cases missed : (contact.effect? before).isNone
    · change (Plan.run visit (if (contact.effect? before).isNone = true then _ else _)
        stage).2.canvas = _
      rw [if_pos missed]
      exact canvas_run_arm visit _ _
    · change (Plan.run visit (if (contact.effect? before).isNone = true then _ else _)
        stage).2.canvas = _
      rw [if_neg missed]
      exact canvas_run_arm visit _ _
  unfold handle
  split
  · rw [drawn]
    · rfl
    · simp
  · next ball side elapsed _ =>
    rw [collides, drawn]
    simp
  · next a b elapsed _ =>
    rw [collides, drawn]
    simp
  · next elapsed waits =>
    simp only [drawn, waits]
    let moved : Stage K C := { stage with table := stage.table.drift elapsed }
    change ((Plan.drawAll (stage.table.drift elapsed).frame >>= fun _ =>
      (conductor.painted visit.now elapsed stage.table).2.arm visit).run visit moved).2.canvas = _
    rw [Plan.run_bind, canvas_run_arm, Stage.canvas_drawAll]
  · next signal _ _ notKey notWall notPair notBeat =>
    rw [drawn]
    · rfl
    · exact notBeat

end Conductor

theorem Conductor.drawn_of_key {way : Turn} {signal : Signal} (key : signal = .key way)
    (table : Table K) (conductor : Conductor) (canvas : C) :
    conductor.drawn signal table canvas = canvas := by
  subst key
  unfold drawn
  split
  · trivial
  · rfl

/-- What is drawn about the same event is the same but for the turret. -/
theorem SameFrames.drawn {blank canvas other : C} (same : SameFrames blank canvas other)
    (signal : Signal) (table : Table K) (angle : K) (conductor : Conductor) :
    SameFrames blank (conductor.drawn signal table canvas)
      (conductor.drawn signal (table.turnedTo angle) other) := by
  unfold Conductor.drawn
  split
  · exact .frame same _ angle
  · exact same

/-- A recorder keeps the marks of the last frame. -/
theorem Recorder.drawAll_frame (recorder : Recorder K) (table : Table K) :
    Canvas.drawAll recorder table.frame = ⟨[], table.marks, recorder.frames + 1⟩ := by
  have collects (marks : List (Mark K)) (recorder : Recorder K) :
      Canvas.drawAll recorder (marks.map .mark ++ [.present]) =
        ⟨[], recorder.drawn ++ marks, recorder.frames + 1⟩ := by
    induction marks generalizing recorder with
    | nil => simp [Canvas.drawAll, Canvas.draw, Recorder.draw]
    | cons mark rest ih =>
      refine (ih (recorder.draw (.mark mark))).trans ?_
      simp [Recorder.draw]
  exact collects table.marks (recorder.draw .wipe)

/-- Recorders that saw the same frames have counted as many, and show the same marks but for the
last three, which are the turret's edges. -/
theorem SameFrames.recorder {recorder other : Recorder K}
    (same : SameFrames .new recorder other) :
    other.frames = recorder.frames ∧ ∃ marks edges edges',
      recorder.shown = marks ++ edges ∧ other.shown = marks ++ edges' ∧
        edges'.length = edges.length ∧ edges.length ≤ 3 := by
  induction same with
  | none => exact ⟨rfl, [], [], [], rfl, rfl, rfl, Nat.zero_le _⟩
  | frame _ table angle ih =>
    rw [Recorder.drawAll_frame, Recorder.drawAll_frame]
    exact ⟨congrArg (· + 1) ih.1, _, table.turret.edges, (table.turnedTo angle).turret.edges,
      rfl, rfl, rfl, Nat.le_refl 3⟩

end Drawing

namespace Simulation

variable [Scalar K] [Canvas K C] {simulation : Simulation K C Conductor} {conductor : Conductor}

/-- What a delivery draws. -/
theorem Poised.canvas_deliver {event : Event} {rest : Agenda} (poised : Poised simulation conductor)
    (popped : simulation.stage.agenda.pop? = some (event, rest)) :
    ((simulation.withAgenda rest).deliver event).2.stage.canvas =
      conductor.drawn event.signal simulation.stage.table simulation.stage.canvas := by
  have found : (simulation.withAgenda rest).agents[event.target]? = some conductor := by
    rw [(poised.head_cases popped).1]
    exact congrArg (·[0]?) poised.alone
  let stage := (simulation.withAgenda rest).stage.note
    (.delivering event (Agent.name (K := K) conductor) (Agent.state (K := K) conductor))
  have shown := conductor.canvas_run_handle ⟨event.target, event.due⟩ event.signal stage
  cases ran : (conductor.handle ⟨event.target, event.due⟩ event.signal).run
    ⟨event.target, event.due⟩ stage with
  | mk outcome last =>
    rw [ran] at shown
    rw [deliver_of_run found ran]
    exact shown

/-- A start draws nothing. -/
theorem Poised.canvas_start (poised : Poised simulation conductor) :
    simulation.start.2.stage.canvas = simulation.stage.canvas := by
  let visit : Visit := ⟨0, simulation.now⟩
  have same := (conductor.restarted simulation.now).canvas_run_arm visit simulation.stage
  cases ran : ((conductor.restarted simulation.now).arm visit).run visit simulation.stage with
  | mk outcome last =>
    have started : (Agent.start (K := K) visit conductor).run visit simulation.stage =
        (outcome, last) := ran
    rw [ran] at same
    unfold Simulation.start
    simp only [poised.alone, startFrom, visit] at started ⊢
    rw [started]
    obtain ⟨_, _ | _⟩ := outcome <;> exact same

end Simulation

end Billiard
