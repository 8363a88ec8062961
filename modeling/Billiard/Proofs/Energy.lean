import Mathlib.Algebra.BigOperators.Group.List.Basic
import Billiard.Proofs.Clearance
import Billiard.Proofs.Exchange
import Billiard.Proofs.History
import Billiard.Proofs.Reflection

/-!
Motion is neither lost nor made. Off a wall of measurable length a ball is as fast as before, and
what one ball of an exchange loses the other one gains; so no contact changes the energy of a table
(`Contact.asLively_of_effect?`), whoever forecast it and however often it is repeated, and nothing
else that a conductor does touches velocities at all (`energy_is_kept`).
-/

namespace Billiard

namespace Ball

theorem energy_eq (ball : Ball ℝ) : ball.energy = ball.mass * ball.velocity.normSq / 2 := by
  change 0.5 * ball.mass * ball.velocity.normSq = _
  norm_num
  ring

theorem energy_bounce {wall : Segment ℝ} (long : Scalar.negligible ≤ wall.span.normSq)
    (ball : Ball ℝ) : (ball.bounce wall).energy = ball.energy := by
  rw [energy_eq, energy_eq, normSq_bounce long, mass, radius_bounce, mass]

/-- A push along an axis changes the square of a speed. -/
theorem normSq_push {axis : Vec ℝ} (unit : axis.dot axis = 1) (velocity : Vec ℝ) (push : ℝ) :
    (velocity + axis * push).normSq =
      velocity.normSq + (2 * velocity.dot axis + push) * push := by
  have expanded : (velocity + axis * push).normSq =
      velocity.normSq + 2 * velocity.dot axis * push + axis.dot axis * push * push := by
    simp only [Vec.normSq_eq, Vec.dot_eq, Vec.add_eq, Vec.smul_eq]
    ring
  rw [expanded, unit]
  ring

/-- What one ball of an exchange loses the other one gains. -/
theorem energy_exchange (first second : Ball ℝ) :
    (first.exchange second).1.energy + (first.exchange second).2.energy =
      first.energy + second.energy := by
  rcases exchange_cases first second with same | ⟨gap, axis, _, far, direction, heavy, _, pushed⟩
  · rw [same]
  · have unit : axis.dot axis = 1 := direction ▸ Vec.unit_dot_unit far
    have whole : first.mass + second.mass ≠ 0 := heavy.ne'
    have back (velocity : Vec ℝ) (push : ℝ) :
        velocity - axis * push = velocity + axis * (-push) :=
      Vec.eq_of_parts (by simp [sub_eq_add_neg]) (by simp [sub_eq_add_neg])
    have sizes (velocity : Vec ℝ) : ({ first with velocity := velocity } : Ball ℝ).mass =
        first.mass ∧ ({ second with velocity := velocity } : Ball ℝ).mass = second.mass :=
      ⟨rfl, rfl⟩
    rw [pushed]
    simp only [energy_eq, sizes, back, normSq_push unit, Vec.sub_dot]
    field_simp
    ring

end Ball

namespace Table

/-- The energy of a table is that of its balls. -/
theorem energy_eq_sum (table : Table ℝ) : table.energy = (table.balls.map Ball.energy).sum := by
  have zero : (-0.0 : ℝ) = 0 := by norm_num
  change table.balls.foldl (fun total ball => total + ball.energy) (-0.0) = _
  rw [zero, List.sum_eq_foldl, List.foldl_map]

theorem sum_energy_set {balls : List (Ball ℝ)} {id : BallId} {old : Ball ℝ}
    (here : balls[id]? = some old) (new : Ball ℝ) :
    ((balls.set id new).map Ball.energy).sum =
      (balls.map Ball.energy).sum - old.energy + new.energy := by
  obtain ⟨inside, rfl⟩ := List.getElem?_eq_some_iff.1 here
  rw [List.map_set, List.sum_set', dif_pos (by simpa using inside), List.getElem_map]
  ring

theorem map_set_of_eq {α : Type} {balls : List (Ball ℝ)} {id : BallId} {old new : Ball ℝ}
    (measure : Ball ℝ → α) (here : balls[id]? = some old) (same : measure new = measure old) :
    (balls.set id new).map measure = balls.map measure := by
  obtain ⟨inside, rfl⟩ := List.getElem?_eq_some_iff.1 here
  rw [List.map_set, same, ← List.getElem_map measure (h := by simpa using inside),
    List.set_getElem_self]

end Table

/-- Every wall is long enough for a velocity to be measured along it. -/
def Table.Long (table : Table ℝ) : Prop :=
  ∀ wall ∈ table.walls, Scalar.negligible ≤ wall.span.normSq

/-- The same energy, and the same speed of every single ball where balls pass through each other. -/
structure Table.AsLively (table origin : Table ℝ) : Prop where
  energy : table.energy = origin.energy
  speeds : origin.response = .pass → table.balls.map Ball.speed = origin.balls.map Ball.speed

variable {before after : Table ℝ} {contact : Contact}

/-- No contact changes the energy of a table, nor, where balls pass through each other, the speed of
a ball. -/
theorem Contact.asLively_of_effect? (long : before.Long)
    (met : contact.effect? before = some after) : after.AsLively before := by
  cases contact with
  | wall hit side =>
    simp only [effect?, Table.bounce?] at met
    split at met
    · next wall ball there here =>
      cases met
      have measurable := long wall (List.mem_of_getElem? there)
      have speed : (ball.bounce wall).speed = ball.speed :=
        congrArg Real.sqrt (Ball.normSq_bounce measurable ball)
      constructor
      · rw [Table.energy_eq_sum, Table.energy_eq_sum, Table.sum_energy_set here,
          Ball.energy_bounce measurable, sub_add_cancel]
      · intro _
        exact Table.map_set_of_eq Ball.speed here speed
    · cases met
  | pair a b =>
    simp only [effect?, Table.meet?] at met
    generalize (if a < b then a else b) = low at met
    generalize (if a < b then b else a) = high at met
    split at met
    · cases met
    · next two =>
      split at met
      · next first second here there =>
        split at met
        · cases met
          exact ⟨rfl, fun _ => rfl⟩
        · next elastic =>
          cases met
          constructor
          · have aside : (before.balls.set low (first.exchange second).1)[high]? = some second :=
              (List.getElem?_set_ne two).trans there
            have balance := Ball.energy_exchange first second
            rw [Table.energy_eq_sum, Table.energy_eq_sum, Table.sum_energy_set aside,
              Table.sum_energy_set here]
            linarith
          · intro pass
            simp [elastic] at pass
      · cases met

namespace Table.AsLively

variable {table middle origin : Table ℝ}

theorem refl (table : Table ℝ) : table.AsLively table := ⟨rfl, fun _ => rfl⟩

theorem trans (first : table.AsLively middle) (second : middle.AsLively origin)
    (alike : middle.Resembles origin) : table.AsLively origin where
  energy := first.energy.trans second.energy
  speeds pass := (first.speeds (alike.response.trans pass)).trans (second.speeds pass)

theorem drift (elapsed : Millis) (table : Table ℝ) : (table.drift elapsed).AsLively table := by
  constructor
  · rw [energy_eq_sum, energy_eq_sum]
    change ((table.balls.map (Ball.drift elapsed)).map Ball.energy).sum = _
    rw [List.map_map]
    rfl
  · intro _
    change (table.balls.map (Ball.drift elapsed)).map Ball.speed = _
    rw [List.map_map]
    rfl

end Table.AsLively

/-- No reaction of a conductor changes the energy of the table. -/
theorem Conductor.asLively_of_reaction? {table : Table ℝ} {conductor ready : Conductor}
    {now : Instant} {signal : Signal} (long : table.Long)
    (reacts : conductor.reaction? now signal table = some (after, ready)) :
    after.AsLively table := by
  have collided (contact : Contact) (elapsed : Millis) :
      (conductor.collided now contact elapsed table).1.AsLively table := by
    cases effect : contact.effect? (table.drift elapsed) with
    | none => simpa [Conductor.collided, effect] using Table.AsLively.drift elapsed table
    | some met =>
      have drifted : (table.drift elapsed).Long := long
      simpa [Conductor.collided, effect] using
        (Contact.asLively_of_effect? drifted effect).trans (.drift elapsed table)
          (.drift elapsed table)
  unfold reaction? at reacts
  split at reacts <;> simp only [Option.some.injEq, Prod.ext_iff, reduceCtorEq] at reacts
  · exact reacts.1 ▸ collided _ _
  · exact reacts.1 ▸ collided _ _
  · exact reacts.1 ▸ Table.AsLively.drift _ table

namespace Simulation

variable {C : Type} [Canvas ℝ C] {scene : Scene ℝ} {simulation : Simulation ℝ C Conductor}
  {conductor waiting : Conductor}

omit [Canvas ℝ C] in
theorem Poised.Takes.asLively {move : Move} {after : Simulation ℝ C Conductor}
    (long : simulation.stage.table.Long) (takes : Takes move simulation conductor after waiting) :
    after.stage.table.AsLively simulation.stage.table := by
  cases takes with
  | keeps turret table =>
    rw [table]
    exact ⟨rfl, fun _ => rfl⟩
  | starts _ starts =>
    cases starts with
    | rearms table _ => exact table ▸ .refl _
  | reacts _ _ _ reacts _ => exact Conductor.asLively_of_reaction? long reacts

/-- Energy is neither lost nor made. Where all walls of a checked scene are long enough for a
velocity to be measured along them, the table has its first energy after every move of every run,
so after every single delivery, be there keys in between, late deliveries or calls that fail; and
where balls pass through each other, every single ball keeps its speed. -/
theorem energy_is_kept {canvas : C} {first here : Simulation ℝ C Conductor} {moves : List Move}
    (made : scene.conduct id canvas = .ok first)
    (long : ∀ wall ∈ scene.table.walls, Scalar.negligible ≤ wall.span.normSq)
    (visits : first.Visits moves here) :
    here.stage.table.energy = scene.table.energy ∧
      (scene.table.response = .pass →
        here.stage.table.balls.map Ball.speed = scene.table.balls.map Ball.speed) := by
  obtain ⟨poised, table, _⟩ := Poised.of_conduct made
  have kept := follow_induct (motive := fun last => ∃ conductor, Poised last conductor ∧
      last.stage.table.Resembles scene.table ∧ last.stage.table.AsLively scene.table)
    ⟨_, poised, table ▸ .refl _, table ▸ .refl _⟩
    (by
      rintro simulation move ⟨conductor, poised, alike, lively⟩
      obtain ⟨waiting, poised, takes⟩ := poised.take move
      have long : simulation.stage.table.Long := fun wall member => long wall (alike.walls ▸ member)
      exact ⟨waiting, poised, takes.resembles.trans alike,
        (takes.asLively long).trans lively alike⟩)
    moves
  rw [visits.follow] at kept
  obtain ⟨_, _, _, lively⟩ := kept
  exact ⟨lively.energy, lively.speeds⟩

/-- In the lane, after the delivery of the contact. -/
theorem energy_is_kept_lane :
    ∃ first : Simulation ℝ (Blank ℝ) Conductor, lane.conduct id ⟨⟩ = .ok first ∧
      (∀ wall ∈ (lane : Scene ℝ).table.walls, Scalar.negligible ≤ wall.span.normSq) ∧
      first.Visits ([.start] ++ Call.stepNext.moves 0 first.start.2) first.start.2.stepNext.2 ∧
      first.start.2.stepNext.2.stage.table.energy = (lane : Scene ℝ).table.energy ∧
      ((lane : Scene ℝ).table.response = .pass →
        first.start.2.stepNext.2.stage.table.balls.map Ball.speed =
          (lane : Scene ℝ).table.balls.map Ball.speed) := by
  obtain ⟨first, made⟩ := Scene.exists_conduct lane_fine (⟨⟩ : Blank ℝ)
  have long : ∀ wall ∈ (lane : Scene ℝ).table.walls, Scalar.negligible ≤ wall.span.normSq := by
    intro wall member
    obtain rfl := List.mem_singleton.1 member
    exact upright_long _
  have visits : first.Visits ([.start] ++ Call.stepNext.moves 0 first.start.2)
      first.start.2.stepNext.2 := by
    have led : first.Leads [.start] first.start.2 := .call .start 0 .begin rfl
    have ended : (Call.stepNext).perform 0 first.start.2 =
        some (first.start.2.stepNext.1.map .told, first.start.2.stepNext.2) := rfl
    have last := Call.follow_moves ended
    exact last ▸ .within .stepNext 0 led (List.prefix_refl _)
  exact ⟨first, made, long, visits, energy_is_kept made long visits⟩

end Simulation

end Billiard
