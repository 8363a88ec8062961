import Billiard.Proofs.Observation
import Billiard.Proofs.Recoil
import Billiard.Proofs.Renewal
import Billiard.Proofs.Repeats

/-!
Skipping what is settled hides nothing. The search for the next contact leaves out those that have
been dealt with at the present instant, until another contact turns one of their balls. Where balls
exchange momentum and all is clear, only what comes closer is forecast, and nothing that is settled
does; so the search finds what it would find if nothing were settled, at every arming of a run
(`Simulation.settled_never_approaches`).
-/

namespace Billiard

/-- What is settled after a reaction is of what is there. -/
theorem Conductor.at_of_reaction? {K : Type} [Scalar K] {table after : Table K}
    {ready waiting next : Conductor} {delay : Millis} {signal : Signal} {now : Instant}
    (follows : ready.follows table = some (delay, signal, waiting))
    (reacts : waiting.reaction? now signal table = some (after, next))
    (there : ∀ contact ∈ waiting.settled, contact.At table) :
    ∀ contact ∈ next.settled, contact.At after := by
  intro contact held
  have alike := (resembles_of_reaction? reacts).symm
  rcases reaction_of_follows follows reacts with ⟨found, soonest, _, same⟩ | ⟨_, _, _, same⟩
  · simp only [collided, Prod.mk.injEq] at same
    obtain ⟨_, rfl⟩ := same
    rcases mem_settle.1 held with rfl | ⟨kept, _⟩
    · have member := (Table.nextContact?_mem soonest).1
      exact (Table.at_of_mem_forecasts member).of_resembles alike
    · exact (there contact (mem_atInstant kept)).of_resembles alike
  · simp only [painted, Prod.mk.injEq] at same
    obtain ⟨_, rfl⟩ := same
    cases held

namespace Table

variable {table : Table ℝ} {settled : List Contact} {contact : Contact}

namespace Clear

/-- What is clear is so with fewer contacts settled. -/
theorem mono {fewer : List Contact} (clear : table.Clear settled)
    (less : ∀ contact ∈ fewer, contact ∈ settled) : table.Clear fewer where
  walls id place :=
    let ⟨side, sign, beside⟩ := clear.walls id place
    ⟨side, sign, beside.mono less⟩
  pairs elastic a b ordered := (clear.pairs elastic a b ordered).mono less

/-- Where all is clear and balls exchange momentum, only what comes closer is forecast. -/
theorem approaches_of_forecast (clear : table.Clear settled) (sound : table.Sound)
    (elastic : table.response = .elastic) {forecast : Forecast}
    (member : forecast ∈ table.forecasts) : forecast.contact.Approaches table := by
  obtain ⟨delay, contact⟩ := forecast
  cases contact with
  | wall ball place =>
    obtain ⟨side, sign, beside⟩ := clear.walls ball place
    obtain ⟨hit, line, here, there, closer⟩ := beside.approaching_of_forecast sound sign member
    have beyond := (beside hit line here there).1
    rw [← sound.closer_iff sign (List.mem_of_getElem? here) (List.mem_of_getElem? there) beyond]
      at closer
    exact ⟨hit, line, here, there, closer⟩
  | pair a b =>
    obtain ⟨less, first, second, here, there, soon⟩ := pair_mem_forecasts.1 member
    have apart := (clear.pairs elastic a b less first second here there).1
    exact ⟨first, second, here, there, Ball.closer_of_untilBall? apart soon⟩

end Clear

/-- All is clear, and what is settled is of what is there. -/
structure Skips (table : Table ℝ) (settled : List Contact) : Prop where
  clear : table.Clear settled
  there : ∀ contact ∈ settled, contact.At table

namespace Skips

/-- Where balls exchange momentum, nothing settled is of what comes closer. -/
theorem not_approaches (skips : table.Skips settled) (sound : table.Sound)
    (elastic : table.response = .elastic) (held : contact ∈ settled) :
    ¬contact.Approaches table := by
  intro approaches
  have passes := skips.clear.passes_of_approaches sound held (skips.there contact held) approaches
  rw [passes.1] at elastic
  cases elastic

/-- So the search skips nothing that is forecast. -/
theorem nextContact?_eq (skips : table.Skips settled) (sound : table.Sound)
    (elastic : table.response = .elastic) :
    table.nextContact? settled = table.nextContact? [] := by
  refine nextContact?_of_open fun forecast member held => ?_
  exact skips.not_approaches sound elastic held
    (skips.clear.approaches_of_forecast sound elastic member)

/-- The turret is in nobody's way. -/
theorem withTurret (skips : table.Skips settled) (turret : Turret ℝ) :
    { table with turret := turret }.Skips settled where
  clear := ⟨skips.clear.walls, skips.clear.pairs⟩
  there contact held := (skips.there contact held).of_resembles ⟨rfl, rfl, rfl, rfl⟩

end Skips

/-- Along a run of a spread table on which nothing that comes closer is overlooked, all stays clear
and what is settled stays there. -/
theorem Spread.lasting {origin : Table ℝ} (spread : origin.Spread) (sound : origin.Sound) :
    Simulation.Lasting origin Heeded Skips where
  fair _ _ heeded := ⟨heeded.walls, heeded.pairs⟩
  turret _ turret _ skips := skips.withTurret turret
  forget _ _ skips := ⟨skips.clear.mono (by simp), by simp⟩
  react alike heeded skips follows reacts := by
    have sizable := fun elastic =>
      (spread.sizable (alike.response.symm.trans elastic)).of_resembles alike
    have clear := skips.clear.react (sound.of_resembles alike) (alike.reach.trans spread.line)
      heeded sizable follows reacts
    exact ⟨clear, Conductor.at_of_reaction? follows reacts skips.there⟩

end Table

namespace Simulation

/-- A contact that is delivered is settled. -/
theorem Poised.settles {K C : Type} [Scalar K] [Canvas K C]
    {simulation : Simulation K C Conductor} {conductor : Conductor} {event : Event} {rest : Agenda}
    {contact : Contact} (poised : Poised simulation conductor)
    (popped : simulation.stage.agenda.popDue? simulation.now = some (event, rest))
    (announces : event.signal.contact? = some contact) :
    ∃ waiting, simulation.step.2.agents = [waiting] ∧ contact ∈ waiting.settled := by
  obtain ⟨popped, due⟩ := Agenda.popDue?_eq_some_iff.1 popped
  obtain ⟨waiting, delivered, delivers⟩ := poised.deliver popped
  rw [step_of_pop? popped due]
  refine ⟨waiting, delivered.alone, ?_⟩
  generalize (simulation.withAgenda rest).deliver event = outcome at delivers
  obtain ⟨result, after⟩ := outcome
  cases delivers with
  | key key _ _ => simp [key, Signal.contact?] at announces
  | rearms awaited reacts arms =>
    obtain ⟨_, _, follows, _⟩ := (awaited ▸ poised.waits).exists_follows
    rw [arms.kept.1]
    exact (Conductor.settles_of_reaction? follows reacts announces).2.1

/-- What a conductor waits for was found at the table as it is, with what is settled left out. -/
theorem Poised.exists_search {K C : Type} [Scalar K] [Canvas K C]
    {simulation : Simulation K C Conductor} {conductor : Conductor}
    (poised : Poised simulation conductor) (armed : conductor.phase ≠ .idle) :
    ∃ (ready : Conductor) (delay : Millis) (signal : Signal),
      ready.settled = conductor.settled ∧
        ready.follows simulation.stage.table = some (delay, signal, conductor) := by
  have waits := poised.waits
  generalize simulation.stage.agenda.awaitedBy 0 = events at waits
  cases waits with
  | idle idle => exact absurd idle armed
  | armed follows _ => exact ⟨_, _, _, (Conductor.follows_kept follows).1.symm, follows⟩

variable {C : Type} [Canvas ℝ C] {scene : Scene ℝ}

/-- No settled contact is of what comes closer. Let balls exchange momentum in a checked scene, none
so small that its mass is negligible, and let none overlap a wall's line or another ball at first.
As long as nothing that comes closer is overlooked, at every arming, every contact that is settled
is of a ball that does not come closer to its wall, or of two balls that do not come closer to each
other; and the search finds the same next contact as if nothing were settled. This is after every
single move, and every call is a sequence of moves. Arming comes last in a move, so these are the
table and the settled contacts of the search that found what the conductor waits for. -/
theorem settled_never_approaches {canvas : C} {first last : Simulation ℝ C Conductor}
    (made : scene.conduct id canvas = .ok first) (elastic : scene.table.response = .elastic)
    (spread : scene.table.Spread) (course : Course Table.Heeded first last) :
    ∃ conductor, last.agents = [conductor] ∧
      (conductor.phase ≠ .idle → ∃ (ready : Conductor) (delay : Millis) (signal : Signal),
        ready.settled = conductor.settled ∧
          ready.follows last.stage.table = some (delay, signal, conductor)) ∧
      (∀ contact ∈ conductor.settled,
        contact.At last.stage.table ∧ ¬contact.Approaches last.stage.table) ∧
      last.stage.table.nextContact? conductor.settled = last.stage.table.nextContact? [] := by
  obtain ⟨poised, table, fine⟩ := Poised.of_conduct made
  have sound := (Scene.fault?_eq_none_iff_sound.1 fine).2
  have begun : first.stage.table.Skips (Conductor.new scene.interval).settled := by
    rw [table]
    exact ⟨spread.clear sound, fun _ held => by cases held⟩
  obtain ⟨conductor, ready, alike, skips, _⟩ := (spread.lasting sound).of_course poised
    (table ▸ .refl _) begun (fun armed => absurd rfl armed) course
  have sound := sound.of_resembles alike
  have elastic := alike.response.trans elastic
  exact ⟨conductor, ready.alone, ready.exists_search,
    fun contact held => ⟨skips.there contact held, skips.not_approaches sound elastic held⟩,
    skips.nextContact?_eq sound elastic⟩

/-- The balls of the duel, and a wall that the second one is just leaving. -/
noncomputable def cushion : Scene ℝ where
  table :=
    { walls := [upright 11]
      balls := [duelists.1, duelists.2]
      turret := Scene.standardTurret
      reach := .line
      response := .elastic }
  interval := some 1000

section Cushion

theorem forall_cushion {P : Ball ℝ → Segment ℝ → Prop} :
    (∀ ball ∈ cushion.table.balls, ∀ wall ∈ cushion.table.walls, P ball wall) ↔
      P duelists.1 (upright 11) ∧ P duelists.2 (upright 11) := by
  simp [cushion]

theorem offset_cushion : duelists.1.offset (upright 11) = 220 ∧
    duelists.2.offset (upright 11) = 20 := by
  rw [offset_upright, offset_upright]
  norm_num [duelists, Vec.zero_eq]

theorem rate_cushion : duelists.1.rate (upright 11) = -200 ∧
    duelists.2.rate (upright 11) = 200 := by
  rw [rate_upright, rate_upright]
  norm_num [duelists]

theorem berth_cushion : duelists.1.berth (upright 11) = 20 ∧
    duelists.2.berth (upright 11) = 20 := by
  rw [Ball.berth, Ball.berth, upright_length]
  norm_num [duelists]

theorem sound_cushion : cushion.table.Sound := by
  constructor
  · intro wall member
    obtain rfl := List.mem_singleton.1 member
    exact upright_sound _
  · intro ball member
    rcases List.mem_pair.1 member with rfl | rfl <;> norm_num [duelists]

theorem spread_cushion : cushion.table.Spread where
  line := rfl
  aside := by
    rw [forall_cushion, Ball.distance, Ball.distance, upright_length, offset_cushion.1,
      offset_cushion.2]
    norm_num [duelists]
  sizable _ ball member := by
    rcases List.mem_pair.1 member with rfl | rfl <;> norm_num [duelists]
  apart _ := List.pairwise_pair.2 clear_duelists

/-- The first ball comes closer to the wall and to the other ball, and is measured to. -/
theorem heeded_cushion : cushion.table.Heeded where
  walls := by
    rw [forall_cushion, offset_cushion.1, offset_cushion.2, rate_cushion.1, rate_cushion.2,
      berth_cushion.1, berth_cushion.2]
    norm_num [Scalar.negligible_eq, Prediction.instantaneous_eq]
  pairs := by
    refine List.pairwise_pair.2 fun _ _ => ?_
    rw [pace_duelists, touches_duelists]
    norm_num [Scalar.negligible_eq, Prediction.instantaneous_eq]

/-- The first ball reaches the wall after a second, and the second one leaves it. -/
theorem untilWall?_cushion : duelists.1.untilWall? .line (upright 11) = some 1000 ∧
    duelists.2.untilWall? .line (upright 11) = none := by
  constructor
  · have whole : ((1000 : Millis).toNat : ℝ) = 1000 := by
      exact_mod_cast (rfl : (1000 : Millis).toNat = 1000)
    apply Ball.untilWall?_of_lineContact?
    rw [Ball.lineContact?_of_approaching (upright_sound _) (.inl rfl), Ball.arrival_eq, whole]
    all_goals
      norm_num [offset_cushion.1, rate_cushion.1, berth_cushion.1, Scalar.negligible_eq,
        Prediction.instantaneous_eq]
  · by_contra touches
    obtain ⟨delay, found⟩ := Option.ne_none_iff_exists'.1 touches
    obtain ⟨_, touches, _⟩ := Ball.exists_lineContact?_of_untilWall? found
    have approaching := Ball.approaching_of_lineContact? (upright_sound _) (.inl rfl)
      (by norm_num [offset_cushion.2, berth_cushion.2]) (by norm_num [berth_cushion.2]) touches
    norm_num [rate_cushion.2] at approaching

theorem forecasts_cushion :
    cushion.table.forecasts = [⟨1000, .wall 0 0⟩, ⟨400, .pair 0 1⟩] := by
  have back : duelists.2.untilBall? duelists.1 = some 400 :=
    (Ball.untilBall?_comm _ _).trans untilBall?_duelists
  have range : List.range 2 = [0, 1] := rfl
  simp [Table.forecasts, Table.forecastsOf, Table.wallForecasts, Table.pairForecasts, cushion,
    Table.countsFor, Contact.between, range, untilBall?_duelists, back, untilWall?_cushion.1,
    untilWall?_cushion.2]

/-- After four hundred milliseconds, the contact of the two balls is due. -/
theorem exists_cushion_run :
    ∃ (first : Simulation ℝ (Blank ℝ) Conductor) (event : Event) (rest : Agenda),
      cushion.conduct id ⟨⟩ = .ok first ∧
      (first.follow [.start, .advance 400]).stage.table = cushion.table ∧
      (first.follow [.start, .advance 400]).stage.agenda.popDue?
        (first.follow [.start, .advance 400]).now = some (event, rest) ∧
      event.signal = .pair 0 1 400 := by
  have fine : cushion.fault? = none :=
    Scene.fault?_eq_none_iff_sound.2 ⟨by decide, sound_cushion⟩
  have next : cushion.table.nextContact? [] = some ⟨400, .pair 0 1⟩ := by
    rw [Table.nextContact?, forecasts_cushion]
    rfl
  exact Armed.exists_run_to_contact fine (⟨⟩ : Blank ℝ) rfl next (by decide)

/-- The table of the cushion once the two balls have met. -/
noncomputable def parted : Table ℝ :=
  let met := (duelists.1.drift 400).exchange (duelists.2.drift 400)
  { cushion.table with balls := [met.1, met.2] }

theorem effect?_cushion :
    (Contact.pair 0 1).effect? (cushion.table.drift 400) = some parted := rfl

/-- Then the second ball comes closer to the wall, and is measured to. -/
theorem heeded_parted : parted.Heeded := by
  rw [parted, exchange_duelists]
  constructor
  · norm_num [rebounded, cushion, offset_upright, rate_upright, Ball.berth, upright_length,
      Scalar.negligible_eq, Prediction.instantaneous_eq]
  · refine List.pairwise_pair.2 fun closer _ => ?_
    norm_num [parting_rebounded] at closer

end Cushion

/-- When the two balls of the cushion have met, their contact is settled, and the wall is ahead of
the second one. -/
theorem settled_never_approaches_cushion :
    ∃ first : Simulation ℝ (Blank ℝ) Conductor, cushion.conduct id ⟨⟩ = .ok first ∧
      cushion.table.response = .elastic ∧ cushion.table.Spread ∧
      Course Table.Heeded first (first.follow [.start, .advance 400, .step]) ∧
      ∃ conductor, (first.follow [.start, .advance 400, .step]).agents = [conductor] ∧
        .pair 0 1 ∈ conductor.settled ∧
        (conductor.phase ≠ .idle → ∃ (ready : Conductor) (delay : Millis) (signal : Signal),
          ready.settled = conductor.settled ∧
            ready.follows (first.follow [.start, .advance 400, .step]).stage.table =
              some (delay, signal, conductor)) ∧
        (∀ contact ∈ conductor.settled,
          contact.At (first.follow [.start, .advance 400, .step]).stage.table ∧
            ¬contact.Approaches (first.follow [.start, .advance 400, .step]).stage.table) ∧
        (first.follow [.start, .advance 400, .step]).stage.table.nextContact? conductor.settled =
          (first.follow [.start, .advance 400, .step]).stage.table.nextContact? [] := by
  obtain ⟨first, event, rest, made, same, popped, tells⟩ := exists_cushion_run
  obtain ⟨poised, table, _⟩ := Poised.of_conduct made
  obtain ⟨_, ready, _⟩ := poised.follow [.start, .advance 400]
  have met : (first.follow [.start, .advance 400, .step]).stage.table = parted := by
    obtain ⟨_, _, _, _, _, _, effect⟩ := ready.meets popped tells
    rw [same, effect?_cushion] at effect
    exact (Option.some.inj effect).symm
  have course : Course Table.Heeded first (first.follow [.start, .advance 400, .step]) := by
    apply Course.move .step (.move (.advance 400) (.move .start .begin ?_) ?_)
    · exact fun _ => met.symm ▸ heeded_parted
    · exact fun _ => (poised.table_start.trans table).symm ▸ heeded_cushion
    · intro arms
      cases arms
  obtain ⟨waiting, alone, held⟩ := ready.settles popped (by rw [tells]; rfl)
  obtain ⟨conductor, agents, hidden⟩ := settled_never_approaches made rfl spread_cushion course
  obtain rfl : waiting = conductor := by
    simpa using alone.symm.trans agents
  exact ⟨first, made, rfl, spread_cushion, course, waiting, agents, held, hidden⟩

end Simulation

end Billiard
