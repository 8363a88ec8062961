import Mathlib.Data.FinEnum
import Billiard.Proofs.Ahead
import Billiard.Proofs.Beats
import Billiard.Proofs.Clearance
import Billiard.Proofs.Standstill

/-!
Time moves on unless walls turn balls without end. The time until the next beat is never used up,
so whatever goes on at one instant is contacts, each open when it comes (`Poised.standstill`). An
instant has no end exactly if walls turn balls without end at it, and apart from that every loop
ends (`time_moves_on`). It may come to that: delays are floored to whole milliseconds, so a ball
that crosses a corridor in less than one is turned at both of its walls forever
(`corridor_stands_still`).
-/

namespace Billiard

open Conductor (deflected)

/-- Nothing drifts in no time. -/
theorem Table.drift_zero (table : Table ℝ) : table.drift 0 = table := by
  have still (ball : Ball ℝ) : ball.drift 0 = ball := by
    have zero : ((0 : Millis).toNat : ℝ) / 1000.0 = 0 := by simp
    change { ball with position := ball.position +
      ball.velocity * (((0 : Millis).toNat : ℝ) / 1000.0) } = ball
    rw [zero, Vec.smul_eq, Vec.add_eq]
    simp
  have balls : table.balls.map (·.drift 0) = table.balls := by
    simp [still]
  calc table.drift 0 = { table with balls := table.balls.map (·.drift 0) } := rfl
    _ = table := by rw [balls]

namespace Simulation

variable {K C : Type} [Scalar K] [Canvas K C] {simulation after : Simulation K C Conductor}
  {conductor waiting : Conductor} {event : Event} {rest : Agenda} {t : Instant}
  {result : Except (Break K) Unit}

namespace Poised

omit [Canvas K C] in
/-- An event other than a key leaves only contacts of its own instant settled. -/
theorem Delivers.settledAt
    (delivers : Delivers simulation conductor event rest result after waiting)
    (recurs : event.signal.recurs) : waiting.settledAt = event.due := by
  cases delivers with
  | key key _ _ => simp [key, Signal.recurs] at recurs
  | rearms _ reacts arms =>
    rw [arms.kept.2.1, Conductor.settledAt_of_reaction? reacts]

end Poised

section Exact

variable {C : Type} [Canvas ℝ C] {simulation : Simulation ℝ C Conductor}

/-- What follows at an instant at which the conductor has already reacted: a contact that is open,
has its effect and is settled. -/
theorem Poised.standstill (poised : Poised simulation conductor) (paced : conductor.Paced)
    (next : Poised simulation.stepNext.2 waiting)
    (popped : simulation.stage.agenda.pop? = some (event, rest)) (recurs : event.signal.recurs)
    (early : event.due < Instant.last) (here : conductor.settledAt = event.due) :
    ∃ contact : Contact, event.signal = .ofContact contact 0 ∧
      contact.At simulation.stage.table ∧ contact ∉ conductor.settled ∧
      contact.effect? simulation.stage.table = some simulation.stepNext.2.stage.table ∧
      waiting.settled = (conductor.settle simulation.stage.table
        simulation.stepNext.2.stage.table contact).settled := by
  obtain ⟨waiting', _, _, next', delivers⟩ := poised.stepNext popped
  obtain rfl := next.unique next'
  obtain ⟨_, _, kind⟩ := poised.head_cases popped
  generalize simulation.stepNext.2 = after at delivers ⊢
  cases delivers with
  | key key _ _ => simp [key, Signal.recurs] at recurs
  | rearms awaited reacts arms =>
    obtain ⟨_, _, ready, delay, follows, due⟩ := kind.resolve_left (by
      rintro ⟨⟨way, key⟩, _⟩
      simp [key, Signal.recurs] at recurs)
    obtain rfl := Instant.delay_eq_zero early (due.trans (by rw [here])).symm
    rcases Conductor.reaction_of_follows follows reacts with
      ⟨contact, found, announces, collided⟩ | ⟨_, spent, beats, _⟩
    · obtain ⟨member, isOpen⟩ := Table.nextContact?_mem found
      have there := Table.at_of_mem_forecasts member
      obtain ⟨met, effect⟩ := Option.isSome_iff_exists.1 (Contact.effect?_isSome there)
      have same : conductor.atInstant event.due = conductor := if_pos here.symm
      simp only [Conductor.collided, Table.drift_zero, effect, Option.getD_some, same,
        Prod.mk.injEq] at collided
      obtain ⟨rfl, rfl⟩ := collided
      exact ⟨contact, announces, there, isOpen, effect, arms.kept.1⟩
    · obtain ⟨length, beats⟩ := Option.ne_none_iff_exists'.1 beats
      exact absurd spent (UInt64.ne_of_lt (paced length beats).1)

/-- Deliveries at one instant do not go on unless walls turn balls. -/
theorem exists_turnsAt (early : t < Instant.last)
    (paced : ∀ n, ∃ conductor, Poised (simulation.ahead n) conductor ∧ conductor.Paced)
    (sizes : ∀ n, ∀ ball ∈ (simulation.ahead n).stage.table.balls, 0 < ball.radius)
    (delivers : ∀ n, simulation.DeliversAt t n)
    (recurs : ∀ n event rest, (simulation.ahead n).stage.agenda.pop? = some (event, rest) →
      event.signal.recurs) :
    ∃ n, simulation.TurnsAt t n := by
  choose conductors poised paced using paced
  choose events rests popped due using fun n => Agenda.exists_pop?_of_nextDue? (delivers n)
  have recurs (n : ℕ) := recurs n _ _ (popped n)
  have here (n : ℕ) : (conductors (n + 1)).settledAt = t := by
    obtain ⟨waiting, _, _, next, delivered⟩ := (poised n).stepNext (popped n)
    rw [← ahead_succ] at next
    obtain rfl := (poised (n + 1)).unique next
    exact (delivered.settledAt (recurs n)).trans (due n)
  have contact (n : ℕ) := (poised (n + 1)).standstill (paced (n + 1))
    (ahead_succ (n + 1) simulation ▸ poised (n + 2)) (popped (n + 1)) (recurs (n + 1))
    (due (n + 1) ▸ early) ((here n).trans (due (n + 1)).symm)
  choose contacts announces there isOpen met settles using contact
  have still : Standstill (fun n => (simulation.ahead (n + 1)).stage.table)
      (fun n => conductors (n + 1)) contacts := by
    refine ⟨there, isOpen, ?_, ?_⟩
    · intro n
      simp only [ahead_succ (n + 1), met n]
    · intro n
      simp only [ahead_succ (n + 1), settles n]
  obtain ⟨n, ball, side, wall, turned⟩ := still.exists_turn (sizes 1)
  refine ⟨n + 1, events (n + 1), rests (n + 1), ball, side, 0, popped (n + 1), due (n + 1), ?_, ?_⟩
  · rw [announces n, wall]
    rfl
  · simpa [deflected] using turned

variable {scene : Scene ℝ} {canvas : C} {first later : Simulation ℝ C Conductor}
  {horizon : Instant}

/-- An instant before the last one has no end exactly if walls turn balls without end at it. -/
theorem finite_deliversAt_iff (made : scene.conduct id canvas = .ok first)
    (reached : first.Reaches later) (early : t < Instant.last) :
    {n | later.DeliversAt t n}.Finite ↔ {n | later.TurnsAt t n}.Finite := by
  constructor
  · intro few
    apply few.subset
    intro n turns
    exact TurnsAt.deliversAt turns
  intro few
  by_contra endless
  obtain ⟨_, poised, _⟩ := Poised.exists_paced made reached
  obtain ⟨delivered, delivers⟩ := poised.eventually_deliversAt endless
  obtain ⟨pressed, recurs⟩ := poised.eventually_recurs
  obtain ⟨turned, bound⟩ := few.bddAbove
  let start := max (max delivered pressed) (turned + 1)
  have sound := (Scene.fault?_eq_none_iff_sound.1 (Poised.of_conduct made).2.2).2
  have turns : ∃ n, (later.ahead start).TurnsAt t n := by
    apply exists_turnsAt early
    · intro n
      obtain ⟨conductor, poised, paced, _⟩ :=
        Poised.exists_paced made (reached.ahead (start + n))
      rw [ahead_add] at poised
      exact ⟨conductor, poised, paced⟩
    · intro n
      obtain ⟨_, _, _, _, alike⟩ := Poised.exists_paced made (reached.ahead (start + n))
      rw [ahead_add] at alike
      exact (sound.of_resembles alike).balls
    · intro n
      rw [deliversAt_ahead]
      apply delivers
      omega
    · intro n
      rw [← ahead_add]
      apply recurs
      omega
  obtain ⟨n, turns⟩ := turns
  have late : start + n ≤ turned := bound (turnsAt_ahead.1 turns)
  omega

/-- The deliveries within a horizon end exactly if no wall turns a ball without end within it. -/
theorem exists_endsAt_iff (made : scene.conduct id canvas = .ok first)
    (reached : first.Reaches later) (early : horizon < Instant.last) :
    (∃ n, later.EndsAt horizon n) ↔ ∀ t ≤ horizon, {n | later.TurnsAt t n}.Finite := by
  constructor
  · rintro ⟨n, ends⟩ t within
    obtain ⟨_, poised, _⟩ := Poised.exists_paced made reached
    apply (Set.finite_Iio (n + 1)).subset
    intro m turns
    exact poised.lt_of_turnsAt ends within turns
  · intro few
    have finite : (⋃ t ∈ {t : Instant | t ≤ horizon}, {n | later.DeliversAt t n}).Finite := by
      apply (Set.toFinite _).biUnion
      intro t within
      apply (finite_deliversAt_iff made reached (UInt64.lt_of_le_of_lt within early)).2
      exact few t within
    obtain ⟨n, beyond⟩ := finite.exists_notMem
    refine ⟨n, .inl ?_⟩
    intro due next
    by_contra within
    rw [UInt64.not_lt] at within
    exact beyond (Set.mem_biUnion within next)

/-- Simulated time moves on, and loops over deliveries end, exactly as long as walls do not turn
balls without end at one instant. This is for every scene that passes its check, wherever calls
have led, and for every instant but the last. -/
theorem time_moves_on (made : scene.conduct id canvas = .ok first)
    (reached : first.Reaches later) :
    (∀ t < Instant.last,
      ({n | later.DeliversAt t n}.Finite ↔ {n | later.TurnsAt t n}.Finite)) ∧
    (∀ horizon < Instant.last,
      ((∃ rounds outcome, later.runUntil rounds horizon = some outcome) ↔
        ∀ t ≤ horizon, {n | later.TurnsAt t n}.Finite)) ∧
    (later.now < Instant.last →
      ((∃ rounds outcome, later.dispatchDue rounds = some outcome) ↔
        ∀ t ≤ later.now, {n | later.TurnsAt t n}.Finite)) := by
  refine ⟨?_, ?_, ?_⟩
  · intro t early
    exact finite_deliversAt_iff made reached early
  · intro horizon early
    rw [exists_runUntil_iff, exists_endsAt_iff made reached early]
  · intro early
    rw [exists_dispatchDue_iff, exists_endsAt_iff made reached early]

/-- Time moves on in the lane as long as its wall does not turn the ball without end. -/
theorem time_moves_on_lane :
    ∃ first : Simulation ℝ (Blank ℝ) Conductor, lane.conduct id ⟨⟩ = .ok first ∧
      first.Reaches first.start.2 ∧
      (∀ t < Instant.last,
        ({n | first.start.2.DeliversAt t n}.Finite ↔ {n | first.start.2.TurnsAt t n}.Finite)) ∧
      (∀ horizon < Instant.last,
        ((∃ rounds outcome, first.start.2.runUntil rounds horizon = some outcome) ↔
          ∀ t ≤ horizon, {n | first.start.2.TurnsAt t n}.Finite)) ∧
      (first.start.2.now < Instant.last →
        ((∃ rounds outcome, first.start.2.dispatchDue rounds = some outcome) ↔
          ∀ t ≤ first.start.2.now, {n | first.start.2.TurnsAt t n}.Finite)) := by
  obtain ⟨first, made⟩ := Scene.exists_conduct lane_fine (⟨⟩ : Blank ℝ)
  have reached : first.Reaches first.start.2 := .call .start 0 .begin rfl
  exact ⟨first, made, reached, time_moves_on made reached⟩

end Exact

/-- Two walls, and between them a ball that heads for one of them. -/
def corridor (speed : K) : Scene K where
  table :=
    { walls := [upright 11.0, upright (-11.0)]
      balls := [⟨Vec.zero, ⟨speed, 0.0⟩, 10.0⟩]
      turret := Scene.standardTurret
      reach := .line
      response := .pass }
  interval := none

section Corridor

/-- The wall of the corridor on one side or the other. -/
private noncomputable def bank (far : Bool) : Segment ℝ := upright (cond far (-11.0) 11.0)

/-- The ball in the corridor on its way there or back. -/
private noncomputable def runner (back : Bool) : Ball ℝ :=
  ⟨Vec.zero, ⟨cond back (-4000) 4000, 0.0⟩, 10.0⟩

/-- The table while the ball is on its way there or back. -/
private noncomputable def crossing (back : Bool) : Table ℝ :=
  (corridor (cond back (-4000) 4000)).table

private theorem runner_rate (back far : Bool) :
    (runner back).rate (bank far) = cond back 80000 (-80000) := by
  rw [bank, rate_upright, runner]
  cases back <;> norm_num

private theorem runner_offset (back far : Bool) :
    (runner back).offset (bank far) = cond far (-220) 220 := by
  rw [bank, offset_upright, runner, Vec.zero_eq]
  cases far <;> norm_num

private theorem runner_berth (back far : Bool) : (runner back).berth (bank far) = 200 := by
  rw [Ball.berth, bank, upright_length, runner]
  norm_num

/-- The ball is at the wall ahead in no time, and never at the one behind. -/
private theorem untilWall?_runner (back far : Bool) :
    (runner back).untilWall? .line (bank far) = if far = back then some 0 else none := by
  change ((runner back).lineContact? (bank far)).bind Scalar.wholeMillis? = _
  have sound : (bank far).isDegenerate = false := upright_sound _
  have sign : cond far (-1) 1 = (1 : ℝ) ∨ cond far (-1) 1 = (-1 : ℝ) := by cases far <;> simp
  have clear : (runner back).berth (bank far) ≤
      cond far (-1) 1 * (runner back).offset (bank far) := by
    rw [runner_berth, runner_offset]
    cases far <;> norm_num
  split
  · next same =>
    subst same
    have fast : Scalar.negligible ≤ |(runner far).rate (bank far)| := by
      rw [runner_rate]
      change (1e-12 : ℝ) ≤ _
      cases far <;> norm_num
    have thick : Prediction.instantaneous <
        2000 * (runner far).berth (bank far) / |(runner far).rate (bank far)| := by
      rw [runner_rate, runner_berth]
      change (1e-6 : ℝ) < _
      cases far <;> norm_num
    have approaching : cond far (-1) 1 * (runner far).rate (bank far) < 0 := by
      rw [runner_rate]
      cases far <;> norm_num
    rw [Ball.lineContact?_of_approaching sound sign clear fast thick approaching, Ball.arrival_eq]
    refine Scalar.wholeMillis?_of_lt_one ?_ ?_
    · rw [runner_offset, runner_berth, runner_rate]
      cases far <;> norm_num
    · rw [runner_offset, runner_berth, runner_rate]
      cases far <;> norm_num
  · next other =>
    cases found : (runner back).lineContact? (bank far) with
    | none => rfl
    | some time =>
      have approaching := Ball.approaching_of_lineContact? sound sign clear
        (by rw [runner_berth]; norm_num) found
      obtain rfl : back = !far := by cases far <;> cases back <;> simp_all
      rw [runner_rate] at approaching
      cases far <;> norm_num at approaching

private theorem getElem?_walls_crossing {back : Bool} {side : WallId} {line : Segment ℝ}
    (there : (crossing back).walls[side]? = some line) : ∃ far : Bool, side = far.toNat ∧
      line = bank far := by
  match side with
  | 0 => exact ⟨false, rfl, (Option.some.inj there).symm⟩
  | 1 => exact ⟨true, rfl, (Option.some.inj there).symm⟩

/-- All that is ahead in the corridor is the wall ahead. -/
private theorem mem_forecasts_crossing {back : Bool} {forecast : Forecast} :
    forecast ∈ (crossing back).forecasts ↔ forecast = ⟨0, .wall 0 back.toNat⟩ := by
  obtain ⟨delay, contact⟩ := forecast
  cases contact with
  | wall ball side =>
    rw [Table.wall_mem_forecasts]
    constructor
    · rintro ⟨hit, line, found, there, soon⟩
      obtain ⟨far, rfl, rfl⟩ := getElem?_walls_crossing there
      obtain ⟨rfl, rfl⟩ : ball = 0 ∧ hit = runner back := by
        match ball with
        | 0 => exact ⟨rfl, (Option.some.inj found).symm⟩
      change (runner back).untilWall? .line (bank far) = _ at soon
      rw [untilWall?_runner] at soon
      split at soon
      · next same =>
        cases soon
        rw [same]
      · cases soon
    · rintro same
      cases same
      refine ⟨runner back, bank back, rfl, ?_, ?_⟩
      · cases back <;> rfl
      · change (runner back).untilWall? .line (bank back) = _
        rw [untilWall?_runner, if_pos rfl]
  | pair a b =>
    rw [Table.pair_mem_forecasts]
    constructor
    · rintro ⟨less, _, second, _, found, _⟩
      have bound : b < 1 := (List.getElem?_eq_some_iff.1 found).1
      exact absurd (Nat.lt_of_lt_of_le less (Nat.le_of_lt_succ bound)) (Nat.not_lt_zero a)
    · rintro same
      cases same

/-- Off an upright wall, a ball goes back the other way. -/
theorem bounce_upright (x : ℝ) (ball : Ball ℝ) :
    ball.bounce (upright x) = { ball with velocity := ⟨-ball.velocity.x, ball.velocity.y⟩ } := by
  have long : ¬(400 : ℝ) < Scalar.negligible := by
    change ¬(400 : ℝ) < 1e-12
    norm_num
  have along : ball.velocity.along (upright x).span = ⟨0, ball.velocity.y⟩ := by
    have length : (upright x).span.normSq = 400 := by
      rw [upright_span, Vec.normSq_eq]
      norm_num
    rw [Vec.along, length, if_neg long, upright_span, Vec.dot_eq, Vec.smul_eq]
    refine Vec.eq_of_parts ?_ ?_ <;> simp only <;> ring
  have across : ball.velocity.along (upright x).across = ⟨ball.velocity.x, 0⟩ := by
    have turned : (upright x).across = ⟨-20, 0⟩ := by
      rw [Segment.across, upright_span, Vec.quarterTurn_eq]
    have length : (upright x).across.normSq = 400 := by
      rw [turned, Vec.normSq_eq]
      norm_num
    rw [Vec.along, length, if_neg long, turned, Vec.dot_eq, Vec.smul_eq]
    refine Vec.eq_of_parts ?_ ?_ <;> simp only <;> ring
  rw [Ball.bounce, upright_sound, along, across, Vec.sub_eq]
  simp

/-- At the wall, the ball turns back. -/
private theorem effect?_crossing (back : Bool) :
    (Contact.wall 0 back.toNat).effect? (crossing back) = some (crossing !back) := by
  have turned : (runner back).bounce (bank back) = runner (!back) := by
    rw [bank, bounce_upright, runner, runner]
    cases back <;> norm_num
  have bounced : (Contact.wall 0 back.toNat).effect? (crossing back) =
      some { crossing back with balls := [(runner back).bounce (bank back)] } := by
    cases back <;> rfl
  rw [bounced, turned]
  rfl

private theorem velocity?_crossing_ne (back : Bool) :
    (crossing !back).velocity? 0 ≠ (crossing back).velocity? 0 := by
  have velocity (back : Bool) :
      (crossing back).velocity? 0 = some ⟨cond back (-4000) 4000, 0.0⟩ := rfl
  rw [velocity, velocity]
  cases back <;> norm_num

/-- The conductor has the wall of the corridor ahead of it that the ball gets to at once. -/
private structure Crosses {C : Type} [Canvas ℝ C] (back : Bool)
    (simulation : Simulation ℝ C Conductor) (conductor : Conductor) : Prop where
  poised : Poised simulation conductor
  table : simulation.stage.table = crossing back
  silent : conductor.interval = none
  present : conductor.settledAt = 0
  pending : ∃ event, simulation.stage.agenda.toList = [event] ∧ event.due = 0 ∧
    event.signal = .wall 0 back.toNat 0

/-- What follows in the corridor is the wall ahead, unless it is settled. -/
private theorem follows_crossing {back : Bool} {ready : Conductor} (silent : ready.interval = none)
    (isOpen : .wall 0 back.toNat ∉ ready.settled) :
    ready.follows (crossing back) =
      some (0, .wall 0 back.toNat 0, { ready with phase := .contact }) := by
  have next : (crossing back).nextContact? ready.settled = some ⟨0, .wall 0 back.toNat⟩ := by
    cases found : (crossing back).nextContact? ready.settled with
    | none =>
      have settled := Table.nextContact?_eq_none.1 found _ (mem_forecasts_crossing.2 rfl)
      exact absurd settled isOpen
    | some forecast =>
      rw [mem_forecasts_crossing.1 (Table.nextContact?_mem found).1]
  unfold Conductor.follows Conductor.followUp?
  split
  · next paced => simp [silent] at paced
  · next same _ =>
    rw [next, Option.some.injEq] at same
    cases same
    rfl
  · next nothing _ => simp [next] at nothing
  · next nothing _ => simp [next] at nothing

private theorem Crosses.of_arms {C : Type} [Canvas ℝ C] {back : Bool} {ready waiting : Conductor}
    {after : Simulation ℝ C Conductor} {agenda : Agenda} {result : Except (Break ℝ) Unit}
    (poised : Poised after waiting) (table : after.stage.table = crossing back)
    (silent : ready.interval = none) (present : ready.settledAt = 0)
    (isOpen : .wall 0 back.toNat ∉ ready.settled) (free : agenda.toList = [])
    (arms : ready.Arms ⟨0, 0⟩ (crossing back) agenda (waiting, result) after.stage.agenda) :
    Crosses back after waiting := by
  have follows := follows_crossing silent isOpen
  obtain ⟨_, settledAt, interval⟩ := arms.kept
  refine ⟨poised, table, interval.trans silent, settledAt.trans present, ?_⟩
  generalize after.stage.agenda = rearmed at arms ⊢
  cases arms with
  | stalls nothing => simp [nothing] at follows
  | @waits delay signal waiting armed =>
    rw [armed, Option.some.injEq, Prod.mk.injEq, Prod.mk.injEq] at follows
    obtain ⟨rfl, rfl, _⟩ := follows
    have pending := Agenda.toList_schedule (agenda.withdraw 0).2 0 0 (.wall 0 back.toNat 0)
    rw [Agenda.toList_withdraw, free, List.filter_nil, List.perm_singleton] at pending
    exact ⟨_, pending, rfl, rfl⟩

/-- Crossing the corridor leads to crossing it the other way, at once. -/
private theorem Crosses.stepNext {C : Type} [Canvas ℝ C] {back : Bool} {conductor : Conductor}
    {simulation : Simulation ℝ C Conductor} (crosses : Crosses back simulation conductor) :
    simulation.TurnsAt 0 0 ∧ ∃ waiting, Crosses (!back) simulation.stepNext.2 waiting := by
  obtain ⟨event, list, due, signal⟩ := crosses.pending
  obtain ⟨rest, popped, free⟩ := Agenda.exists_pop? list
  obtain ⟨waiting, result, _, poised, delivers⟩ := crosses.poised.stepNext popped
  obtain ⟨ready, reacts, arms⟩ : ∃ ready : Conductor,
      conductor.reaction? event.due event.signal simulation.stage.table =
          some (simulation.stepNext.2.stage.table, ready) ∧
        ready.Arms ⟨0, event.due⟩ simulation.stepNext.2.stage.table rest (waiting, result)
          simulation.stepNext.2.stage.agenda := by
    generalize simulation.stepNext.2 = after at delivers ⊢
    cases delivers with
    | key key _ _ => simp [signal] at key
    | rearms _ reacts arms => exact ⟨_, reacts, arms⟩
  rw [due, signal, crosses.table] at reacts
  have collided : conductor.collided 0 (.wall 0 back.toNat) 0 (crossing back) =
      (simulation.stepNext.2.stage.table, ready) := by
    unfold Conductor.reaction? at reacts
    cases phase : conductor.phase with
    | idle => simp [phase] at reacts
    | contact => simpa [phase] using reacts
    | beat => simp [phase] at reacts
  have present : conductor.atInstant 0 = conductor := if_pos crosses.present.symm
  simp only [Conductor.collided, Table.drift_zero, effect?_crossing, Option.getD_some, present,
    Prod.mk.injEq] at collided
  obtain ⟨table, settles⟩ := collided
  rw [due, ← table] at arms
  refine ⟨⟨event, rest, 0, back.toNat, 0, popped, due, signal, ?_⟩, waiting, ?_⟩
  · rw [ahead_succ, ahead, ← table, crosses.table]
    exact velocity?_crossing_ne back
  · refine .of_arms poised table.symm (settles ▸ crosses.silent) (settles ▸ crosses.present) ?_ free
      arms
    rw [← settles]
    intro settled
    rcases Conductor.mem_settle.1 settled with same | ⟨_, kept⟩
    · cases back <;> cases same
    · have turned : deflected (crossing back) (crossing !back) 0 := by
        simpa [deflected] using velocity?_crossing_ne back
      have apart := kept 0 (List.mem_singleton_self 0) turned
      simp [Contact.involves, Contact.balls] at apart

/-- A checked scene at which time stands still: the ball turns at one wall after the other, without
end, and no loop over deliveries ends. -/
theorem corridor_stands_still :
    ∃ first : Simulation ℝ (Blank ℝ) Conductor, (corridor 4000).conduct id ⟨⟩ = .ok first ∧
      first.Reaches first.start.2 ∧
      ¬{n | first.start.2.DeliversAt 0 n}.Finite ∧
      (∀ rounds horizon, first.start.2.runUntil rounds horizon = none) ∧
      ∀ rounds, first.start.2.dispatchDue rounds = none := by
  have fine : (corridor (4000 : ℝ)).fault? = none := by
    refine Scene.fault?_eq_none_iff_sound.2 ⟨by simp [corridor], ?_, ?_⟩
    · intro wall member
      obtain rfl | rfl : wall = upright 11.0 ∨ wall = upright (-11.0) := by
        simpa [corridor] using member
      · exact upright_sound _
      · exact upright_sound _
    · intro ball member
      obtain rfl := List.mem_singleton.1 member
      norm_num
  obtain ⟨first, made⟩ := Scene.exists_conduct fine (⟨⟩ : Blank ℝ)
  obtain ⟨poised, table, _⟩ := Poised.of_conduct made
  obtain ⟨waiting, started, starts⟩ := poised.start
  have crosses : ∃ conductor, Crosses false first.start.2 conductor := by
    obtain ⟨clock, _, free⟩ := begins_of_conduct made
    refine ⟨waiting, ?_⟩
    generalize first.start.1 = result at starts
    generalize first.start.2 = after at starts started ⊢
    cases starts with
    | rearms same arms =>
      rw [clock, table] at arms
      exact .of_arms started (same.trans table) rfl rfl List.not_mem_nil free arms
  have turns (n : ℕ) : first.start.2.TurnsAt 0 n := by
    have crosses : ∃ back conductor, Crosses back (first.start.2.ahead n) conductor := by
      induction n with
      | zero => exact ⟨false, crosses⟩
      | succ n ih =>
        obtain ⟨back, _, crosses⟩ := ih
        rw [ahead_succ]
        exact ⟨!back, crosses.stepNext.2⟩
    obtain ⟨_, _, crosses⟩ := crosses
    exact turnsAt_ahead.1 crosses.stepNext.1
  have endless (n : ℕ) (horizon : Instant) : ¬first.start.2.EndsAt horizon n := by
    intro ends
    have less := started.lt_of_turnsAt ends UInt64.zero_le (turns (n + 1))
    omega
  refine ⟨first, made, .call .start 0 .begin rfl, ?_, ?_, ?_⟩
  · have all : {n | first.start.2.DeliversAt 0 n} = Set.univ :=
      Set.eq_univ_of_forall fun n => (turns n).deliversAt
    rw [all]
    exact Set.infinite_univ
  · intro rounds horizon
    cases ended : first.start.2.runUntil rounds horizon with
    | none => rfl
    | some outcome =>
      obtain ⟨n, ends⟩ := exists_runUntil_iff.1 ⟨rounds, outcome, ended⟩
      exact absurd ends (endless n horizon)
  · intro rounds
    cases ended : first.start.2.dispatchDue rounds with
    | none => rfl
    | some outcome =>
      obtain ⟨n, ends⟩ := exists_dispatchDue_iff.1 ⟨rounds, outcome, ended⟩
      exact absurd ends (endless n _)

end Corridor

end Simulation

end Billiard
