import Billiard.Proofs.Repeats

/-!
The last instant has no end. What would lie beyond it happens then, but the balls still move for as
long as they would have until then. So where there are beats there is always a next event, and
beat after beat the balls move for one more interval, whether time is left for it or not
(`Beating.ahead`). Only an earlier instant without end keeps the last one from coming, and then no
run gets past it (`last_instant_has_no_end`): a ball rolls on forever while the clock stands still
(`expanse_rolls_on`).
-/

namespace Billiard

theorem Instant.le_last (t : Instant) : t ≤ last := by
  have bound := t.toNat_lt
  rw [UInt64.le_iff_toNat_le, toNat_last]
  omega

theorem Instant.last_after (delay : Millis) : last.after delay = last := by
  apply UInt64.toNat_inj.1
  rw [toNat_after]
  omega

theorem Instant.after_last (now : Instant) : now.after last = last := by
  apply UInt64.toNat_inj.1
  rw [toNat_after]
  omega

/-- Where there are beats, arming leaves an event to wait for, and up to it and on to the next beat
the balls move for what remains, however close the last instant is. -/
theorem Conductor.elapsed_of_arms {K : Type} [Scalar K] {visit : Visit} {ready : Conductor}
    {table : Table K} {agenda rearmed : Agenda} {outcome : Outcome K Conductor}
    {interval : Millis} (arms : Arms visit ready table agenda outcome rearmed)
    (beats : ready.interval = some interval) :
    outcome.2 = .ok () ∧ ∃ event, rearmed.awaitedBy visit.agent = [event] ∧
      event.signal.elapsed.toNat + outcome.1.slack = ready.remaining.toNat := by
  cases arms with
  | stalls nothing => exact absurd nothing (follows_ne_none beats)
  | @waits delay signal waiting follows =>
    refine ⟨rfl, _, Agenda.awaitedBy_schedule_withdraw (recurs_of_follows follows), ?_⟩
    change signal.elapsed.toNat + waiting.slack = _
    rw [Signal.elapsed_of_follows follows]
    rcases follows_cases follows with
      ⟨_, _, _, _, ⟨silent, _⟩ | ⟨_, early, rfl⟩⟩ | ⟨_, rfl, _, rfl, _⟩
    · simp [silent] at beats
    · have less := UInt64.toNat_sub_of_le _ _ (UInt64.le_of_lt early)
      rw [UInt64.lt_iff_toNat_lt] at early
      simp only [slack]
      omega
    · rfl

namespace Simulation

variable {K C : Type} [Scalar K] [Canvas K C] {simulation after : Simulation K C Conductor}
  {conductor ready waiting : Conductor} {event : Event} {rest agenda : Agenda}
  {interval : Millis} {now : Instant} {table : Table K} {result : Except (Break K) Unit}

omit [Scalar K] [Canvas K C] in
/-- For how long the balls move before the next beat: up to the event that is waited for, and on
from there. -/
def untilBeat (simulation : Simulation K C Conductor) : Nat :=
  ((simulation.stage.agenda.awaitedBy 0).map (·.signal.elapsed.toNat)).sum +
    (simulation.agents.map (·.slack)).sum

theorem Poised.untilBeat (poised : Poised simulation conductor) :
    simulation.untilBeat =
      ((simulation.stage.agenda.awaitedBy 0).map (·.signal.elapsed.toNat)).sum +
        conductor.slack := by
  rw [Simulation.untilBeat, poised.alone, List.map_singleton, List.sum_singleton]

/-- A delivery leaves the clock at the instant of its event, unless it is past it already, and is
noted. -/
theorem Poised.clock_stepNext (poised : Poised simulation conductor)
    (popped : simulation.stage.agenda.pop? = some (event, rest)) :
    simulation.stepNext.2.now = simulation.now.advance event.due ∧
      simulation.stepNext.2.deliveries = simulation.deliveries ++ [event] := by
  have here : (simulation.withAgenda rest).agents[event.target]? = some conductor := by
    rw [(poised.head_cases popped).1]
    exact congrArg (·[0]?) poised.alone
  rw [stepNext_of_nextDue? (Agenda.nextDue?_of_pop? popped), step_advance_of_pop? popped]
  exact ⟨rfl, deliveries_deliver here⟩

/-- The conductor waits for an event, and the balls move for some time before the next beat, but
for no longer than an interval. -/
structure Beating (interval : Millis) (simulation : Simulation K C Conductor)
    (conductor : Conductor) : Prop where
  poised : Poised simulation conductor
  regular : conductor.interval = some interval
  paced : conductor.Paced
  awaits : simulation.stage.agenda.awaitedBy 0 ≠ []
  moves : 0 < simulation.untilBeat
  within : simulation.untilBeat ≤ interval.toNat

namespace Beating

/-- Arming leaves what remains before the next beat. -/
theorem of_arms (poised : Poised after waiting) (paced : ready.Paced)
    (regular : ready.interval = some interval)
    (arms : ready.Arms ⟨0, now⟩ table agenda (waiting, result) after.stage.agenda) :
    Beating interval after waiting ∧ result = .ok () ∧
      after.untilBeat = ready.remaining.toNat := by
  obtain ⟨armed, event, awaited, adds⟩ := Conductor.elapsed_of_arms arms regular
  have left : after.untilBeat = ready.remaining.toNat := by
    rw [poised.untilBeat, awaited, List.map_singleton, List.sum_singleton]
    exact adds
  obtain ⟨some, most⟩ := paced interval regular
  refine ⟨⟨poised, arms.kept.2.2.trans regular, paced.of_arms arms, ?_, ?_, ?_⟩, armed, left⟩
  · rw [awaited]
    exact List.cons_ne_nil _ _
  · rw [left]
    exact UInt64.lt_iff_toNat_lt.1 some
  · rw [left]
    exact UInt64.le_iff_toNat_le.1 most

/-- What changes nothing about what is waited for keeps the beat. -/
theorem rests (beating : Beating interval simulation conductor) (poised : Poised after conductor)
    (awaited : after.stage.agenda.awaitedBy 0 = simulation.stage.agenda.awaitedBy 0) :
    Beating interval after conductor ∧ after.untilBeat = simulation.untilBeat := by
  have left : after.untilBeat = simulation.untilBeat := by
    rw [poised.untilBeat, awaited, beating.poised.untilBeat]
  exact ⟨⟨poised, beating.regular, beating.paced, awaited ▸ beating.awaits, left ▸ beating.moves,
    left ▸ beating.within⟩, left⟩

/-- Starts keep the beat, the first one and every other. -/
theorem start (poised : Poised simulation conductor) (paced : conductor.Paced)
    (regular : conductor.interval = some interval) :
    ∃ waiting, Beating interval simulation.start.2 waiting := by
  obtain ⟨waiting, started, starts⟩ := poised.start
  refine ⟨waiting, ?_⟩
  generalize simulation.start.1 = result at starts
  generalize simulation.start.2 = after at starts started ⊢
  cases starts with
  | rearms _ arms => exact (of_arms started (paced.restarted _) regular arms).1

/-- Every move keeps the beat. -/
theorem take (beating : Beating interval simulation conductor) (move : Move) :
    ∃ waiting, Beating interval (move.take simulation) waiting := by
  by_cases isStart : move = .start
  · subst isStart
    exact start beating.poised beating.paced beating.regular
  · obtain ⟨waiting, poised, passes⟩ := beating.poised.pass isStart
    refine ⟨waiting, ?_⟩
    generalize move.take simulation = after at poised passes ⊢
    cases passes with
    | rests _ awaited _ => exact (beating.rests poised awaited).1
    | turns _ _ awaited _ => exact (beating.rests poised awaited).1
    | reacts _ _ _ reacts arms =>
      have kept := (Conductor.retimes_of_reaction? reacts).1.trans beating.regular
      exact (of_arms poised (beating.paced.of_reaction? reacts) kept arms).1

/-- Wherever calls lead from a start, there is a next beat. -/
theorem of_reaches {scene : Scene K} {canvas : C} {first before later : Simulation K C Conductor}
    (regular : scene.interval = some interval) (made : scene.conduct id canvas = .ok first)
    (reached : first.Reaches before) (runs : before.start.2.Reaches later) :
    ∃ conductor, Beating interval later conductor := by
  obtain ⟨_, poised, paced, same, _⟩ := Poised.exists_paced made reached
  apply runs.induct (motive := fun last => ∃ conductor, Beating interval last conductor)
  · exact start poised paced (same.trans regular)
  · rintro simulation move ⟨_, beating⟩
    exact beating.take move

theorem exists_pop? (beating : Beating interval simulation conductor) :
    ∃ event rest, simulation.stage.agenda.pop? = some (event, rest) := by
  cases popped : simulation.stage.agenda.pop? with
  | none =>
    have nothing := Agenda.pop?_eq_none_iff.1 popped
    exact absurd (by rw [Agenda.awaitedBy, nothing, List.filter_nil]) beating.awaits
  | some pair => exact ⟨pair.1, pair.2, rfl⟩

/-- The next delivery succeeds and moves the balls for as long as it says, which brings the next
beat that much closer, whatever the clock shows; behind a beat, the next one is an interval
away. -/
theorem stepNext (beating : Beating interval simulation conductor)
    (popped : simulation.stage.agenda.pop? = some (event, rest)) :
    simulation.stepNext.1 = .ok (some event.signal) ∧
      (∃ waiting, Beating interval simulation.stepNext.2 waiting) ∧
      simulation.stepNext.2.stage.table = event.signal.play simulation.stage.table ∧
      simulation.stepNext.2.untilBeat + event.signal.elapsed.toNat =
        simulation.untilBeat + if event.signal.isBeat then interval.toNat else 0 := by
  obtain ⟨waiting, result, same, poised, delivers⟩ := beating.poised.stepNext popped
  rw [same]
  generalize simulation.stepNext.2 = after at poised delivers ⊢
  cases delivers with
  | key key table agenda =>
    have awaited : rest.awaitedBy 0 = simulation.stage.agenda.awaitedBy 0 := by
      simp [Agenda.awaitedBy_of_pop? popped, Event.recursFor, key, Signal.recurs]
    obtain ⟨beating, left⟩ := beating.rests poised (agenda ▸ awaited)
    refine ⟨rfl, ⟨_, beating⟩, ?_, ?_⟩
    · rw [table, key]
      rfl
    · rw [left, key]
      rfl
  | rearms awaited reacts arms =>
    obtain ⟨kept, retimes⟩ := Conductor.retimes_of_reaction? reacts
    obtain ⟨after, armed, left⟩ := of_arms poised (beating.paced.of_reaction? reacts)
      (kept.trans beating.regular) arms
    have now : event.signal.elapsed.toNat + conductor.slack = simulation.untilBeat := by
      rw [beating.poised.untilBeat, awaited, List.map_singleton, List.sum_singleton]
    refine ⟨by rw [armed]; rfl, ⟨_, after⟩, Signal.play_of_reaction? reacts, ?_⟩
    rw [left, Nat.add_comm]
    exact (retimes.aimed beating.paced beating.regular now).2

/-- However many deliveries later, the balls have moved for as long as the events said, and that is
an interval for every beat, but for what is left before the next one. -/
theorem ahead (beating : Beating interval simulation conductor) (n : ℕ) :
    (∃ waiting, Beating interval (simulation.ahead n) waiting) ∧
      ∃ events, events.length = n ∧
        (simulation.ahead n).deliveries = simulation.deliveries ++ events ∧
        (simulation.ahead n).stage.table = simulation.stage.table.played events ∧
        (simulation.ahead n).untilBeat + (events.map (·.signal.elapsed.toNat)).sum =
          simulation.untilBeat + beats events * interval.toNat := by
  induction n with
  | zero =>
    refine ⟨⟨_, beating⟩, [], rfl, (List.append_nil _).symm, rfl, ?_⟩
    simp [Simulation.ahead, beats]
  | succ n ih =>
    obtain ⟨⟨_, beating⟩, events, length, delivered, played, adds⟩ := ih
    obtain ⟨event, rest, popped⟩ := beating.exists_pop?
    obtain ⟨_, next, table, left⟩ := beating.stepNext popped
    rw [ahead_succ]
    refine ⟨next, events ++ [event], by simp [length], ?_, ?_, ?_⟩
    · rw [(beating.poised.clock_stepNext popped).2, delivered, List.append_assoc]
    · rw [table, played, Table.played, Table.played, List.foldl_append]
      rfl
    · rw [beats_concat, List.map_append, List.sum_append, List.map_singleton,
        List.sum_singleton, Nat.add_mul, ite_mul, Nat.one_mul, Nat.zero_mul]
      omega

/-- There is always a next delivery. -/
theorem exists_deliversAt (beating : Beating interval simulation conductor) (n : ℕ) :
    ∃ t, simulation.DeliversAt t n := by
  obtain ⟨⟨_, later⟩, _⟩ := beating.ahead n
  obtain ⟨event, _, popped⟩ := later.exists_pop?
  exact ⟨event.due, Agenda.nextDue?_of_pop? popped⟩

/-- Deliveries up to the last instant never end. -/
theorem not_endsAt (beating : Beating interval simulation conductor) (n : ℕ) :
    ¬simulation.EndsAt Instant.last n := by
  obtain ⟨⟨_, later⟩, _⟩ := beating.ahead n
  obtain ⟨event, _, popped⟩ := later.exists_pop?
  rintro (beyond | ⟨cause, failed⟩)
  · exact absurd (beyond _ (Agenda.nextDue?_of_pop? popped))
      (UInt64.not_lt.2 (Instant.le_last _))
  · rw [(later.stepNext popped).1] at failed
    cases failed

theorem runUntil_last (beating : Beating interval simulation conductor) (rounds : ℕ) :
    simulation.runUntil rounds Instant.last = none := by
  cases ended : simulation.runUntil rounds Instant.last with
  | none => rfl
  | some outcome =>
    obtain ⟨n, ends⟩ := exists_runUntil_iff.1 ⟨rounds, outcome, ended⟩
    exact absurd ends (beating.not_endsAt n)

theorem runFor_last (beating : Beating interval simulation conductor) (rounds : ℕ) :
    simulation.runFor rounds Instant.last = none := by
  rw [runFor, Instant.after_last]
  exact beating.runUntil_last rounds

/-- Once a delivery is due at the last instant, all that follow are. -/
theorem deliversAt_last (beating : Beating interval simulation conductor) {n m : ℕ} (le : n ≤ m)
    (delivers : simulation.DeliversAt Instant.last n) : simulation.DeliversAt Instant.last m := by
  obtain ⟨t, next⟩ := beating.exists_deliversAt m
  obtain rfl := UInt64.le_antisymm t.le_last (beating.poised.le_of_deliversAt le delivers next)
  exact next

/-- The last instant comes, and then never ends, unless an earlier one does not end. -/
theorem finite_deliversAt_last_iff (beating : Beating interval simulation conductor) :
    {n | simulation.DeliversAt Instant.last n}.Finite ↔
      ∃ t < Instant.last, {n | simulation.DeliversAt t n}.Infinite := by
  constructor
  · intro few
    by_contra early
    push Not at early
    have finite (t : Instant) : {n | simulation.DeliversAt t n}.Finite := by
      rcases UInt64.lt_or_eq_of_le t.le_last with less | rfl
      · exact early t less
      · exact few
    obtain ⟨n, never⟩ := (Set.finite_iUnion finite).exists_notMem
    obtain ⟨t, delivers⟩ := beating.exists_deliversAt n
    exact never (Set.mem_iUnion.2 ⟨t, delivers⟩)
  · rintro ⟨t, less, endless⟩
    obtain ⟨first, delivers⟩ := beating.poised.eventually_deliversAt endless
    apply (Set.finite_Iio first).subset
    intro n last
    by_contra late
    have same := (delivers n (Nat.le_of_not_lt late)).symm.trans last
    exact absurd (Option.some.inj same) (UInt64.ne_of_lt less)

end Beating

/-- A scene with beats never gets past the last instant. Wherever calls lead after a start, a run up
to it does not end. Once a delivery is due there, all that follow are, without end, and one is
unless an earlier instant has no end. However many deliveries are made, the balls have moved for as
long as each of them said, and that is an interval for every beat, but for what is left before the
next one. -/
theorem last_instant_has_no_end {scene : Scene K} {canvas : C}
    {first before later : Simulation K C Conductor} (regular : scene.interval = some interval)
    (made : scene.conduct id canvas = .ok first) (reached : first.Reaches before)
    (runs : before.start.2.Reaches later) :
    (∀ rounds, later.runUntil rounds Instant.last = none ∧
      later.runFor rounds Instant.last = none) ∧
    (∀ n, later.DeliversAt Instant.last n → ∀ m ≥ n, later.DeliversAt Instant.last m) ∧
    ({n | later.DeliversAt Instant.last n}.Finite ↔
      ∃ t < Instant.last, {n | later.DeliversAt t n}.Infinite) ∧
    ∀ n, 0 < (later.ahead n).untilBeat ∧ (later.ahead n).untilBeat ≤ interval.toNat ∧
      ∃ events, events.length = n ∧ (later.ahead n).deliveries = later.deliveries ++ events ∧
        (later.ahead n).stage.table = later.stage.table.played events ∧
        (later.ahead n).untilBeat + (events.map (·.signal.elapsed.toNat)).sum =
          later.untilBeat + beats events * interval.toNat := by
  obtain ⟨_, beating⟩ := Beating.of_reaches regular made reached runs
  refine ⟨?_, ?_, beating.finite_deliversAt_last_iff, ?_⟩
  · intro rounds
    exact ⟨beating.runUntil_last rounds, beating.runFor_last rounds⟩
  · intro n delivers m le
    exact beating.deliversAt_last le delivers
  · intro n
    obtain ⟨⟨_, next⟩, moved⟩ := beating.ahead n
    exact ⟨next.moves, next.within, moved⟩

/-- Half an interval before time ends, the lane is started, and no run gets it to the end. -/
theorem last_instant_has_no_end_lane :
    ∃ first later : Simulation ℝ (Blank ℝ) Conductor, lane.conduct id ⟨⟩ = .ok first ∧
      first.Reaches (first.advance (Instant.last - 500)) ∧
      (first.advance (Instant.last - 500)).start.2 = later ∧
      (∀ rounds, later.runUntil rounds Instant.last = none ∧
        later.runFor rounds Instant.last = none) ∧
      (∀ n, later.DeliversAt Instant.last n → ∀ m ≥ n, later.DeliversAt Instant.last m) ∧
      ({n | later.DeliversAt Instant.last n}.Finite ↔
        ∃ t < Instant.last, {n | later.DeliversAt t n}.Infinite) ∧
      ∀ n, 0 < (later.ahead n).untilBeat ∧ (later.ahead n).untilBeat ≤ 1000 ∧
        ∃ events, events.length = n ∧ (later.ahead n).deliveries = later.deliveries ++ events ∧
          (later.ahead n).stage.table = later.stage.table.played events ∧
          (later.ahead n).untilBeat + (events.map (·.signal.elapsed.toNat)).sum =
            later.untilBeat + beats events * 1000 := by
  obtain ⟨first, made⟩ := Scene.exists_conduct lane_fine (⟨⟩ : Blank ℝ)
  have reached : first.Reaches (first.advance (Instant.last - 500)) :=
    .call (.advance _) 0 .begin rfl
  have regular : (lane : Scene ℝ).interval = some 1000 := rfl
  exact ⟨first, _, made, reached, rfl, last_instant_has_no_end regular made reached .begin⟩

/-- No walls, and one ball that rolls on. -/
def expanse : Scene K where
  table :=
    { walls := []
      balls := [⟨Vec.zero, ⟨10.0, 0.0⟩, 1.0⟩]
      turret := Scene.standardTurret
      reach := .line
      response := .pass }
  interval := some 1000

section Expanse

/-- The ball when it has come to `x`. -/
private noncomputable def roller (x : ℝ) : Ball ℝ := ⟨⟨x, 0.0⟩, ⟨10.0, 0.0⟩, 1.0⟩

/-- The table when the ball has come to `x`. -/
private noncomputable def rolled (x : ℝ) : Table ℝ := { expanse.table with balls := [roller x] }

private theorem rolled_zero : (expanse : Scene ℝ).table = rolled 0 := by
  rw [rolled, roller, expanse, Vec.zero_eq]
  norm_num

/-- In an interval the ball rolls ten units. -/
private theorem drift_roller (x : ℝ) : (roller x).drift 1000 = roller (x + 10) := by
  have time : ((1000 : Millis).toNat : ℝ) / 1000.0 = 1 := by
    change ((1000 : ℕ) : ℝ) / 1000.0 = 1
    norm_num
  change { roller x with position := (roller x).position +
    (roller x).velocity * (((1000 : Millis).toNat : ℝ) / 1000.0) } = _
  rw [time, Vec.smul_eq, Vec.add_eq]
  norm_num [roller]

private theorem drift_rolled (x : ℝ) : (rolled x).drift 1000 = rolled (x + 10) :=
  calc (rolled x).drift 1000
    _ = { rolled x with balls := [(roller x).drift 1000] } := rfl
    _ = { rolled x with balls := [roller (x + 10)] } := by rw [drift_roller]
    _ = rolled (x + 10) := rfl

/-- The conductor waits, at the last instant, for the beat alone, and the ball has come to `x`. -/
private structure Rolls {C : Type} [Canvas ℝ C] (x : ℝ) (simulation : Simulation ℝ C Conductor)
    (conductor : Conductor) : Prop where
  poised : Poised simulation conductor
  table : simulation.stage.table = rolled x
  regular : conductor.interval = some 1000
  phase : conductor.phase = .beat
  pending : ∃ event, simulation.stage.agenda.toList = [event] ∧ event.due = Instant.last ∧
    event.signal = .beat 1000

/-- What follows is the beat. -/
private theorem follows_rolled {x : ℝ} (regular : ready.interval = some 1000)
    (full : ready.remaining = 1000) :
    ready.follows (rolled x) = some (1000, .beat 1000, { ready with phase := .beat }) := by
  have nothing : (rolled x).nextContact? ready.settled = none := rfl
  simp only [Conductor.follows_beat regular nothing, full]

private theorem Rolls.of_arms {C : Type} [Canvas ℝ C] {x : ℝ} {after : Simulation ℝ C Conductor}
    {result : Except (Break ℝ) Unit} (poised : Poised after waiting)
    (table : after.stage.table = rolled x) (regular : ready.interval = some 1000)
    (full : ready.remaining = 1000) (late : now.after 1000 = Instant.last)
    (free : agenda.toList = [])
    (arms : ready.Arms ⟨0, now⟩ (rolled x) agenda (waiting, result) after.stage.agenda) :
    Rolls x after waiting := by
  have same := follows_rolled (x := x) regular full
  have kept := arms.kept.2.2.trans regular
  obtain ⟨phase, pending⟩ : waiting.phase = .beat ∧ ∃ event,
      after.stage.agenda.toList = [event] ∧ event.due = Instant.last ∧
        event.signal = .beat 1000 := by
    generalize after.stage.agenda = rearmed at arms ⊢
    cases arms with
    | stalls nothing => simp [nothing] at same
    | waits follows =>
      rw [same, Option.some.injEq, Prod.mk.injEq, Prod.mk.injEq] at follows
      obtain ⟨rfl, rfl, rfl⟩ := follows
      have pending := Agenda.toList_schedule (agenda.withdraw 0).2 0 (now.after 1000) (.beat 1000)
      rw [Agenda.toList_withdraw, free, List.filter_nil, List.perm_singleton] at pending
      refine ⟨rfl, _, pending, ?_, rfl⟩
      simpa only [Agenda.fresh] using late
  exact ⟨poised, table, kept, phase, pending⟩

/-- With the beat the ball rolls on, and the conductor waits for the next beat at the same
instant. -/
private theorem Rolls.stepNext {C : Type} [Canvas ℝ C] {x : ℝ}
    {simulation : Simulation ℝ C Conductor} (rolls : Rolls x simulation conductor) :
    simulation.stage.agenda.nextDue? = some Instant.last ∧
      simulation.stepNext.2.now = Instant.last ∧
      ∃ waiting, Rolls (x + 10) simulation.stepNext.2 waiting := by
  obtain ⟨event, list, due, signal⟩ := rolls.pending
  obtain ⟨rest, popped, free⟩ := Agenda.exists_pop? list
  obtain ⟨waiting, result, _, poised, delivers⟩ := rolls.poised.stepNext popped
  have clock := (rolls.poised.clock_stepNext popped).1
  rw [due, advance_of_le (Instant.le_last _)] at clock
  refine ⟨due ▸ Agenda.nextDue?_of_pop? popped, clock, waiting, ?_⟩
  generalize simulation.stepNext.2 = after at poised delivers ⊢
  cases delivers with
  | key key _ _ => simp [signal] at key
  | @rearms ready _ _ _ _ reacts arms =>
    rw [due, signal, rolls.table] at reacts
    simp only [Conductor.reaction?, rolls.phase, Conductor.painted, drift_rolled, rolls.regular,
      Option.getD_some, Option.some.injEq, Prod.mk.injEq] at reacts
    obtain ⟨table, rfl⟩ := reacts
    rw [← table, due] at arms
    exact .of_arms poised table.symm rfl rfl (Instant.last_after _) free arms

/-- With every beat the ball rolls on. -/
private theorem Rolls.ahead {C : Type} [Canvas ℝ C] {x : ℝ}
    {simulation : Simulation ℝ C Conductor} (rolls : Rolls x simulation conductor) (n : ℕ) :
    ∃ waiting, Rolls (x + 10 * n) (simulation.ahead n) waiting := by
  induction n with
  | zero => exact ⟨conductor, by simpa [Simulation.ahead] using rolls⟩
  | succ n ih =>
    obtain ⟨_, rolls⟩ := ih
    obtain ⟨_, _, next⟩ := rolls.stepNext
    rw [ahead_succ, Nat.cast_succ, mul_add, mul_one, ← add_assoc]
    exact next

/-- A start an interval before time ends has the conductor wait for the beat. -/
private theorem Rolls.start {C : Type} [Canvas ℝ C] {x : ℝ} {simulation : Simulation ℝ C Conductor}
    (poised : Poised simulation conductor) (table : simulation.stage.table = rolled x)
    (regular : conductor.interval = some 1000) (late : simulation.now.after 1000 = Instant.last)
    (free : simulation.stage.agenda.toList = []) :
    ∃ waiting, Rolls x simulation.start.2 waiting := by
  obtain ⟨waiting, started, starts⟩ := poised.start
  refine ⟨waiting, ?_⟩
  generalize simulation.start.1 = result at starts
  generalize simulation.start.2 = after at starts started ⊢
  cases starts with
  | rearms same arms =>
    have again : (conductor.restarted simulation.now).interval = some 1000 := regular
    have full : (conductor.restarted simulation.now).remaining = 1000 := by
      simp [Conductor.restarted, regular]
    rw [table] at arms
    exact .of_arms started (same.trans table) again full late free arms

/-- A checked scene in which time ends but nothing else does: the clock stands at the last instant,
no run up to it comes to its end, and the ball rolls on, ten units at a time. -/
theorem expanse_rolls_on :
    ∃ first later : Simulation ℝ (Blank ℝ) Conductor, expanse.conduct id ⟨⟩ = .ok first ∧
      (first.advance (Instant.last - 1000)).start.2 = later ∧ first.Reaches later ∧
      ¬{n | later.DeliversAt Instant.last n}.Finite ∧
      (∀ rounds, later.runUntil rounds Instant.last = none ∧
        later.runFor rounds Instant.last = none) ∧
      ∀ n : ℕ, (later.ahead (n + 1)).now = Instant.last ∧
        (later.ahead n).stage.table.balls.map (·.position) = [⟨10 * n, 0⟩] := by
  have fine : (expanse : Scene ℝ).fault? = none := by
    refine Scene.fault?_eq_none_iff_sound.2 ⟨by simp [expanse], ?_, ?_⟩
    · intro wall member
      cases member
    · intro ball member
      obtain rfl := List.mem_singleton.1 member
      norm_num
  obtain ⟨first, made⟩ := Scene.exists_conduct fine (⟨⟩ : Blank ℝ)
  obtain ⟨poised, table, _⟩ := Poised.of_conduct made
  obtain ⟨began, _, free⟩ := begins_of_conduct made
  have idle : Poised (first.advance (Instant.last - 1000)) (.new expanse.interval) :=
    poised.withClock _
  have late : (first.advance (Instant.last - 1000)).now.after 1000 = Instant.last := by
    change (Instant.advance first.now _).after 1000 = _
    rw [began]
    decide
  have reached : first.Reaches (first.advance (Instant.last - 1000)) :=
    .call (.advance _) 0 .begin rfl
  obtain ⟨_, beating⟩ := Beating.of_reaches rfl made reached .begin
  obtain ⟨_, started⟩ := Rolls.start idle (table.trans rolled_zero) rfl late free
  generalize later : (first.advance (Instant.last - 1000)).start.2 = simulation at beating started
  refine ⟨first, simulation, made, later, later ▸ .call .start 0 reached rfl, ?_, ?_, ?_⟩
  · have all : {n | simulation.DeliversAt Instant.last n} = Set.univ := by
      apply Set.eq_univ_of_forall
      intro n
      obtain ⟨_, rolls⟩ := started.ahead n
      exact rolls.stepNext.1
    rw [all]
    exact Set.infinite_univ
  · intro rounds
    exact ⟨beating.runUntil_last rounds, beating.runFor_last rounds⟩
  · intro n
    obtain ⟨_, rolls⟩ := started.ahead n
    obtain ⟨_, clock, _⟩ := rolls.stepNext
    rw [zero_add] at rolls
    refine ⟨by rw [ahead_succ, clock], ?_⟩
    rw [rolls.table]
    norm_num [rolled, roller]

end Expanse

end Simulation

end Billiard
