import Mathlib.Order.Interval.Finset.Nat
import Billiard.Proofs.Waiting

/-!
The deliveries ahead of a simulation, one after another. Their instants never go back, and keys run
out. A loop over deliveries ends exactly if one of them lies beyond its horizon or fails
(`exists_runUntil_iff`, `exists_dispatchDue_iff`), and after that no wall turns any ball within the
horizon (`Poised.lt_of_turnsAt`).
-/

namespace Billiard

/-- Nothing is due before its delay began. -/
theorem Instant.le_after (now : Instant) (delay : Millis) : now ≤ now.after delay := by
  rw [UInt64.le_iff_toNat_le, toNat_after, toNat_last]
  have bound := now.toNat_lt
  omega

/-- Before the last instant, what is due at once has no delay. -/
theorem Instant.delay_eq_zero {now : Instant} {delay : Millis} (early : now < last)
    (atOnce : now.after delay = now) : delay = 0 := by
  have same := congrArg UInt64.toNat atOnce
  rw [toNat_after] at same
  rw [UInt64.lt_iff_toNat_lt] at early
  apply UInt64.toNat_inj.1
  change delay.toNat = 0
  omega

namespace Agenda

variable {agenda : Agenda} {target : AgentId} {due : Instant} {signal : Signal}

/-- How many keys are pending. -/
def keys (agenda : Agenda) : Nat := agenda.toList.countP fun event => !event.signal.recurs

theorem keys_withdraw : (agenda.withdraw target).2.keys = agenda.keys := by
  rw [keys, toList_withdraw, List.countP_filter, keys]
  apply List.countP_congr
  intro event _
  cases recurs : event.signal.recurs <;> simp [Event.recursFor, recurs]

theorem keys_schedule (recurs : signal.recurs) :
    (agenda.schedule target due signal).2.keys = agenda.keys := by
  rw [keys, (toList_schedule agenda target due signal).countP_eq, List.countP_cons]
  simp [fresh, recurs, keys]

end Agenda

namespace Simulation

section Ahead

variable {K C A : Type} [Canvas K C] [Agent K A]

/-- The simulation so many deliveries later, each made as soon as its event comes first. -/
def ahead : Nat → Simulation K C A → Simulation K C A
  | 0, simulation => simulation
  | n + 1, simulation => ahead n simulation.stepNext.2

/-- The delivery number `n` from now on is due at `t`. -/
def DeliversAt (simulation : Simulation K C A) (t : Instant) (n : Nat) : Prop :=
  (simulation.ahead n).stage.agenda.nextDue? = some t

/-- The delivery number `n` from now on is due at `t`, and is of a ball that a wall turns. -/
def TurnsAt (simulation : Simulation K C A) (t : Instant) (n : Nat) : Prop :=
  ∃ event rest ball side elapsed,
    (simulation.ahead n).stage.agenda.pop? = some (event, rest) ∧ event.due = t ∧
      event.signal = .wall ball side elapsed ∧
      (simulation.ahead (n + 1)).stage.table.velocity? ball ≠
        (simulation.ahead n).stage.table.velocity? ball

variable {simulation : Simulation K C A} {horizon t : Instant}

theorem ahead_succ (n : Nat) (simulation : Simulation K C A) :
    simulation.ahead (n + 1) = (simulation.ahead n).stepNext.2 := by
  induction n generalizing simulation with
  | zero => rfl
  | succ n ih => exact ih simulation.stepNext.2

theorem ahead_add (n m : Nat) (simulation : Simulation K C A) :
    simulation.ahead (n + m) = (simulation.ahead n).ahead m := by
  induction m with
  | zero => rfl
  | succ m ih => rw [← Nat.add_assoc, ahead_succ, ih, ahead_succ]

theorem TurnsAt.deliversAt {n : Nat} (turns : simulation.TurnsAt t n) :
    simulation.DeliversAt t n := by
  obtain ⟨_, _, _, _, _, popped, due, _⟩ := turns
  exact due ▸ Agenda.nextDue?_of_pop? popped

theorem deliversAt_ahead {n m : Nat} :
    (simulation.ahead n).DeliversAt t m ↔ simulation.DeliversAt t (n + m) := by
  rw [DeliversAt, DeliversAt, ahead_add]

theorem turnsAt_ahead {n m : Nat} :
    (simulation.ahead n).TurnsAt t m ↔ simulation.TurnsAt t (n + m) := by
  simp only [TurnsAt, ahead_add, Nat.add_assoc]

/-- Deliveries are calls. -/
theorem Reaches.ahead {first : Simulation K C A} (reached : first.Reaches simulation) (n : Nat) :
    first.Reaches (simulation.ahead n) := by
  induction n with
  | zero => exact reached
  | succ n ih =>
    rw [ahead_succ]
    exact .call .stepNext 0 ih rfl

theorem stepNext_of_pop?_eq_none (popped : simulation.stage.agenda.pop? = none) :
    simulation.stepNext = (.ok none, simulation) := by
  have nothing := Agenda.nextDue?_eq_none_iff.2 (Agenda.pop?_eq_none_iff.1 popped)
  simp only [stepNext, nothing]

/-- Where nothing is pending, nothing is ahead. -/
theorem ahead_of_nextDue?_eq_none (nothing : simulation.stage.agenda.nextDue? = none) (n : Nat) :
    simulation.ahead n = simulation := by
  induction n with
  | zero => rfl
  | succ n ih => rw [ahead_succ, ih, stepNext, nothing]

/-- The delivery number `n` from now on, if there is one, lies beyond a horizon, or fails. -/
def EndsAt (horizon : Instant) (n : Nat) (simulation : Simulation K C A) : Prop :=
  (∀ due, (simulation.ahead n).stage.agenda.nextDue? = some due → horizon < due) ∨
    ∃ cause, (simulation.ahead n).stepNext.1 = .error cause

theorem stepNext_of_nextDue? {due : Instant} (next : simulation.stage.agenda.nextDue? = some due) :
    simulation.stepNext = (simulation.advance due).step := by
  simp only [stepNext, next]

private theorem exists_runFrom {n count : Nat} (ends : simulation.EndsAt horizon n) :
    ∃ outcome, runFrom horizon count (n + 1) simulation = some outcome := by
  induction n generalizing simulation count with
  | zero =>
    rcases ends with beyond | ⟨cause, failed⟩
    · exact ⟨_, runFrom_of_beyond beyond⟩
    · rw [runFrom]
      cases next : simulation.stage.agenda.nextDue? with
      | none => exact ⟨_, rfl⟩
      | some due =>
        change simulation.stepNext.1 = _ at failed
        rw [stepNext_of_nextDue? next] at failed
        simp only
        split
        · cases stepped : (simulation.advance due).step with
          | mk result after =>
            rw [stepped] at failed
            cases failed
            exact ⟨_, rfl⟩
        · exact ⟨_, rfl⟩
  | succ n ih =>
    rw [runFrom]
    cases next : simulation.stage.agenda.nextDue? with
    | none => exact ⟨_, rfl⟩
    | some due =>
      change simulation.stepNext.2.EndsAt horizon n at ends
      rw [stepNext_of_nextDue? next] at ends
      simp only
      split
      · cases stepped : (simulation.advance due).step with
        | mk result after =>
          rw [stepped] at ends
          cases result with
          | error _ => exact ⟨_, rfl⟩
          | ok told => cases told <;> exact ih ends
      · exact ⟨_, rfl⟩

private theorem exists_endsAt_of_runFrom {rounds count : Nat} {outcome : After K C A Nat}
    (ended : runFrom horizon count rounds simulation = some outcome) :
    ∃ n, simulation.EndsAt horizon n := by
  induction rounds generalizing simulation count with
  | zero => simp [runFrom] at ended
  | succ rounds ih =>
    cases next : simulation.stage.agenda.nextDue? with
    | none => exact ⟨0, .inl fun due late => by simp [ahead, next] at late⟩
    | some due =>
      have same := stepNext_of_nextDue? next
      simp only [runFrom, next] at ended
      split at ended
      · split at ended
        · next cause _ failed => exact ⟨0, .inr ⟨cause, by rw [ahead, same, failed]⟩⟩
        · next after nothing =>
          obtain ⟨n, ends⟩ := ih ended
          refine ⟨n + 1, ?_⟩
          change simulation.stepNext.2.EndsAt horizon n
          rwa [same, nothing]
        · next after delivered =>
          obtain ⟨n, ends⟩ := ih ended
          refine ⟨n + 1, ?_⟩
          change simulation.stepNext.2.EndsAt horizon n
          rwa [same, delivered]
      · next beyond =>
        refine ⟨0, .inl ?_⟩
        intro other late
        rw [ahead, next, Option.some.injEq] at late
        exact late ▸ UInt64.not_le.1 beyond

/-- A run ends exactly if the deliveries within its horizon do. -/
theorem exists_runUntil_iff :
    (∃ rounds outcome, simulation.runUntil rounds horizon = some outcome) ↔
      ∃ n, simulation.EndsAt horizon n := by
  constructor
  · rintro ⟨rounds, outcome, ended⟩
    exact exists_endsAt_of_runFrom ended
  · rintro ⟨n, ends⟩
    exact ⟨n + 1, exists_runFrom ends⟩

/-- What is due now is delivered to the end exactly if the deliveries that are due now do end. -/
theorem exists_dispatchDue_iff :
    (∃ rounds outcome, simulation.dispatchDue rounds = some outcome) ↔
      ∃ n, simulation.EndsAt simulation.now n := by
  simp only [dispatchDue, dispatchFrom_eq_runFrom]
  exact exists_runUntil_iff

end Ahead

variable {K C : Type} [Scalar K] [Canvas K C] {simulation : Simulation K C Conductor}
  {conductor waiting : Conductor} {event : Event} {rest : Agenda} {horizon t t' : Instant}

namespace Poised

/-- A poised simulation has one conductor only. -/
theorem unique (poised : Poised simulation conductor) (other : Poised simulation waiting) :
    waiting = conductor := by
  have same := poised.alone.symm.trans other.alone
  simpa using same.symm

theorem withClock (poised : Poised simulation conductor) (now : Instant) :
    Poised (simulation.setClock now) conductor :=
  ⟨poised.alone, poised.listens, poised.mine, poised.waits, poised.calm⟩

/-- The next delivery, wherever the clock is. -/
theorem stepNext (poised : Poised simulation conductor)
    (popped : simulation.stage.agenda.pop? = some (event, rest)) :
    ∃ waiting result, simulation.stepNext.1 = result.map (fun _ => some event.signal) ∧
      Poised simulation.stepNext.2 waiting ∧
      Delivers simulation conductor event rest result simulation.stepNext.2 waiting := by
  obtain ⟨waiting, delivered, delivers⟩ := poised.deliver popped
  rw [stepNext_of_nextDue? (Agenda.nextDue?_of_pop? popped), step_advance_of_pop? popped]
  refine ⟨waiting, ((simulation.withAgenda rest).deliver event).1, rfl, delivered.withClock _, ?_⟩
  generalize (simulation.withAgenda rest).deliver event = outcome at delivers ⊢
  obtain ⟨result, after⟩ := outcome
  cases delivers with
  | key key table agenda => exact .key key table agenda
  | rearms awaited reacts arms => exact .rearms awaited reacts arms

omit [Canvas K C] in
/-- What a delivery leaves pending was pending before, or is due later. -/
theorem Delivers.mem_toList {result : Except (Break K) Unit} {after : Simulation K C Conductor}
    (delivers : Delivers simulation conductor event rest result after waiting) {other : Event}
    (member : other ∈ after.stage.agenda.toList) :
    other ∈ rest.toList ∨ event.due ≤ other.due := by
  cases delivers with
  | key _ _ agenda => exact .inl (agenda ▸ member)
  | rearms _ _ arms =>
    generalize after.stage.agenda = rearmed at arms member
    cases arms with
    | waits follows =>
      rcases Agenda.mem_toList_schedule.1 member with rfl | member
      · exact .inr (Instant.le_after _ _)
      · rw [Agenda.toList_withdraw] at member
        exact .inl (List.mem_filter.1 member).1
    | stalls _ => exact .inl member

omit [Canvas K C] in
/-- Keys are used up one by one, and no delivery adds any. -/
theorem Delivers.keys {result : Except (Break K) Unit} {after : Simulation K C Conductor}
    (popped : simulation.stage.agenda.pop? = some (event, rest))
    (delivers : Delivers simulation conductor event rest result after waiting) :
    after.stage.agenda.keys ≤ simulation.stage.agenda.keys ∧
      (event.signal.recurs = false →
        after.stage.agenda.keys < simulation.stage.agenda.keys) := by
  have list := Agenda.toList_of_pop? popped
  cases delivers with
  | key key _ agenda =>
    have less : rest.keys < simulation.stage.agenda.keys := by
      simp [Agenda.keys, list, key, Signal.recurs]
    rw [agenda]
    exact ⟨Nat.le_of_lt less, fun _ => less⟩
  | rearms awaited _ arms =>
    have recurs := Agenda.recurs_of_awaitedBy awaited
    have same : rest.keys = simulation.stage.agenda.keys := by
      simp [Agenda.keys, list, recurs]
    generalize after.stage.agenda = rearmed at arms
    refine ⟨?_, fun once => by simp [recurs] at once⟩
    cases arms with
    | waits follows =>
      rw [Agenda.keys_schedule (Conductor.recurs_of_follows follows), Agenda.keys_withdraw, same]
    | stalls _ => exact Nat.le_of_eq same

/-- However many deliveries later, the conductor is poised. -/
theorem exists_ahead (poised : Poised simulation conductor) (n : Nat) :
    ∃ waiting, Poised (simulation.ahead n) waiting := by
  have begun : simulation.Reaches simulation := .begin
  obtain ⟨moves, led⟩ := (begun.ahead n).exists_moves
  obtain ⟨waiting, poised, _⟩ := poised.follow moves
  exact ⟨waiting, led ▸ poised⟩

/-- What every delivery preserves holds however many deliveries later. -/
theorem ahead_induct (poised : Poised simulation conductor)
    {motive : Simulation K C Conductor → Prop} (begins : motive simulation)
    (keeps : ∀ {before after : Simulation K C Conductor} {conductor waiting : Conductor}
      {event : Event} {rest : Agenda} {result : Except (Break K) Unit},
      Poised before conductor → before.stage.agenda.pop? = some (event, rest) →
        Delivers before conductor event rest result after waiting → motive before → motive after)
    (n : Nat) : motive (simulation.ahead n) := by
  induction n with
  | zero => exact begins
  | succ n ih =>
    obtain ⟨_, poised⟩ := poised.exists_ahead n
    rw [ahead_succ]
    cases popped : (simulation.ahead n).stage.agenda.pop? with
    | none => rwa [stepNext_of_pop?_eq_none popped]
    | some pair =>
      obtain ⟨event, rest⟩ := pair
      obtain ⟨_, _, _, _, delivers⟩ := poised.stepNext popped
      exact keeps poised popped delivers ih

/-- What is pending ahead is due no earlier than what is pending now. -/
theorem le_of_mem_ahead (poised : Poised simulation conductor)
    (pending : ∀ event ∈ simulation.stage.agenda.toList, t ≤ event.due) (n : Nat) :
    ∀ event ∈ (simulation.ahead n).stage.agenda.toList, t ≤ event.due := by
  apply poised.ahead_induct (motive := fun last => ∀ event ∈ last.stage.agenda.toList,
    t ≤ event.due) pending
  intro before after _ _ first rest _ _ popped delivers early event member
  have list := Agenda.toList_of_pop? popped
  rcases delivers.mem_toList member with member | later
  · exact early event (list ▸ List.mem_cons_of_mem first member)
  · exact UInt64.le_trans (early first (list ▸ List.mem_cons_self)) later

/-- Deliveries come in the order of their instants. -/
theorem le_of_deliversAt (poised : Poised simulation conductor) {n m : Nat} (le : n ≤ m)
    (first : simulation.DeliversAt t n) (second : simulation.DeliversAt t' m) : t ≤ t' := by
  obtain ⟨_, poised⟩ := poised.exists_ahead n
  obtain ⟨event, rest, popped, rfl⟩ := Agenda.exists_pop?_of_nextDue? first
  obtain ⟨other, others, popped', rfl⟩ := Agenda.exists_pop?_of_nextDue? second
  have pending : ∀ other ∈ (simulation.ahead n).stage.agenda.toList, event.due ≤ other.due := by
    intro other member
    rw [Agenda.toList_of_pop? popped] at member
    rcases List.mem_cons.1 member with rfl | member
    · exact UInt64.le_refl _
    · exact Agenda.due_le_of_pop? popped member
  refine poised.le_of_mem_ahead pending (m - n) other ?_
  rw [← ahead_add, Nat.add_sub_cancel' le, Agenda.toList_of_pop? popped']
  exact List.mem_cons_self

/-- If deliveries at one instant do not end, there are in the end no others. -/
theorem eventually_deliversAt (poised : Poised simulation conductor)
    (endless : {n | simulation.DeliversAt t n}.Infinite) :
    ∃ first, ∀ n ≥ first, simulation.DeliversAt t n := by
  obtain ⟨first, delivers⟩ := endless.nonempty
  refine ⟨first, ?_⟩
  intro n le
  obtain ⟨later, delivers', less⟩ := endless.exists_gt n
  cases next : (simulation.ahead n).stage.agenda.nextDue? with
  | none =>
    have ended : simulation.ahead later = simulation.ahead n := by
      rw [← Nat.add_sub_cancel' less.le, ahead_add, ahead_of_nextDue?_eq_none next]
    have nothing := delivers'
    simp [DeliversAt, ended, next] at nothing
  | some due =>
    have same : due = t := UInt64.le_antisymm (poised.le_of_deliversAt less.le next delivers')
      (poised.le_of_deliversAt le delivers next)
    exact same ▸ next

/-- Keys run out. -/
theorem eventually_recurs (poised : Poised simulation conductor) :
    ∃ first, ∀ n ≥ first, ∀ event rest,
      (simulation.ahead n).stage.agenda.pop? = some (event, rest) → event.signal.recurs := by
  let keys (n : Nat) := (simulation.ahead n).stage.agenda.keys
  have delivered (n : Nat) {event : Event} {rest : Agenda}
      (popped : (simulation.ahead n).stage.agenda.pop? = some (event, rest)) :
      keys (n + 1) ≤ keys n ∧ (event.signal.recurs = false → keys (n + 1) < keys n) := by
    obtain ⟨_, poised⟩ := poised.exists_ahead n
    obtain ⟨_, _, _, _, delivers⟩ := poised.stepNext popped
    simpa only [keys, ahead_succ] using delivers.keys popped
  have falls : Antitone keys := by
    apply antitone_nat_of_succ_le
    intro n
    cases popped : (simulation.ahead n).stage.agenda.pop? with
    | none => simp only [keys, ahead_succ, stepNext_of_pop?_eq_none popped, le_refl]
    | some pair => exact (delivered n popped).1
  obtain ⟨first, fewest⟩ : ∃ first, ∀ n, keys first ≤ keys n :=
    ⟨Function.argmin keys, fun n => Function.argmin_le keys n⟩
  refine ⟨first, ?_⟩
  intro n le event rest popped
  by_contra once
  rw [Bool.not_eq_true] at once
  exact absurd ((delivered n popped).2 once) (not_lt.2 ((falls le).trans (fewest (n + 1))))

/-- A delivery that fails leaves nothing to wait for. -/
theorem awaitedBy_of_error (poised : Poised simulation conductor) {cause : Break K}
    (failed : simulation.stepNext.1 = .error cause) :
    simulation.stepNext.2.stage.agenda.awaitedBy 0 = [] := by
  cases popped : simulation.stage.agenda.pop? with
  | none => simp [stepNext_of_pop?_eq_none popped] at failed
  | some pair =>
    obtain ⟨event, rest⟩ := pair
    obtain ⟨_, _, kind⟩ := poised.head_cases popped
    obtain ⟨waiting, result, same, _, delivers⟩ := poised.stepNext popped
    rw [same] at failed
    generalize simulation.stepNext.2 = after at delivers ⊢
    cases delivers with
    | key _ _ _ => cases failed
    | rearms awaited reacts arms =>
      generalize after.stage.agenda = rearmed at arms ⊢
      cases arms with
      | waits _ => cases failed
      | stalls _ =>
        rcases kind with ⟨⟨way, key⟩, _⟩ | ⟨_, free, _⟩
        · simp [Conductor.reaction?, key] at reacts
        · exact free

/-- Where nothing is waited for, nothing ever is. -/
theorem awaitedBy_ahead (poised : Poised simulation conductor)
    (quiet : simulation.stage.agenda.awaitedBy 0 = []) (n : Nat) :
    (simulation.ahead n).stage.agenda.awaitedBy 0 = [] := by
  apply poised.ahead_induct (motive := fun last => last.stage.agenda.awaitedBy 0 = []) quiet
  intro before after _ _ event rest _ poised popped delivers quiet
  obtain ⟨_, _, kind⟩ := poised.head_cases popped
  cases delivers with
  | key _ _ agenda =>
    rcases kind with ⟨_, same⟩ | ⟨awaited, _⟩
    · rw [agenda, same, quiet]
    · simp [quiet] at awaited
  | rearms awaited _ _ => simp [quiet] at awaited

/-- Where nothing is waited for, no wall turns any ball. -/
theorem not_turnsAt (poised : Poised simulation conductor)
    (quiet : simulation.stage.agenda.awaitedBy 0 = []) (n : Nat) : ¬simulation.TurnsAt t n := by
  rintro ⟨event, rest, ball, side, elapsed, popped, _, signal, _⟩
  have nothing := poised.awaitedBy_ahead quiet n
  obtain ⟨_, poised⟩ := poised.exists_ahead n
  obtain ⟨_, _, ⟨⟨way, key⟩, _⟩ | ⟨awaited, _⟩⟩ := poised.head_cases popped
  · simp [signal] at key
  · simp [nothing] at awaited

/-- Nothing is delivered within a horizon once what comes next lies beyond it. -/
theorem lt_of_beyond (poised : Poised simulation conductor) {n m : Nat}
    (beyond : ∀ due, (simulation.ahead n).stage.agenda.nextDue? = some due → horizon < due)
    (within : t ≤ horizon) (delivers : simulation.DeliversAt t m) : m < n := by
  by_contra late
  rw [Nat.not_lt] at late
  cases next : (simulation.ahead n).stage.agenda.nextDue? with
  | none =>
    have ended : simulation.ahead m = simulation.ahead n := by
      rw [← Nat.add_sub_cancel' late, ahead_add, ahead_of_nextDue?_eq_none next]
    simp [DeliversAt, ended, next] at delivers
  | some first =>
    have order := poised.le_of_deliversAt late next delivers
    exact absurd (UInt64.lt_of_lt_of_le (beyond first next) order) (UInt64.not_lt.2 within)

/-- Once the deliveries within a horizon have ended, no wall turns a ball within it. -/
theorem lt_of_turnsAt (poised : Poised simulation conductor) {n m : Nat}
    (ends : simulation.EndsAt horizon n) (within : t ≤ horizon) (turns : simulation.TurnsAt t m) :
    m < n + 1 := by
  rcases ends with beyond | ⟨cause, failed⟩
  · exact Nat.lt_succ_of_lt (poised.lt_of_beyond beyond within turns.deliversAt)
  · by_contra late
    rw [Nat.not_lt] at late
    obtain ⟨_, delivering⟩ := poised.exists_ahead n
    obtain ⟨_, stalled⟩ := poised.exists_ahead (n + 1)
    have quiet := delivering.awaitedBy_of_error failed
    rw [← ahead_succ] at quiet
    rw [← Nat.add_sub_cancel' late, ← turnsAt_ahead] at turns
    exact stalled.not_turnsAt quiet _ turns

end Poised

end Simulation

end Billiard
