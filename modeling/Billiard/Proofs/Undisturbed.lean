import Billiard.Proofs.Ahead
import Billiard.Proofs.Deliveries
import Billiard.Proofs.Turret

/-!
Keys disturb nothing. Two runs of the same calls, one of them with keys in between, are compared: a
key turns the turret, which no forecast and no reaction looks at, and it is never what the
conductor waits for. So the runs deliver the same events at the same times (`Alike.round`), come to
an end together, and differ in the turret's angle alone (`keys_disturb_nothing`).
-/

namespace Billiard.Simulation

variable {K C α : Type} [Scalar K] [Canvas K C] {plain keyed : Simulation K C Conductor}
  {conductor waiting : Conductor} {horizon : Instant}

/-- Two runs of a scene differ in the turret's angle alone. The clocks agree, and so do the
conductors, with the time that remains, with what is settled and with what they count; the tables
agree but for that angle; what the conductor waits for is the same event but for its number; and
the same frames were drawn but for the turret in them. -/
structure Undisturbed (blank : C) (plain keyed : Simulation K C Conductor) : Prop where
  clock : keyed.now = plain.now
  agents : keyed.agents = plain.agents
  table : ∃ angle, keyed.stage.table = plain.stage.table.turnedTo angle
  awaited : (keyed.stage.agenda.awaitedBy 0).map Event.unnumbered =
    (plain.stage.agenda.awaitedBy 0).map Event.unnumbered
  drawn : SameFrames blank plain.stage.canvas keyed.stage.canvas

/-- Undisturbed runs of poised conductors: no keys are pending in the one, and those of the other
are due. -/
structure Alike (blank : C) (plain keyed : Simulation K C Conductor) (conductor : Conductor) : Prop
    extends Undisturbed blank plain keyed where
  poised : Poised plain conductor
  poised' : Poised keyed conductor
  keyless : ∀ event ∈ plain.stage.agenda.toList, event.signal.recurs
  overdue : ∀ event ∈ keyed.stage.agenda.toList, event.signal.recurs ∨ event.due ≤ keyed.now

namespace Alike

variable {blank : C}

/-- A scene is undisturbed at first. -/
theorem of_conduct {scene : Scene K} {first : Simulation K C Conductor}
    (made : scene.conduct id blank = .ok first) :
    Alike blank first first (.new scene.interval) := by
  obtain ⟨poised, _, _⟩ := Poised.of_conduct made
  obtain ⟨_, _, nothing⟩ := begins_of_conduct made
  have canvas : first.stage.canvas = blank := canvas_of_conduct made
  refine ⟨⟨rfl, rfl, ⟨first.stage.table.turret.angle, rfl⟩, rfl, ?_⟩, poised, poised, ?_, ?_⟩
  · rw [canvas]
    exact .none
  · simp [nothing]
  · simp [nothing]

/-- Moving both clocks makes no difference. -/
theorem advance (alike : Alike blank plain keyed conductor) (t : Instant) :
    Alike blank (plain.advance t) (keyed.advance t) conductor := by
  refine ⟨⟨?_, alike.agents, alike.table, alike.awaited, alike.drawn⟩,
    alike.poised.withClock _, alike.poised'.withClock _, alike.keyless, ?_⟩
  · exact congrArg (·.advance t) alike.clock
  · intro event member
    exact (alike.overdue event member).imp_right fun due => UInt64.le_trans due (le_advance _ t)

/-- A key that is pressed changes nothing else. -/
theorem press (alike : Alike blank plain keyed conductor) (way : Turn) :
    Alike blank plain (keyed.press way).2 conductor := by
  have pressed : (keyed.press way).2 =
      keyed.withAgenda (keyed.stage.agenda.schedule 0 keyed.now (.key way)).2 := by
    simp only [Simulation.press, alike.poised'.listens, withAgenda]
  obtain ⟨waiting, poised, _⟩ := alike.poised'.take (.press way)
  rw [Move.take, pressed] at poised
  obtain rfl : conductor = waiting := by simpa using alike.poised'.alone.symm.trans poised.alone
  rw [pressed]
  refine ⟨⟨alike.clock, alike.agents, alike.table, ?_, alike.drawn⟩, alike.poised, poised,
    alike.keyless, ?_⟩
  · rw [← alike.awaited]
    exact congrArg (List.map Event.unnumbered) (Agenda.awaitedBy_schedule_key way 0)
  · intro event member
    rcases Agenda.mem_toList_schedule.1 member with rfl | held
    · exact .inr (UInt64.le_refl _)
    · exact alike.overdue event held

/-- Conductors that get ready alike are armed alike. -/
private theorem of_arms {now : Instant} {ready waiting' : Conductor} {agenda agenda' : Agenda}
    {result result' : Except (Break K) Unit} {after after' : Simulation K C Conductor} {angle : K}
    (arms : ready.Arms ⟨0, now⟩ after.stage.table agenda (waiting, result) after.stage.agenda)
    (arms' : ready.Arms ⟨0, now⟩ (after.stage.table.turnedTo angle) agenda' (waiting', result')
      after'.stage.agenda)
    (same : (agenda'.awaitedBy 0).map Event.unnumbered =
      (agenda.awaitedBy 0).map Event.unnumbered)
    (poised : Poised after waiting) (poised' : Poised after' waiting')
    (clock : after'.now = after.now)
    (table : after'.stage.table = after.stage.table.turnedTo angle)
    (drawn : SameFrames blank after.stage.canvas after'.stage.canvas)
    (keyless : ∀ event ∈ agenda.toList, event.signal.recurs)
    (overdue : ∀ event ∈ agenda'.toList, event.signal.recurs ∨ event.due ≤ after'.now) :
    result' = result ∧ Alike blank after after' waiting := by
  obtain ⟨outcome, awaited⟩ := arms.turnedTo arms' same
  cases outcome
  have agents : after'.agents = after.agents := poised'.alone.trans poised.alone.symm
  refine ⟨rfl, ⟨clock, agents, ⟨angle, table⟩, awaited, drawn⟩, poised, poised', ?_, ?_⟩
  · intro event member
    exact (arms.mem_toList member).elim (keyless event) id
  · intro event member
    exact (arms'.mem_toList member).elim (overdue event) .inl

/-- A start does the same to both. -/
theorem start (alike : Alike blank plain keyed conductor) :
    keyed.start.1 = plain.start.1 ∧
      ∃ waiting, Alike blank plain.start.2 keyed.start.2 waiting := by
  obtain ⟨waiting, poised, starts⟩ := alike.poised.start
  obtain ⟨waiting', poised', starts'⟩ := alike.poised'.start
  have clock : keyed.start.2.now = plain.start.2.now := by
    rw [now_start, now_start, alike.clock]
  have drawn : SameFrames blank plain.start.2.stage.canvas keyed.start.2.stage.canvas := by
    rw [alike.poised.canvas_start, alike.poised'.canvas_start]
    exact alike.drawn
  have overdue := alike.overdue
  rw [← now_start keyed] at overdue
  obtain ⟨angle, turned⟩ := alike.table
  generalize plain.start.1 = result at *
  generalize plain.start.2 = after at *
  generalize keyed.start.1 = result' at *
  generalize keyed.start.2 = after' at *
  cases starts with
  | rearms table arms =>
    cases starts' with
    | rearms table' arms' =>
      rw [alike.clock, turned, ← table] at arms'
      rw [← table] at arms
      have same : after'.stage.table = after.stage.table.turnedTo angle := by
        rw [table', turned, table]
      obtain ⟨results, later⟩ := of_arms arms arms' alike.awaited poised poised' clock same drawn
        alike.keyless overdue
      exact ⟨results, waiting, later⟩

/-- What happens to both in one round of a loop. -/
inductive Round (blank : C) (horizon : Instant) (plain keyed : Simulation K C Conductor)
    (conductor : Conductor) : Prop where
  | ends (beyond : ∀ due, plain.stage.agenda.nextDue? = some due → horizon < due)
      (beyond' : ∀ due, keyed.stage.agenda.nextDue? = some due → horizon < due) :
      Round blank horizon plain keyed conductor
  | turns {event : Event} {rest : Agenda} {after : Simulation K C Conductor}
      (popped : keyed.stage.agenda.pop? = some (event, rest)) (within : event.due ≤ horizon)
      (delivered : (keyed.withAgenda rest).deliver event = (.ok (), after))
      (fewer : after.stage.agenda.keys < keyed.stage.agenda.keys)
      (alike : Alike blank plain (after.setClock (keyed.now.advance event.due)) conductor) :
      Round blank horizon plain keyed conductor
  | reacts {event event' : Event} {rest rest' : Agenda} {result : Except (Break K) Unit}
      {after after' : Simulation K C Conductor} {waiting : Conductor}
      (popped : plain.stage.agenda.pop? = some (event, rest)) (within : event.due ≤ horizon)
      (delivered : (plain.withAgenda rest).deliver event = (result, after))
      (popped' : keyed.stage.agenda.pop? = some (event', rest')) (due : event'.due = event.due)
      (delivered' : (keyed.withAgenda rest').deliver event' = (result, after'))
      (noMore : after'.stage.agenda.keys ≤ keyed.stage.agenda.keys)
      (alike : Alike blank (after.setClock (plain.now.advance event.due))
        (after'.setClock (keyed.now.advance event'.due)) waiting) :
      Round blank horizon plain keyed conductor

/-- What the plain run has pending is what its conductor waits for. -/
theorem awaitedBy_eq (alike : Alike blank plain keyed conductor) :
    plain.stage.agenda.awaitedBy 0 = plain.stage.agenda.toList := by
  refine List.filter_eq_self.2 fun event member => ?_
  simp [Event.recursFor, alike.poised.mine event member, alike.keyless event member]

private theorem beyond (alike : Alike blank plain keyed conductor)
    (beyond' : ∀ due, keyed.stage.agenda.nextDue? = some due → horizon < due) :
    ∀ due, plain.stage.agenda.nextDue? = some due → horizon < due := by
  intro due next
  obtain ⟨event, rest, popped, rfl⟩ := Agenda.exists_pop?_of_nextDue? next
  have awaited : event ∈ plain.stage.agenda.awaitedBy 0 := by
    simp [alike.awaitedBy_eq, Agenda.toList_of_pop? popped]
  have there : event.unnumbered ∈ (keyed.stage.agenda.awaitedBy 0).map Event.unnumbered :=
    alike.awaited ▸ List.mem_map_of_mem awaited
  obtain ⟨partner, held, same⟩ := List.mem_map.1 there
  obtain ⟨first, next', le⟩ := Agenda.exists_nextDue?_le (List.mem_filter.1 held).1
  have due : partner.due = event.due := congrArg (·.2.1) same
  exact due ▸ UInt64.lt_of_lt_of_le (beyond' first next') le

private theorem turns {event : Event} {rest : Agenda}
    (alike : Alike blank plain keyed conductor)
    (popped : keyed.stage.agenda.pop? = some (event, rest)) (within : event.due ≤ horizon)
    (once : event.signal.recurs = false) : Round blank horizon plain keyed conductor := by
  obtain ⟨_, _, ⟨_, awaited⟩ | ⟨first, _⟩⟩ := alike.poised'.head_cases popped
  case inr => simp [Agenda.recurs_of_awaitedBy first] at once
  obtain ⟨waiting, poised, delivers⟩ := alike.poised'.deliver popped
  have list := Agenda.toList_of_pop? popped
  have due : event.due ≤ keyed.now :=
    (alike.overdue event (list ▸ List.mem_cons_self)).resolve_left (by simp [once])
  have still := advance_of_ge due
  have fewer := (delivers.keys popped).2 once
  have canvas := alike.poised'.canvas_deliver popped
  obtain ⟨angle, turned⟩ := alike.table
  cases delivered : (keyed.withAgenda rest).deliver event with
  | mk result after =>
    rw [delivered] at poised delivers fewer canvas
    cases delivers with
    | rearms first _ _ => simp [Agenda.recurs_of_awaitedBy first] at once
    | @key way _ key table agenda =>
      rw [Conductor.drawn_of_key key] at canvas
      obtain ⟨other, same⟩ := plain.stage.table.exists_turn_turnedTo angle way
      refine .turns popped within delivered fewer ?_
      refine ⟨⟨still.trans alike.clock, ?_, ⟨other, ?_⟩, ?_, ?_⟩, alike.poised,
        poised.withClock _, alike.keyless, ?_⟩
      · exact poised.alone.trans alike.poised.alone.symm
      · exact table.trans ((congrArg _ turned).trans same)
      · rw [← alike.awaited, ← awaited, ← agenda]
        rfl
      · exact canvas ▸ alike.drawn
      · intro other member
        have held : other ∈ rest.toList := agenda ▸ member
        refine (alike.overdue other (list ▸ List.mem_cons_of_mem event held)).imp_right ?_
        exact fun early => still.symm ▸ early

/-- What the keyed run delivers next but a key, the plain run delivers next as well. -/
private theorem exists_partner {event' : Event} {rest' : Agenda}
    (alike : Alike blank plain keyed conductor)
    (popped' : keyed.stage.agenda.pop? = some (event', rest')) (recurs : event'.signal.recurs) :
    ∃ event rest, plain.stage.agenda.pop? = some (event, rest) ∧ rest.toList = [] ∧
      rest'.awaitedBy 0 = [] ∧ event'.due = event.due ∧ event'.signal = event.signal := by
  obtain ⟨_, _, ⟨⟨way, key⟩, _⟩ | ⟨first', free', _⟩⟩ := alike.poised'.head_cases popped'
  case inl => simp [key, Signal.recurs] at recurs
  have awaited := alike.awaited
  rw [first', List.map_singleton, eq_comm, List.map_eq_singleton_iff] at awaited
  obtain ⟨event, first, same⟩ := awaited
  obtain ⟨rest, popped, nothing⟩ := Agenda.exists_pop? (alike.awaitedBy_eq.symm.trans first)
  simp only [Event.unnumbered, Prod.mk.injEq] at same
  exact ⟨event, rest, popped, nothing, free', same.2.1.symm, same.2.2.symm⟩

private theorem reacts {event' : Event} {rest' : Agenda}
    (alike : Alike blank plain keyed conductor)
    (popped' : keyed.stage.agenda.pop? = some (event', rest')) (within : event'.due ≤ horizon)
    (recurs : event'.signal.recurs) : Round blank horizon plain keyed conductor := by
  obtain ⟨event, rest, popped, nothing, free', due, signal⟩ := alike.exists_partner popped' recurs
  obtain ⟨waiting, poised, delivers⟩ := alike.poised.deliver popped
  obtain ⟨waiting', poised', delivers'⟩ := alike.poised'.deliver popped'
  have canvas := alike.poised.canvas_deliver popped
  have canvas' := alike.poised'.canvas_deliver popped'
  have noMore := (delivers'.keys popped').1
  obtain ⟨angle, turned⟩ := alike.table
  cases delivered : (plain.withAgenda rest).deliver event with
  | mk result after =>
  cases delivered' : (keyed.withAgenda rest').deliver event' with
  | mk result' after' =>
    rw [delivered] at poised delivers canvas
    rw [delivered'] at poised' delivers' canvas' noMore
    cases delivers with
    | key key _ _ => simp [signal, key, Signal.recurs] at recurs
    | rearms _ reacts arms =>
      cases delivers' with
      | key key _ _ => simp [key, Signal.recurs] at recurs
      | rearms _ reacts' arms' =>
        rw [turned, due, signal, Conductor.reaction?_turnedTo, reacts] at reacts'
        simp only [Option.map_some, Option.some.injEq, Prod.mk.injEq] at reacts'
        obtain ⟨table, rfl⟩ := reacts'
        rw [due, ← table] at arms'
        rw [signal, turned] at canvas'
        have drawn : SameFrames blank after.stage.canvas after'.stage.canvas := by
          rw [canvas, canvas']
          exact alike.drawn.drawn event.signal plain.stage.table angle conductor
        have clock : keyed.now.advance event'.due = plain.now.advance event.due := by
          rw [due, alike.clock]
        have free : rest.awaitedBy 0 = [] := by simp [Agenda.awaitedBy, nothing]
        have overdue : ∀ other ∈ rest'.toList,
            other.signal.recurs ∨ other.due ≤ keyed.now.advance event'.due := by
          intro other held
          have pending : other ∈ keyed.stage.agenda.toList := by
            simp [Agenda.toList_of_pop? popped', held]
          exact (alike.overdue other pending).imp_right fun early =>
            UInt64.le_trans early (le_advance _ _)
        have rearmed : result' = result ∧
            Alike blank (after.setClock (plain.now.advance event.due))
              (after'.setClock (keyed.now.advance event'.due)) waiting :=
          of_arms arms arms' (by rw [free, free']) (poised.withClock _) (poised'.withClock _) clock
            table.symm drawn (by simp [nothing]) overdue
        obtain ⟨rfl, later⟩ := rearmed
        exact .reacts popped (due ▸ within) delivered popped' due delivered' noMore later

/-- In one round both loops end, or a key is delivered in the one, or the same event in both. -/
theorem round (alike : Alike blank plain keyed conductor) (horizon : Instant) :
    Round blank horizon plain keyed conductor := by
  cases popped : keyed.stage.agenda.pop? with
  | none =>
    have nothing := Agenda.nextDue?_eq_none_iff.2 (Agenda.pop?_eq_none_iff.1 popped)
    have beyond' : ∀ due, keyed.stage.agenda.nextDue? = some due → horizon < due := by
      simp [nothing]
    exact .ends (alike.beyond beyond') beyond'
  | some pair =>
    obtain ⟨event, rest⟩ := pair
    rcases UInt64.lt_or_le horizon event.due with later | within
    · have beyond' : ∀ due, keyed.stage.agenda.nextDue? = some due → horizon < due := by
        simp [Agenda.nextDue?_of_pop? popped, later]
      exact .ends (alike.beyond beyond') beyond'
    · cases recurs : event.signal.recurs with
      | false => exact alike.turns popped within recurs
      | true => exact alike.reacts popped within recurs

end Alike

/-- Two outcomes are the same but for what they count, and leave two runs that are alike. -/
structure Corresponds (blank : C) (plain keyed : After K C Conductor α) : Prop where
  result : keyed.1.map (fun _ => ()) = plain.1.map (fun _ => ())
  alike : ∃ conductor, Alike blank plain.2 keyed.2 conductor

namespace Alike

variable {blank : C}

/-- If the plain run ends, so does the keyed one: each of its rounds uses up a round of the plain
run or one of the keys in its own agenda. -/
theorem exists_keyed (alike : Alike blank plain keyed conductor) (count' : Nat)
    {count rounds : Nat} {outcome : After K C Conductor Nat}
    (ended : runFrom horizon count rounds plain = some outcome) :
    ∃ rounds' outcome', runFrom horizon count' rounds' keyed = some outcome' ∧
      Corresponds blank outcome outcome' := by
  obtain ⟨size, enough⟩ : ∃ size, rounds + keyed.stage.agenda.keys ≤ size := ⟨_, Nat.le_refl _⟩
  induction size generalizing plain keyed conductor count count' rounds with
  | zero =>
    obtain rfl : rounds = 0 := by omega
    cases ended
  | succ size ih =>
    obtain ⟨rounds, rfl⟩ : ∃ n, rounds = n + 1 := by
      cases rounds with
      | zero => cases ended
      | succ n => exact ⟨n, rfl⟩
    cases alike.round horizon with
    | ends beyond beyond' =>
      rw [runFrom_of_beyond beyond] at ended
      cases ended
      exact ⟨1, _, runFrom_of_beyond beyond', rfl, conductor, alike.advance horizon⟩
    | @turns event _ after popped within delivered fewer later =>
      have less : (after.setClock (keyed.now.advance event.due)).stage.agenda.keys <
        keyed.stage.agenda.keys := fewer
      obtain ⟨rounds', outcome', ended', same⟩ := ih later (count' + 1) ended (by omega)
      refine ⟨rounds' + 1, outcome', ?_, same⟩
      rw [runFrom_of_pop? popped within, delivered]
      exact ended'
    | @reacts event event' _ _ result after after' _ popped within delivered popped' due delivered'
        noMore later =>
      rw [runFrom_of_pop? popped within, delivered] at ended
      have within' : event'.due ≤ horizon := due ▸ within
      have last : (after'.setClock (keyed.now.advance event'.due)).stage.agenda.keys ≤
        keyed.stage.agenda.keys := noMore
      cases result with
      | error cause =>
        cases ended
        refine ⟨1, (.error cause, after'.setClock (keyed.now.advance event'.due)), ?_, rfl, _,
          later⟩
        rw [runFrom_of_pop? popped' within', delivered']
      | ok _ =>
        obtain ⟨rounds', outcome', ended', same⟩ := ih later (count' + 1) ended (by omega)
        refine ⟨rounds' + 1, outcome', ?_, same⟩
        rw [runFrom_of_pop? popped' within', delivered']
        exact ended'

/-- If the keyed run ends, so does the plain one. -/
theorem exists_plain (alike : Alike blank plain keyed conductor) (count : Nat)
    {count' rounds : Nat} {outcome' : After K C Conductor Nat}
    (ended : runFrom horizon count' rounds keyed = some outcome') :
    ∃ rounds outcome, runFrom horizon count rounds plain = some outcome ∧
      Corresponds blank outcome outcome' := by
  induction rounds generalizing plain keyed conductor count count' with
  | zero => cases ended
  | succ rounds ih =>
    cases alike.round horizon with
    | ends beyond beyond' =>
      rw [runFrom_of_beyond beyond'] at ended
      cases ended
      exact ⟨1, _, runFrom_of_beyond beyond, rfl, conductor, alike.advance horizon⟩
    | turns popped within delivered _ later =>
      rw [runFrom_of_pop? popped within, delivered] at ended
      exact ih later count ended
    | @reacts event _ _ _ result after _ _ popped within delivered popped' due delivered' _ later =>
      rw [runFrom_of_pop? popped' (due.symm ▸ within), delivered'] at ended
      cases result with
      | error cause =>
        cases ended
        refine ⟨1, (.error cause, after.setClock (plain.now.advance event.due)), ?_, rfl, _, later⟩
        rw [runFrom_of_pop? popped within, delivered]
      | ok _ =>
        obtain ⟨rounds, outcome, ended, same⟩ := ih later (count + 1) ended
        refine ⟨rounds + 1, outcome, ?_, same⟩
        rw [runFrom_of_pop? popped within, delivered]
        exact ended

end Alike

/-- Whether a key is pressed. -/
def Call.isPress : Call → Bool
  | .press _ => true
  | _ => false

/-- Whether a single delivery is asked for. It may be that of a key, where without keys it is
another one. -/
def Call.isStep : Call → Bool
  | .step | .stepNext => true
  | _ => false

/-- The calls of a script were made one after another, and each ended with the result beside it. -/
inductive Plays (first : Simulation K C Conductor) :
    List (Call × Except (Break K) Answer) → Simulation K C Conductor → Prop where
  | begin : Plays first [] first
  | call {history : List (Call × Except (Break K) Answer)}
      {before after : Simulation K C Conductor} (call : Call) (rounds : Nat)
      {result : Except (Break K) Answer} (played : Plays first history before)
      (ended : call.perform rounds before = some (result, after)) :
      Plays first (history ++ [(call, result)]) after

/-- What a call came to, but for what it counted. -/
def outline (entry : Call × Except (Break K) Answer) : Call × Except (Break K) Unit :=
  (entry.1, entry.2.map fun _ => ())

section Calls

omit [Scalar K] in
theorem Call.exists_press (call : Call) (key : call.isPress) : ∃ way, call = .press way := by
  cases call <;> cases key
  exact ⟨_, rfl⟩

variable {blank : C} {call : Call} {rounds : Nat} {first last last' : Simulation K C Conductor}

private theorem Corresponds.count {plain keyed : After K C Conductor Nat}
    (same : Corresponds blank plain keyed) :
    Corresponds blank (plain.map Answer.count) (keyed.map Answer.count) := by
  obtain ⟨result, alike⟩ := same
  refine ⟨?_, alike⟩
  obtain ⟨_ | _, _⟩ := plain <;> obtain ⟨_ | _, _⟩ := keyed <;> exact result

/-- A call that is neither a loop nor a single step comes to the same at once. -/
private theorem Alike.at_once (alike : Alike blank plain keyed conductor)
    (noKey : call.isPress = false) (noStep : call.isStep = false)
    (once : call.horizon? plain.now = none) :
    ∃ outcome outcome', (∀ rounds, call.perform rounds plain = some outcome) ∧
      (∀ rounds, call.perform rounds keyed = some outcome') ∧
        Corresponds blank outcome outcome' := by
  cases call with
  | dispatchDue | runUntil t | runFor duration => cases once
  | step | stepNext => cases noStep
  | press way => cases noKey
  | start =>
    obtain ⟨same, later⟩ := alike.start
    exact ⟨_, _, fun _ => rfl, fun _ => rfl, by simp only [After.map, same], later⟩
  | advance t => exact ⟨_, _, fun _ => rfl, fun _ => rfl, rfl, conductor, alike.advance t⟩

/-- If a call ends without keys, it ends with them. -/
theorem Alike.perform_keyed (alike : Alike blank plain keyed conductor)
    (noKey : call.isPress = false) (noStep : call.isStep = false)
    {outcome : After K C Conductor Answer} (ended : call.perform rounds plain = some outcome) :
    ∃ rounds' outcome', call.perform rounds' keyed = some outcome' ∧
      Corresponds blank outcome outcome' := by
  cases loops : call.horizon? plain.now with
  | none =>
    obtain ⟨_, outcome', here, there, same⟩ := alike.at_once noKey noStep loops
    obtain rfl := Option.some.inj ((here rounds).symm.trans ended)
    exact ⟨0, outcome', there 0, same⟩
  | some horizon =>
    rw [Call.perform_of_horizon? loops] at ended
    obtain ⟨last, finished, rfl⟩ := Option.map_eq_some_iff.1 ended
    obtain ⟨rounds', last', finished', same⟩ := alike.exists_keyed 0 finished
    refine ⟨rounds', last'.map .count, ?_, same.count⟩
    rw [Call.perform_of_horizon? (alike.clock.symm ▸ loops), finished']
    rfl

/-- If a call ends with keys, it ends without them. -/
theorem Alike.perform_plain (alike : Alike blank plain keyed conductor)
    (noKey : call.isPress = false) (noStep : call.isStep = false)
    {outcome' : After K C Conductor Answer} (ended : call.perform rounds keyed = some outcome') :
    ∃ rounds' outcome, call.perform rounds' plain = some outcome ∧
      Corresponds blank outcome outcome' := by
  cases loops : call.horizon? plain.now with
  | none =>
    obtain ⟨outcome, _, here, there, same⟩ := alike.at_once noKey noStep loops
    obtain rfl := Option.some.inj ((there rounds).symm.trans ended)
    exact ⟨0, outcome, here 0, same⟩
  | some horizon =>
    rw [Call.perform_of_horizon? (alike.clock.symm ▸ loops)] at ended
    obtain ⟨last', finished', rfl⟩ := Option.map_eq_some_iff.1 ended
    obtain ⟨rounds', last, finished, same⟩ := alike.exists_plain 0 finished'
    refine ⟨rounds', last.map .count, ?_, same.count⟩
    rw [Call.perform_of_horizon? loops, finished]
    rfl

/-- A script plays in one way only. -/
theorem Plays.unique {history others : List (Call × Except (Break K) Answer)}
    (plays : first.Plays history last) (plays' : first.Plays others last')
    (same : history.map (·.1) = others.map (·.1)) : history = others ∧ last = last' := by
  induction plays generalizing others last' with
  | begin =>
    cases plays' with
    | begin => exact ⟨rfl, rfl⟩
    | call _ _ _ _ => simp at same
  | call call rounds played ended ih =>
    cases plays' with
    | begin => simp at same
    | call other _ played' ended' =>
      simp only [List.map_append, List.map_singleton] at same
      obtain ⟨earlier, latest⟩ := List.append_inj' same rfl
      obtain ⟨rfl, rfl⟩ := ih played' earlier
      obtain rfl : call = other := by simpa using latest
      cases Call.perform_unique ended ended'
      exact ⟨rfl, rfl⟩

/-- What a script plays with keys, it plays without them. -/
private theorem Plays.exists_plain (begun : Alike blank first first conductor)
    {history : List (Call × Except (Break K) Answer)} (plays : first.Plays history keyed)
    (noStep : ∀ entry ∈ history, entry.1.isStep = false) :
    ∃ others plain conductor, first.Plays others plain ∧
      (history.filter (!·.1.isPress)).map outline = others.map outline ∧
      Alike blank plain keyed conductor := by
  induction plays with
  | begin => exact ⟨[], first, conductor, .begin, rfl, begun⟩
  | call call rounds _ ended ih =>
    rw [List.forall_mem_append, List.forall_mem_singleton] at noStep
    obtain ⟨others, plain, conductor, plays, same, alike⟩ := ih noStep.1
    cases key : call.isPress with
    | true =>
      obtain ⟨way, rfl⟩ := call.exists_press key
      cases ended
      refine ⟨others, plain, conductor, plays, ?_, alike.press way⟩
      simpa [Call.isPress] using same
    | false =>
      obtain ⟨rounds', ⟨result', plain'⟩, ended', results, conductor', alike'⟩ :=
        alike.perform_plain key noStep.2 ended
      refine ⟨_, plain', conductor', plays.call call rounds' ended', ?_, alike'⟩
      simp [List.filter_append, key, same, outline, results]

/-- What a script plays without keys, it plays with them. -/
private theorem Plays.exists_keyed (begun : Alike blank first first conductor) (script : List Call)
    (noStep : ∀ call ∈ script, call.isStep = false)
    {others : List (Call × Except (Break K) Answer)} (plays : first.Plays others plain)
    (same : others.map (·.1) = script.filter (!·.isPress)) :
    ∃ history keyed conductor, first.Plays history keyed ∧ history.map (·.1) = script ∧
      Alike blank plain keyed conductor := by
  induction script using List.reverseRecOn generalizing others plain with
  | nil =>
    obtain ⟨_, rfl⟩ := plays.unique .begin same
    exact ⟨[], plain, conductor, .begin, rfl, begun⟩
  | append_singleton script call ih =>
    rw [List.forall_mem_append, List.forall_mem_singleton] at noStep
    rw [List.filter_append] at same
    cases key : call.isPress with
    | true =>
      rw [List.filter_singleton, key] at same
      obtain ⟨history, keyed, conductor, plays, calls, alike⟩ :=
        ih noStep.1 plays (same.trans (List.append_nil _))
      obtain ⟨way, rfl⟩ := call.exists_press key
      exact ⟨_, _, conductor, plays.call (.press way) 0 rfl, by simp [calls], alike.press way⟩
    | false =>
      rw [List.filter_singleton, key] at same
      cases plays with
      | begin => simp at same
      | call other rounds played ended =>
        rw [List.map_append] at same
        obtain ⟨earlier, latest⟩ := List.append_inj' same rfl
        obtain rfl : other = call := by simpa using latest
        obtain ⟨history, keyed, conductor, plays, calls, alike⟩ := ih noStep.1 played earlier
        obtain ⟨rounds', ⟨result', keyed'⟩, ended', _, conductor', alike'⟩ :=
          alike.perform_keyed key noStep.2 ended
        exact ⟨_, keyed', conductor', plays.call other rounds' ended', by simp [calls], alike'⟩

/-- Keys disturb nothing. Take a scene and a script of calls other than single steps, with keys
pressed anywhere in between, and the same script without the keys. If either plays to its end, so
does the other; each call comes to the same, but for what it counts; and after the last call, so
after each call of a longer script, the two simulations agree on the clock, on the conductor with
all that it remembers, on the balls, on the event that the conductor waits for, and on the frames
that were drawn, but for the turret's angle. -/
theorem keys_disturb_nothing {scene : Scene K} (made : scene.conduct id blank = .ok first)
    (script : List Call) (noStep : ∀ call ∈ script, call.isStep = false) :
    ((∃ history keyed, first.Plays history keyed ∧ history.map (·.1) = script) ↔
      ∃ others plain, first.Plays others plain ∧
        others.map (·.1) = script.filter (!·.isPress)) ∧
    ∀ history keyed others plain, first.Plays history keyed → history.map (·.1) = script →
      first.Plays others plain → others.map (·.1) = script.filter (!·.isPress) →
        (history.filter (!·.1.isPress)).map outline = others.map outline ∧
          Undisturbed blank plain keyed := by
  have begun := Alike.of_conduct made
  have calls {history others : List (Call × Except (Break K) Answer)}
      (same : (history.filter (!·.1.isPress)).map outline = others.map outline) :
      others.map (·.1) = (history.map (·.1)).filter (!·.isPress) := by
    have firsts := congrArg (List.map (·.1)) same
    simpa [outline, Function.comp_def, List.filter_map] using firsts.symm
  have among {history : List (Call × Except (Break K) Answer)}
      (scripted : history.map (·.1) = script) : ∀ entry ∈ history, entry.1.isStep = false :=
    fun entry member => noStep entry.1 (scripted ▸ List.mem_map_of_mem member)
  refine ⟨⟨?_, ?_⟩, ?_⟩
  · rintro ⟨history, keyed, plays, scripted⟩
    obtain ⟨others, plain, _, plays', same, _⟩ := plays.exists_plain begun (among scripted)
    exact ⟨others, plain, plays', scripted ▸ calls same⟩
  · rintro ⟨others, plain, plays', same⟩
    obtain ⟨history, keyed, _, plays, scripted, _⟩ := plays'.exists_keyed begun script noStep same
    exact ⟨history, keyed, plays, scripted⟩
  · intro history keyed others plain plays scripted plays' same
    obtain ⟨others', plain', _, played, results, alike⟩ :=
      plays.exists_plain begun (among scripted)
    obtain ⟨rfl, rfl⟩ := plays'.unique played (same.trans (scripted ▸ calls results).symm)
    exact ⟨results, alike.toUndisturbed⟩

end Calls

/-- In the lane, a key between the start and the first beat. -/
theorem keys_disturb_nothing_lane :
    ∃ first : Simulation Float (Recorder Float) Conductor, lane.conduct id .new = .ok first ∧
      ∃ history keyed others plain,
        first.Plays history keyed ∧ history.map (·.1) = [.start, .press .left, .runUntil 1000] ∧
          first.Plays others plain ∧ others.map (·.1) = [.start, .runUntil 1000] ∧
          (history.filter (!·.1.isPress)).map outline = others.map outline ∧
          Undisturbed .new plain keyed := by
  have ends : (lane.conduct id (.new : Recorder Float)).toOption.map
      (fun first : Simulation Float (Recorder Float) Conductor =>
        ((Call.runUntil 1000).perform 9 first.start.2).isSome) = some true := by
    decide +kernel
  obtain ⟨first, made, isSome⟩ := Scene.exists_conduct_of_map ends
  obtain ⟨⟨result, plain⟩, ended⟩ := Option.isSome_iff_exists.1 isSome
  have plays : first.Plays _ plain := .call (.runUntil 1000) 9 (.call .start 0 .begin rfl) ended
  obtain ⟨together, alike⟩ := keys_disturb_nothing made
    [.start, .press .left, .runUntil 1000] (by decide)
  obtain ⟨history, keyed, plays', scripted⟩ := together.2 ⟨_, plain, plays, rfl⟩
  exact ⟨first, made, history, keyed, _, plain, plays', scripted, plays, rfl,
    alike history keyed _ plain plays' scripted plays rfl⟩

end Billiard.Simulation
