import Billiard.Proofs.Accounts
import Billiard.Proofs.Causality
import Billiard.Proofs.Conducting

/-!
What a run up to a horizon leaves behind, whether it comes to its end or breaks off. The run is a
stretch of deliveries, and after any such stretch all that was pending or was scheduled meanwhile is
delivered, withdrawn or still pending (`Ledger`). A run that ends has delivered all that was due up
to the horizon (`Completes`); one that breaks off has delivered all that comes before the event that
failed, and lost no other (`BreaksOff`). Nothing is asked of the simulation it begins with
(`runUntil_keeps_books`).
-/

namespace Billiard.Simulation

variable {K C A : Type}

/-- The event that comes first is taken from the agenda when it is due, and handed to the agent that
it is for. -/
def Delivery.Made [Canvas K C] [Agent K A] (delivery : Delivery K C A) : Prop :=
  delivery.event.due ≤ delivery.before.now ∧
    ∃ rest, delivery.before.stage.agenda.pop? = some (delivery.event, rest) ∧
      (delivery.before.withAgenda rest).deliver delivery.event = (delivery.result, delivery.after)

/-- The books of a stretch of deliveries: what was scheduled and what was withdrawn meanwhile, and
where every event is. -/
structure Ledger [Canvas K C] [Agent K A] (before : Simulation K C A)
    (deliveries : List (Delivery K C A)) (after : Simulation K C A) (scheduled : List Event)
    (withdrawn : List (AgentId × Event)) : Prop where
  made : ∀ delivery ∈ deliveries, delivery.Made
  issued : after.stage.agenda.issued = before.stage.agenda.issued + scheduled.length
  numbers : scheduled.map (·.id) = List.range' before.stage.agenda.issued scheduled.length
  targets : ∀ event ∈ scheduled, event.target < before.agents.length
  noted : after.replacements = before.replacements ++ withdrawn
  own : ∀ agent event, (agent, event) ∈ withdrawn → event.target = agent ∧ event.signal.recurs
  balance : (before.stage.agenda.toList ++ scheduled).Perm
    (deliveries.map (·.event) ++ (withdrawn.map (·.2) ++ after.stage.agenda.toList))
  ordered : (deliveries.map (·.event)).Pairwise Event.Precedes
  ahead : ∀ delivery ∈ deliveries, ∀ other ∈ after.stage.agenda.toList,
    delivery.event.Precedes other
  agents : after.agents.length = before.agents.length
  /-- An event for an agent that is not there is dropped and does not count. -/
  delivered : after.delivered = before.delivered + deliveries.countP fun delivery =>
    delivery.result.isOk && decide (delivery.event.target < before.agents.length)

variable [Canvas K C] [Agent K A] {before mid after : Simulation K C A}
  {deliveries : List (Delivery K C A)} {scheduled : List Event}
  {withdrawn : List (AgentId × Event)} {event : Event} {rest : Agenda} {horizon : Instant}
  {count rounds : Nat} {move : Move}

/-- No number is given out twice, and none was given out to what is pending. -/
theorem Ledger.id_lt (ledger : Ledger before deliveries after scheduled withdrawn)
    (member : event ∈ deliveries.map (·.event)) : event.id < after.stage.agenda.issued := by
  rw [ledger.issued]
  rcases List.mem_append.1 (ledger.balance.mem_iff.2 (List.mem_append_left _ member)) with
    held | added
  · exact Nat.lt_add_right _ (before.stage.agenda.numbered event (Agenda.mem_toList.1 held))
  · have number := List.mem_map_of_mem (f := (·.id)) added
    rw [ledger.numbers, List.mem_range'_1] at number
    exact number.2

theorem Ledger.begin (simulation : Simulation K C A) : Ledger simulation [] simulation [] [] where
  made := by simp
  issued := rfl
  numbers := rfl
  targets := by simp
  noted := (List.append_nil _).symm
  own := by simp
  balance := by simp
  ordered := .nil
  ahead := by simp
  agents := rfl
  delivered := rfl

/-- The clock is not in the books. -/
theorem Ledger.advance (ledger : Ledger before deliveries after scheduled withdrawn) (t : Instant) :
    Ledger before deliveries (after.advance t) scheduled withdrawn := by
  cases ledger
  constructor <;> assumption

/-- All that a delivery does to the agenda is done by the agent it is made to, if that is there. -/
theorem reworks_deliver (simulation : Simulation K C A) (event : Event) :
    ∃ replaced, Agenda.Reworks event.due simulation.agents.length simulation.stage.agenda replaced
        (simulation.deliver event).2.stage.agenda ∧
      (simulation.deliver event).2.replacements = simulation.replacements ++ replaced ∧
      (simulation.deliver event).2.agents.length = simulation.agents.length ∧
      (simulation.deliver event).2.delivered = simulation.delivered +
        if (simulation.deliver event).1.isOk && decide (event.target < simulation.agents.length)
        then 1 else 0 := by
  cases found : simulation.agents[event.target]? with
  | none =>
    have gone : ¬event.target < simulation.agents.length := by simpa using found
    have dropped : simulation.deliver event = (.ok (), simulation.note (.undeliverable event)) := by
      simp only [deliver, found]
    rw [dropped]
    refine ⟨[], .rests _, Stage.replacements_note _ _, rfl, ?_⟩
    simp [gone, note]
  | some agent =>
    have there := (List.getElem?_eq_some_iff.1 found).1
    let visit : Visit := ⟨event.target, event.due⟩
    let stage := simulation.stage.note
      (.delivering event (Agent.name (K := K) agent) (Agent.state (K := K) agent))
    have handled := Plan.reworks_run visit there (Agent.handle visit event agent) stage
    cases ran : (Agent.handle visit event agent).run visit stage with
    | mk outcome last =>
      rw [ran] at handled
      obtain ⟨replaced, reworks, noted⟩ := handled
      rw [deliver_of_run found ran]
      refine ⟨replaced, reworks, noted.trans ?_, List.length_set, ?_⟩
      · exact congrArg (· ++ replaced) ((Stage.replacements_note _ _).trans (List.append_nil _))
      · obtain ⟨changed, result⟩ := outcome
        cases result <;> simp [tally, there, Except.isOk, Except.toBool]

/-- One more delivery. -/
theorem Ledger.deliver (ledger : Ledger before deliveries mid scheduled withdrawn)
    (popped : mid.stage.agenda.pop? = some (event, rest)) (due : event.due ≤ mid.now) :
    ∃ scheduled withdrawn, Ledger before
      (deliveries ++ [⟨event, mid, ((mid.withAgenda rest).deliver event).1,
        ((mid.withAgenda rest).deliver event).2⟩])
      ((mid.withAgenda rest).deliver event).2 scheduled withdrawn := by
  obtain ⟨replaced, reworks, noted, agents, delivered⟩ :=
    reworks_deliver (mid.withAgenda rest) event
  obtain ⟨more, issued, numbers, targets, balance⟩ := reworks.exists_scheduled
  have made : Delivery.Made (K := K) (C := C) (A := A) ⟨event, mid,
      ((mid.withAgenda rest).deliver event).1, ((mid.withAgenda rest).deliver event).2⟩ :=
    ⟨due, rest, popped, rfl⟩
  generalize ((mid.withAgenda rest).deliver event).1 = result at delivered made ⊢
  generalize ((mid.withAgenda rest).deliver event).2 = after at *
  have pending := Agenda.toList_of_pop? popped
  have given := Agenda.issued_of_pop? popped
  have mine : event ∈ mid.stage.agenda.toList := pending ▸ List.mem_cons_self
  have number : event.id < rest.issued :=
    given ▸ mid.stage.agenda.numbered event (Agenda.mem_toList.1 mine)
  have others : (mid.withAgenda rest).stage.agenda = rest := rfl
  rw [others] at reworks issued numbers balance
  refine ⟨scheduled ++ more, withdrawn ++ replaced, ?_, ?_, ?_, ?_, ?_, ?_, ?_, ?_, ?_, ?_, ?_⟩
  · exact List.forall_mem_append.2 ⟨ledger.made, List.forall_mem_singleton.2 made⟩
  · rw [issued, given, ledger.issued, List.length_append, Nat.add_assoc]
  · rw [List.map_append, ledger.numbers, numbers, given, ledger.issued, List.range'_append_1,
      List.length_append]
  · have there : (mid.withAgenda rest).agents.length = before.agents.length := ledger.agents
    exact List.forall_mem_append.2 ⟨ledger.targets, there ▸ targets⟩
  · rw [noted, ← List.append_assoc, ← ledger.noted]
    rfl
  · intro agent event member
    exact (List.mem_append.1 member).elim (ledger.own agent event) reworks.own
  · refine List.perm_iff_count.2 fun other => ?_
    have first := ledger.balance.count_eq other
    have second := balance.count_eq other
    simp only [pending, List.count_append, List.count_cons, List.map_append, List.map_cons,
      List.map_nil, List.count_nil] at first second ⊢
    omega
  · rw [List.map_append, List.pairwise_append]
    refine ⟨ledger.ordered, List.pairwise_singleton _ _, ?_⟩
    intro other member last same
    obtain ⟨delivery, made, rfl⟩ := List.mem_map.1 member
    exact List.mem_singleton.1 same ▸ ledger.ahead delivery made event mine
  · rw [List.forall_mem_append, List.forall_mem_singleton]
    refine ⟨fun delivery member => ?_, ?_⟩
    · have early : delivery.event.due ≤ event.due := by
        rcases ledger.ahead delivery member event mine with less | ⟨same, _⟩
        · exact UInt64.le_of_lt less
        · exact UInt64.le_of_eq same
      refine reworks.precedes early (given ▸ ledger.id_lt (List.mem_map_of_mem member)) ?_
      intro other held
      exact ledger.ahead delivery member other (pending ▸ List.mem_cons_of_mem event held)
    · exact reworks.precedes (UInt64.le_refl _) number
        fun other held => Agenda.precedes_of_pop? popped held
  · exact agents.trans ledger.agents
  · have same : (mid.withAgenda rest).agents.length = before.agents.length := ledger.agents
    rw [delivered, same, List.countP_append, List.countP_singleton, ← Nat.add_assoc,
      ← ledger.delivered]
    rfl

/-- A run only steps and moves the clock. -/
theorem mem_runMoves {simulation : Simulation K C A}
    (member : move ∈ simulation.runMoves horizon rounds) :
    move = .step ∨ ∃ t, move = .advance t := by
  induction rounds generalizing simulation with
  | zero => cases member
  | succ rounds ih =>
    unfold runMoves at member
    split at member
    · exact .inr ⟨_, List.mem_singleton.1 member⟩
    · split at member
      · rcases List.mem_cons.1 member with rfl | member
        · exact .inr ⟨_, rfl⟩
        · rcases List.mem_cons.1 member with rfl | member
          · exact .inl rfl
          · split at member
            · exact ih member
            · cases member
      · exact .inr ⟨_, List.mem_singleton.1 member⟩

/-- Steps and movements of the clock leave the books in order. -/
theorem exists_ledger (before : Simulation K C A) {moves : List Move}
    (only : ∀ move ∈ moves, move = .step ∨ ∃ t, move = .advance t) :
    ∃ scheduled withdrawn,
      Ledger before (before.history moves) (before.follow moves) scheduled withdrawn := by
  induction moves using List.reverseRecOn with
  | nil => exact ⟨[], [], .begin before⟩
  | append_singleton moves move ih =>
    rw [List.forall_mem_append, List.forall_mem_singleton] at only
    obtain ⟨scheduled, withdrawn, ledger⟩ := ih only.1
    rw [follow_concat, history_concat]
    rcases only.2 with rfl | ⟨t, rfl⟩
    · simp only [Move.take, Move.delivery?]
      cases due : (before.follow moves).stage.agenda.popDue? (before.follow moves).now with
      | none =>
        rw [step_of_popDue?_eq_none due]
        exact ⟨scheduled, withdrawn, (List.append_nil _).symm ▸ ledger⟩
      | some pair =>
        obtain ⟨event, rest⟩ := pair
        obtain ⟨popped, early⟩ := Agenda.popDue?_eq_some_iff.1 due
        rw [step_of_pop? popped early]
        exact ledger.deliver popped early
    · exact ⟨scheduled, withdrawn, (List.append_nil _).symm ▸ ledger.advance t⟩

/-- The books of a run, whether it comes to its end or breaks off. -/
theorem exists_ledger_of_runFrom {result : Except (Break K) Nat}
    (ended : runFrom horizon count rounds before = some (result, after)) :
    ∃ scheduled withdrawn,
      Ledger before (before.history (before.runMoves horizon rounds)) after scheduled
        withdrawn := by
  have only : ∀ move ∈ before.runMoves horizon rounds, move = .step ∨ ∃ t, move = .advance t :=
    fun _ member => mem_runMoves member
  have books := exists_ledger before only
  rwa [follow_runMoves ended] at books

/-- In a simulation in which every event is for an agent that is there, as many deliveries count as
came to their end. -/
theorem Ledger.delivered_of_addressed
    (ledger : Ledger before deliveries after scheduled withdrawn) (addressed : before.Addressed) :
    after.delivered = before.delivered + deliveries.countP (·.result.isOk) := by
  rw [ledger.delivered]
  refine congrArg _ (List.countP_congr fun delivery member => ?_)
  have there : delivery.event.target < before.agents.length := by
    have member := List.mem_map_of_mem (f := (·.event)) member
    rcases List.mem_append.1 (ledger.balance.mem_iff.2 (List.mem_append_left _ member)) with
      held | added
    · exact addressed.pending _ held
    · exact ledger.targets _ added
  simp [there]

omit [Canvas K C] [Agent K A] in
/-- Deliveries that succeeded all came to their end. -/
theorem countP_of_succeeded {deliveries : List (Delivery K C A)}
    (succeeded : ∀ delivery ∈ deliveries, delivery.result = .ok ()) :
    deliveries.countP (·.result.isOk) = deliveries.length := by
  refine List.countP_eq_length.2 fun delivery member => ?_
  rw [succeeded delivery member]
  rfl

/-- Whatever was pending or was scheduled meanwhile, and was not delivered, is still pending or was
withdrawn. -/
theorem Ledger.kept (ledger : Ledger before deliveries after scheduled withdrawn)
    (held : event ∈ before.stage.agenda.toList ++ scheduled)
    (waits : event ∉ deliveries.map (·.event)) :
    event ∈ after.stage.agenda.toList ∨ event ∈ withdrawn.map (·.2) := by
  have found := ledger.balance.mem_iff.1 held
  rw [List.mem_append, List.mem_append] at found
  exact (found.resolve_left waits).symm

/-- What a run delivers: the event that comes first and, if that succeeds, what it delivers from
there. -/
theorem history_runMoves_of_pop? (rounds : Nat)
    (popped : before.stage.agenda.pop? = some (event, rest)) (within : event.due ≤ horizon) :
    before.history (before.runMoves horizon (rounds + 1)) =
      match (before.withAgenda rest).deliver event with
      | (.error cause, after) => [⟨event, before.advance event.due, .error cause,
          after.setClock (before.now.advance event.due)⟩]
      | (.ok (), after) => ⟨event, before.advance event.due, .ok (),
          after.setClock (before.now.advance event.due)⟩ ::
        (after.setClock (before.now.advance event.due)).history
          ((after.setClock (before.now.advance event.due)).runMoves horizon rounds) := by
  have stepped := step_advance_of_pop? popped
  have due : (before.advance event.due).stage.agenda.popDue? (before.advance event.due).now =
      some (event, rest) := Agenda.popDue?_eq_some_iff.2 ⟨popped, due_le_advance _ _⟩
  have made : Move.delivery? .step (before.advance event.due) =
      some ⟨event, before.advance event.due, ((before.withAgenda rest).deliver event).1,
        ((before.withAgenda rest).deliver event).2.setClock
          (before.now.advance event.due)⟩ := by
    simp only [Move.delivery?, due, Option.map_some]
    change some (Delivery.mk event (before.advance event.due)
      (((before.withAgenda rest).setClock (before.now.advance event.due)).deliver event).1
      (((before.withAgenda rest).setClock (before.now.advance event.due)).deliver event).2) = _
    rw [deliver_setClock]
  rw [runMoves, Agenda.nextDue?_of_pop? popped]
  simp only [if_pos within, history, Move.take, made, stepped]
  cases (before.withAgenda rest).deliver event with
  | mk result after => cases result <;> rfl

/-- What is left of a run that comes to its end. -/
structure Completes (before : Simulation K C A) (horizon : Instant)
    (deliveries : List (Delivery K C A)) (withdrawn : List (AgentId × Event)) (count : Nat)
    (after : Simulation K C A) : Prop where
  counted : deliveries.length = count
  succeeded : ∀ delivery ∈ deliveries, delivery.result = .ok ()
  within : ∀ delivery ∈ deliveries, delivery.event.due ≤ horizon
  cleared : ∀ event ∈ after.stage.agenda.toList, horizon < event.due
  clock : after.now.toNat = max before.now.toNat horizon.toNat
  delivered : before.Addressed → after.delivered = before.delivered + count
  kept : ∀ event ∈ before.stage.agenda.toList, horizon < event.due →
    event ∈ after.stage.agenda.toList ∨ event ∈ withdrawn.map (·.2)

/-- What is left of a run that breaks off: its last delivery fails. -/
structure BreaksOff (before : Simulation K C A) (horizon : Instant)
    (earlier : List (Delivery K C A)) (last : Delivery K C A) (scheduled : List Event)
    (withdrawn : List (AgentId × Event)) (cause : Break K) (after : Simulation K C A) : Prop where
  succeeded : ∀ delivery ∈ earlier, delivery.result = .ok ()
  failed : last.result = .error cause
  within : last.event.due ≤ horizon
  consumed : last.event ∉ after.stage.agenda.toList
  clock : after.now.toNat = max before.now.toNat last.event.due.toNat
  delivered : before.Addressed → after.delivered = before.delivered + earlier.length
  kept : ∀ event ∈ before.stage.agenda.toList ++ scheduled, event ≠ last.event →
    event ∉ earlier.map (·.event) →
    last.event.Precedes event ∧ event ∈ after.stage.agenda.toList ∨ event ∈ withdrawn.map (·.2)

/-- The deliveries of a run that comes to its end. -/
theorem history_of_runFrom_ok {answer : Nat}
    (ended : runFrom horizon count rounds before = some (.ok answer, after)) :
    answer = count + (before.history (before.runMoves horizon rounds)).length ∧
      (∀ delivery ∈ before.history (before.runMoves horizon rounds),
        delivery.result = .ok () ∧ delivery.event.due ≤ horizon) ∧
      after.now.toNat = max before.now.toNat horizon.toNat := by
  induction rounds generalizing count before with
  | zero => simp [runFrom] at ended
  | succ rounds ih =>
    rcases before.stage.agenda.beyond_or_pop? horizon with beyond | ⟨event, rest, popped, within⟩
    · rw [runFrom_of_beyond beyond] at ended
      cases ended
      rw [runMoves_of_beyond beyond]
      exact ⟨rfl, by simp [history, Move.delivery?], Instant.toNat_advance _ _⟩
    · rw [runFrom_of_pop? popped within] at ended
      have made := history_runMoves_of_pop? rounds popped within
      have clock := now_deliver (before.withAgenda rest) event
      cases delivered : (before.withAgenda rest).deliver event with
      | mk result mid =>
        rw [delivered] at ended made clock
        cases result with
        | error cause => cases ended
        | ok _ =>
          obtain ⟨counted, succeeded, last⟩ := ih ended
          rw [made]
          refine ⟨?_, ?_, ?_⟩
          · rw [counted, List.length_cons]
            omega
          · exact List.forall_mem_cons.2 ⟨⟨rfl, within⟩, succeeded⟩
          · have moved : (mid.setClock (before.now.advance event.due)).now.toNat =
                max before.now.toNat event.due.toNat := Instant.toNat_advance _ _
            have early := UInt64.le_iff_toNat_le.1 within
            rw [last, moved]
            omega

/-- The deliveries of a run that breaks off. -/
theorem history_of_runFrom_error {cause : Break K}
    (ended : runFrom horizon count rounds before = some (.error cause, after)) :
    ∃ earlier last, before.history (before.runMoves horizon rounds) = earlier ++ [last] ∧
      (∀ delivery ∈ earlier, delivery.result = .ok ()) ∧ last.result = .error cause ∧
      last.event.due ≤ horizon ∧
      after.now.toNat = max before.now.toNat last.event.due.toNat := by
  induction rounds generalizing count before with
  | zero => simp [runFrom] at ended
  | succ rounds ih =>
    rcases before.stage.agenda.beyond_or_pop? horizon with beyond | ⟨event, rest, popped, within⟩
    · rw [runFrom_of_beyond beyond] at ended
      cases ended
    · have whole := ended
      have made := history_runMoves_of_pop? rounds popped within
      rw [runFrom_of_pop? popped within] at ended
      cases delivered : (before.withAgenda rest).deliver event with
      | mk result mid =>
        rw [delivered] at ended made
        have moved : (mid.setClock (before.now.advance event.due)).now.toNat =
            max before.now.toNat event.due.toNat := Instant.toNat_advance _ _
        cases result with
        | error cause =>
          cases ended
          exact ⟨[], _, made, by simp, rfl, within, moved⟩
        | ok _ =>
          obtain ⟨earlier, last, made', succeeded, failed, within', clock⟩ := ih ended
          simp only [made'] at made
          refine ⟨_ :: earlier, last, made, ?_, failed, within', ?_⟩
          · exact List.forall_mem_cons.2 ⟨rfl, succeeded⟩
          · obtain ⟨_, _, ledger⟩ := exists_ledger_of_runFrom whole
            have ordered := ledger.ordered
            rw [made, ← List.cons_append, List.map_append, List.map_cons, List.cons_append,
              List.pairwise_cons] at ordered
            have precedes : event.Precedes last.event := ordered.1 _ (by simp)
            have early : event.due.toNat ≤ last.event.due.toNat := by
              rcases precedes with less | ⟨same, _⟩
              · exact (UInt64.lt_iff_toNat_lt.1 less).le
              · exact (congrArg UInt64.toNat same).le
            rw [clock, moved]
            omega

/-- Whatever simulation a run up to a horizon begins with, and whatever its agents do: if the run
comes to its end, nothing is pending that is due by the horizon, the clock has moved on to the
horizon unless it was past it, the answer counts the deliveries, each of an event that was due by
the horizon and all in order, and whatever was pending for later still is unless its own agent has
withdrawn it. If the run breaks off, all deliveries but the last succeeded, the event of the last
one is gone, only those before it count, the clock has moved on to it unless it was past it, and
whatever else was pending or scheduled meanwhile comes after it and is still pending unless its own
agent has withdrawn it. A run for a length of time is a run up to its end, or to the last
instant. -/
theorem runUntil_keeps_books (before : Simulation K C A) (rounds : Nat) (horizon : Instant) :
    (∀ count after, before.runUntil rounds horizon = some (.ok count, after) →
      ∃ scheduled withdrawn,
        Ledger before (before.history (before.runMoves horizon rounds)) after scheduled withdrawn ∧
        Completes before horizon (before.history (before.runMoves horizon rounds)) withdrawn count
          after) ∧
    (∀ cause after, before.runUntil rounds horizon = some (.error cause, after) →
      ∃ scheduled withdrawn earlier last,
        before.history (before.runMoves horizon rounds) = earlier ++ [last] ∧
        Ledger before (earlier ++ [last]) after scheduled withdrawn ∧
        BreaksOff before horizon earlier last scheduled withdrawn cause after) ∧
    ∀ duration, before.runFor rounds duration =
      before.runUntil rounds (.ofNat (min (before.now.toNat + duration.toNat) (2 ^ 64 - 1))) := by
  refine ⟨fun count after ended => ?_, fun cause after ended => ?_, fun duration => ?_⟩
  · obtain ⟨scheduled, withdrawn, ledger⟩ := exists_ledger_of_runFrom ended
    obtain ⟨counted, succeeded, clock⟩ := history_of_runFrom_ok ended
    rw [Nat.zero_add] at counted
    generalize before.history (before.runMoves horizon rounds) = deliveries at *
    refine ⟨scheduled, withdrawn, ledger, counted.symm,
      fun delivery member => (succeeded delivery member).1,
      fun delivery member => (succeeded delivery member).2, ?_, clock, fun addressed => ?_,
      fun event held late => ledger.kept (List.mem_append_left _ held) ?_⟩
    · intro event held
      obtain ⟨due, next, early⟩ := Agenda.exists_nextDue?_le held
      exact UInt64.lt_of_lt_of_le ((lt_nextDue?_of_runFrom ended).1 due next) early
    · have all := countP_of_succeeded fun delivery member => (succeeded delivery member).1
      rw [ledger.delivered_of_addressed addressed, all, counted]
    · intro delivered
      obtain ⟨delivery, member, rfl⟩ := List.mem_map.1 delivered
      exact UInt64.lt_irrefl _ (UInt64.lt_of_lt_of_le late (succeeded delivery member).2)
  · obtain ⟨scheduled, withdrawn, ledger⟩ := exists_ledger_of_runFrom ended
    obtain ⟨earlier, last, made, succeeded, failed, within, clock⟩ := history_of_runFrom_error ended
    rw [made] at ledger
    have ahead := ledger.ahead last (by simp)
    refine ⟨scheduled, withdrawn, earlier, last, made, ledger, succeeded, failed, within, ?_, clock,
      fun addressed => ?_, fun event held other waits => ?_⟩
    · intro pending
      rcases ahead _ pending with less | ⟨_, less⟩
      · exact UInt64.lt_irrefl _ less
      · exact Nat.lt_irrefl _ less
    · have none : [last].countP (·.result.isOk) = 0 := by
        rw [List.countP_singleton, failed]
        rfl
      rw [ledger.delivered_of_addressed addressed, List.countP_append,
        countP_of_succeeded succeeded, none, Nat.add_zero]
    · have undelivered : event ∉ (earlier ++ [last]).map (·.event) := by
        simp only [List.map_append, List.map_cons, List.map_nil, List.mem_append,
          List.mem_singleton]
        exact not_or.2 ⟨waits, other⟩
      exact (ledger.kept held undelivered).imp_left fun pending => ⟨ahead event pending, pending⟩
  · refine congrArg (before.runUntil rounds) (UInt64.toNat_inj.1 ?_)
    have bound : min (before.now.toNat + duration.toNat) (2 ^ 64 - 1) < UInt64.size :=
      (Nat.min_le_right _ _).trans_lt (by decide)
    rw [Instant.toNat_after, UInt64.toNat_ofNat_of_lt' bound]
    rfl

/-- The waverer after its start and a key. -/
def stirred : Simulation Float (Blank Float) Script := waverer.follow [.start, .press .left]

/-- A run of the waverer up to the key comes to its end, and one up to the twentieth millisecond
breaks off. -/
theorem runUntil_keeps_books_stirred :
    (∃ after scheduled withdrawn, stirred.runUntil 9 0 = some (.ok 1, after) ∧
      Ledger stirred (stirred.history (stirred.runMoves 0 9)) after scheduled withdrawn ∧
      Completes stirred 0 (stirred.history (stirred.runMoves 0 9)) withdrawn 1 after) ∧
    ∃ cause after scheduled withdrawn earlier last,
      stirred.runUntil 9 20 = some (.error cause, after) ∧
      stirred.history (stirred.runMoves 20 9) = earlier ++ [last] ∧
      Ledger stirred (earlier ++ [last]) after scheduled withdrawn ∧
      BreaksOff stirred 20 earlier last scheduled withdrawn cause after := by
  constructor
  · obtain ⟨after, ended⟩ : ∃ after, stirred.runUntil 9 0 = some (.ok 1, after) := ⟨_, rfl⟩
    obtain ⟨scheduled, withdrawn, ledger, completes⟩ :=
      (runUntil_keeps_books stirred 9 0).1 1 after ended
    exact ⟨after, scheduled, withdrawn, ended, ledger, completes⟩
  · obtain ⟨cause, after, ended⟩ : ∃ cause after,
        stirred.runUntil 9 20 = some (.error cause, after) := ⟨_, _, rfl⟩
    obtain ⟨scheduled, withdrawn, earlier, last, made, ledger, breaks⟩ :=
      (runUntil_keeps_books stirred 9 20).2.1 cause after ended
    exact ⟨cause, after, scheduled, withdrawn, earlier, last, ended, made, ledger, breaks⟩

end Billiard.Simulation
