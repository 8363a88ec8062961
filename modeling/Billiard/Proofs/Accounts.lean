import Billiard.Proofs.History
import Billiard.Script

/-!
Every event is accounted for. A number that was given out stands for one event, and that event is
either still pending, or was delivered once to the agent it is for, or was withdrawn once by that
agent (`Accounted`); what calls report adds up to the deliveries that came to their end
(`accounts_balance`).
-/

namespace Billiard

/-- Agents that schedule and withdraw lose no number and use none twice. -/
theorem Agenda.Reworks.numbers {now : Instant} {agents : Nat} {agenda after : Agenda}
    {replaced : List (AgentId × Event)} (reworks : Reworks now agents agenda replaced after)
    {others : List Event}
    (all : ((agenda.toList ++ others).map (·.id)).Perm (List.range agenda.issued)) :
    ((after.toList ++ (replaced.map (·.2) ++ others)).map (·.id)).Perm
      (List.range after.issued) := by
  obtain ⟨scheduled, issued, numbers, _, balance⟩ := reworks.exists_scheduled
  have places : (after.toList ++ (replaced.map (·.2) ++ others)).Perm
      (agenda.toList ++ others ++ scheduled) := by
    refine List.perm_iff_count.2 fun event => ?_
    have same := balance.count_eq event
    simp only [List.count_append] at same ⊢
    omega
  refine (places.map _).trans ?_
  rw [List.map_append, numbers, issued, List.range_eq_range', ← List.range'_append_1,
    ← List.range_eq_range', Nat.zero_add]
  exact all.append_right _

namespace Simulation

variable {K C A : Type} [Canvas K C] [Agent K A]

/-- An event that comes first is taken from the agenda, and the agent that it is for handles it, on
that agent's visit; no other agent is changed. -/
def Delivery.Handled (delivery : Delivery K C A) : Prop :=
  let event := delivery.event
  ∃ rest agent changed,
    delivery.before.stage.agenda.pop? = some (event, rest) ∧
      delivery.before.agents[event.target]? = some agent ∧
      (Agent.handle ⟨event.target, event.due⟩ event agent).run ⟨event.target, event.due⟩
        ((delivery.before.withAgenda rest).stage.note
          (.delivering event (Agent.name (K := K) agent) (Agent.state (K := K) agent))) =
        ((changed, delivery.result), delivery.after.stage) ∧
      delivery.after.agents = delivery.before.agents.set event.target changed

/-- The accounts: where every event is that was ever scheduled, and how many deliveries came to
their end. -/
structure Accounted (history : List (Delivery K C A)) (simulation : Simulation K C A) : Prop where
  numbers : ((simulation.stage.agenda.toList ++
      (simulation.replacements.map (·.2) ++ simulation.deliveries)).map (·.id)).Perm
    (List.range simulation.stage.agenda.issued)
  noted : history.map (·.event) = simulation.deliveries
  handled : ∀ delivery ∈ history, delivery.Handled
  own : ∀ agent event, (agent, event) ∈ simulation.replacements →
    event.target = agent ∧ event.signal.recurs
  delivered : simulation.delivered = history.countP (·.result.isOk)

/-- What an answer says about how many deliveries came to their end. -/
def Answer.deliveries : Answer → Nat
  | .done | .pressed _ | .told none => 0
  | .told (some _) => 1
  | .count deliveries => deliveries

variable {first here before after : Simulation K C A} {delivery? : Option (Delivery K C A)}
  {history : List (Delivery K C A)} {moves : List Move}

theorem Idle.accounted (idle : first.Idle) : Accounted [] first := by
  refine ⟨?_, idle.deliveries.symm, by simp, ?_, idle.delivered⟩
  · rw [idle.agenda, idle.replacements, idle.deliveries]
    exact .refl _
  · simp [idle.replacements]

omit [Canvas K C] [Agent K A] in
private theorem replacements_perm {replaced : List (AgentId × Event)}
    (noted : after.replacements = before.replacements ++ replaced) (others : List Event) :
    (after.replacements.map (·.2) ++ others).Perm
      (replaced.map (·.2) ++ (before.replacements.map (·.2) ++ others)) := by
  rw [noted, List.map_append, ← List.append_assoc]
  exact List.perm_append_comm.append_right others

/-- All that can happen keeps the accounts. -/
theorem Happens.accounted (happens : Happens before delivery? after)
    (accounted : Accounted history before) :
    Accounted (history ++ delivery?.toList) after := by
  have numbers := accounted.numbers
  cases happens with
  | @quietly _ replaced _ _ reworks noted deliveries delivered =>
    rw [Option.toList_none, List.append_nil]
    refine ⟨?_, deliveries ▸ accounted.noted, accounted.handled, ?_,
      delivered ▸ accounted.delivered⟩
    · rw [deliveries]
      exact (((replacements_perm noted _).append_left _).map _).trans (reworks.numbers numbers)
    · intro agent event member
      rw [noted, List.mem_append] at member
      exact member.elim (accounted.own agent event) reworks.own
  | @delivers event rest agent changed replaced result _ popped due found ran agents _ reworks noted
      deliveries delivered =>
    have taken : ((rest.toList ++
        (before.replacements.map (·.2) ++ (before.deliveries ++ [event]))).map (·.id)).Perm
        (List.range rest.issued) := by
      rw [Agenda.issued_of_pop? popped]
      refine (List.Perm.map _ ?_).trans numbers
      rw [Agenda.toList_of_pop? popped, ← List.append_assoc, ← List.append_assoc]
      exact (List.perm_append_singleton _ _).trans (by simp)
    refine ⟨?_, ?_, ?_, ?_, ?_⟩
    · rw [deliveries]
      exact (((replacements_perm noted _).append_left _).map _).trans (reworks.numbers taken)
    · rw [deliveries, List.map_append, accounted.noted]
      rfl
    · rw [List.forall_mem_append]
      refine ⟨accounted.handled, ?_⟩
      simp only [Option.toList_some, List.forall_mem_singleton]
      exact ⟨rest, agent, changed, popped, found, ran, agents⟩
    · intro agent event member
      rw [noted, List.mem_append] at member
      exact member.elim (accounted.own agent event) reworks.own
    · rw [delivered, accounted.delivered, List.countP_append]
      cases result <;> rfl

/-- A step that succeeds reports what it delivered. -/
theorem delivered_of_step {told : Option Signal} (addressed : before.Addressed)
    (stepped : before.step = (.ok told, after)) :
    after.Addressed ∧ after.delivered = before.delivered + (Answer.told told).deliveries := by
  have happened := happens addressed .step
  simp only [Move.take, stepped] at happened
  refine ⟨happened.addressed addressed, ?_⟩
  cases due : before.stage.agenda.popDue? before.now with
  | none =>
    rw [step_of_popDue?_eq_none due] at stepped
    cases stepped
    rfl
  | some pair =>
    obtain ⟨event, rest⟩ := pair
    obtain ⟨popped, early⟩ := Agenda.popDue?_eq_some_iff.1 due
    rw [step_of_pop? popped early] at stepped
    simp only [Move.delivery?, due, Option.map_some] at happened
    cases ended : (before.withAgenda rest).deliver event with
    | mk result last =>
      rw [ended] at stepped happened
      cases result with
      | error cause => cases stepped
      | ok _ =>
        cases stepped
        cases happened with
        | delivers _ _ _ _ _ _ _ _ _ delivered => exact delivered

theorem delivered_of_runFrom {horizon : Instant} {count rounds deliveries : Nat}
    (addressed : before.Addressed)
    (ended : runFrom horizon count rounds before = some (.ok deliveries, after)) :
    after.delivered + count = before.delivered + deliveries := by
  induction rounds generalizing count before with
  | zero => simp [runFrom] at ended
  | succ rounds ih =>
    unfold runFrom at ended
    split at ended
    · cases ended
      rfl
    · next due _ =>
      have moved : (before.advance due).Addressed := ⟨addressed.listener, addressed.pending⟩
      split at ended
      · split at ended
        · cases ended
        · next nothing =>
          obtain ⟨addressed, same⟩ := delivered_of_step moved nothing
          exact (ih addressed ended).trans (congrArg (· + deliveries) same)
        · next stepped =>
          obtain ⟨addressed, more⟩ := delivered_of_step moved stepped
          have later := ih addressed ended
          simp only [Answer.deliveries, advance] at more
          omega
      · cases ended
        rfl

/-- A call that succeeds reports what it delivered. -/
theorem Call.delivered {call : Call} {rounds : Nat} {answer : Answer}
    (addressed : before.Addressed)
    (ended : call.perform rounds before = some (.ok answer, after)) :
    after.delivered = before.delivered + answer.deliveries := by
  cases loops : call.horizon? before.now with
  | some horizon =>
    obtain ⟨deliveries, finished, rfl⟩ := exists_runFrom_of_perform loops ended
    exact delivered_of_runFrom addressed finished
  | none =>
    cases call with
    | dispatchDue | runUntil t | runFor duration => cases loops
    | start =>
      obtain ⟨_, started, rfl⟩ := After.of_map_eq_ok (Option.some.inj ended)
      have happened := happens addressed .start
      simp only [Move.take, started] at happened
      cases happened with
      | quietly _ _ _ _ _ delivered => exact delivered
    | step =>
      obtain ⟨told, stepped, rfl⟩ := After.of_map_eq_ok (Option.some.inj ended)
      exact (delivered_of_step addressed stepped).2
    | stepNext =>
      obtain ⟨told, stepped, rfl⟩ := After.of_map_eq_ok (Option.some.inj ended)
      unfold Simulation.stepNext at stepped
      split at stepped
      · cases stepped
        rfl
      · next due _ =>
        have moved : (before.advance due).Addressed := ⟨addressed.listener, addressed.pending⟩
        exact (delivered_of_step moved stepped).2
    | advance t =>
      cases ended
      rfl
    | press way =>
      cases ended
      have happened := happens addressed (.press way)
      cases happened with
      | quietly _ _ _ _ _ delivered => exact delivered

/-- Whatever agents there are and whatever is asked, at every point of every run, in the middle of
calls and after failures too: of the numbers that were given out, from zero on, each belongs to
exactly one event that is pending, was delivered or was withdrawn. A delivery is made to the agent
that the event is for, and to no other; only that agent withdraws an event, and never a key. As
many deliveries count as came to their end, and a call that succeeds reports those that it adds. -/
theorem accounts_balance (assembled : first.Assembled) (visits : first.Visits moves here) :
    ((here.stage.agenda.toList ++ (here.replacements.map (·.2) ++ here.deliveries)).map
        (·.id)).Perm (List.range here.stage.agenda.issued) ∧
      (first.history moves).map (·.event) = here.deliveries ∧
      (∀ delivery ∈ first.history moves, delivery.Handled) ∧
      (∀ agent event, (agent, event) ∈ here.replacements →
        event.target = agent ∧ event.signal.recurs) ∧
      here.delivered = (first.history moves).countP (·.result.isOk) ∧
      ∀ (call : Call) (rounds : Nat) (answer : Answer) (after : Simulation K C A),
        call.perform rounds here = some (.ok answer, after) →
          after.delivered = here.delivered + answer.deliveries := by
  obtain ⟨addressed, accounted⟩ :=
    assembled.induct assembled.idle.accounted (fun _ _ happens => happens.accounted) moves
  rw [visits.follow] at addressed accounted
  exact ⟨accounted.numbers, accounted.noted, accounted.handled, accounted.own,
    accounted.delivered, fun call rounds answer after => Call.delivered addressed⟩

/-- Two scripts. The first one waits for something else as soon as a key comes, and stalls when that
comes about. -/
def waverer : Simulation Float (Blank Float) Script :=
  { ((((new ⟨[], [], ⟨0.0, 10.0, 10.0, ⟨0.0, 0.0⟩⟩, .line, .pass⟩ ⟨⟩).join
      ⟨[.await 5 (.beat 5)], [[.await 1 (.beat 1)], [.stall]]⟩).2.join
      ⟨[.send 9 (.beat 9)], []⟩).2) with listener := some 0 }

/-- The moves of a start, of a key and of a run that fails. -/
def wavered : List Move :=
  [.start, .press .left, .advance 0, .step, .advance 1, .step]

/-- Of the four events of the waverer one is pending, the key was delivered, one was withdrawn, and
one was delivered and stalled. -/
theorem accounts_balance_waverer :
    waverer.Assembled ∧ waverer.Visits wavered (waverer.follow wavered) ∧
      ((((waverer.follow wavered).stage.agenda.toList ++
        ((waverer.follow wavered).replacements.map (·.2) ++
          (waverer.follow wavered).deliveries)).map (·.id)).Perm
        (List.range (waverer.follow wavered).stage.agenda.issued) ∧
      (waverer.history wavered).map (·.event) = (waverer.follow wavered).deliveries ∧
      (∀ delivery ∈ waverer.history wavered, delivery.Handled) ∧
      (∀ agent event, (agent, event) ∈ (waverer.follow wavered).replacements →
        event.target = agent ∧ event.signal.recurs) ∧
      (waverer.follow wavered).delivered =
        (waverer.history wavered).countP (·.result.isOk) ∧
      ∀ (call : Call) (rounds : Nat) (answer : Answer) (after : Simulation Float _ Script),
        call.perform rounds (waverer.follow wavered) = some (.ok answer, after) →
          after.delivered = (waverer.follow wavered).delivered + answer.deliveries) := by
  have assembled : waverer.Assembled := .listen (.join (.join (.new _ _ 0) _) _) (by decide)
  have started : waverer.Leads [.start] (waverer.follow [.start]) := .call .start 0 .begin rfl
  have pressed : waverer.Leads [.start, .press .left] (waverer.follow [.start, .press .left]) :=
    .call (.press .left) 0 started rfl
  have visits : waverer.Visits wavered (waverer.follow wavered) :=
    .within (.runUntil 20) 9 pressed ⟨[], by decide +kernel⟩
  exact ⟨assembled, visits, accounts_balance assembled visits⟩

end Simulation

end Billiard
