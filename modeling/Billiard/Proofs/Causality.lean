import Billiard.Proofs.History
import Billiard.Script

/-!
Deliveries are causal. Whatever is scheduled after a delivery is due no earlier than the delivered
event and has a greater number, be it scheduled by a handler for the instant of its event or from
outside for the instant that the clock shows. So what was delivered comes before all that is
pending (`Causal`), and events are delivered in their order (`delivers_in_order`).
-/

namespace Billiard

/-- Whatever is due by now and was there before comes before all that is scheduled from now on. -/
theorem Agenda.Reworks.precedes {now : Instant} {agents : Nat} {agenda after : Agenda}
    {replaced : List (AgentId × Event)} (reworks : Reworks now agents agenda replaced after)
    {event : Event} (due : event.due ≤ now) (given : event.id < agenda.issued)
    (ahead : ∀ other ∈ agenda.toList, event.Precedes other) :
    ∀ other ∈ after.toList, event.Precedes other := by
  intro other member
  rcases reworks.mem_toList member with held | ⟨_, later, fresh⟩
  · exact ahead other held
  · rcases UInt64.lt_or_eq_of_le (UInt64.le_trans due later) with before | same
    · exact .inl before
    · exact .inr ⟨same, Nat.lt_of_lt_of_le given fresh⟩

namespace Simulation

variable {K C A : Type}

/-- Everything was delivered in order and in time, and comes before all that is pending. -/
structure Causal (history : List (Delivery K C A)) (simulation : Simulation K C A) : Prop where
  noted : history.map (·.event) = simulation.deliveries
  timely : ∀ delivery ∈ history, delivery.event.due ≤ delivery.before.now
  ordered : simulation.deliveries.Pairwise Event.Precedes
  past : ∀ event ∈ simulation.deliveries, event.due ≤ simulation.now
  given : ∀ event ∈ simulation.deliveries, event.id < simulation.stage.agenda.issued
  ahead : ∀ event ∈ simulation.deliveries, ∀ other ∈ simulation.stage.agenda.toList,
    event.Precedes other

variable {first here before after : Simulation K C A} {delivery? : Option (Delivery K C A)}
  {history : List (Delivery K C A)} {moves : List Move}

theorem Idle.causal (idle : first.Idle) : Causal [] first := by
  refine ⟨idle.deliveries.symm, by simp, ?_, ?_, ?_, ?_⟩ <;> simp [idle.deliveries]

variable [Canvas K C] [Agent K A]

/-- All that can happen keeps deliveries causal. -/
theorem Happens.causal (happens : Happens before delivery? after) (clock : before.now ≤ after.now)
    (causal : Causal history before) : Causal (history ++ delivery?.toList) after := by
  cases happens with
  | quietly _ _ reworks _ deliveries _ =>
    refine ⟨?_, ?_, ?_, ?_, ?_, ?_⟩
    · rw [deliveries, ← causal.noted]
      exact congrArg _ (List.append_nil _)
    · simpa using causal.timely
    · exact deliveries ▸ causal.ordered
    · rw [deliveries]
      exact fun event member => UInt64.le_trans (causal.past event member) clock
    · rw [deliveries]
      exact fun event member => Nat.lt_of_lt_of_le (causal.given event member) reworks.issued_le
    · rw [deliveries]
      exact fun event member => reworks.precedes (causal.past event member)
        (causal.given event member) (causal.ahead event member)
  | @delivers event rest _ _ _ _ _ popped due _ _ _ _ reworks _ deliveries _ =>
    have pending := Agenda.toList_of_pop? popped
    have issued := Agenda.issued_of_pop? popped
    have mine : event ∈ before.stage.agenda.toList := pending ▸ List.mem_cons_self
    have number : event.id < rest.issued :=
      issued ▸ before.stage.agenda.numbered event (Agenda.mem_toList.1 mine)
    have earlier {other : Event} (member : other ∈ before.deliveries) : other.due ≤ event.due := by
      rcases causal.ahead other member event mine with less | ⟨same, _⟩
      · exact UInt64.le_of_lt less
      · exact UInt64.le_of_eq same
    refine ⟨?_, ?_, ?_, ?_, ?_, ?_⟩
    · rw [deliveries, List.map_append, causal.noted]
      rfl
    · rw [List.forall_mem_append]
      exact ⟨causal.timely, by simpa using due⟩
    · rw [deliveries, List.pairwise_append]
      refine ⟨causal.ordered, List.pairwise_singleton _ _, ?_⟩
      intro other member last same
      exact List.mem_singleton.1 same ▸ causal.ahead other member event mine
    · rw [deliveries, List.forall_mem_append, List.forall_mem_singleton]
      exact ⟨fun other member => UInt64.le_trans (causal.past other member) clock,
        UInt64.le_trans due clock⟩
    · rw [deliveries, List.forall_mem_append, List.forall_mem_singleton]
      refine ⟨fun other member => ?_, Nat.lt_of_lt_of_le number reworks.issued_le⟩
      exact Nat.lt_of_lt_of_le (causal.given other member) (issued ▸ reworks.issued_le)
    · rw [deliveries, List.forall_mem_append, List.forall_mem_singleton]
      refine ⟨fun other member => ?_, ?_⟩
      · refine reworks.precedes (earlier member) (issued ▸ causal.given other member) ?_
        intro next held
        exact causal.ahead other member next (pending ▸ List.mem_cons_of_mem event held)
      · exact reworks.precedes (UInt64.le_refl _) number
          fun next held => Agenda.precedes_of_pop? popped held

/-- Whatever agents there are and whatever is asked, at every point of every run, in the middle of
calls and after failures too: events were delivered one by one, each due by the time that the clock
showed; of any two the first was due earlier, or at the same instant and scheduled earlier; and so
is each of them and any event that is still pending. -/
theorem delivers_in_order (assembled : first.Assembled) (visits : first.Visits moves here) :
    (first.history moves).map (·.event) = here.deliveries ∧
      (∀ delivery ∈ first.history moves, delivery.event.due ≤ delivery.before.now) ∧
      here.deliveries.Pairwise Event.Precedes ∧
      ∀ event ∈ here.deliveries, ∀ other ∈ here.stage.agenda.toList, event.Precedes other := by
  have causal : Causal (first.history moves) (first.follow moves) :=
    (assembled.induct assembled.idle.causal
      (fun _ clock happens => happens.causal clock) moves).2
  rw [visits.follow] at causal
  exact ⟨causal.noted, causal.timely, causal.ordered, causal.ahead⟩

/-- A script that schedules an event and answers it with another one at once; it also listens to
the keys. -/
def echo : Simulation Float (Blank Float) Script :=
  { ((new ⟨[], [], ⟨0.0, 10.0, 10.0, ⟨0.0, 0.0⟩⟩, .line, .pass⟩ ⟨⟩).join
      ⟨[.send 3 (.beat 3)], [[.send 0 (.beat 0)]]⟩).2 with listener := some 0 }

/-- The moves up to where the echo is late, and so is its answer, and a key is still pending. -/
def echoed : List Move := [.start, .advance 9, .press .left, .step, .step]

/-- In the middle of the deliveries to an echo. -/
theorem delivers_in_order_echo :
    echo.Assembled ∧ echo.Visits echoed (echo.follow echoed) ∧
      (echo.history echoed).map (·.event) = (echo.follow echoed).deliveries ∧
      (∀ delivery ∈ echo.history echoed, delivery.event.due ≤ delivery.before.now) ∧
      (echo.follow echoed).deliveries.Pairwise Event.Precedes ∧
      ∀ event ∈ (echo.follow echoed).deliveries,
        ∀ other ∈ (echo.follow echoed).stage.agenda.toList, event.Precedes other := by
  have assembled : echo.Assembled := .listen (.join (.new _ _ 0) _) (by decide)
  have started : echo.Leads [.start] (echo.follow [.start]) := .call .start 0 .begin rfl
  have late : echo.Leads [.start, .advance 9] (echo.follow [.start, .advance 9]) :=
    .call (.advance 9) 0 started rfl
  have pressed : echo.Leads [.start, .advance 9, .press .left]
      (echo.follow [.start, .advance 9, .press .left]) := .call (.press .left) 0 late rfl
  have visits : echo.Visits echoed (echo.follow echoed) :=
    .within .dispatchDue 5 pressed ⟨[.step, .step], rfl⟩
  exact ⟨assembled, visits, delivers_in_order assembled visits⟩

end Simulation

end Billiard
