import Mathlib.Data.List.Nodup
import Billiard.Agenda.Basic

/-!
The agenda seen as the list of pending events. Popping takes the head of the list, withdrawing
filters it, and scheduling puts one event among the others; what an agent waits for is the part of
the list that recurs for it. The heap behind the agenda plays no part in any later argument.
-/

namespace Billiard.Agenda

variable {agenda rest : Agenda} {event other : Event} {target : AgentId} {now due : Instant}
  {signal : Signal}

/-- The pending events of which `target` waits for at most one. -/
def awaitedBy (agenda : Agenda) (target : AgentId) : List Event :=
  agenda.toList.filter (·.recursFor target)

/-- Numbers single out pending events. -/
theorem eq_of_id_eq (first : event ∈ agenda.toList) (second : other ∈ agenda.toList)
    (same : event.id = other.id) : event = other :=
  List.inj_on_of_nodup_map agenda.nodup_toList first second same

private theorem id_eq_of_notAfter (forth : event.notAfter other) (back : other.notAfter event) :
    event.id = other.id := by
  rw [Event.notAfter_iff] at forth back
  rcases forth with before | ⟨_, le⟩
  · rcases back with after | ⟨same, _⟩
    · exact absurd after (UInt64.lt_asymm before)
    · exact absurd same (UInt64.ne_of_lt before).symm
  · rcases back with after | ⟨_, ge⟩
    · exact absurd (by assumption) (UInt64.ne_of_lt after).symm
    · exact Nat.le_antisymm le ge

/-- The pending events can be put in order in one way only. -/
theorem toList_eq_of_perm {events : List Event} (same : agenda.toList.Perm events)
    (sorted : events.Pairwise fun a b => a.notAfter b) : agenda.toList = events :=
  same.eq_of_pairwise
    (fun _ _ first second forth back =>
      eq_of_id_eq first (same.mem_iff.2 second) (id_eq_of_notAfter forth back))
    agenda.pairwise_toList sorted

theorem pop?_eq_none_iff : agenda.pop? = none ↔ agenda.toList = [] := by
  unfold pop? toList
  split
  · next shape => simp [shape, Heap.toList]
  · next shape => simp [shape, Heap.toList]

/-- Popping takes the head of the list. -/
theorem toList_of_pop? (popped : agenda.pop? = some (event, rest)) :
    agenda.toList = event :: rest.toList := by
  unfold pop? at popped
  split at popped
  · cases popped
  · next root left right shape =>
    cases popped
    have list : agenda.toList = event :: List.merge (left.toList Event.notAfter)
        (right.toList Event.notAfter) Event.notAfter := by
      unfold toList
      rw [shape]
      rfl
    have sorted := agenda.pairwise_toList
    rw [list, List.pairwise_cons] at sorted
    rw [list, List.cons_inj_right]
    symm
    refine toList_eq_of_perm ((Heap.toList_perm _).trans ?_) sorted.2
    refine (Heap.elements_merge left right).trans (List.Perm.symm ?_)
    exact (List.merge_perm_append _).trans
      ((Heap.toList_perm left).append (Heap.toList_perm right))

theorem exists_pop? (pending : agenda.toList = event :: events) :
    ∃ rest, agenda.pop? = some (event, rest) ∧ rest.toList = events := by
  cases popped : agenda.pop? with
  | none => simp [pop?_eq_none_iff.1 popped] at pending
  | some pair =>
    obtain ⟨first, rest⟩ := pair
    rw [toList_of_pop? popped, List.cons.injEq] at pending
    exact ⟨rest, by rw [pending.1], pending.2⟩

theorem nextDue?_eq : agenda.nextDue? = agenda.toList.head?.map (·.due) := by
  rw [nextDue?, next?_eq_head?]

theorem nextDue?_eq_none_iff : agenda.nextDue? = none ↔ agenda.toList = [] := by
  simp [nextDue?_eq]

theorem nextDue?_of_pop? (popped : agenda.pop? = some (event, rest)) :
    agenda.nextDue? = some event.due := by
  rw [nextDue?_eq, toList_of_pop? popped]
  rfl

theorem exists_pop?_of_nextDue? (next : agenda.nextDue? = some due) :
    ∃ event rest, agenda.pop? = some (event, rest) ∧ event.due = due := by
  cases popped : agenda.pop? with
  | none => simp [nextDue?_eq_none_iff.2 (pop?_eq_none_iff.1 popped)] at next
  | some pair =>
    obtain ⟨event, rest⟩ := pair
    rw [nextDue?_of_pop? popped] at next
    exact ⟨event, rest, rfl, Option.some.inj next⟩

/-- Nothing is due by a horizon, or the first event is. -/
theorem beyond_or_pop? (agenda : Agenda) (horizon : Instant) :
    (∀ due, agenda.nextDue? = some due → horizon < due) ∨
      ∃ event rest, agenda.pop? = some (event, rest) ∧ event.due ≤ horizon := by
  by_cases beyond : ∀ due, agenda.nextDue? = some due → horizon < due
  · exact .inl beyond
  · obtain ⟨due, next, within⟩ : ∃ due, agenda.nextDue? = some due ∧ due ≤ horizon := by
      simpa [UInt64.not_lt] using beyond
    obtain ⟨event, rest, popped, rfl⟩ := exists_pop?_of_nextDue? next
    exact .inr ⟨event, rest, popped, within⟩

/-- What is due can be popped, and nothing else can. -/
theorem popDue?_eq_some_iff :
    agenda.popDue? now = some (event, rest) ↔
      agenda.pop? = some (event, rest) ∧ event.due ≤ now := by
  unfold popDue?
  cases popped : agenda.pop? with
  | none =>
    rw [nextDue?_eq_none_iff.2 (pop?_eq_none_iff.1 popped)]
    simp
  | some pair =>
    obtain ⟨first, others⟩ := pair
    rw [nextDue?_of_pop? popped]
    by_cases due : first.due ≤ now
    · simp only [due, ↓reduceIte, Option.some.injEq, Prod.mk.injEq]
      constructor
      · intro same
        exact ⟨same, same.1 ▸ due⟩
      · exact And.left
    · simp only [due, ↓reduceIte, Option.some.injEq, Prod.mk.injEq]
      constructor
      · intro nothing
        cases nothing
      · rintro ⟨same, early⟩
        exact absurd (same.1.symm ▸ early) due

theorem popDue?_eq_none_iff :
    agenda.popDue? now = none ↔ ∀ due, agenda.nextDue? = some due → now < due := by
  unfold popDue?
  cases popped : agenda.pop? with
  | none =>
    rw [nextDue?_eq_none_iff.2 (pop?_eq_none_iff.1 popped)]
    simp
  | some pair =>
    obtain ⟨first, others⟩ := pair
    rw [nextDue?_of_pop? popped]
    by_cases due : first.due ≤ now
    · simp [due, UInt64.not_lt.2 due]
    · simp [due, UInt64.not_le.1 due]

/-- The head is due first. -/
theorem due_le_of_pop? (popped : agenda.pop? = some (event, rest)) (member : other ∈ rest.toList) :
    event.due ≤ other.due := by
  have sorted := agenda.pairwise_toList
  rw [toList_of_pop? popped, List.pairwise_cons] at sorted
  rcases Event.notAfter_iff.1 (sorted.1 other member) with before | ⟨same, _⟩
  · exact UInt64.le_of_lt before
  · exact same ▸ UInt64.le_refl _

theorem issued_of_pop? (popped : agenda.pop? = some (event, rest)) :
    rest.issued = agenda.issued := by
  unfold pop? at popped
  split at popped
  · cases popped
  · cases popped
    rfl

/-- The head comes before all others. -/
theorem precedes_of_pop? (popped : agenda.pop? = some (event, rest))
    (member : other ∈ rest.toList) : event.Precedes other := by
  have sorted := agenda.pairwise_toList
  have distinct := agenda.nodup_toList
  rw [toList_of_pop? popped] at sorted distinct
  refine (Event.notAfter_iff.1 ((List.pairwise_cons.1 sorted).1 other member)).imp_right ?_
  rintro ⟨same, le⟩
  refine ⟨same, Nat.lt_of_le_of_ne le fun equal => ?_⟩
  exact (List.nodup_cons.1 distinct).1 (List.mem_map.2 ⟨other, member, equal.symm⟩)

/-- Nothing is due before the head. -/
theorem exists_nextDue?_le (member : event ∈ agenda.toList) :
    ∃ due, agenda.nextDue? = some due ∧ due ≤ event.due := by
  cases popped : agenda.pop? with
  | none => simp [pop?_eq_none_iff.1 popped] at member
  | some pair =>
    obtain ⟨first, rest⟩ := pair
    refine ⟨first.due, nextDue?_of_pop? popped, ?_⟩
    rw [toList_of_pop? popped, List.mem_cons] at member
    rcases member with rfl | later
    · exact UInt64.le_refl _
    · exact due_le_of_pop? popped later

/-- Withdrawing leaves what does not recur for the target, in order. -/
theorem toList_withdraw (agenda : Agenda) (target : AgentId) :
    (agenda.withdraw target).2.toList = agenda.toList.filter fun e => !e.recursFor target := by
  refine toList_eq_of_perm ?_ (agenda.pairwise_toList.sublist List.filter_sublist)
  refine (Heap.toList_perm _).trans ((Heap.elements_filter _ agenda.heap).trans ?_)
  exact ((Heap.toList_perm agenda.heap).filter _).symm

/-- Scheduling adds one event and loses none. -/
theorem toList_schedule (agenda : Agenda) (target : AgentId) (due : Instant) (signal : Signal) :
    (agenda.schedule target due signal).2.toList.Perm
      (agenda.fresh target due signal :: agenda.toList) :=
  (Heap.toList_perm _).trans ((Heap.elements_insert _ agenda.heap).trans
    (List.Perm.cons _ (Heap.toList_perm agenda.heap).symm))

theorem mem_toList_schedule :
    event ∈ (agenda.schedule target due signal).2.toList ↔
      event = agenda.fresh target due signal ∨ event ∈ agenda.toList := by
  rw [(toList_schedule agenda target due signal).mem_iff, List.mem_cons]

/-- Whatever is waited for recurs. -/
theorem recurs_of_awaitedBy (awaited : agenda.awaitedBy target = [event]) :
    event.signal.recurs := by
  have member : event ∈ agenda.awaitedBy target := awaited ▸ List.mem_singleton_self event
  have recursFor := (List.mem_filter.1 member).2
  simp only [Event.recursFor, Bool.and_eq_true] at recursFor
  exact recursFor.2

/-- An event that recurs for the target joins what the target waits for. -/
theorem awaitedBy_schedule (recurs : signal.recurs) :
    ((agenda.schedule target due signal).2.awaitedBy target).Perm
      (agenda.fresh target due signal :: agenda.awaitedBy target) := by
  have here : (agenda.fresh target due signal).recursFor target = true := by
    simp [Event.recursFor, fresh, recurs]
  have filtered := (toList_schedule agenda target due signal).filter (·.recursFor target)
  simpa [here, awaitedBy] using filtered

/-- Among events that the new one is not one of, scheduling changes nothing. -/
theorem filter_toList_schedule {owner : AgentId} {among : Event → Bool}
    (silent : among (agenda.fresh owner due signal) = false) :
    (agenda.schedule owner due signal).2.toList.filter among = agenda.toList.filter among := by
  have sorted (agenda : Agenda) :
      (agenda.toList.filter among).Pairwise fun a b => a.notAfter b :=
    agenda.pairwise_toList.sublist List.filter_sublist
  refine List.Perm.eq_of_pairwise ?_ (sorted _) (sorted _) ?_
  · intro a b first second forth back
    have later : b ∈ (agenda.schedule owner due signal).2.toList :=
      mem_toList_schedule.2 (.inr (List.mem_filter.1 second).1)
    exact eq_of_id_eq (List.mem_filter.1 first).1 later (id_eq_of_notAfter forth back)
  · have filtered := (toList_schedule agenda owner due signal).filter among
    simpa [silent] using filtered

/-- An event that does not recur for the target is nothing that the target waits for. -/
theorem awaitedBy_schedule_of_silent {owner : AgentId}
    (silent : (agenda.fresh owner due signal).recursFor target = false) :
    (agenda.schedule owner due signal).2.awaitedBy target = agenda.awaitedBy target :=
  filter_toList_schedule silent

/-- A key is nothing that anyone waits for. -/
theorem awaitedBy_schedule_key (way : Turn) (listener : AgentId) :
    (agenda.schedule listener due (.key way)).2.awaitedBy target = agenda.awaitedBy target :=
  awaitedBy_schedule_of_silent (by simp [Event.recursFor, fresh, Signal.recurs])

/-- What one agent schedules is nothing that another one waits for. -/
theorem awaitedBy_schedule_of_ne {owner : AgentId} (apart : owner ≠ target) :
    (agenda.schedule owner due signal).2.awaitedBy target = agenda.awaitedBy target :=
  awaitedBy_schedule_of_silent (by simp [Event.recursFor, fresh, apart])

/-- An agent withdraws nothing that another one waits for. -/
theorem awaitedBy_withdraw_of_ne {owner : AgentId} (apart : owner ≠ target) :
    (agenda.withdraw owner).2.awaitedBy target = agenda.awaitedBy target := by
  rw [awaitedBy, toList_withdraw, List.filter_filter, awaitedBy]
  refine List.filter_congr fun event _ => ?_
  by_cases mine : event.target = target
  · simp [Event.recursFor, mine, apart.symm]
  · simp [Event.recursFor, mine]

/-- What a target waits for, once the first event is gone. -/
theorem awaitedBy_of_pop? (popped : agenda.pop? = some (event, rest)) :
    agenda.awaitedBy target =
      if event.recursFor target then event :: rest.awaitedBy target
      else rest.awaitedBy target := by
  rw [awaitedBy, toList_of_pop? popped, List.filter_cons, awaitedBy]

theorem awaitedBy_withdraw : (agenda.withdraw target).2.awaitedBy target = [] := by
  rw [awaitedBy, toList_withdraw, List.filter_filter, List.filter_eq_nil_iff]
  intro event _
  cases event.recursFor target <;> simp

/-- Scheduling what recurs in place of what was awaited leaves one event to wait for. -/
theorem awaitedBy_schedule_withdraw (recurs : signal.recurs) :
    ((agenda.withdraw target).2.schedule target due signal).2.awaitedBy target =
      [(agenda.withdraw target).2.fresh target due signal] := by
  have pending : (((agenda.withdraw target).2.schedule target due signal).2.awaitedBy target).Perm
      ((agenda.withdraw target).2.fresh target due signal ::
        (agenda.withdraw target).2.awaitedBy target) := awaitedBy_schedule recurs
  rwa [awaitedBy_withdraw, List.perm_singleton] at pending

theorem awaited_eq_length : agenda.awaited target = (agenda.awaitedBy target).length := by
  rw [awaited_eq_countP, List.countP_eq_length_filter, awaitedBy]

/-- A target that waits for one event waits for the first one, if that recurs for it. -/
theorem awaitedBy_eq_singleton (one : agenda.awaited target = 1) (next : agenda.next? = some event)
    (recurs : event.recursFor target) : agenda.awaitedBy target = [event] := by
  rw [awaited_eq_length, List.length_eq_one_iff] at one
  obtain ⟨only, awaited⟩ := one
  rw [next?_eq_head?] at next
  have member : event ∈ agenda.awaitedBy target :=
    List.mem_filter.2 ⟨List.mem_of_mem_head? next, recurs⟩
  rw [awaited, List.mem_singleton] at member
  rw [awaited, member]

end Billiard.Agenda
