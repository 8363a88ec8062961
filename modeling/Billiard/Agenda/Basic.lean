import Billiard.Agenda.Heap
import Billiard.Event

/-!
The agenda: the events that are still to be delivered. It gives out event numbers in the order of
scheduling, so events that are due at the same instant come out in the order in which they went in.
-/

namespace Billiard

/-- Pending events, and how many were ever scheduled. The first event is on top, and all numbers
differ and were given out here. -/
structure Agenda where
  heap : Heap Event
  issued : Nat
  ordered : heap.Ordered Event.notAfter
  numbered : ∀ event ∈ heap.elements, event.id < issued
  distinct : (heap.elements.map (·.id)).Nodup

namespace Agenda

/-- Nothing was scheduled yet. -/
def empty : Agenda where
  heap := .empty
  issued := 0
  ordered := trivial
  numbered := by simp [Heap.elements]
  distinct := List.Pairwise.nil

/-- The pending events, those that come first in front. -/
def toList (agenda : Agenda) : List Event := agenda.heap.toList Event.notAfter

/-- How many events are pending. -/
def size (agenda : Agenda) : Nat := agenda.heap.size

/-- The event that the next call of `schedule` adds. -/
def fresh (agenda : Agenda) (target : AgentId) (due : Instant) (signal : Signal) : Event :=
  ⟨agenda.issued, target, due, signal⟩

/-- Adds an event, which receives the next number. -/
def schedule (agenda : Agenda) (target : AgentId) (due : Instant) (signal : Signal) :
    EventId × Agenda :=
  let event := agenda.fresh target due signal
  (event.id,
   { heap := agenda.heap.insert Event.notAfter event
     issued := agenda.issued + 1
     ordered := Heap.ordered_insert Event.notAfter_total Event.notAfter_trans agenda.ordered event
     numbered := by
       intro other member
       rcases List.mem_cons.1 ((Heap.elements_insert event agenda.heap).mem_iff.1 member)
         with same | member
       · exact same ▸ Nat.lt_succ_self _
       · exact Nat.lt_succ_of_lt (agenda.numbered other member)
     distinct := by
       refine (((Heap.elements_insert event agenda.heap).map (·.id)).nodup_iff).2 ?_
       refine List.nodup_cons.2 ⟨?_, agenda.distinct⟩
       intro member
       obtain ⟨other, held, same⟩ := List.mem_map.1 member
       exact Nat.lt_irrefl _ (same ▸ agenda.numbered other held) })

/-- The event that comes first. -/
def next? (agenda : Agenda) : Option Event := agenda.heap.root?

/-- The instant at which the first event is due. -/
def nextDue? (agenda : Agenda) : Option Instant := agenda.next?.map (·.due)

/-- The event that comes first, and the agenda without it. -/
def pop? (agenda : Agenda) : Option (Event × Agenda) :=
  match shape : agenda.heap with
  | .empty => none
  | .node root left right =>
    have ordered : Heap.Ordered Event.notAfter (.node root left right) := shape ▸ agenda.ordered
    have all : (Heap.merge Event.notAfter left right).elements.Perm _ :=
      Heap.elements_merge left right
    some (root,
      { heap := .merge Event.notAfter left right
        issued := agenda.issued
        ordered :=
          Heap.ordered_merge Event.notAfter_total Event.notAfter_trans ordered.2.1 ordered.2.2
        numbered := by
          intro event member
          refine agenda.numbered event ?_
          rw [shape]
          exact List.mem_cons_of_mem root (all.mem_iff.1 member)
        distinct := by
          have distinct := agenda.distinct
          rw [shape] at distinct
          exact ((all.map (·.id)).nodup_iff).2 (List.nodup_cons.1 distinct).2 })

/-- The event that comes first, if it is due at `now` or before. -/
def popDue? (agenda : Agenda) (now : Instant) : Option (Event × Agenda) :=
  match agenda.nextDue? with
  | none => none
  | some due => if due ≤ now then agenda.pop? else none

/-- Takes out every event of which `target` waits for at most one; they are returned in order. -/
def withdraw (agenda : Agenda) (target : AgentId) : List Event × Agenda :=
  let keep (event : Event) : Bool := !event.recursFor target
  have all : (agenda.heap.filter Event.notAfter keep).elements.Perm _ :=
    Heap.elements_filter keep agenda.heap
  (agenda.toList.filter (·.recursFor target),
   { heap := agenda.heap.filter Event.notAfter keep
     issued := agenda.issued
     ordered :=
       Heap.ordered_filter Event.notAfter_total Event.notAfter_trans keep agenda.ordered
     numbered := fun event member =>
       agenda.numbered event (List.mem_filter.1 (all.mem_iff.1 member)).1
     distinct :=
       ((all.map (·.id)).nodup_iff).2
         (agenda.distinct.sublist (List.filter_sublist.map _)) })

/-- How many pending events there are of which `target` waits for at most one. -/
def awaited (agenda : Agenda) (target : AgentId) : Nat :=
  agenda.heap.elements.countP (·.recursFor target)

theorem mem_toList {agenda : Agenda} {event : Event} :
    event ∈ agenda.toList ↔ event ∈ agenda.heap.elements :=
  (Heap.toList_perm agenda.heap).mem_iff

theorem length_toList (agenda : Agenda) : agenda.toList.length = agenda.size := by
  rw [size, Heap.size_eq_length]
  exact (Heap.toList_perm agenda.heap).length_eq

/-- The list of pending events is in order. -/
theorem pairwise_toList (agenda : Agenda) : agenda.toList.Pairwise fun a b => a.notAfter b :=
  Heap.pairwise_toList Event.notAfter_total Event.notAfter_trans agenda.ordered

/-- No two pending events have the same number. -/
theorem nodup_toList (agenda : Agenda) : (agenda.toList.map (·.id)).Nodup :=
  (((Heap.toList_perm agenda.heap).map (·.id)).nodup_iff).2 agenda.distinct

theorem next?_eq_head? (agenda : Agenda) : agenda.next? = agenda.toList.head? := by
  unfold next? toList
  cases agenda.heap with
  | empty => rfl
  | node root left right => rfl

theorem awaited_eq_countP (agenda : Agenda) (target : AgentId) :
    agenda.awaited target = agenda.toList.countP (·.recursFor target) :=
  ((Heap.toList_perm agenda.heap).countP_eq _).symm

end Agenda

end Billiard
