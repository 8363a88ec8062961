import Billiard.Proofs.Pending

/-!
The agenda against the plain way to keep events in order: a roster, which is a list, and into which
every event is put behind all that are due no later. Whatever is asked of the two and in whatever
order, they answer alike and look alike from outside (`run_eq_roster`). Numbers are given out one
after another, so events that share an instant leave in the order in which they came, whatever was
withdrawn meanwhile.
-/

namespace Billiard

namespace Event

variable {a b : Event}

/-- Equally urgent events share instant and number. -/
theorem due_id_eq_of_urgency (equal : a.urgency b = .eq) : a.due = b.due ∧ a.id = b.id := by
  unfold urgency at equal
  split at equal
  · cases equal
  · next notBefore =>
    split at equal
    · cases equal
    · next notAfter =>
      have forth : a.notAfter b := by simp [Event.notAfter, notAfter]
      have back : b.notAfter a := by simp [Event.notAfter, notBefore]
      rw [notAfter_iff] at forth back
      rcases forth with before | ⟨same, le⟩
      · exact absurd (.inl before) notBefore
      · rcases back with after | ⟨_, ge⟩
        · exact absurd (.inl after) notAfter
        · exact ⟨same, Nat.le_antisymm le ge⟩

theorem notAfter_of_precedes (precedes : a.Precedes b) : a.notAfter b :=
  notAfter_iff.2 (precedes.imp_right fun ⟨same, less⟩ => ⟨same, Nat.le_of_lt less⟩)

end Event

/-- What can be asked of an agenda. -/
inductive Request where
  | schedule (target : AgentId) (due : Instant) (signal : Signal)
  | pop
  | popDue (now : Instant)
  | withdraw (target : AgentId)
deriving DecidableEq, Repr

/-- What is answered. -/
inductive Reply where
  | scheduled (id : EventId)
  | popped (event : Option Event)
  | withdrawn (count : Nat)
deriving DecidableEq, Repr

/-- What can be seen between two requests. -/
@[ext] structure View where
  next : Option Event
  nextDue : Option Instant
  size : Nat
  isEmpty : Bool
  awaited : AgentId → Nat

/-- The events that requests schedule, if the next number is `issued`. -/
def Request.scheduled (issued : Nat) : List Request → List Event
  | [] => []
  | .schedule target due signal :: more =>
    ⟨issued, target, due, signal⟩ :: scheduled (issued + 1) more
  | _ :: more => scheduled issued more

namespace Reply

/-- The numbers that were given out. -/
def numbers (replies : List Reply) : List EventId :=
  replies.filterMap fun | .scheduled id => some id | _ => none

/-- The events that left, each when its turn had come. -/
def departures (replies : List Reply) : List Event :=
  replies.filterMap fun | .popped event => event | _ => none

end Reply

namespace Agenda

/-- Does what is asked. -/
def perform (request : Request) (agenda : Agenda) : Reply × Agenda :=
  match request with
  | .schedule target due signal =>
    let (id, agenda) := agenda.schedule target due signal
    (.scheduled id, agenda)
  | .pop =>
    match agenda.pop? with
    | none => (.popped none, agenda)
    | some (event, rest) => (.popped (some event), rest)
  | .popDue now =>
    match agenda.popDue? now with
    | none => (.popped none, agenda)
    | some (event, rest) => (.popped (some event), rest)
  | .withdraw target =>
    let (events, rest) := agenda.withdraw target
    (.withdrawn events.length, rest)

/-- How the agenda looks. -/
def view (agenda : Agenda) : View :=
  ⟨agenda.next?, agenda.nextDue?, agenda.size, agenda.size == 0, agenda.awaited⟩

/-- What is answered to one request after another, and how the agenda looks each time. -/
def run : List Request → Agenda → List (Reply × View)
  | [], _ => []
  | request :: more, agenda =>
    let (reply, agenda) := agenda.perform request
    (reply, agenda.view) :: run more agenda

end Agenda

/-- Pending events in a list, and how many were ever scheduled. -/
@[ext] structure Roster where
  events : List Event
  issued : Nat
deriving DecidableEq, Repr

namespace Roster

/-- Nothing was scheduled yet. -/
def empty : Roster := ⟨[], 0⟩

/-- The list with one more event, behind all that are due no later. -/
def enter (event : Event) : List Event → List Event
  | [] => [event]
  | first :: rest =>
    if first.due ≤ event.due then first :: enter event rest else event :: first :: rest

/-- Does what is asked: popping takes the head, and withdrawing filters. -/
def perform (request : Request) (roster : Roster) : Reply × Roster :=
  match request with
  | .schedule target due signal =>
    (.scheduled roster.issued,
      ⟨enter ⟨roster.issued, target, due, signal⟩ roster.events, roster.issued + 1⟩)
  | .pop => (.popped roster.events.head?, { roster with events := roster.events.tail })
  | .popDue now =>
    match roster.events with
    | [] => (.popped none, roster)
    | first :: rest =>
      if first.due ≤ now then (.popped (some first), { roster with events := rest })
      else (.popped none, roster)
  | .withdraw target =>
    (.withdrawn (roster.events.countP (·.recursFor target)),
      { roster with events := roster.events.filter fun event => !event.recursFor target })

/-- How the roster looks. -/
def view (roster : Roster) : View where
  next := roster.events.head?
  nextDue := roster.events.head?.map (·.due)
  size := roster.events.length
  isEmpty := roster.events.isEmpty
  awaited target := roster.events.countP (·.recursFor target)

/-- What is answered to one request after another, and how the roster looks each time. -/
def run : List Request → Roster → List (Reply × View)
  | [], _ => []
  | request :: more, roster =>
    let (reply, roster) := roster.perform request
    (reply, roster.view) :: run more roster

/-- The roster after one request after another. -/
def after (requests : List Request) (roster : Roster) : Roster :=
  requests.foldl (fun roster request => (roster.perform request).2) roster

variable {roster : Roster} {request : Request} {requests : List Request} {event other : Event}
  {events : List Event}

theorem enter_perm (event : Event) (events : List Event) :
    (enter event events).Perm (event :: events) := by
  induction events with
  | nil => exact .refl _
  | cons first rest ih =>
    unfold enter
    split
    · exact (ih.cons first).trans (.swap ..)
    · exact .refl _

theorem mem_enter : other ∈ enter event events ↔ other = event ∨ other ∈ events := by
  rw [(enter_perm event events).mem_iff, List.mem_cons]

/-- An event with a new number keeps a list in order. -/
theorem pairwise_enter (sorted : events.Pairwise Event.Precedes)
    (newest : ∀ other ∈ events, other.id < event.id) :
    (enter event events).Pairwise Event.Precedes := by
  induction events with
  | nil => exact List.pairwise_singleton _ _
  | cons first rest ih =>
    obtain ⟨head, tail⟩ := List.pairwise_cons.1 sorted
    obtain ⟨older, others⟩ := List.forall_mem_cons.1 newest
    unfold enter
    split
    · next noLater =>
      refine List.pairwise_cons.2 ⟨?_, ih tail others⟩
      intro other member
      rcases mem_enter.1 member with rfl | member
      · rcases UInt64.lt_or_eq_of_le noLater with before | same
        · exact .inl before
        · exact .inr ⟨same, older⟩
      · exact head other member
    · next later =>
      have before : event.due < first.due := UInt64.not_le.1 later
      refine List.pairwise_cons.2 ⟨?_, sorted⟩
      intro other member
      rcases List.mem_cons.1 member with rfl | member
      · exact .inl before
      · rcases head other member with after | ⟨same, _⟩
        · exact .inl (UInt64.lt_trans before after)
        · exact .inl (same ▸ before)

/-- What a request does. -/
inductive Performs (roster : Roster) : Request → Reply × Roster → Prop where
  | schedules (target : AgentId) (due : Instant) (signal : Signal) :
    Performs roster (.schedule target due signal) (.scheduled roster.issued,
      ⟨enter ⟨roster.issued, target, due, signal⟩ roster.events, roster.issued + 1⟩)
  | pops {request : Request} {first : Event} {rest : List Event}
    (list : roster.events = first :: rest) :
    Performs roster request (.popped (some first), { roster with events := rest })
  | rests {request : Request} : Performs roster request (.popped none, roster)
  | withdraws (target : AgentId) :
    Performs roster (.withdraw target) (.withdrawn (roster.events.countP (·.recursFor target)),
      { roster with events := roster.events.filter fun event => !event.recursFor target })

theorem performs (request : Request) (roster : Roster) :
    Performs roster request (roster.perform request) := by
  obtain ⟨events, issued⟩ := roster
  cases request with
  | schedule target due signal => exact .schedules target due signal
  | withdraw target => exact .withdraws target
  | pop =>
    cases events with
    | nil => exact .rests
    | cons first rest => exact .pops rfl
  | popDue now =>
    cases events with
    | nil => exact .rests
    | cons first rest =>
      simp only [perform]
      split
      · exact .pops rfl
      · exact .rests

/-- Events are in order, and their numbers were given out here. -/
structure Kept (roster : Roster) : Prop where
  sorted : roster.events.Pairwise Event.Precedes
  numbered : ∀ event ∈ roster.events, event.id < roster.issued

namespace Kept

theorem empty : Kept Roster.empty := ⟨.nil, by simp [Roster.empty]⟩

theorem sublist (kept : Kept roster) (fewer : events.Sublist roster.events) :
    Kept { roster with events := events } :=
  ⟨kept.sorted.sublist fewer, fun event member => kept.numbered event (fewer.subset member)⟩

/-- Every request leaves the roster in order. -/
theorem perform (kept : Kept roster) (request : Request) : Kept (roster.perform request).2 := by
  have performs := performs request roster
  generalize roster.perform request = outcome at performs ⊢
  cases performs with
  | schedules target due signal =>
    refine ⟨pairwise_enter kept.sorted kept.numbered, ?_⟩
    intro event member
    rcases mem_enter.1 member with rfl | member
    · exact Nat.lt_succ_self _
    · exact Nat.lt_succ_of_lt (kept.numbered event member)
  | pops list => exact kept.sublist (list ▸ List.sublist_cons_self _ _)
  | rests => exact kept
  | withdraws target => exact kept.sublist List.filter_sublist

theorem after (kept : Kept roster) (requests : List Request) : Kept (roster.after requests) := by
  induction requests generalizing roster with
  | nil => exact kept
  | cons request more ih => exact ih (kept.perform request)

end Kept

/-- What leaves was pending at first or was scheduled since. -/
theorem mem_departures
    (member : event ∈ Reply.departures ((roster.run requests).map (·.1))) :
    event ∈ roster.events ∨ roster.issued ≤ event.id := by
  induction requests generalizing roster with
  | nil => cases member
  | cons request more ih =>
    have performs := performs request roster
    simp only [run, List.map_cons] at member
    generalize roster.perform request = outcome at performs member
    cases performs with
    | schedules target due signal =>
      rcases ih member with held | given
      · rcases mem_enter.1 held with rfl | held
        · exact .inr (Nat.le_refl _)
        · exact .inl held
      · exact .inr (Nat.le_of_succ_le given)
    | pops list =>
      rw [list]
      rcases List.mem_cons.1 member with rfl | member
      · exact .inl List.mem_cons_self
      · exact (ih member).imp_left (List.mem_cons_of_mem _)
    | rests => exact ih member
    | withdraws target => exact (ih member).imp_left fun held => (List.mem_filter.1 held).1

/-- Events that share an instant leave in the order of their numbers. -/
theorem pairwise_departures (kept : Kept roster) (requests : List Request) :
    (Reply.departures ((roster.run requests).map (·.1))).Pairwise
      fun a b => a.due = b.due → a.id < b.id := by
  induction requests generalizing roster with
  | nil => exact .nil
  | cons request more ih =>
    have rest := ih (kept.perform request)
    have performs := performs request roster
    simp only [run, List.map_cons]
    generalize roster.perform request = outcome at performs rest ⊢
    cases performs with
    | pops list =>
      refine List.pairwise_cons.2 ⟨?_, rest⟩
      intro other member same
      rcases mem_departures member with pending | given
      · have sorted := kept.sorted
        rw [list, List.pairwise_cons] at sorted
        rcases sorted.1 other pending with before | ⟨_, less⟩
        · exact absurd same (UInt64.ne_of_lt before)
        · exact less
      · exact Nat.lt_of_lt_of_le (kept.numbered _ (list ▸ List.mem_cons_self)) given
    | schedules target due signal => exact rest
    | rests => exact rest
    | withdraws target => exact rest

/-- Numbers are given out to what is scheduled, one after another. -/
theorem numbers_run (roster : Roster) (requests : List Request) :
    Reply.numbers ((roster.run requests).map (·.1)) =
      (Request.scheduled roster.issued requests).map (·.id) := by
  induction requests generalizing roster with
  | nil => rfl
  | cons request more ih =>
    have rest := ih (roster.perform request).2
    cases request with
    | schedule target due signal => exact congrArg (roster.issued :: ·) rest
    | pop => exact rest
    | withdraw target => exact rest
    | popDue now =>
      have performs := performs (.popDue now) roster
      simp only [run, List.map_cons]
      generalize roster.perform (.popDue now) = outcome at performs rest ⊢
      cases performs with
      | pops list => exact rest
      | rests => exact rest

end Roster

theorem Request.ids_scheduled (issued : Nat) (requests : List Request) :
    (scheduled issued requests).map (·.id) =
      List.range' issued (scheduled issued requests).length := by
  induction requests generalizing issued with
  | nil => rfl
  | cons request more ih =>
    cases request with
    | schedule target due signal => exact congrArg (issued :: ·) (ih (issued + 1))
    | pop => exact ih issued
    | popDue now => exact ih issued
    | withdraw target => exact ih issued

/-- No two events of one agenda are equally urgent. -/
theorem Request.eq_of_urgency {requests : List Request} {issued : Nat} {a b : Event}
    (first : a ∈ scheduled issued requests) (second : b ∈ scheduled issued requests)
    (equal : a.urgency b = .eq) : a = b := by
  have distinct : ((scheduled issued requests).map (·.id)).Nodup := by
    rw [ids_scheduled]
    exact List.nodup_range'
  exact List.inj_on_of_nodup_map distinct first second (Event.due_id_eq_of_urgency equal).2

namespace Agenda

variable {agenda rest : Agenda} {roster : Roster} {event : Event}

/-- The agenda holds what the roster lists. -/
structure Represents (agenda : Agenda) (roster : Roster) : Prop where
  events : agenda.toList = roster.events
  issued : agenda.issued = roster.issued

namespace Represents

/-- Agenda and roster look alike. -/
theorem view_eq (represents : agenda.Represents roster) : agenda.view = roster.view := by
  have length : agenda.size = roster.events.length := by
    rw [← length_toList, represents.events]
  have awaited (target : AgentId) :
      agenda.awaited target = roster.events.countP (·.recursFor target) := by
    rw [awaited_eq_countP, represents.events]
  have next : agenda.next? = roster.events.head? := by rw [next?_eq_head?, represents.events]
  ext1
  · exact next
  · exact congrArg (Option.map (·.due)) next
  · exact length
  · simp only [view, Roster.view, length]
    cases roster.events <;> rfl
  · exact funext awaited

/-- Scheduling puts an event behind all that are due no later. -/
theorem schedule (represents : agenda.Represents roster) (kept : roster.Kept) (target : AgentId)
    (due : Instant) (signal : Signal) :
    (agenda.schedule target due signal).2.toList =
      Roster.enter ⟨roster.issued, target, due, signal⟩ roster.events := by
  have event : agenda.fresh target due signal = ⟨roster.issued, target, due, signal⟩ := by
    rw [fresh, represents.issued]
  have sorted : (Roster.enter ⟨roster.issued, target, due, signal⟩ roster.events).Pairwise
      Event.Precedes := Roster.pairwise_enter kept.sorted kept.numbered
  refine toList_eq_of_perm ?_ (sorted.imp Event.notAfter_of_precedes)
  refine (toList_schedule agenda target due signal).trans ?_
  rw [event, represents.events]
  exact (Roster.enter_perm _ _).symm

theorem of_pop? (represents : agenda.Represents roster)
    (popped : agenda.pop? = some (event, rest)) :
    ∃ events, roster.events = event :: events ∧
      rest.Represents { roster with events := events } := by
  have list := toList_of_pop? popped
  rw [represents.events] at list
  exact ⟨rest.toList, list, rfl, (issued_of_pop? popped).trans represents.issued⟩

/-- Agenda and roster answer alike, and then hold the same. -/
theorem perform (represents : agenda.Represents roster) (kept : roster.Kept) (request : Request) :
    (agenda.perform request).1 = (roster.perform request).1 ∧
      (agenda.perform request).2.Represents (roster.perform request).2 := by
  cases request with
  | schedule target due signal =>
    refine ⟨congrArg Reply.scheduled represents.issued, ?_, ?_⟩
    · exact represents.schedule kept target due signal
    · exact congrArg (· + 1) represents.issued
  | pop =>
    simp only [Agenda.perform, Roster.perform]
    cases popped : agenda.pop? with
    | none =>
      have nothing : roster.events = [] := represents.events ▸ pop?_eq_none_iff.1 popped
      simp only [nothing, List.head?_nil, List.tail_nil, true_and]
      exact ⟨represents.events.trans nothing, represents.issued⟩
    | some pair =>
      obtain ⟨events, list, left⟩ := represents.of_pop? popped
      simp only [list, List.head?_cons, List.tail_cons, true_and]
      exact left
  | popDue now =>
    simp only [Agenda.perform, Roster.perform]
    cases popped : agenda.pop? with
    | none =>
      have nothing : roster.events = [] := represents.events ▸ pop?_eq_none_iff.1 popped
      have early : agenda.popDue? now = none := by
        rw [popDue?, nextDue?_eq_none_iff.2 (pop?_eq_none_iff.1 popped)]
      simp only [early, nothing, true_and]
      exact represents
    | some pair =>
      obtain ⟨events, list, left⟩ := represents.of_pop? popped
      by_cases due : pair.1.due ≤ now
      · simp only [popDue?_eq_some_iff.2 ⟨popped, due⟩, list, if_pos due, true_and]
        exact left
      · have early : agenda.popDue? now = none := by
          simp [popDue?_eq_none_iff, nextDue?_of_pop? popped, UInt64.not_le.1 due]
        simp only [early, list, if_neg due, true_and]
        exact represents
  | withdraw target =>
    refine ⟨?_, ?_, represents.issued⟩
    · simp only [Agenda.perform, Roster.perform, withdraw, represents.events,
        List.countP_eq_length_filter]
    · exact (toList_withdraw agenda target).trans (by rw [represents.events]; rfl)

/-- However many requests are made, agenda and roster answer alike and look alike. -/
theorem run_eq (represents : agenda.Represents roster) (kept : roster.Kept)
    (requests : List Request) : agenda.run requests = roster.run requests := by
  induction requests generalizing agenda roster with
  | nil => rfl
  | cons request more ih =>
    obtain ⟨reply, after⟩ := represents.perform kept request
    simp only [Agenda.run, Roster.run, reply, after.view_eq, ih after (kept.perform request)]

end Represents

/-- An agenda is a list in the order of instants and numbers. Whatever is asked of a new one and of
an empty list, in any order, both answer the same and look the same each time; in the list, popping
takes the head, popping what is due takes the head if it is due and nothing otherwise, and
withdrawing filters. The list is always in order; numbers are given out from zero on, so no two
events share one; events that share an instant leave in the order of their numbers; and no two
events are equally urgent. -/
theorem run_eq_roster (requests : List Request) :
    empty.run requests = Roster.empty.run requests ∧
      (Roster.empty.after requests).events.Pairwise Event.Precedes ∧
      Reply.numbers ((empty.run requests).map (·.1)) =
        List.range (Request.scheduled 0 requests).length ∧
      ((Reply.departures ((empty.run requests).map (·.1))).Pairwise
        fun a b => a.due = b.due → a.id < b.id) ∧
      ∀ a ∈ Request.scheduled 0 requests, ∀ b ∈ Request.scheduled 0 requests,
        a.urgency b = .eq → a = b := by
  have represents : empty.Represents Roster.empty := ⟨rfl, rfl⟩
  have same := represents.run_eq .empty requests
  refine ⟨same, (Roster.Kept.empty.after requests).sorted, ?_, ?_, ?_⟩
  · rw [same, Roster.numbers_run, List.range_eq_range']
    exact Request.ids_scheduled 0 requests
  · rw [same]
    exact Roster.pairwise_departures .empty requests
  · intro a first b second equal
    exact Request.eq_of_urgency first second equal

end Agenda

end Billiard
