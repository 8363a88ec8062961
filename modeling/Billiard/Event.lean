import Billiard.Contact

/-!
What is delivered to agents, and when. Of two events the one that is due first comes first, and of
two that are due at once the one that was scheduled first.
-/

namespace Billiard

/-- The place of an agent in its simulation. -/
abbrev AgentId := Nat

/-- How many events were scheduled before this one. -/
abbrev EventId := Nat

/-- What an event says. `elapsed` is the time since the event that scheduled it. -/
inductive Signal where
  | wall (ball : BallId) (side : WallId) (elapsed : Millis)
  | pair (a b : BallId) (elapsed : Millis)
  | beat (elapsed : Millis)
  | key (way : Turn)
deriving DecidableEq, Repr

namespace Signal

/-- A contact that comes about after `elapsed` milliseconds. -/
def ofContact (contact : Contact) (elapsed : Millis) : Signal :=
  match contact with
  | .wall ball side => .wall ball side elapsed
  | .pair a b => .pair a b elapsed

/-- The contact that the signal announces, if it announces one. -/
def contact? : Signal → Option Contact
  | .wall ball side _ => some (.wall ball side)
  | .pair a b _ => some (.between a b)
  | .beat _ | .key _ => none

/-- Whether each such signal is followed by another: an agent waits for at most one of them. -/
def recurs : Signal → Bool
  | .key _ => false
  | .wall .. | .pair .. | .beat _ => true

/-- The name of the signal in reports. -/
def label : Signal → String
  | .wall .. => "wall-collision"
  | .pair .. => "body-collision"
  | .beat _ => "paint"
  | .key _ => "key"

end Signal

/-- A signal for one agent at one instant. -/
structure Event where
  id : EventId
  target : AgentId
  due : Instant
  signal : Signal
deriving DecidableEq, Repr

namespace Event

/-- `a` comes before `b`. -/
def Precedes (a b : Event) : Prop := a.due < b.due ∨ a.due = b.due ∧ a.id < b.id

instance (a b : Event) : Decidable (a.Precedes b) :=
  inferInstanceAs (Decidable (_ ∨ _ ∧ _))

/-- Greater is more urgent. Events that share instant and number are equally urgent, whatever they
say and whomever they are for. -/
def urgency (a b : Event) : Ordering :=
  if a.Precedes b then .gt else if b.Precedes a then .lt else .eq

/-- Whether the event is one of those of which `target` waits for at most one. -/
def recursFor (target : AgentId) (event : Event) : Bool :=
  event.target == target && event.signal.recurs

/-- `a` does not come after `b`. -/
def notAfter (a b : Event) : Bool := !decide (b.Precedes a)

theorem notAfter_iff {a b : Event} :
    a.notAfter b ↔ a.due < b.due ∨ a.due = b.due ∧ a.id ≤ b.id := by
  have order : a.due < b.due ∨ a.due = b.due ∨ b.due < a.due := by
    rcases UInt64.lt_or_le a.due b.due with before | notBefore
    · exact .inl before
    · rcases UInt64.lt_or_eq_of_le notBefore with after | same
      · exact .inr (.inr after)
      · exact .inr (.inl same.symm)
  simp only [notAfter, Precedes, Bool.not_eq_true']
  rcases order with before | same | after
  · have notAfter := UInt64.lt_asymm before
    have different := UInt64.ne_of_lt before
    simp [before, notAfter, different.symm]
  · simp [same, UInt64.lt_irrefl]
  · have notBefore := UInt64.lt_asymm after
    have different := UInt64.ne_of_lt after
    simp [after, notBefore, different.symm]

theorem notAfter_total (a b : Event) : a.notAfter b ∨ b.notAfter a := by
  rw [notAfter_iff, notAfter_iff]
  rcases UInt64.lt_or_le a.due b.due with before | notBefore
  · exact .inl (.inl before)
  · rcases UInt64.lt_or_eq_of_le notBefore with after | same
    · exact .inr (.inl after)
    · rcases Nat.le_total a.id b.id with le | le
      · exact .inl (.inr ⟨same.symm, le⟩)
      · exact .inr (.inr ⟨same, le⟩)

theorem notAfter_trans {a b c : Event} (first : a.notAfter b) (second : b.notAfter c) :
    a.notAfter c := by
  rw [notAfter_iff] at first second ⊢
  rcases first with lt | ⟨same, le⟩ <;> rcases second with lt' | ⟨same', le'⟩
  · exact .inl (UInt64.lt_trans lt lt')
  · exact .inl (same' ▸ lt)
  · exact .inl (same ▸ lt')
  · exact .inr ⟨same.trans same', Nat.le_trans le le'⟩

end Event

end Billiard
