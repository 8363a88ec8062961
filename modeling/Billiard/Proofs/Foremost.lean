import Billiard.Proofs.Precedence
import Billiard.Proofs.Separation

/-!
The next contact among those that all balls have ahead. A pair is counted for its first ball only;
as two balls agree on when they touch (`Ball.untilBall?_comm`), nothing is missed by that. So the
next contact is the one open forecast of any ball that comes before all others
(`Table.nextContact?_foremost`).
-/

namespace Billiard

namespace Table

variable {K : Type} [Scalar K] {table : Table K} {settled : List Contact} {id : BallId}
  {forecast found other : Forecast}

/-- What is forecast on a table is forecast for a ball that takes part in it. -/
theorem exists_forecastsOf (member : forecast ∈ table.forecasts) :
    ∃ id, forecast.contact.involves id ∧ forecast ∈ table.forecastsOf id := by
  obtain ⟨id, _, counted⟩ := List.mem_flatMap.1 member
  have member := (List.mem_filter.1 counted).1
  refine ⟨id, ?_, member⟩
  unfold forecastsOf at member
  split at member
  · cases member
  · rcases List.mem_append.1 member with wall | pair
    · obtain ⟨_, _, soon⟩ := List.mem_filterMap.1 wall
      obtain ⟨_, _, rfl⟩ := Option.map_eq_some_iff.1 soon
      simp [Contact.involves, Contact.balls]
    · obtain ⟨_, _, soon⟩ := List.mem_filterMap.1 pair
      obtain ⟨_, soon⟩ := Option.ite_none_left_eq_some.1 soon
      obtain ⟨_, _, rfl⟩ := Option.map_eq_some_iff.1 soon
      simp only [Contact.involves, Contact.between]
      split <;> simp [Contact.balls]

section Agreement

variable (agree : ∀ first second : Ball K, second.untilBall? first = first.untilBall? second)

include agree

/-- Where balls agree on when they touch, what is forecast for any ball is forecast on the table. -/
theorem mem_forecasts_of_forecastsOf (member : forecast ∈ table.forecastsOf id) :
    forecast ∈ table.forecasts := by
  unfold forecastsOf at member
  split at member
  · cases member
  · next ball here =>
    rcases List.mem_append.1 member with wall | pair
    · obtain ⟨⟨line, place⟩, there, soon⟩ := List.mem_filterMap.1 wall
      obtain ⟨delay, touches, rfl⟩ := Option.map_eq_some_iff.1 soon
      exact wall_mem_forecasts.2 ⟨ball, line, here, List.mem_zipIdx_iff_getElem?.1 there, touches⟩
    · obtain ⟨⟨partner, place⟩, there, soon⟩ := List.mem_filterMap.1 pair
      obtain ⟨two, soon⟩ := Option.ite_none_left_eq_some.1 soon
      obtain ⟨delay, touches, rfl⟩ := Option.map_eq_some_iff.1 soon
      have there := List.mem_zipIdx_iff_getElem?.1 there
      rcases Nat.lt_or_gt_of_ne two with before | behind
      · rw [Contact.between_comm, Contact.between, if_pos before.le]
        exact pair_mem_forecasts.2
          ⟨before, partner, ball, there, here, (agree ball partner).trans touches⟩
      · rw [Contact.between, if_pos behind.le]
        exact pair_mem_forecasts.2 ⟨behind, ball, partner, here, there, touches⟩

/-- Nothing is next exactly if everything that is forecast for any ball is settled. -/
theorem nextContact?_eq_none_iff :
    table.nextContact? settled = none ↔
      ∀ id, ∀ forecast ∈ table.forecastsOf id, forecast.contact ∈ settled := by
  rw [nextContact?_eq_none]
  constructor
  · intro all id forecast member
    exact all forecast (mem_forecasts_of_forecastsOf agree member)
  · intro all forecast member
    obtain ⟨id, _, member⟩ := exists_forecastsOf member
    exact all id forecast member

end Agreement

/-- A forecast of an open contact for a ball that takes part in it. Of all forecasts of open
contacts, for any ball, none comes before it, and of those that come with it none has a lower
rank. -/
structure Foremost (table : Table K) (settled : List Contact) (found : Forecast) : Prop where
  ahead : ∃ id, found.contact.involves id ∧ found ∈ table.forecastsOf id
  isOpen : found.contact ∉ settled
  least : ∀ id, ∀ other ∈ table.forecastsOf id, other.contact ∉ settled →
    found.delay < other.delay ∨
      found.delay = other.delay ∧ found.contact.rank ≤ other.contact.rank

/-- No two forecasts are foremost. -/
theorem Foremost.unique (foremost : table.Foremost settled found)
    (foremost' : table.Foremost settled other) : found = other := by
  obtain ⟨⟨id, _, member⟩, isOpen, least⟩ := foremost
  obtain ⟨⟨id', _, member'⟩, isOpen', least'⟩ := foremost'
  rcases least id' other member' isOpen' with before | ⟨same, lower⟩
  · rcases least' id found member isOpen with behind | ⟨same, _⟩
    · exact absurd before (UInt64.lt_asymm behind)
    · exact absurd (same ▸ before) (UInt64.lt_irrefl _)
  · rcases least' id found member isOpen with behind | ⟨_, lower'⟩
    · exact absurd (same ▸ behind) (UInt64.lt_irrefl _)
    · have contact := Contact.rank_injective (le_antisymm lower lower')
      cases found
      cases other
      exact congrArg₂ Forecast.mk same contact

/-- Where balls agree on when they touch, what is next is foremost. -/
theorem foremost_of_nextContact?
    (agree : ∀ first second : Ball K, second.untilBall? first = first.untilBall? second)
    (next : table.nextContact? settled = some found) : table.Foremost settled found := by
  obtain ⟨member, isOpen⟩ := nextContact?_mem next
  refine ⟨exists_forecastsOf member, isOpen, fun id other member' isOpen' => ?_⟩
  exact nextContact?_least next (mem_forecasts_of_forecastsOf agree member') isOpen'

/-- The next contact is the foremost one: nothing that is forecast for any ball is missed, and only
the order of ranks decides between contacts that come at once. There is none exactly if all that is
forecast is settled. -/
theorem nextContact?_foremost (table : Table ℝ) (settled : List Contact) :
    (table.nextContact? settled = none ↔
      ∀ id, ∀ forecast ∈ table.forecastsOf id, forecast.contact ∈ settled) ∧
    ∀ found, table.nextContact? settled = some found ↔ table.Foremost settled found := by
  have nothing : table.nextContact? settled = none ↔
      ∀ id, ∀ forecast ∈ table.forecastsOf id, forecast.contact ∈ settled :=
    nextContact?_eq_none_iff Ball.untilBall?_comm
  refine ⟨nothing, fun found => ⟨foremost_of_nextContact? Ball.untilBall?_comm, fun foremost => ?_⟩⟩
  cases next : table.nextContact? settled with
  | none =>
    obtain ⟨id, _, member⟩ := foremost.ahead
    exact absurd (nothing.1 next id found member) foremost.isOpen
  | some other =>
    exact congrArg some ((foremost_of_nextContact? Ball.untilBall?_comm next).unique foremost)

end Table

end Billiard
