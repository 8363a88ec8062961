import Mathlib.Data.Prod.Lex
import Billiard.Proofs.Reaction

/-!
Which of several contacts comes first. Contacts have a rank that no table changes, and forecasts
are made in the order of ranks (`Table.pairwise_forecasts`); so the next contact is the least one
by delay and rank (`Table.nextContact?_least`).
-/

namespace Billiard

/-- The place of a contact among all: by ball, walls first. -/
def Contact.rank : Contact → ℕ ×ₗ ℕ ×ₗ ℕ
  | .wall ball side => toLex (ball, toLex (0, side))
  | .pair a b => toLex (a, toLex (1, b))

theorem Contact.rank_injective : Function.Injective Contact.rank := by
  intro contact other same
  cases contact <;> cases other <;> simp_all [Contact.rank]

namespace Forecast

/-- Among forecasts in the order of ranks, nothing comes before the soonest, and of those that come
with it nothing has a lower rank. -/
theorem soonest?_least {forecasts : List Forecast} {found other : Forecast}
    (sorted : forecasts.Pairwise fun a b => a.contact.rank < b.contact.rank)
    (soonest : soonest? forecasts = some found) (member : other ∈ forecasts) :
    found.delay < other.delay ∨
      found.delay = other.delay ∧ found.contact.rank ≤ other.contact.rank := by
  induction forecasts generalizing found with
  | nil => cases member
  | cons first rest ih =>
    obtain ⟨ahead, sorted⟩ := List.pairwise_cons.1 sorted
    have least := soonest?_le soonest member
    by_cases before : found.delay < other.delay
    · exact .inl before
    have same := UInt64.le_antisymm least (UInt64.not_lt.1 before)
    refine .inr ⟨same, ?_⟩
    unfold soonest? at soonest
    rcases List.mem_cons.1 member with rfl | later
    · split at soonest
      · exact Option.some.inj soonest ▸ le_refl _
      · split at soonest
        · next strictly =>
          obtain rfl := Option.some.inj soonest
          rw [same] at strictly
          exact absurd strictly (UInt64.lt_irrefl _)
        · exact Option.some.inj soonest ▸ le_refl _
    · split at soonest
      · exact Option.some.inj soonest ▸ (ahead other later).le
      · next chosen isChosen =>
        split at soonest
        · obtain rfl := Option.some.inj soonest
          rcases ih sorted isChosen later with strictly | ⟨_, lower⟩
          · exact absurd strictly before
          · exact lower
        · exact Option.some.inj soonest ▸ (ahead other later).le

end Forecast

namespace Table

variable {K : Type} [Scalar K] {table : Table K} {settled : List Contact}

private theorem pairwise_zipIdx {α : Type} (list : List α) :
    list.zipIdx.Pairwise fun a b => a.2 < b.2 := by
  rw [List.pairwise_iff_getElem]
  intro i j _ _ less
  simpa using less

theorem pairwise_wallForecasts (table : Table K) (id : BallId) (ball : Ball K) :
    (table.wallForecasts id ball).Pairwise fun a b => a.contact.rank < b.contact.rank := by
  rw [wallForecasts, List.pairwise_filterMap]
  refine (pairwise_zipIdx table.walls).imp ?_
  rintro ⟨wall, place⟩ ⟨wall', place'⟩ less forecast soon forecast' soon'
  obtain ⟨_, _, rfl⟩ := Option.map_eq_some_iff.1 soon
  obtain ⟨_, _, rfl⟩ := Option.map_eq_some_iff.1 soon'
  simpa [Contact.rank, Prod.Lex.toLex_lt_toLex] using less

/-- A pair that counts for a ball is forecast as the contact of that ball with a later one. -/
theorem contact_of_pairForecasts {id : BallId} {ball other : Ball K} {place : Nat}
    {forecast : Forecast}
    (soon : (if place = id then none
      else (ball.untilBall? other).map fun delay => ⟨delay, .between id place⟩) = some forecast)
    (counts : countsFor id forecast.contact) : forecast.contact = .pair id place := by
  split at soon
  · cases soon
  · obtain ⟨_, _, rfl⟩ := Option.map_eq_some_iff.1 soon
    by_cases le : id ≤ place
    · exact if_pos le
    · change countsFor id (Contact.between id place) = true at counts
      rw [Contact.between, if_neg le] at counts
      exact absurd (beq_iff_eq.1 counts).ge le

theorem pairwise_pairForecasts (table : Table K) (id : BallId) (ball : Ball K) :
    ((table.pairForecasts id ball).filter fun forecast =>
      countsFor id forecast.contact).Pairwise fun a b => a.contact.rank < b.contact.rank := by
  rw [List.pairwise_filter, pairForecasts, List.pairwise_filterMap]
  refine (pairwise_zipIdx table.balls).imp ?_
  rintro ⟨other, place⟩ ⟨other', place'⟩ less forecast soon forecast' soon' counts counts'
  rw [contact_of_pairForecasts soon counts, contact_of_pairForecasts soon' counts']
  simpa [Contact.rank, Prod.Lex.toLex_lt_toLex] using less

/-- Forecasts are made in the order of ranks. -/
theorem pairwise_forecasts (table : Table K) :
    table.forecasts.Pairwise fun a b => a.contact.rank < b.contact.rank := by
  have ofBall {id : BallId} {forecast : Forecast} (member : forecast ∈
      (table.forecastsOf id).filter fun forecast => countsFor id forecast.contact) :
      (ofLex forecast.contact.rank).1 = id := by
    obtain ⟨member, counts⟩ := List.mem_filter.1 member
    unfold forecastsOf at member
    split at member
    · cases member
    · next ball _ =>
      rcases List.mem_append.1 member with member | member
      · obtain ⟨_, _, soon⟩ := List.mem_filterMap.1 member
        obtain ⟨_, _, rfl⟩ := Option.map_eq_some_iff.1 soon
        rfl
      · obtain ⟨_, _, soon⟩ := List.mem_filterMap.1 member
        rw [contact_of_pairForecasts soon counts]
        rfl
  rw [forecasts, List.pairwise_flatMap]
  constructor
  · intro id _
    unfold forecastsOf
    split
    · exact List.Pairwise.nil
    · next ball _ =>
      rw [List.filter_append, List.pairwise_append]
      refine ⟨(pairwise_wallForecasts table id ball).filter _,
        pairwise_pairForecasts table id ball, ?_⟩
      intro forecast first forecast' second
      obtain ⟨_, _, soon⟩ := List.mem_filterMap.1 (List.mem_filter.1 first).1
      obtain ⟨_, _, rfl⟩ := Option.map_eq_some_iff.1 soon
      obtain ⟨member, counts⟩ := List.mem_filter.1 second
      obtain ⟨_, _, soon'⟩ := List.mem_filterMap.1 member
      rw [contact_of_pairForecasts soon' counts]
      simp [Contact.rank, Prod.Lex.toLex_lt_toLex]
  · refine List.pairwise_lt_range.imp ?_
    intro id id' less forecast first forecast' second
    apply Prod.Lex.lt_iff.2
    rw [ofBall first, ofBall second]
    exact .inl less

/-- The next contact comes before every other that is open, and of those that come with it none has
a lower rank. -/
theorem nextContact?_least {forecast other : Forecast}
    (next : table.nextContact? settled = some forecast) (member : other ∈ table.forecasts)
    (isOpen : other.contact ∉ settled) :
    forecast.delay < other.delay ∨
      forecast.delay = other.delay ∧ forecast.contact.rank ≤ other.contact.rank :=
  Forecast.soonest?_least (table.pairwise_forecasts.filter _) next
    (List.mem_filter.2 ⟨member, by simpa using isOpen⟩)

end Table

end Billiard
