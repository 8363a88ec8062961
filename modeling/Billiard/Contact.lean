import Billiard.Table.Basic

/-!
Which contacts there can be on a table, and forecasts of them.
-/

namespace Billiard

/-- A ball at a wall, or two balls together. -/
inductive Contact where
  | wall (ball : BallId) (wall : WallId)
  | pair (a b : BallId)
deriving DecidableEq, Repr

namespace Contact

/-- The contact of two balls, the one of smaller number first, so that it does not matter in which
order they are named. -/
def between (a b : BallId) : Contact := if a ≤ b then .pair a b else .pair b a

theorem between_comm (a b : BallId) : between a b = between b a := by
  unfold between
  rcases Nat.lt_trichotomy a b with less | same | more
  · simp [Nat.le_of_lt less, Nat.not_le_of_lt less]
  · rw [same]
  · simp [Nat.le_of_lt more, Nat.not_le_of_lt more]

/-- The balls that take part. -/
def balls : Contact → List BallId
  | .wall ball _ => [ball]
  | .pair a b => [a, b]

/-- Whether a ball takes part. -/
def involves (contact : Contact) (ball : BallId) : Bool := contact.balls.contains ball

/-- What a contact does to the table, if all that it names is there. -/
def effect? {K : Type} [Scalar K] : Contact → Table K → Option (Table K)
  | .wall ball side, table => table.bounce? ball side
  | .pair a b, table => table.meet? a b

end Contact

/-- A contact that comes about in `delay` milliseconds if nothing else happens before. -/
structure Forecast where
  delay : Millis
  contact : Contact
deriving DecidableEq, Repr

namespace Forecast

/-- The first of the forecasts that no other one comes before. -/
def soonest? : List Forecast → Option Forecast
  | [] => none
  | first :: rest =>
    match soonest? rest with
    | none => some first
    | some later => some (if later.delay < first.delay then later else first)

theorem soonest?_eq_none_iff {forecasts : List Forecast} :
    soonest? forecasts = none ↔ forecasts = [] := by
  cases forecasts with
  | nil => simp [soonest?]
  | cons first rest =>
    unfold soonest?
    split <;> simp

theorem soonest?_mem {forecasts : List Forecast} {found : Forecast}
    (soonest : soonest? forecasts = some found) : found ∈ forecasts := by
  induction forecasts generalizing found with
  | nil => simp [soonest?] at soonest
  | cons first rest ih =>
    unfold soonest? at soonest
    split at soonest
    · cases soonest
      exact List.mem_cons_self
    · next later isLater =>
      cases soonest
      split
      · exact List.mem_cons_of_mem first (ih isLater)
      · exact List.mem_cons_self

/-- Nothing comes before the soonest. -/
theorem soonest?_le {forecasts : List Forecast} {found other : Forecast}
    (soonest : soonest? forecasts = some found) (member : other ∈ forecasts) :
    found.delay ≤ other.delay := by
  induction forecasts generalizing found with
  | nil => simp at member
  | cons first rest ih =>
    unfold soonest? at soonest
    split at soonest
    · next nothing =>
      cases soonest
      rw [soonest?_eq_none_iff] at nothing
      rw [nothing, List.mem_singleton] at member
      exact member ▸ UInt64.le_refl _
    · next later isLater =>
      cases soonest
      rcases List.mem_cons.1 member with same | member
      · subst same
        split
        · next before => exact UInt64.le_of_lt before
        · exact UInt64.le_refl _
      · have ahead := ih isLater member
        split
        · exact ahead
        · next notBefore => exact UInt64.le_trans (UInt64.not_lt.1 notBefore) ahead

end Forecast

end Billiard
