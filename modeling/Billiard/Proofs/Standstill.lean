import Billiard.Proofs.Exchange

/-!
What goes on while time stands still. At one instant nothing moves; each contact that comes about
is open, has its effect and is settled, and contacts are opened again only where a ball has been
deflected. Exchanges come to an end, and so do contacts that deflect nothing, because there are
only so many: without end there are only contacts at which a wall turns a ball.
-/

namespace Billiard

open Conductor (deflected)

variable {before after : Table ℝ} {contact : Contact} {n : ℕ}

/-- There are only so many contacts at a table. -/
theorem Contact.finite_at (table : Table ℝ) : {contact : Contact | contact.At table}.Finite := by
  let ids := Set.Iio table.balls.length
  let walls := (fun pair : BallId × WallId => Contact.wall pair.1 pair.2) ''
    (ids ×ˢ Set.Iio table.walls.length)
  let pairs := (fun pair : BallId × BallId => Contact.pair pair.1 pair.2) '' (ids ×ˢ ids)
  have finite : (walls ∪ pairs).Finite :=
    (((Set.finite_Iio _).prod (Set.finite_Iio _)).image _).union
      (((Set.finite_Iio _).prod (Set.finite_Iio _)).image _)
  apply finite.subset
  intro contact there
  cases contact with
  | wall ball side => exact .inl ⟨(ball, side), there, rfl⟩
  | pair a b => exact .inr ⟨(a, b), ⟨Nat.lt_trans there.1 there.2, there.2⟩, rfl⟩

/-- The balls of a contact at a table are there. -/
theorem Contact.At.lt_length {table : Table ℝ} {ball : BallId} (there : contact.At table)
    (part : ball ∈ contact.balls) : ball < table.balls.length := by
  cases contact with
  | wall hit side =>
    rw [Contact.balls, List.mem_singleton] at part
    exact part ▸ there.1
  | pair a b =>
    simp only [Contact.balls, List.mem_cons, List.not_mem_nil, or_false] at part
    rcases part with rfl | rfl
    · exact Nat.lt_trans there.1 there.2
    · exact there.2

namespace Table

/-- The balls of a table that has so many. -/
def ballsOf (table : Table ℝ) (sized : table.balls.length = n) (i : Fin n) : Ball ℝ :=
  table.balls.get (i.cast sized.symm)

theorem getElem?_ballsOf (table : Table ℝ) (sized : table.balls.length = n) (i : Fin n) :
    table.balls[i.val]? = some (table.ballsOf sized i) :=
  List.getElem?_eq_getElem (sized ▸ i.isLt)

/-- A contact that deflects nobody changes no ball. -/
theorem ballsOf_of_straight (sizedBefore : before.balls.length = n)
    (sizedAfter : after.balls.length = n) (met : contact.effect? before = some after)
    (straight : ∀ ball ∈ contact.balls, ¬deflected before after ball) :
    after.ballsOf sizedAfter = before.ballsOf sizedBefore := by
  funext i
  obtain ⟨old, found, position, radius, apart⟩ :=
    Contact.balls_of_effect? met (getElem?_ballsOf after sizedAfter i)
  have same : old = before.ballsOf sizedBefore i :=
    Option.some.inj (found.symm.trans (getElem?_ballsOf before sizedBefore i))
  subst same
  by_cases part : i.val ∈ contact.balls
  · have velocity := velocity_of_not_deflected (getElem?_ballsOf after sizedAfter i) found
      (straight i part)
    calc after.ballsOf sizedAfter i
        = ⟨(after.ballsOf sizedAfter i).position, (after.ballsOf sizedAfter i).velocity,
            (after.ballsOf sizedAfter i).radius⟩ := rfl
      _ = before.ballsOf sizedBefore i := by rw [position, velocity, radius]
  · exact apart part

/-- Two balls that meet change nothing or exchange momentum. -/
theorem ballsOf_of_meet {a b : BallId} (sizedBefore : before.balls.length = n)
    (sizedAfter : after.balls.length = n) (there : (Contact.pair a b).At before)
    (met : (Contact.pair a b).effect? before = some after) :
    after.ballsOf sizedAfter = before.ballsOf sizedBefore ∨
      Ball.Exchanged (before.ballsOf sizedBefore) (after.ballsOf sizedAfter) := by
  obtain ⟨less, bound⟩ := there
  have first : a < n := sizedBefore ▸ less.trans bound
  have second : b < n := sizedBefore ▸ bound
  simp only [Contact.effect?, meet?, less, if_true, Nat.ne_of_lt less, if_false,
    getElem?_ballsOf before sizedBefore ⟨a, first⟩, getElem?_ballsOf before sizedBefore ⟨b, second⟩]
    at met
  cases response : before.response with
  | pass =>
    rw [response] at met
    cases met
    exact .inl rfl
  | elastic =>
    rw [response] at met
    cases met
    refine .inr ⟨⟨a, first⟩, ⟨b, second⟩, by simp [Nat.ne_of_lt less], funext fun i => ?_⟩
    simp only [ballsOf, List.get_eq_getElem, List.getElem_set, Function.update_apply,
      Fin.val_cast, Fin.ext_iff, @eq_comm _ i.val]
    rfl

end Table

/-- Contacts one after another at one instant: each is of what is there and open, has its effect,
and is settled. -/
structure Standstill (tables : ℕ → Table ℝ) (conductors : ℕ → Conductor)
    (contacts : ℕ → Contact) : Prop where
  there : ∀ k, (contacts k).At (tables k)
  isOpen : ∀ k, contacts k ∉ (conductors k).settled
  met : ∀ k, (contacts k).effect? (tables k) = some (tables (k + 1))
  settles : ∀ k, (conductors (k + 1)).settled =
    ((conductors k).settle (tables k) (tables (k + 1)) (contacts k)).settled

namespace Standstill

variable {tables : ℕ → Table ℝ} {conductors : ℕ → Conductor} {contacts : ℕ → Contact}

theorem resembles (still : Standstill tables conductors contacts) (k : ℕ) :
    (tables k).Resembles (tables 0) := by
  induction k with
  | zero => exact .refl _
  | succ k ih => exact (Contact.resembles_of_effect? (still.met k)).trans ih

/-- Where no ball is deflected, what is settled stays settled. -/
theorem settled_mono (still : Standstill tables conductors contacts) {first : ℕ}
    (straight : ∀ k ≥ first, ∀ ball ∈ (contacts k).balls,
      ¬deflected (tables k) (tables (k + 1)) ball) {i j : ℕ} (from_ : first ≤ i) (before : i < j) :
    contacts i ∈ (conductors j).settled := by
  induction j, before using Nat.le_induction with
  | base =>
    rw [still.settles i]
    exact List.mem_cons_self
  | succ j le ih =>
    rw [still.settles j]
    refine List.mem_cons_of_mem _ (List.mem_filter.2 ⟨ih, ?_⟩)
    have late : first ≤ j := by omega
    simpa using fun ball part turned => absurd turned (straight j late ball part)

/-- Contacts cannot go on without deflecting any ball: there are only so many. -/
theorem exists_deflected (still : Standstill tables conductors contacts) (first : ℕ) :
    ∃ k ≥ first, ∃ ball ∈ (contacts k).balls, deflected (tables k) (tables (k + 1)) ball := by
  by_contra none
  push Not at none
  have distinct : Function.Injective fun k => contacts (first + k) := by
    intro i j same
    change contacts (first + i) = contacts (first + j) at same
    by_contra different
    rcases Nat.lt_or_gt_of_ne different with less | more
    · have settled := still.settled_mono none (Nat.le_add_right first i)
        (Nat.add_lt_add_left less first)
      exact still.isOpen _ (same ▸ settled)
    · have settled := still.settled_mono none (Nat.le_add_right first j)
        (Nat.add_lt_add_left more first)
      exact still.isOpen _ (same ▸ settled)
  refine Set.infinite_range_of_injective distinct ((Contact.finite_at (tables 0)).subset ?_)
  rintro _ ⟨k, rfl⟩
  exact (still.there (first + k)).of_resembles (still.resembles (first + k))

/-- Without end, a wall must turn a ball. -/
theorem exists_turn (still : Standstill tables conductors contacts)
    (sizes : ∀ ball ∈ (tables 0).balls, 0 < ball.radius) :
    ∃ k ball side, contacts k = .wall ball side ∧
      deflected (tables k) (tables (k + 1)) ball := by
  by_contra none
  push Not at none
  let balls (k : ℕ) := (tables k).ballsOf (still.resembles k).length
  have steps (k : ℕ) : balls (k + 1) = balls k ∨ Ball.Exchanged (balls k) (balls (k + 1)) := by
    have there := still.there k
    have met := still.met k
    cases same : contacts k with
    | wall ball side =>
      rw [same] at met
      left
      apply Table.ballsOf_of_straight _ _ met
      intro other part
      rw [Contact.balls, List.mem_singleton] at part
      exact part ▸ none k ball side same
    | pair a b =>
      rw [same] at met there
      exact Table.ballsOf_of_meet _ _ there met
  obtain ⟨last, stable⟩ := Ball.exchanges_end
    (fun i => sizes _ (List.get_mem (tables 0).balls _)) steps
  obtain ⟨k, ge, ball, part, turned⟩ := still.exists_deflected last
  have bound : ball < (tables 0).balls.length :=
    (still.resembles k).length ▸ (still.there k).lt_length part
  have before := Table.getElem?_ballsOf (tables k) (still.resembles k).length ⟨ball, bound⟩
  have after := Table.getElem?_ballsOf (tables (k + 1)) (still.resembles (k + 1)).length
    ⟨ball, bound⟩
  have same : (tables (k + 1)).balls[ball]? = (tables k).balls[ball]? := by
    rw [before, after]
    exact congrArg (fun balls => some (balls ⟨ball, bound⟩)) (stable k ge)
  simp [deflected, Table.velocity?, same] at turned

end Standstill

end Billiard
