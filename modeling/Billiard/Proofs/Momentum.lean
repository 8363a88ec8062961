import Billiard.Proofs.Energy
import Billiard.Proofs.Foremost

/-!
An exchange gives momentum from one ball to the other along the gap between their centres, and what
it gives is the same whichever of the two is named first (`Ball.kick_comm`). So balls that meet keep
their common momentum and their common energy, and a table may be told of its contacts in either
order of the balls (`Table.meet?_conserves`).
-/

namespace Billiard

namespace Ball

variable {first second : Ball ℝ}

/-- Whichever of two balls is named first, an exchange gives the same. -/
theorem kick_comm (first second : Ball ℝ) : second.kick first = first.kick second := by
  have back : second.gap first = first.gap second * (-1 : ℝ) :=
    Vec.eq_of_parts (by simp [gap]) (by simp [gap])
  have square : (second.gap first).dot (second.gap first) =
      (first.gap second).dot (first.gap second) := by
    rw [back]
    simp [Vec.dot_eq]
  have length : (second.gap first).norm = (first.gap second).norm := congrArg Real.sqrt square
  rw [kick, length, square, parting_comm, add_comm second.mass, kick]

/-- Two balls end up the same whichever of them is named first. -/
theorem exchange_swap (first second : Ball ℝ) :
    second.exchange first = (first.exchange second).swap := by
  have turned (velocity : Vec ℝ) (push : ℝ) :
      velocity - second.gap first * push = velocity + first.gap second * push ∧
        velocity + second.gap first * push = velocity - first.gap second * push := by
    constructor <;> apply Vec.eq_of_parts <;> simp only [gap, Vec.sub_x, Vec.sub_y, Vec.add_x,
      Vec.add_y, Vec.mul_x, Vec.mul_y] <;> ring
  rw [exchange_eq, exchange_eq, kick_comm, (turned _ _).1, (turned _ _).2]
  rfl

/-- What an elastic contact leaves of two balls: their places and sizes, their common momentum and
their common energy. Neither velocity changes but along the line through the centres. -/
structure Conserves (before after : Ball ℝ × Ball ℝ) : Prop where
  places : after.1.position = before.1.position ∧ after.2.position = before.2.position
  sizes : after.1.radius = before.1.radius ∧ after.2.radius = before.2.radius
  momentum : after.1.velocity * after.1.mass + after.2.velocity * after.2.mass =
    before.1.velocity * before.1.mass + before.2.velocity * before.2.mass
  energy : after.1.mass * after.1.velocity.normSq + after.2.mass * after.2.velocity.normSq =
    before.1.mass * before.1.velocity.normSq + before.2.mass * before.2.velocity.normSq
  along : ∃ push push' : ℝ,
    after.1.velocity = before.1.velocity + before.1.gap before.2 * push ∧
    after.2.velocity = before.2.velocity + before.1.gap before.2 * push'

theorem exchange_conserves (first second : Ball ℝ) :
    Conserves (first, second) (first.exchange second) where
  places := ⟨(exchange_kept first second).1, (exchange_kept first second).2.2.1⟩
  sizes := ⟨(exchange_kept first second).2.1, (exchange_kept first second).2.2.2⟩
  momentum := by
    rw [exchange_eq]
    apply Vec.eq_of_parts
    · simp only [mass, Vec.add_x, Vec.sub_x, Vec.mul_x]
      ring
    · simp only [mass, Vec.add_y, Vec.sub_y, Vec.mul_y]
      ring
  energy := by
    have balance := energy_exchange first second
    simp only [energy_eq] at balance
    linarith
  along := by
    refine ⟨-(second.mass * first.kick second), first.mass * first.kick second, ?_, ?_⟩
    · rw [exchange_eq]
      exact Vec.eq_of_parts (by simp [sub_eq_add_neg]) (by simp [sub_eq_add_neg])
    · rw [exchange_eq]

end Ball

namespace Table

variable {K : Type} [Scalar K] {a b : BallId} {before after : Table ℝ}

/-- A contact is the same whichever of its balls is named first. -/
theorem meet?_comm (table : Table K) (a b : BallId) : table.meet? a b = table.meet? b a := by
  rcases Nat.lt_trichotomy a b with less | rfl | less
  · simp only [meet?, if_pos less, if_neg (Nat.lt_asymm less)]
  · rfl
  · simp only [meet?, if_pos less, if_neg (Nat.lt_asymm less)]

/-- Two balls meet if both are there, and do then what the table says. -/
theorem meet?_of_lt {table : Table K} (less : a < b) :
    table.meet? a b = table.balls[a]?.bind fun first => table.balls[b]?.map fun second =>
      match table.response with
      | .pass => table
      | .elastic =>
        { table with balls :=
            (table.balls.set a (first.exchange second).1).set b (first.exchange second).2 } := by
  simp only [meet?, if_pos less, if_neg (Nat.ne_of_lt less)]
  cases table.balls[a]? with
  | none => rfl
  | some first =>
    cases table.balls[b]? with
    | none => rfl
    | some second => cases table.response <;> rfl

/-- Two balls meet unless they are one, or one of them is not there. -/
theorem meet?_eq_none_iff {table : Table K} :
    table.meet? a b = none ↔ a = b ∨ table.balls.length ≤ a ∨ table.balls.length ≤ b := by
  have ordered {a b : BallId} (less : a < b) :
      table.meet? a b = none ↔ table.balls.length ≤ a ∨ table.balls.length ≤ b := by
    rw [meet?_of_lt less]
    by_cases inA : a < table.balls.length
    · simp [inA]
    · simp [inA, not_lt.1 inA]
  rcases Nat.lt_trichotomy a b with less | rfl | less
  · simp [ordered less, Nat.ne_of_lt less]
  · simp [meet?]
  · rw [meet?_comm, ordered less, or_comm]
    simp [Nat.ne_of_gt less]

/-- What a contact of two balls makes of a table: the two go on as they do alone, and all the rest
stays as it is. -/
structure Met (a b : BallId) (before after : Table ℝ) : Prop where
  rest : after = { before with balls := after.balls }
  others : ∀ id, id ≠ a → id ≠ b → after.balls[id]? = before.balls[id]?
  pass : before.response = .pass → after = before
  elastic : before.response = .elastic → ∀ first second, before.balls[a]? = some first →
    before.balls[b]? = some second →
    after.balls[a]? = some (first.exchange second).1 ∧
      after.balls[b]? = some (first.exchange second).2

theorem Met.symm (met : Met a b before after) : Met b a before after where
  rest := met.rest
  others id notB notA := met.others id notA notB
  pass := met.pass
  elastic elastic first second here there := by
    rw [Ball.exchange_swap]
    exact (met.elastic elastic second first there here).symm

/-- What the balls do alone, they do on a table. -/
theorem met_of_meet? (meets : before.meet? a b = some after) : Met a b before after := by
  have ordered {a b : BallId} (less : a < b) (meets : before.meet? a b = some after) :
      Met a b before after := by
    rw [meet?_of_lt less] at meets
    obtain ⟨first, here, meets⟩ := Option.bind_eq_some_iff.1 meets
    obtain ⟨second, there, rfl⟩ := Option.map_eq_some_iff.1 meets
    have inA := (List.getElem?_eq_some_iff.1 here).1
    have inB := (List.getElem?_eq_some_iff.1 there).1
    cases response : before.response with
    | pass =>
      exact ⟨rfl, fun _ _ _ => rfl, fun _ => rfl, fun elastic => by simp [response] at elastic⟩
    | elastic =>
      refine ⟨by rw [response], ?_, fun pass => by simp [response] at pass, ?_⟩
      · intro id notA notB
        simp [notA.symm, notB.symm]
      · intro _ first' second' here' there'
        obtain rfl := Option.some.inj (here.symm.trans here')
        obtain rfl := Option.some.inj (there.symm.trans there')
        simp [inA, inB, Nat.ne_of_gt less]
  rcases Nat.lt_trichotomy a b with less | rfl | less
  · exact ordered less meets
  · simp [meet?] at meets
  · rw [meet?_comm] at meets
    exact (ordered less meets).symm

/-- An elastic contact loses neither momentum nor energy, pushes the balls along the line through
their centres only, and does the same whichever of them is named first. On a table, two balls meet
unless they are one or one of them is not there; the order in which they are named does not matter,
and no other ball takes part. -/
theorem meet?_conserves :
    (∀ first second : Ball ℝ, Ball.Conserves (first, second) (first.exchange second) ∧
      second.exchange first = (first.exchange second).swap) ∧
    ∀ (table : Table ℝ) (a b : BallId), table.meet? a b = table.meet? b a ∧
      (table.meet? a b = none ↔ a = b ∨ table.balls.length ≤ a ∨ table.balls.length ≤ b) ∧
      ∀ after, table.meet? a b = some after → Met a b table after := by
  refine ⟨fun first second => ⟨Ball.exchange_conserves _ _, Ball.exchange_swap _ _⟩, ?_⟩
  intro table a b
  exact ⟨meet?_comm table a b, meet?_eq_none_iff, fun _ => met_of_meet?⟩

/-- In the duel, whose second ball is named first. -/
theorem meet?_conserves_duel :
    ∃ after, (Simulation.duel : Scene ℝ).table.meet? 1 0 = some after ∧
      Met 1 0 (Simulation.duel : Scene ℝ).table after :=
  ⟨_, rfl, (meet?_conserves.2 _ 1 0).2.2 _ rfl⟩

end Table

end Billiard
