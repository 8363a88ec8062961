import Billiard.Proofs.Corners
import Billiard.Scene.Scatter

/-!
Scattered scenes, whatever numbers are drawn. Of a source it is assumed that what it draws lies in
the range it is asked for, and nothing else: how many numbers are used up depends on what has been
turned down before. `scatter_strewn` says for how many balls there is a scene at all, that the balls
fit in the standard rectangle and keep clear of each other, that nothing is wrong with the scene,
and that a scene of fewer balls from the same source is the beginning of it.
-/

namespace Billiard

/-- A ball of the sizes that are scattered, in a place where they are scattered: there is a unit
between its disc and each side of the standard rectangle. -/
structure Ball.Scattered (ball : Ball ℝ) : Prop where
  large : 4 ≤ ball.radius
  small : ball.radius < 12
  inside : ({ ball with radius := ball.radius + 1 } : Ball ℝ).Within Scene.standardFrame

/-- There is more than a unit between two discs. -/
def Ball.ClearOf (first second : Ball ℝ) : Prop :=
  first.radius + second.radius + 1 < first.position.dist second.position

theorem Vec.dist_comm (p q : Vec ℝ) : p.dist q = q.dist p := by
  simp only [Vec.dist, Vec.norm_eq, Vec.sub_eq]
  congr 1
  ring

namespace Scene

variable {G : Type}

/-- What is drawn lies in the range that is asked for. -/
def Draw.Ranged (draw : Draw ℝ G) : Prop :=
  ∀ source low high, low < high → low ≤ (draw source low high).1 ∧ (draw source low high).1 < high

/-- Each ball has its size and its place, and keeps clear of the others. -/
structure Strewn (balls : List (Ball ℝ)) : Prop where
  scattered : ∀ ball ∈ balls, ball.Scattered
  clear : balls.Pairwise Ball.ClearOf

section

variable {draw : Draw ℝ G}

theorem Draw.Ranged.of_eq (ranged : draw.Ranged) {source rest : G} {low high value : ℝ}
    (drawn : draw source low high = (value, rest)) (ordered : low < high) :
    low ≤ value ∧ value < high := by
  have bounds := ranged source low high ordered
  rwa [drawn] at bounds

/-- A disc is drawn where it fits: a radius below twelve leaves room in the rectangle. -/
theorem scattered_of_drawDisc (ranged : draw.Ranged) {source rest : G} {centre : Vec ℝ} {radius : ℝ}
    (drawn : drawDisc draw source = ((centre, radius), rest)) (velocity : Vec ℝ) :
    Ball.Scattered ⟨centre, velocity, radius⟩ := by
  rcases first : draw source 4.0 12.0 with ⟨size, source₁⟩
  rcases second : draw source₁ (100.0 + size + 1.0) (100.0 + 200.0 - size - 1.0) with ⟨x, source₂⟩
  rcases third : draw source₂ (100.0 + size + 1.0) (100.0 + 200.0 - size - 1.0) with ⟨y, source₃⟩
  have disc : drawDisc draw source = ((⟨x, y⟩, size), source₃) := by
    simp only [drawDisc, standardFrame, first, second, third]
  rw [disc] at drawn
  cases drawn
  obtain ⟨large, small⟩ := ranged.of_eq first (by norm_num)
  norm_num at large small
  have ordered : (100.0 + radius + 1.0 : ℝ) < 100.0 + 200.0 - radius - 1.0 := by
    norm_num
    linarith
  obtain ⟨left, right⟩ := ranged.of_eq second ordered
  obtain ⟨top, bottom⟩ := ranged.of_eq third ordered
  norm_num at left right top bottom
  refine ⟨large, small, ?_⟩
  constructor <;> norm_num [standardFrame] <;> linarith

/-- A ball that is placed is scattered like the others, and clear of them. -/
theorem of_drawBall?_eq_some (ranged : draw.Ranged) {balls : List (Ball ℝ)} {tries : Nat}
    {source rest : G} {ball : Ball ℝ}
    (drawn : drawBall? draw balls tries source = (some ball, rest)) :
    ball.Scattered ∧ ∀ other ∈ balls, other.ClearOf ball := by
  induction tries generalizing source with
  | zero => simp [drawBall?] at drawn
  | succ tries ih =>
    rcases disc : drawDisc draw source with ⟨⟨centre, radius⟩, behind⟩
    rw [drawBall?, disc] at drawn
    dsimp only at drawn
    split at drawn
    · exact ih drawn
    · rename_i free
      obtain ⟨rfl, -⟩ : _ = ball ∧ _ = rest := by simpa using drawn
      refine ⟨scattered_of_drawDisc ranged disc _, fun other placed => ?_⟩
      have apart : ¬crowds centre radius other := fun near =>
        free (List.any_eq_true.2 ⟨other, placed, near⟩)
      have one : (1.0 : ℝ) = 1 := by norm_num
      rw [crowds, decide_eq_true_iff, not_le, Vec.dist_comm, one] at apart
      exact apart

theorem Strewn.concat {balls : List (Ball ℝ)} {ball : Ball ℝ} (strewn : Strewn balls)
    (scattered : ball.Scattered) (clear : ∀ other ∈ balls, other.ClearOf ball) :
    Strewn (balls ++ [ball]) := by
  constructor
  · intro other placed
    rcases List.mem_append.1 placed with earlier | last
    · exact strewn.scattered other earlier
    · exact List.mem_singleton.1 last ▸ scattered
  · refine List.pairwise_append.2 ⟨strewn.clear, List.pairwise_singleton _ _, ?_⟩
    intro other placed last same
    exact List.mem_singleton.1 same ▸ clear other placed

/-- Balls are added one by one, each of them clear of all that are there. -/
theorem strewn_scatterOnto (ranged : draw.Ranged) {balls : List (Ball ℝ)} (strewn : Strewn balls)
    (count : Nat) (source : G) : Strewn (scatterOnto draw balls count source) := by
  induction count generalizing balls source with
  | zero => exact strewn
  | succ count ih =>
    rw [scatterOnto]
    split
    · exact ih strewn _
    · rename_i ball rest drawn
      obtain ⟨scattered, clear⟩ := of_drawBall?_eq_some ranged drawn
      exact ih (strewn.concat scattered clear) _

end

section

variable {K : Type} [Scalar K] (draw : Draw K G)

theorem length_scatterOnto_le (balls : List (Ball K)) (count : Nat) (source : G) :
    (scatterOnto draw balls count source).length ≤ balls.length + count := by
  induction count generalizing balls source with
  | zero => exact le_rfl
  | succ count ih =>
    rw [scatterOnto]
    split
    · exact (ih balls _).trans (by omega)
    · rename_i ball rest drawn
      have longer := ih (balls ++ [ball]) rest
      rw [List.length_append, List.length_singleton] at longer
      omega

theorem scatterOnto_extends (balls : List (Ball K)) (count : Nat) (source : G) :
    balls <+: scatterOnto draw balls count source := by
  induction count generalizing balls source with
  | zero => exact List.prefix_rfl
  | succ count ih =>
    rw [scatterOnto]
    split
    · exact ih balls _
    · rename_i ball rest drawn
      exact (List.prefix_append balls [ball]).trans (ih _ rest)

/-- More balls from the same source begin with the same balls: a turn that leaves its ball out uses
up the same numbers in both. -/
theorem scatterOnto_prefix_of_le (balls : List (Ball K)) {fewer count : Nat}
    (within : fewer ≤ count) (source : G) :
    scatterOnto draw balls fewer source <+: scatterOnto draw balls count source := by
  induction fewer generalizing balls count source with
  | zero => exact scatterOnto_extends draw balls count source
  | succ fewer ih =>
    obtain ⟨count, rfl⟩ := Nat.exists_eq_add_of_lt (Nat.lt_of_succ_le within)
    rw [scatterOnto, scatterOnto]
    split
    · exact ih balls (by omega) _
    · exact ih _ (by omega) _

/-- There is a scene if there is room for as many balls as are asked for. -/
theorem isSome_scatter (count : Nat) (source : G) :
    (scatter draw count source).isSome ↔ count ≤ room := by
  rw [scatter]
  split <;> simp_all

/-- It is the standard scene with the balls that have been added to none. -/
theorem of_scatter_eq_some {count : Nat} {source : G} {scene : Scene K} {notes : List (Note K)}
    (scattered : scatter draw count source = some (scene, notes)) :
    count ≤ room ∧ scene = { (standard : Scene K) with
      table := { (standard : Scene K).table with balls := scatterOnto draw [] count source } } := by
  obtain ⟨fits, made⟩ := Option.ite_none_left_eq_some.1 scattered
  rw [Option.some.injEq, Prod.mk.injEq] at made
  exact ⟨not_lt.1 fits, made.1.symm⟩

end

theorem le_room_iff {count : Nat} : count ≤ room ↔ 40 * count < 2 ^ 63 := by
  rw [room, Nat.pow_eq, ballBytes, Nat.le_div_iff_mul_le (by decide)]
  omega

/-- Nothing is wrong with the standard scene if its balls are replaced by scattered ones. -/
theorem check_of_strewn {balls : List (Ball ℝ)} (strewn : Strewn balls) :
    ({ (standard : Scene ℝ) with table := { (standard : Scene ℝ).table with balls := balls } } :
      Scene ℝ).check = .ok () := by
  have sound : ({ (standard : Scene ℝ) with
      table := { (standard : Scene ℝ).table with balls := balls } } : Scene ℝ).fault? = none := by
    have moving : some standardInterval ≠ some 0 := by decide
    refine fault?_eq_none_iff_sound.2 ⟨moving, fun _ => Simulation.standard_wall_sound, ?_⟩
    intro ball placed
    exact lt_of_lt_of_le (by norm_num) (strewn.scattered ball placed).large
  rw [check, sound]

end Scene

namespace Pcg

/-- How far into a range the next 64 bits lead: 52 of them count. -/
noncomputable def share (pcg : Pcg) : ℝ := (pcg.next64.1 >>> 12).toNat / (2 ^ 52 : ℕ)

/-- A number from a range by the next 64 bits. -/
noncomputable def exactRange (pcg : Pcg) (low high : ℝ) : ℝ × Pcg :=
  (pcg.share * (high - low) + low, pcg.next64.2)

theorem share_nonneg (pcg : Pcg) : 0 ≤ pcg.share := by
  unfold share
  positivity

theorem share_lt_one (pcg : Pcg) : pcg.share < 1 := by
  have few : (pcg.next64.1 >>> 12).toNat < 2 ^ 52 := by
    have bound := pcg.next64.1.toNat_lt
    rw [UInt64.toNat_shiftRight, Nat.shiftRight_eq_div_pow]
    exact Nat.div_lt_of_lt_mul (by simpa using bound)
  exact (div_lt_one (by positivity)).2 (by exact_mod_cast few)

theorem ranged_exactRange : Scene.Draw.Ranged exactRange := by
  intro pcg low high ordered
  have width : 0 < high - low := sub_pos.2 ordered
  have above := mul_nonneg pcg.share_nonneg width.le
  have below := mul_lt_of_lt_one_left width pcg.share_lt_one
  constructor
  · change low ≤ pcg.share * (high - low) + low
    linarith
  · change pcg.share * (high - low) + low < high
    linarith

/-- Where 52 bits lie, their share lies. -/
theorem share_mem (pcg : Pcg) (low high : ℕ) (above : low ≤ (pcg.next64.1 >>> 12).toNat)
    (below : (pcg.next64.1 >>> 12).toNat ≤ high) :
    low / (2 ^ 52 : ℕ) ≤ pcg.share ∧ pcg.share ≤ high / (2 ^ 52 : ℕ) := by
  constructor
  · exact div_le_div_of_nonneg_right (by exact_mod_cast above) (by positivity)
  · exact div_le_div_of_nonneg_right (by exact_mod_cast below) (by positivity)

/-- The generator when so many numbers have been drawn. -/
def skip (pcg : Pcg) : Nat → Pcg
  | 0 => pcg
  | count + 1 => (pcg.skip count).next64.2

/-- The radius of the disc that is drawn next. -/
noncomputable def radius (pcg : Pcg) : ℝ := pcg.share * (12.0 - 4.0) + 4.0

/-- How far to the right it is. -/
noncomputable def abscissa (pcg : Pcg) : ℝ :=
  (pcg.skip 1).share * (100.0 + 200.0 - pcg.radius - 1.0 - (100.0 + pcg.radius + 1.0)) +
    (100.0 + pcg.radius + 1.0)

theorem exists_drawDisc (pcg : Pcg) : ∃ y,
    Scene.drawDisc exactRange pcg = ((⟨pcg.abscissa, y⟩, pcg.radius), pcg.skip 3) := ⟨_, rfl⟩

theorem radius_mem (pcg : Pcg) : 4 ≤ pcg.radius ∧ pcg.radius < 12 := by
  have above := pcg.share_nonneg
  have below := pcg.share_lt_one
  unfold radius
  norm_num
  constructor <;> linarith

/-- The share tells where the disc is, up to its radius. -/
theorem abscissa_near (pcg : Pcg) :
    |pcg.abscissa - (101 + 198 * (pcg.skip 1).share)| ≤ 12 := by
  obtain ⟨large, small⟩ := pcg.radius_mem
  have above := (pcg.skip 1).share_nonneg
  have below := (pcg.skip 1).share_lt_one
  have moved : pcg.abscissa - (101 + 198 * (pcg.skip 1).share) =
      pcg.radius * (1 - 2 * (pcg.skip 1).share) := by
    unfold abscissa
    norm_num
    ring
  rw [moved, abs_le]
  constructor <;> nlinarith

/-- A disc that is drawn far from all balls becomes a ball. -/
theorem exists_drawBall? (pcg : Pcg) (balls : List (Ball ℝ))
    (far : ∀ other ∈ balls, other.radius < 12 ∧ 25 ≤ |pcg.abscissa - other.position.x|) :
    ∃ ball, Scene.drawBall? exactRange balls Scene.tries pcg = (some ball, pcg.skip 5) ∧
      ball.radius < 12 ∧ ball.position.x = pcg.abscissa := by
  obtain ⟨y, disc⟩ := pcg.exists_drawDisc
  have free : balls.any (Scene.crowds ⟨pcg.abscissa, y⟩ pcg.radius) = false := by
    refine List.any_eq_false.2 fun other placed => ?_
    obtain ⟨small, apart⟩ := far other placed
    have wide : |pcg.abscissa - other.position.x| ≤
        (⟨pcg.abscissa, y⟩ : Vec ℝ).dist other.position := by
      rw [Vec.dist, Vec.norm_eq, abs_sub_comm]
      apply Real.abs_le_sqrt
      simp only [Vec.sub_eq]
      nlinarith [sq_nonneg (other.position.y - y)]
    rw [Scene.crowds, decide_eq_true_iff, not_le]
    have below := pcg.radius_mem.2
    norm_num
    linarith
  refine ⟨⟨⟨pcg.abscissa, y⟩, (Scene.drawVelocity exactRange (pcg.skip 3)).1, pcg.radius⟩, ?_,
    pcg.radius_mem.2, rfl⟩
  change Scene.drawBall? exactRange balls (99 + 1) pcg = _
  rw [Scene.drawBall?, disc]
  dsimp only
  rw [if_neg (by simp [free])]
  rfl

/-- The second number that is drawn for each of the first three balls: they lie far apart. -/
theorem shares_seeded : ((ofSeed 171).skip 1).share ≤ 1 / 8 ∧
    |(((ofSeed 171).skip 5).skip 1).share - 1 / 2| ≤ 1 / 16 ∧
    7 / 8 ≤ (((ofSeed 171).skip 10).skip 1).share := by
  have left := share_mem ((ofSeed 171).skip 1) 0 (2 ^ 49) (by decide +kernel) (by decide +kernel)
  have middle := share_mem (((ofSeed 171).skip 5).skip 1) (7 * 2 ^ 48) (9 * 2 ^ 48)
    (by decide +kernel) (by decide +kernel)
  have right := share_mem (((ofSeed 171).skip 10).skip 1) (7 * 2 ^ 49) (2 ^ 52)
    (by decide +kernel) (by decide +kernel)
  norm_num at left middle right
  rw [abs_le]
  refine ⟨by linarith, ⟨by linarith, by linarith⟩, by linarith⟩

/-- So they become balls. -/
theorem length_seeded :
    (Scene.scatterOnto exactRange [] 3 (ofSeed 171)).length = 3 ∧
      (Scene.scatterOnto exactRange [] 2 (ofSeed 171)).length = 2 := by
  obtain ⟨left, middle, right⟩ := shares_seeded
  obtain ⟨middle, middle'⟩ := abs_le.1 middle
  obtain ⟨near₁, near₁'⟩ := abs_le.1 (ofSeed 171).abscissa_near
  obtain ⟨near₂, near₂'⟩ := abs_le.1 ((ofSeed 171).skip 5).abscissa_near
  obtain ⟨near₃, near₃'⟩ := abs_le.1 ((ofSeed 171).skip 10).abscissa_near
  obtain ⟨one, drawn₁, small₁, at₁⟩ := (ofSeed 171).exists_drawBall? [] (by simp)
  obtain ⟨two, drawn₂, small₂, at₂⟩ :=
    ((ofSeed 171).skip 5).exists_drawBall? [one] (by
      intro other member
      obtain rfl := List.mem_singleton.1 member
      exact ⟨small₁, le_abs.2 (.inl (by linarith))⟩)
  obtain ⟨three, drawn₃, small₃, at₃⟩ :=
    ((ofSeed 171).skip 10).exists_drawBall? [one, two] (by
      intro other member
      rcases List.mem_pair.1 member with rfl | rfl
      · exact ⟨small₁, le_abs.2 (.inl (by linarith))⟩
      · exact ⟨small₂, le_abs.2 (.inl (by linarith))⟩)
  change Scene.drawBall? exactRange [one] Scene.tries _ = (_, (ofSeed 171).skip 10) at drawn₂
  constructor
  · simp only [Scene.scatterOnto, drawn₁, drawn₂, drawn₃, List.nil_append, List.cons_append,
      List.length_cons, List.length_nil]
  · simp only [Scene.scatterOnto, drawn₁, drawn₂, List.nil_append, List.cons_append,
      List.length_cons, List.length_nil]

end Pcg

namespace Scene

/-- There is a scene of as many balls as forty bytes each can be counted for. It is the standard
scene but for its balls. There are at most as many as are asked for, each in its place and clear of
the others, nothing is wrong with the scene, and a scene of fewer balls from the same source holds
the first of them. -/
theorem scatter_strewn {G : Type} {draw : Draw ℝ G} (ranged : draw.Ranged) (count : Nat)
    (source : G) :
    ((scatter draw count source).isSome ↔ 40 * count < 2 ^ 63) ∧
      ∀ scene notes, scatter draw count source = some (scene, notes) →
        scene.table.balls.length ≤ count ∧ Strewn scene.table.balls ∧ scene.check = .ok () ∧
          scene = { (standard : Scene ℝ) with
            table := { (standard : Scene ℝ).table with balls := scene.table.balls } } ∧
          ∀ fewer ≤ count, ∃ smaller less, scatter draw fewer source = some (smaller, less) ∧
            smaller.table.balls <+: scene.table.balls := by
  have strewn : Strewn (scatterOnto draw [] count source) :=
    strewn_scatterOnto ranged ⟨by simp, .nil⟩ count source
  refine ⟨(isSome_scatter draw count source).trans le_room_iff, fun scene notes scattered => ?_⟩
  obtain ⟨fits, rfl⟩ := of_scatter_eq_some draw scattered
  refine ⟨?_, strewn, check_of_strewn strewn, rfl, fun fewer within => ?_⟩
  · exact (length_scatterOnto_le draw [] count source).trans_eq (Nat.zero_add count)
  · obtain ⟨⟨smaller, less⟩, found⟩ := Option.isSome_iff_exists.1
      ((isSome_scatter draw fewer source).2 (within.trans fits))
    obtain ⟨-, rfl⟩ := of_scatter_eq_some draw found
    exact ⟨_, less, found, scatterOnto_prefix_of_le draw [] within source⟩

/-- Three balls from the generator of a seed, and the first two of them. -/
theorem scatter_strewn_seeded :
    ∃ (scene smaller : Scene ℝ) (notes less : List (Note ℝ)),
      Draw.Ranged Pcg.exactRange ∧
      scatter Pcg.exactRange 3 (Pcg.ofSeed 171) = some (scene, notes) ∧
      scene.table.balls.length = 3 ∧ Strewn scene.table.balls ∧ scene.check = .ok () ∧
      scatter Pcg.exactRange 2 (Pcg.ofSeed 171) = some (smaller, less) ∧
      smaller.table.balls.length = 2 ∧ smaller.table.balls <+: scene.table.balls := by
  obtain ⟨isSome_iff, spread⟩ := scatter_strewn Pcg.ranged_exactRange 3 (Pcg.ofSeed 171)
  obtain ⟨⟨scene, notes⟩, made⟩ := Option.isSome_iff_exists.1 (isSome_iff.2 (by norm_num))
  obtain ⟨_, strewn, fine, _, begins⟩ := spread scene notes made
  obtain ⟨smaller, less, made', isPrefix⟩ := begins 2 (by decide)
  obtain ⟨three, two⟩ := Pcg.length_seeded
  refine ⟨scene, smaller, notes, less, Pcg.ranged_exactRange, made, ?_, strewn, fine, made', ?_,
    isPrefix⟩
  · obtain ⟨-, rfl⟩ := of_scatter_eq_some _ made
    exact three
  · obtain ⟨-, rfl⟩ := of_scatter_eq_some _ made'
    exact two

/-- There is no scene of as many balls as 64 bits can count. -/
theorem scatter_without_room : Draw.Ranged Pcg.exactRange ∧
    scatter Pcg.exactRange 18446744073709551615 (Pcg.ofSeed 11) = none :=
  ⟨Pcg.ranged_exactRange, if_pos (by decide)⟩

end Scene

end Billiard
