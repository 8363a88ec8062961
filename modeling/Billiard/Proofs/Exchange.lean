import Mathlib.Analysis.InnerProductSpace.PiL2
import Mathlib.Analysis.InnerProductSpace.Projection.Reflection
import Mathlib.Topology.Algebra.InfiniteSum.Real
import Billiard.Proofs.Exact

/-!
Balls that stay where they are exchange momentum only finitely often. In velocities weighted by
the radii, an exchange is a reflection that keeps the energy and drives the balls apart: it raises
the product with the positions, for which every normal points the other way. So the steps have a
finite sum, and whatever reflects for ever would reflect at the limit, which every late reflection
leaves where it is.
-/

namespace Billiard

open Filter Topology

section Reflection

variable {E : Type*} [NormedAddCommGroup E] [InnerProductSpace ℝ E] {u y normal : E}
  {normals : Set E} {x : ℕ → E}

/-- The mirror image in the hyperplane across `normal`. -/
noncomputable def across (normal : E) : E ≃ₗᵢ[ℝ] E := (ℝ ∙ normal)ᗮ.reflection

theorem across_apply (normal y : E) :
    across normal y = y - (2 * inner ℝ normal y / ‖normal‖ ^ 2) • normal := by
  rw [across, Submodule.reflection_orthogonal_apply, Submodule.reflection_singleton_apply]
  simp only [neg_sub, two_smul, ← add_smul, RCLike.ofReal_real_eq_id, id_eq]
  ring_nf

theorem inner_across (normal y : E) : inner ℝ (across normal y) normal = -inner ℝ y normal := by
  have back : across normal normal = -normal :=
    Submodule.reflection_orthogonalComplement_singleton_eq_neg normal
  rw [← (across normal).inner_map_map y normal, back, inner_neg_right, neg_neg]

/-- Each step is none at all, or a reflection of something that moves along a normal. -/
def Reflects (normals : Set E) (x : ℕ → E) : Prop :=
  ∀ k, x (k + 1) = x k ∨
    ∃ normal ∈ normals, 0 < inner ℝ (x k) normal ∧ x (k + 1) = across normal (x k)

private theorem Reflects.norm_eq (reflects : Reflects normals x) (k : ℕ) : ‖x k‖ = ‖x 0‖ := by
  induction k with
  | zero => rfl
  | succ k ih =>
    rcases reflects k with same | ⟨normal, _, _, same⟩
    · rw [same, ih]
    · rw [same, LinearIsometryEquiv.norm_map, ih]

private theorem exists_slope (finite : normals.Finite)
    (away : ∀ normal ∈ normals, inner ℝ u normal < 0) :
    ∃ slope > 0, ∀ normal ∈ normals, slope * ‖normal‖ ≤ -inner ℝ u normal := by
  have proper (normal : E) (member : normal ∈ normals) : 0 < ‖normal‖ := by
    rw [norm_pos_iff]
    rintro rfl
    simpa using away _ member
  rcases normals.eq_empty_or_nonempty with rfl | nonempty
  · exact ⟨1, one_pos, fun _ member => member.elim⟩
  · obtain ⟨least, member, le⟩ := Set.exists_min_image normals
      (fun normal => -inner ℝ u normal / ‖normal‖) finite nonempty
    refine ⟨_, div_pos (neg_pos.2 (away least member)) (proper least member), ?_⟩
    intro normal member
    exact (le_div_iff₀ (proper normal member)).1 (le normal member)

/-- Every step raises the product with `u` at least in proportion to its length. -/
private theorem Reflects.dist_le {slope : ℝ} (reflects : Reflects normals x)
    (away : ∀ normal ∈ normals, slope * ‖normal‖ ≤ -inner ℝ u normal) (k : ℕ) :
    slope * dist (x k) (x (k + 1)) ≤ inner ℝ u (x (k + 1)) - inner ℝ u (x k) := by
  rcases reflects k with same | ⟨normal, member, along, same⟩
  · simp [same]
  · rw [same, across_apply, dist_self_sub_right, norm_smul, inner_sub_right, inner_smul_right,
      real_inner_comm]
    have factor : 0 ≤ 2 * inner ℝ (x k) normal / ‖normal‖ ^ 2 := by positivity
    rw [Real.norm_of_nonneg factor]
    calc slope * (2 * inner ℝ (x k) normal / ‖normal‖ ^ 2 * ‖normal‖)
        = 2 * inner ℝ (x k) normal / ‖normal‖ ^ 2 * (slope * ‖normal‖) := by ring
      _ ≤ 2 * inner ℝ (x k) normal / ‖normal‖ ^ 2 * -inner ℝ u normal :=
        mul_le_mul_of_nonneg_left (away normal member) factor
      _ = _ := by ring

private theorem Reflects.exists_limit [CompleteSpace E] (reflects : Reflects normals x)
    (finite : normals.Finite) (away : ∀ normal ∈ normals, inner ℝ u normal < 0) :
    ∃ limit, Tendsto x atTop (𝓝 limit) := by
  obtain ⟨slope, positive, least⟩ := exists_slope finite away
  have bounded (k : ℕ) : |inner ℝ u (x k)| ≤ ‖u‖ * ‖x 0‖ :=
    reflects.norm_eq k ▸ abs_real_inner_le_norm u (x k)
  have sums (n : ℕ) : ∑ k ∈ Finset.range n, dist (x k) (x (k + 1)) ≤
      2 * (‖u‖ * ‖x 0‖) / slope := by
    rw [le_div_iff₀' positive, Finset.mul_sum]
    calc ∑ k ∈ Finset.range n, slope * dist (x k) (x (k + 1))
        ≤ ∑ k ∈ Finset.range n, (inner ℝ u (x (k + 1)) - inner ℝ u (x k)) :=
          Finset.sum_le_sum fun k _ => reflects.dist_le least k
      _ = inner ℝ u (x n) - inner ℝ u (x 0) :=
          Finset.sum_range_sub (fun k => inner ℝ u (x k)) n
      _ ≤ 2 * (‖u‖ * ‖x 0‖) := by
          have last := abs_le.1 (bounded n)
          have first := abs_le.1 (bounded 0)
          linarith [last.2, first.1]
  exact cauchySeq_tendsto_of_complete
    (cauchySeq_of_summable_dist (summable_of_sum_range_le (fun _ => dist_nonneg) sums))

/-- Reflections in finitely many hyperplanes, all on one side of which `u` lies, come to an end. -/
theorem Reflects.eventually_still [CompleteSpace E] (reflects : Reflects normals x)
    (finite : normals.Finite) (away : ∀ normal ∈ normals, inner ℝ u normal < 0) :
    ∃ last, ∀ k ≥ last, x (k + 1) = x k := by
  obtain ⟨limit, tends⟩ := reflects.exists_limit finite away
  have signs : ∀ᶠ k in atTop, ∀ normal ∈ normals, inner ℝ limit normal ≠ 0 →
      0 < inner ℝ (x k) normal * inner ℝ limit normal := by
    apply (eventually_all_finite finite).2
    intro normal _
    by_cases flat : inner ℝ limit normal = 0
    · exact .of_forall fun _ steep => absurd flat steep
    · have square : Tendsto (fun k => inner ℝ (x k) normal * inner ℝ limit normal) atTop
          (𝓝 (inner ℝ limit normal * inner ℝ limit normal)) :=
        (tends.inner tendsto_const_nhds).mul_const _
      filter_upwards [square.eventually (lt_mem_nhds (mul_self_pos.2 flat))] with k positive _
      exact positive
  obtain ⟨last, late⟩ := eventually_atTop.1 signs
  have fixed (k : ℕ) (ge : k ≥ last) : ‖x (k + 1) - limit‖ = ‖x k - limit‖ := by
    rcases reflects k with same | ⟨normal, member, along, same⟩
    · rw [same]
    · have flat : inner ℝ limit normal = 0 := by
        by_contra steep
        have before := late k ge normal member steep
        have after := late (k + 1) (Nat.le_succ_of_le ge) normal member steep
        rw [same, inner_across] at after
        linarith
      have still : across normal limit = limit := by
        rw [across_apply, real_inner_comm, flat]
        simp
      rw [same, ← still, ← map_sub, LinearIsometryEquiv.norm_map, still]
  have constant (k : ℕ) : ‖x (k + last) - limit‖ = ‖x last - limit‖ := by
    induction k with
    | zero => rw [Nat.zero_add]
    | succ k ih => rw [Nat.add_right_comm, fixed _ (Nat.le_add_left last k), ih]
  have reached : ‖x last - limit‖ = 0 := by
    have shifted := (tendsto_add_atTop_iff_nat last).2 tends
    have vanishes : Tendsto (fun k => ‖x (k + last) - limit‖) atTop (𝓝 0) := by
      simpa using (shifted.sub_const limit).norm
    simp only [constant] at vanishes
    exact tendsto_nhds_unique tendsto_const_nhds vanishes
  have there (k : ℕ) (ge : k ≥ last) : x k = limit := by
    obtain ⟨more, rfl⟩ := Nat.exists_eq_add_of_le' ge
    rw [← sub_eq_zero, ← norm_eq_zero, constant, reached]
  exact ⟨last, fun k ge => by rw [there k ge, there (k + 1) (Nat.le_succ_of_le ge)]⟩

end Reflection

theorem Vec.norm_mul_norm (v : Vec ℝ) : v.norm * v.norm = v.dot v :=
  Real.mul_self_sqrt (add_nonneg (mul_self_nonneg v.x) (mul_self_nonneg v.y))

theorem Vec.sub_dot (u v w : Vec ℝ) : (u - v).dot w = u.dot w - v.dot w := by
  simp only [dot_eq, sub_eq]
  ring

theorem Vec.dot_div (v w : Vec ℝ) (s : ℝ) : v.dot (w / s) = v.dot w / s := by
  simp only [dot_eq, div_eq]
  ring

theorem Vec.dot_unit {v : Vec ℝ} (long : 0 < v.norm) : v.dot (v / v.norm) = v.norm := by
  rw [dot_div, ← norm_mul_norm, mul_div_cancel_right₀ _ long.ne']

theorem Vec.unit_dot_unit {v : Vec ℝ} (long : 0 < v.norm) :
    (v / v.norm).dot (v / v.norm) = 1 := by
  have turned : (v / v.norm).dot v = v.dot (v / v.norm) := by
    simp only [dot_eq]
    ring
  rw [dot_div, turned, dot_unit long, div_self long.ne']

namespace Ball

variable {first second : Ball ℝ} {n : ℕ}

/-- What comes of an exchange: nothing, or balls that approach each other along the line through
their centres push each other back along it. -/
theorem exchange_cases (first second : Ball ℝ) :
    first.exchange second = (first, second) ∨
      ∃ gap axis : Vec ℝ, gap = second.position - first.position ∧ 0 < gap.norm ∧
        axis = gap / gap.norm ∧ 0 < first.mass + second.mass ∧
        0 < (first.velocity - second.velocity).dot axis ∧
        first.exchange second =
          ({ first with velocity := first.velocity - axis * (2 * second.mass /
              (first.mass + second.mass) * (first.velocity - second.velocity).dot axis) },
           { second with velocity := second.velocity + axis * (2 * first.mass /
              (first.mass + second.mass) * (first.velocity - second.velocity).dot axis) }) := by
  have two : (2.0 : ℝ) = 2 := by norm_num
  have zero : (0.0 : ℝ) = 0 := by norm_num
  unfold exchange
  cases direction : (second.position - first.position).unit? with
  | none => exact .inl rfl
  | some axis =>
    obtain ⟨long, same⟩ := Option.ite_none_left_eq_some.1 direction
    have far : 0 < (second.position - first.position).norm := by
      refine lt_of_lt_of_le Scalar.negligible_pos (not_lt.1 fun short => long (.inr short))
    simp only [two, zero]
    split
    · exact .inl rfl
    · next closing =>
      split
      · exact .inl rfl
      · next heavy =>
        refine .inr ⟨_, axis, rfl, far, (Option.some.inj same).symm, ?_, not_le.1 closing, rfl⟩
        exact lt_of_lt_of_le Scalar.negligible_pos (not_lt.1 heavy)

/-- A field of vectors, one for each ball, weighted by the radii. -/
noncomputable def weigh (radii : Fin n → ℝ) (field : Fin n → Vec ℝ) :
    EuclideanSpace ℝ (Fin n ⊕ Fin n) :=
  .toLp _ (Sum.elim (fun i => radii i * (field i).x) fun i => radii i * (field i).y)

/-- What balls receive when two of them push each other along `axis`. -/
noncomputable def push (radii : Fin n → ℝ) (a b : Fin n) (axis : Vec ℝ) (i : Fin n) : Vec ℝ :=
  if i = a then axis / (radii a * radii a)
  else if i = b then ⟨0, 0⟩ - axis / (radii b * radii b)
  else ⟨0, 0⟩

variable {radii : Fin n → ℝ} {field other : Fin n → Vec ℝ} {a b : Fin n} {axis : Vec ℝ}

theorem inner_weigh : inner ℝ (weigh radii field) (weigh radii other) =
    ∑ i, radii i * radii i * (field i).dot (other i) := by
  rw [PiLp.inner_apply, Fintype.sum_sum_type, ← Finset.sum_add_distrib]
  apply Finset.sum_congr rfl
  intro i _
  simp only [weigh, Sum.elim_inl, Sum.elim_inr, Vec.dot_eq, RCLike.inner_apply, conj_trivial]
  ring

/-- Against a push, a field counts by how much it brings the two balls together. -/
theorem inner_weigh_push (two : a ≠ b) (sizes : ∀ i, 0 < radii i) :
    inner ℝ (weigh radii field) (weigh radii (push radii a b axis)) =
      (field a).dot axis - (field b).dot axis := by
  rw [inner_weigh, Finset.sum_eq_add a b two]
  · have first := (sizes a).ne'
    have second := (sizes b).ne'
    simp only [push, if_true, if_neg two.symm, Vec.dot_eq, Vec.sub_eq, Vec.div_eq]
    field_simp
    ring
  · rintro i _ ⟨notFirst, notSecond⟩
    simp [push, notFirst, notSecond, Vec.dot_eq]
  · simp
  · simp

theorem norm_weigh_push (two : a ≠ b) (sizes : ∀ i, 0 < radii i) :
    ‖weigh radii (push radii a b axis)‖ ^ 2 =
      axis.dot axis / (radii a * radii a) + axis.dot axis / (radii b * radii b) := by
  rw [← real_inner_self_eq_norm_sq, inner_weigh_push two sizes]
  simp only [push, if_true, if_neg two.symm, Vec.dot_eq, Vec.sub_eq, Vec.div_eq]
  ring

/-- An exchange along a line is a reflection across the push along it. -/
theorem across_push (two : a ≠ b) (sizes : ∀ i, 0 < radii i) (unit : axis.dot axis = 1)
    (first : other a = field a - axis * (2 * (radii b * radii b) /
      (radii a * radii a + radii b * radii b) * ((field a).dot axis - (field b).dot axis)))
    (second : other b = field b + axis * (2 * (radii a * radii a) /
      (radii a * radii a + radii b * radii b) * ((field a).dot axis - (field b).dot axis)))
    (others : ∀ i, i ≠ a → i ≠ b → other i = field i) :
    weigh radii other =
      across (weigh radii (push radii a b axis)) (weigh radii field) := by
  have sizeA := (sizes a).ne'
  have sizeB := (sizes b).ne'
  have both : radii a * radii a + radii b * radii b ≠ 0 :=
    (add_pos (mul_pos (sizes a) (sizes a)) (mul_pos (sizes b) (sizes b))).ne'
  rw [across_apply, norm_weigh_push two sizes, unit, real_inner_comm, inner_weigh_push two sizes]
  generalize (field a).dot axis - (field b).dot axis = closing at first second
  have share : 2 * closing / (1 / (radii a * radii a) + 1 / (radii b * radii b)) =
      2 * closing * (radii a * radii a) * (radii b * radii b) /
        (radii a * radii a + radii b * radii b) := by
    field_simp
    ring
  rw [share]
  have parts (i : Fin n) : other i = field i - push radii a b axis i *
      (2 * closing * (radii a * radii a) * (radii b * radii b) /
        (radii a * radii a + radii b * radii b)) := by
    by_cases isFirst : i = a
    · subst isFirst
      rw [first]
      simp only [push, if_true, Vec.sub_eq, Vec.smul_eq, Vec.div_eq, Vec.mk.injEq]
      constructor <;> field_simp
    · by_cases isSecond : i = b
      · subst isSecond
        rw [second]
        simp only [push, if_true, if_neg isFirst, Vec.sub_eq, Vec.add_eq, Vec.smul_eq, Vec.div_eq,
          Vec.mk.injEq]
        constructor <;> field_simp <;> ring
      · rw [others i isFirst isSecond]
        simp [push, isFirst, isSecond, Vec.sub_eq, Vec.smul_eq]
  ext (i | i)
  · simp only [weigh, parts i, Vec.sub_eq, Vec.smul_eq, PiLp.sub_apply, PiLp.smul_apply,
      smul_eq_mul, Sum.elim_inl]
    ring
  · simp only [weigh, parts i, Vec.sub_eq, Vec.smul_eq, PiLp.sub_apply, PiLp.smul_apply,
      smul_eq_mul, Sum.elim_inr]
    ring

/-- Two of the balls exchange momentum. -/
def Exchanged (before after : Fin n → Ball ℝ) : Prop :=
  ∃ a b, a ≠ b ∧ after = Function.update
    (Function.update before a ((before a).exchange (before b)).1) b
    ((before a).exchange (before b)).2

variable {balls : ℕ → Fin n → Ball ℝ}

private theorem kept_of_steps
    (steps : ∀ k, balls (k + 1) = balls k ∨ Exchanged (balls k) (balls (k + 1))) (k : ℕ)
    (i : Fin n) :
    (balls k i).position = (balls 0 i).position ∧ (balls k i).radius = (balls 0 i).radius := by
  induction k with
  | zero => exact ⟨rfl, rfl⟩
  | succ k ih =>
    rcases steps k with same | ⟨a, b, two, same⟩
    · rw [same]
      exact ih
    · obtain ⟨place, size, place', size'⟩ := exchange_kept (balls k a) (balls k b)
      rw [same]
      by_cases isSecond : i = b
      · subst isSecond
        simpa [place', size'] using ih
      · by_cases isFirst : i = a
        · subst isFirst
          simpa [isSecond, place, size] using ih
        · simpa [isSecond, isFirst] using ih

/-- Of balls that stay where they are, only finitely many exchanges change any. -/
theorem exchanges_end (sizes : ∀ i, 0 < (balls 0 i).radius)
    (steps : ∀ k, balls (k + 1) = balls k ∨ Exchanged (balls k) (balls (k + 1))) :
    ∃ last, ∀ k ≥ last, balls (k + 1) = balls k := by
  have kept := kept_of_steps steps
  let radii (i : Fin n) : ℝ := (balls 0 i).radius
  let places (i : Fin n) : Vec ℝ := (balls 0 i).position
  let normal (pair : Fin n × Fin n) : EuclideanSpace ℝ (Fin n ⊕ Fin n) :=
    let gap := places pair.2 - places pair.1
    weigh radii (push radii pair.1 pair.2 (gap / gap.norm))
  let apart : Set (Fin n × Fin n) :=
    {pair | pair.1 ≠ pair.2 ∧ 0 < (places pair.2 - places pair.1).norm}
  have finite : (normal '' apart).Finite := (Set.toFinite apart).image normal
  have away : ∀ n ∈ normal '' apart, inner ℝ (weigh radii places) n < 0 := by
    rintro _ ⟨⟨a, b⟩, ⟨two, far⟩, rfl⟩
    let axis := (places b - places a) / (places b - places a).norm
    change inner ℝ _ (weigh radii (push radii a b axis)) < 0
    have positive : 0 < (places b - places a).dot axis := by
      rw [Vec.dot_unit far]
      exact far
    rw [Vec.sub_dot] at positive
    rw [inner_weigh_push two sizes]
    linarith
  have reflects : Reflects (normal '' apart)
      (fun k => weigh radii fun i => (balls k i).velocity) := by
    intro k
    rcases steps k with same | ⟨a, b, two, same⟩
    · left
      simp only [same]
    · rcases exchange_cases (balls k a) (balls k b) with
        nothing | ⟨gap, axis, apart, far, rfl, _, closing, pushed⟩
      · left
        simp [same, nothing]
      · right
        rw [(kept k a).1, (kept k b).1] at apart
        subst apart
        refine ⟨_, ⟨(a, b), ⟨two, far⟩, rfl⟩, ?_, ?_⟩
        · rw [inner_weigh_push two sizes, ← Vec.sub_dot]
          exact closing
        · apply across_push two sizes (Vec.unit_dot_unit far)
          · simp only [same, Function.update_of_ne two, Function.update_self, pushed, mass,
              Vec.sub_dot, (kept k a).2, (kept k b).2]
          · simp only [same, Function.update_self, pushed, mass, Vec.sub_dot, (kept k a).2,
              (kept k b).2]
          · intro i notA notB
            simp [same, notA, notB]
  obtain ⟨last, still⟩ := reflects.eventually_still finite away
  refine ⟨last, ?_⟩
  intro k ge
  funext i
  have here := still k ge
  have alongX : radii i * (balls (k + 1) i).velocity.x = radii i * (balls k i).velocity.x :=
    congrArg (fun v : EuclideanSpace ℝ (Fin n ⊕ Fin n) => v (.inl i)) here
  have alongY : radii i * (balls (k + 1) i).velocity.y = radii i * (balls k i).velocity.y :=
    congrArg (fun v : EuclideanSpace ℝ (Fin n ⊕ Fin n) => v (.inr i)) here
  have place := (kept (k + 1) i).1.trans (kept k i).1.symm
  have size := (kept (k + 1) i).2.trans (kept k i).2.symm
  have velocity : (balls (k + 1) i).velocity = (balls k i).velocity :=
    Vec.eq_of_parts (mul_left_cancel₀ (sizes i).ne' alongX) (mul_left_cancel₀ (sizes i).ne' alongY)
  calc balls (k + 1) i
      = ⟨(balls (k + 1) i).position, (balls (k + 1) i).velocity, (balls (k + 1) i).radius⟩ := rfl
    _ = balls k i := by rw [place, velocity, size]

end Ball

end Billiard
