import Billiard.Decimal.Shortest
import Billiard.Proofs.Binary

/-!
What is known of the shortest digits of a machine number. They are a point of their grid that rounds
to the number, or there are more than fifteen of them (`holds_or_le_shortest`).
-/

namespace Billiard.Decimal

theorem zpow_eq_div {base : ℚ} (nonzero : base ≠ 0) (z : Int) :
    base ^ z = base ^ z.toNat / base ^ (-z).toNat := by
  rw [← zpow_natCast, ← zpow_natCast, ← zpow_sub₀ nonzero]
  congr 1
  omega

/-- A power of ten that is not above a power of two, by three decimal places for ten binary ones. -/
theorem ten_pow_le_two_pow {tens twos : Nat} (fewer : 10 * tens ≤ 3 * twos) :
    10 ^ tens ≤ 2 ^ twos := by
  apply (Nat.pow_le_pow_iff_left (by decide : 3 ≠ 0)).1
  calc (10 ^ tens) ^ 3 = (10 ^ 3) ^ tens := by rw [← Nat.pow_mul, ← Nat.pow_mul, Nat.mul_comm]
    _ ≤ (2 ^ 10) ^ tens := Nat.pow_le_pow_left (by decide) tens
    _ = 2 ^ (10 * tens) := (Nat.pow_mul 2 10 tens).symm
    _ ≤ 2 ^ (3 * twos) := Nat.pow_le_pow_right (by decide) fewer
    _ = (2 ^ twos) ^ 3 := by rw [← Nat.pow_mul, Nat.mul_comm]

/-- A power of two that is not above a power of ten, by ninety-three binary places for twenty-eight
decimal ones. -/
theorem two_pow_le_ten_pow {twos tens : Nat} (fewer : 28 * twos ≤ 93 * tens) :
    2 ^ twos ≤ 10 ^ tens := by
  apply (Nat.pow_le_pow_iff_left (by decide : 93 ≠ 0)).1
  calc (2 ^ twos) ^ 93 = (2 ^ 93) ^ twos := by rw [← Nat.pow_mul, ← Nat.pow_mul, Nat.mul_comm]
    _ ≤ (10 ^ 28) ^ twos := Nat.pow_le_pow_left (by decide) twos
    _ = 10 ^ (28 * twos) := (Nat.pow_mul 10 28 twos).symm
    _ ≤ 10 ^ (93 * tens) := Nat.pow_le_pow_right (by decide) fewer
    _ = (10 ^ tens) ^ 93 := by rw [← Nat.pow_mul, Nat.mul_comm]

/-- Twenty-one grids below a power of ten above the number, its steps are far smaller. -/
theorem two_pow_mul_ten_zpow_le {twos grid : Int} (least : -1074 ≤ twos) (most : twos ≤ 1023)
    (last : grid = twos * 30103 / 100000 + 2 - 21) : (2 : ℚ) ^ 53 * 10 ^ grid ≤ 2 ^ twos := by
  rcases le_total 0 grid with up | down
  · obtain ⟨tens, rfl⟩ := Int.eq_ofNat_of_zero_le up
    obtain ⟨more, rfl⟩ : ∃ more : Nat, twos = (53 + more : Nat) := ⟨(twos - 53).toNat, by omega⟩
    have tens : 10 ^ tens ≤ 2 ^ more := ten_pow_le_two_pow (by omega)
    rw [zpow_natCast, zpow_natCast, pow_add]
    exact mul_le_mul_of_nonneg_left (by exact_mod_cast tens) (by positivity)
  · obtain ⟨tens, rfl⟩ : ∃ tens : Nat, grid = -tens := ⟨(-grid).toNat, by omega⟩
    have twos' : (2 : ℚ) ^ (53 - twos) ≤ 10 ^ tens := by
      have nat : 2 ^ (53 - twos).toNat ≤ 10 ^ tens := two_pow_le_ten_pow (by omega)
      calc (2 : ℚ) ^ (53 - twos) ≤ 2 ^ ((53 - twos).toNat : Int) :=
            zpow_le_zpow_right₀ (by norm_num) (by omega)
        _ ≤ 10 ^ tens := by rw [zpow_natCast]; exact_mod_cast nat
    rw [zpow_sub₀ (by norm_num), div_le_iff₀ (by positivity)] at twos'
    rw [zpow_neg, zpow_natCast, ← div_eq_mul_inv, div_le_iff₀ (by positivity)]
    have cast : (2 : ℚ) ^ (53 : Int) = 2 ^ 53 := zpow_natCast 2 53
    linarith

namespace Interval

variable {tie : Tie} {interval : Interval} {grid : Int} {point : Nat}

/-- Only points that round to the number are picked. -/
theorem holds_of_pick? (picked : interval.pick? tie grid = some point) :
    interval.holds (interval.scale grid) point := by
  unfold pick? at picked
  simp only at picked
  split at picked
  · cases picked
  · next below _ =>
    cases picked
    exact below
  · next _ above =>
    cases picked
    exact above
  · next below above =>
    split at picked
    · cases picked
      exact below
    · cases picked
      exact above
    · split at picked
      · cases picked
        exact above
      · cases picked
        split
        · exact below
        · exact above

/-- The factors of a grid turn quarters and steps to one unit. -/
theorem exists_unit (interval : Interval) (grid : Int) : ∃ unit : ℚ, 0 < unit ∧
    ((interval.scale grid).1 : ℚ) = 2 ^ interval.exponent * unit ∧
      ((interval.scale grid).2 : ℚ) = 10 ^ grid * unit := by
  refine ⟨2 ^ (-interval.exponent).toNat * 10 ^ (-grid).toNat, by positivity, ?_, ?_⟩
  · rw [zpow_eq_div (by norm_num) interval.exponent, scale]
    simp only [Nat.pow_eq]
    push_cast
    field_simp
  · rw [zpow_eq_div (by norm_num) grid, scale]
    simp only [Nat.pow_eq]
    push_cast
    field_simp

/-- What rounds to a number lies within its interval, and on an end only if the ends belong to the
interval. -/
theorem holds_iff : interval.holds (interval.scale grid) point ↔
    (interval.low : ℚ) * 2 ^ interval.exponent ≤ point * 10 ^ grid ∧
      (point : ℚ) * 10 ^ grid ≤ interval.high * 2 ^ interval.exponent ∧
        ((interval.low : ℚ) * 2 ^ interval.exponent = point * 10 ^ grid ∨
          (point : ℚ) * 10 ^ grid = interval.high * 2 ^ interval.exponent → interval.closed) := by
  obtain ⟨unit, positive, quarters, steps⟩ := interval.exists_unit grid
  have le (a b : ℚ) : a * unit ≤ b * unit ↔ a ≤ b := mul_le_mul_iff_left₀ positive
  have below (bound : Nat) : bound * (interval.scale grid).1 ≤ point * (interval.scale grid).2 ↔
      (bound : ℚ) * 2 ^ interval.exponent ≤ point * 10 ^ grid := by
    rw [← @Nat.cast_le ℚ, Nat.cast_mul, Nat.cast_mul, quarters, steps, ← mul_assoc, ← mul_assoc, le]
  have above (bound : Nat) : point * (interval.scale grid).2 ≤ bound * (interval.scale grid).1 ↔
      (point : ℚ) * 10 ^ grid ≤ bound * 2 ^ interval.exponent := by
    rw [← @Nat.cast_le ℚ, Nat.cast_mul, Nat.cast_mul, quarters, steps, ← mul_assoc, ← mul_assoc, le]
  unfold holds
  by_cases closed : interval.closed
  · simp only [closed, if_true, Bool.and_eq_true, decide_eq_true_eq, below, above, imp_true_iff,
      and_true]
  · simp only [closed, if_false, Bool.and_eq_true, decide_eq_true_eq, ← not_le, below, above,
      imp_false, not_or, Bool.false_eq_true]
    constructor
    · rintro ⟨low, high⟩
      exact ⟨(not_le.1 low).le, (not_le.1 high).le, (not_le.1 low).ne, (not_le.1 high).ne⟩
    · rintro ⟨low, high, notLow, notHigh⟩
      exact ⟨not_le.2 (lt_of_le_of_ne low notLow), not_le.2 (lt_of_le_of_ne high notHigh)⟩

/-- The search ends with a point that rounds to the number, or on its last grid. -/
theorem search_cases (count : Nat) (grid : Int) :
    interval.holds (interval.scale (interval.search tie count grid).exponent)
        (interval.search tie count grid).digits ∨
      interval.search tie count grid =
        ⟨interval.centre * (interval.scale (grid - count)).1 / (interval.scale (grid - count)).2,
          grid - count⟩ := by
  induction count generalizing grid with
  | zero => exact .inr (by simp [search])
  | succ count ih =>
    unfold search
    cases picked : interval.pick? tie grid with
    | some point => exact .inl (holds_of_pick? picked)
    | none =>
      have next : grid - (count + 1 : Nat) = grid - 1 - count := by omega
      rw [next]
      exact ih (grid - 1)

end Interval

/-- On the last grid, a number has more than fifteen digits. -/
theorem le_digits_of_last {value : Binary} {grid : Int} (positive : value.significand ≠ 0)
    (proper : value.Proper) (last : grid = value.gridAbove - gridCount) :
    2 ^ 53 ≤ value.interval.centre * (value.interval.scale grid).1 /
      (value.interval.scale grid).2 := by
  obtain ⟨unit, some, quarters, steps⟩ := value.interval.exists_unit grid
  have most : value.significand.log2 < 53 := (Nat.log2_lt positive).2 proper.bound
  have lowest : -1074 ≤ value.exponent := proper.least
  have greatest := proper.greatest
  have digits : (2 : ℚ) ^ value.significand.log2 ≤ value.significand := by
    exact_mod_cast Nat.log2_self_le positive
  have scale : (2 : ℚ) ^ 53 * 10 ^ grid ≤ 2 ^ (value.significand.log2 + value.exponent) :=
    two_pow_mul_ten_zpow_le (by omega) (by omega) last
  have room : (2 : ℚ) ^ 53 * 10 ^ grid ≤ 4 * value.significand * 2 ^ (value.exponent - 2) :=
    calc (2 : ℚ) ^ 53 * 10 ^ grid ≤ 2 ^ (value.significand.log2 + value.exponent) := scale
      _ = 2 ^ value.significand.log2 * 2 ^ value.exponent := by
          rw [zpow_add₀ (by norm_num), zpow_natCast]
      _ ≤ value.significand * 2 ^ value.exponent :=
          mul_le_mul_of_nonneg_right digits (by positivity)
      _ = 4 * value.significand * 2 ^ (value.exponent - 2) := by
          rw [zpow_sub₀ (by norm_num)]
          norm_num
          ring
  have below : 0 < (value.interval.scale grid).2 := by
    rw [← @Nat.cast_pos ℚ, steps]
    positivity
  rw [Nat.le_div_iff_mul_le below, ← @Nat.cast_le ℚ]
  push_cast
  rw [quarters, steps, ← mul_assoc, ← mul_assoc]
  refine mul_le_mul_of_nonneg_right ?_ some.le
  simp only [Binary.interval]
  push_cast
  exact room

/-- The shortest digits round to the number, or there are more than fifteen of them. -/
theorem holds_or_le_shortest (tie : Tie) {value : Binary} (positive : value.significand ≠ 0)
    (proper : value.Proper) :
    value.interval.holds (value.interval.scale (shortest tie value).exponent)
        (shortest tie value).digits ∨ 2 ^ 53 ≤ (shortest tie value).digits := by
  have some : ¬value.isZero := by simpa [Binary.isZero] using positive
  rw [shortest, if_neg some]
  refine (Interval.search_cases gridCount value.gridAbove).imp_right fun last => ?_
  rw [last]
  exact le_digits_of_last positive proper rfl

theorem digits_shortest_ne_zero (tie : Tie) {value : Binary} (positive : value.significand ≠ 0)
    (proper : value.Proper) : (shortest tie value).digits ≠ 0 := by
  intro nothing
  rcases holds_or_le_shortest tie positive proper with holds | many
  · have low : 0 < value.interval.low := by
      simp only [Binary.interval]
      split <;> omega
    have least := (Interval.holds_iff.1 holds).1
    rw [nothing, Nat.cast_zero, zero_mul] at least
    have : (0 : ℚ) < value.interval.low * 2 ^ value.interval.exponent := by positivity
    linarith
  · omega

end Billiard.Decimal
