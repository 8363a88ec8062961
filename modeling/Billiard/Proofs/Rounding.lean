import Billiard.Decimal.Places
import Billiard.Json.Number
import Billiard.Proofs.Shortest

/-!
Division of machine numbers. Its result is the machine number around which the exact quotient lies
(`unpack_div`): the digits of the quotient are rounded once, to an even one if two are as near, and
a carry only moves the exponent. So a number of few digits is divided by a small power of ten as
exactly as can be (`unpack_divide`).
-/

namespace Billiard.Decimal

open Float.Model (Format UnpackedFloat totalExponent)
open Float.Model.UnpackedFloat

/-- A significand with all of its fifty-three digits. -/
def Full (m : Nat) : Prop := 2 ^ 52 ≤ m ∧ m < 2 ^ 53

theorem Full.pos {m : Nat} (full : Full m) : 0 < m := Nat.lt_of_lt_of_le (by decide) full.1

theorem Full.log2 {m : Nat} (full : Full m) : m.log2 = 52 := by
  rw [Nat.log2_eq_iff (by have := full.1; omega)]
  exact full

theorem unpackSign_packComponents {spec : Format} {sign exponent mantissa} :
    unpackSign (packComponents spec sign exponent mantissa) = sign.toBitVec := by
  ext i hi
  obtain rfl : i = 0 := by omega
  simp [unpackSign, packComponents, BitVec.getLsbD_eq_getElem, BitVec.getLsbD_append,
    BitVec.getElem_append]

theorem ofBitVec_toBitVec (sign : Sign) : Sign.ofBitVec sign.toBitVec = sign := by
  cases sign <;> rfl

/-- A full significand is packed without its first digit. -/
theorem pack_full {sign : Sign} {m : Nat} {e : Int} (positive : 0 < m) (full : Full m)
    (least : -1074 ≤ e) (greatest : e ≤ 971) :
    pack Format.binary64 (.finite sign m e positive) =
      packComponents Format.binary64 sign (BitVec.ofNat 11 (e + 1075).toNat)
        (BitVec.ofNat 52 m) := by
  have field : e + Format.binary64.exponentBias + Format.binary64.mantissaBitsWithoutImplicit =
      e + 1075 := by rw [Int.add_assoc, bias_eq]
  have digits : m.log2 + 1 = Format.binary64.mantissaBits := by
    rw [full.log2]
    rfl
  rw [pack]
  simp only [field]
  rw [if_neg (by simp; omega), if_pos digits]

/-- A full significand is unpacked as it was packed. -/
theorem unpack_pack {sign : Sign} {m : Nat} {e : Int} (positive : 0 < m) (full : Full m)
    (least : -1074 ≤ e) (greatest : e ≤ 971) :
    unpack Format.binary64 (pack Format.binary64 (.finite sign m e positive)) =
      .finite sign m e positive := by
  have low := full.1
  have high := full.2
  have field : (BitVec.ofNat 11 (e + 1075).toNat).toNat = (e + 1075).toNat := by
    rw [BitVec.toNat_ofNat]
    omega
  have fraction : (BitVec.ofNat 52 m).toNat = m - 2 ^ 52 := by
    rw [BitVec.toNat_ofNat]
    omega
  have notFull : BitVec.ofNat 11 (e + 1075).toNat ≠ -1#11 := by
    intro same
    have ones : (-1#11).toNat = 2047 := rfl
    rw [same, ones] at field
    omega
  have notZero : BitVec.ofNat 11 (e + 1075).toNat ≠ 0#11 := by
    intro same
    have zero : (0#11).toNat = 0 := rfl
    rw [same, zero] at field
    omega
  have mantissa : (1#1 ++ BitVec.ofNat 52 m).toNat = m := by
    rw [toNat_hidden, fraction]
    omega
  have exponent : ((BitVec.ofNat 11 (e + 1075).toNat).toNat : Int) -
      (Format.binary64.exponentBias + Format.binary64.mantissaBitsWithoutImplicit) = e := by
    rw [field, bias_eq]
    omega
  rw [pack_full positive full least greatest, unpack]
  simp only [unpackMantissa_packComponents, unpackExponent_packComponents,
    unpackSign_packComponents, ofBitVec_toBitVec]
  rw [if_neg notFull, if_neg notZero]
  exact UnpackedFloat.finite.injEq .. ▸ ⟨rfl, mantissa, exponent⟩

/-- Negation changes the sign of a full significand. -/
theorem unpack_neg {x : Float} {m : Nat} {e : Int} (full : Full m) (least : -1074 ≤ e)
    (greatest : e ≤ 971) (unpacked : x.toModel.unpack = .finite .positive m e full.pos) :
    (-x).toModel.unpack = .finite .negative m e full.pos := by
  have packed : (-x).toModel.unpack = UnpackedFloat.unpack Format.binary64
      (UnpackedFloat.pack Format.binary64 x.toModel.unpack.neg) := rfl
  rw [packed, unpacked]
  exact unpack_pack full.pos full least greatest

theorem targetExponent_of_log2 {m : Nat} (e : Int) {up : Int} (digits : (m.log2 : Int) = 52 + up)
    (least : -1074 ≤ e + up) :
    Format.binary64.targetExponent (totalExponent m e) = e + up := by
  have bits : (Format.binary64.mantissaBits : Int) = 53 := rfl
  have lowest : Format.binary64.minExponent = -1074 := rfl
  rw [Format.targetExponent, totalExponent, digits, bits, lowest]
  omega

theorem shift_full {m : Nat} {e : Int} (accuracy : Accuracy) (full : Full m) (least : -1074 ≤ e) :
    shiftToTargetExponent Format.binary64 m e accuracy =
      (.ofMantissaAndAccuracy m accuracy, e) := by
  have target : Format.binary64.targetExponent (totalExponent m e) = e := by
    have digits : (m.log2 : Int) = 52 + 0 := by
      rw [full.log2]
      rfl
    have target := targetExponent_of_log2 e digits (by omega)
    rwa [Int.add_zero] at target
  rw [shiftToTargetExponent, target, shiftToExponent, Int.sub_self]
  simp only [Int.toNat_zero, Nat.cast_zero, Int.add_zero]
  rfl

/-- One digit too many is moved out. -/
theorem shift_wide {m : Nat} {e : Int} (accuracy : Accuracy) (low : 2 ^ 53 ≤ m) (high : m < 2 ^ 54)
    (least : -1074 ≤ e) :
    shiftToTargetExponent Format.binary64 m e accuracy =
      ((ExtendedMantissa.ofMantissaAndAccuracy m accuracy).shiftRightOne, e + 1) := by
  have digits : m.log2 = 53 := by
    rw [Nat.log2_eq_iff (by omega)]
    exact ⟨low, high⟩
  have target : Format.binary64.targetExponent (totalExponent m e) = e + 1 :=
    targetExponent_of_log2 e (by rw [digits]; rfl) (by omega)
  have one : (e + 1 - e).toNat = 1 := by omega
  rw [shiftToTargetExponent, target, shiftToExponent, one]
  rfl

/-- A rounded significand that may have grown by a digit. -/
def settled (sign : Sign) (m : Nat) (e : Int) : UnpackedFloat :=
  let (final, e) := shiftToTargetExponent Format.binary64 m e .exact
  if h : final.mantissa = 0 then .zero sign
  else .finite sign final.mantissa e (Nat.pos_of_ne_zero h)

theorem settled_full (sign : Sign) {m : Nat} {e : Int} (full : Full m) (least : -1074 ≤ e)
    (positive : 0 < m) : settled sign m e = .finite sign m e positive := by
  rw [settled, shift_full .exact full least]
  exact dif_neg positive.ne'

theorem settled_carry (sign : Sign) {e : Int} (least : -1074 ≤ e) :
    settled sign (2 ^ 53) e = .finite sign (2 ^ 52) (e + 1) (by decide) := by
  rw [settled, shift_wide .exact (Nat.le_refl _) (by decide) least]
  exact dif_neg (by decide)

theorem roundedMantissa_ofMantissaAndAccuracy (m : Nat) (accuracy : Accuracy) :
    (ExtendedMantissa.ofMantissaAndAccuracy m accuracy).roundedMantissa =
      accuracy.roundToNearestEven m := by
  rcases accuracy with _ | _ | _ | _ <;> rfl

/-- Rounding by the accuracy of a quotient is rounding the quotient. -/
theorem roundToNearestEven_accuracy (num den : Nat) (positive : 0 < den) :
    (accuracyOfFraction (num % den) den).roundToNearestEven (num / den) = roundDiv num den := by
  rw [accuracyOfFraction, roundDiv]
  split
  · next none =>
    rw [none, Nat.mul_zero, Nat.compare_eq_lt.2 positive]
    rfl
  · cases compare (2 * (num % den)) den <;> rfl

theorem roundedMantissa_shiftRightOne (num den : Nat) (positive : 0 < den) :
    (ExtendedMantissa.ofMantissaAndAccuracy (num / den)
      (accuracyOfFraction (num % den) den)).shiftRightOne.roundedMantissa =
        roundDiv num (den * 2) := by
  have small := Nat.mod_lt num positive
  have whole : num / (den * 2) = num / den / 2 := (Nat.div_div_eq_div_mul num den 2).symm
  have rest : num % (den * 2) = num % den + den * (num / den % 2) := Nat.mod_mul
  rw [roundDiv, whole, rest, accuracyOfFraction]
  generalize num / den = quotient
  rcases Nat.mod_two_eq_zero_or_one quotient with even | odd
  · have less : compare (2 * (num % den + den * (quotient % 2))) (den * 2) = .lt := by
      rw [Nat.compare_eq_lt, even]
      omega
    rw [less]
    split
    · simp [ExtendedMantissa.shiftRightOne, ExtendedMantissa.ofMantissaAndAccuracy, even,
        ExtendedMantissa.roundedMantissa, ExtendedMantissa.accuracy, Accuracy.roundToNearestEven]
    · cases compare (2 * (num % den)) den <;>
        simp [ExtendedMantissa.shiftRightOne, ExtendedMantissa.ofMantissaAndAccuracy, even,
          ExtendedMantissa.roundedMantissa, ExtendedMantissa.accuracy, Accuracy.roundToNearestEven]
  · split
    · next none =>
      have half : compare (2 * (num % den + den * (quotient % 2))) (den * 2) = .eq := by
        rw [Nat.compare_eq_eq, odd]
        omega
      rw [half]
      simp [ExtendedMantissa.shiftRightOne, ExtendedMantissa.ofMantissaAndAccuracy, odd,
        ExtendedMantissa.roundedMantissa, ExtendedMantissa.accuracy, Accuracy.roundToNearestEven]
    · next some =>
      have more : compare (2 * (num % den + den * (quotient % 2))) (den * 2) = .gt := by
        rw [Nat.compare_eq_gt, odd]
        omega
      rw [more]
      cases compare (2 * (num % den)) den <;>
        simp [ExtendedMantissa.shiftRightOne, ExtendedMantissa.ofMantissaAndAccuracy, odd,
          ExtendedMantissa.roundedMantissa, ExtendedMantissa.accuracy, Accuracy.roundToNearestEven]

/-- The only whole number within half a unit, or the even one of two. -/
theorem roundDiv_eq {num den m : Nat} (positive : 0 < den)
    (low : 2 * m * den ≤ 2 * num + den) (high : 2 * num ≤ 2 * m * den + den)
    (even : 2 * m * den = 2 * num + den ∨ 2 * num = 2 * m * den + den → m % 2 = 0) :
    roundDiv num den = m := by
  have split := Nat.div_add_mod num den
  have small := Nat.mod_lt num positive
  unfold roundDiv
  generalize num / den = quotient at *
  generalize num % den = rest at *
  subst split
  have around : m = quotient ∨ m = quotient + 1 := by
    have notBelow : ¬m < quotient := fun below => by
      have := Nat.mul_le_mul_right den (Nat.succ_le_of_lt below)
      linarith [Nat.succ_mul m den]
    have notAbove : ¬quotient + 1 < m := fun above => by
      have := Nat.mul_le_mul_right den (Nat.succ_le_of_lt above)
      linarith
    omega
  rcases around with rfl | rfl
  · have below : 2 * rest ≤ den := by linarith
    rcases Nat.lt_or_eq_of_le below with less | half
    · rw [Nat.compare_eq_lt.2 less]
    · rw [Nat.compare_eq_eq.2 half]
      have isEven := even (.inr (by linarith))
      change m + m % 2 = m
      omega
  · have above : den ≤ 2 * rest := by linarith
    rcases Nat.lt_or_eq_of_le above with more | half
    · rw [Nat.compare_eq_gt.2 more]
    · rw [Nat.compare_eq_eq.2 half.symm]
      have isEven := even (.inl (by linarith))
      change quotient + quotient % 2 = quotient + 1
      omega

theorem roundWithAccuracy_quotient (sign : Sign) {num den : Nat} {e : Int} (positive : 0 < den)
    (low : 2 ^ 52 * den ≤ num) (high : num < 2 ^ 54 * den) (least : -1074 ≤ e) :
    roundWithAccuracy Format.binary64 sign (num / den) e (accuracyOfFraction (num % den) den) =
      if num < 2 ^ 53 * den then settled sign (roundDiv num den) e
      else settled sign (roundDiv num (den * 2)) (e + 1) := by
  have lowest : 2 ^ 52 ≤ num / den := (Nat.le_div_iff_mul_le positive).2 low
  have highest : num / den < 2 ^ 54 := (Nat.div_lt_iff_lt_mul positive).2 high
  rw [roundWithAccuracy]
  by_cases few : num < 2 ^ 53 * den
  · rw [if_pos few]
    have full : Full (num / den) := ⟨lowest, (Nat.div_lt_iff_lt_mul positive).2 few⟩
    rw [shift_full _ full least]
    simp only [roundedMantissa_ofMantissaAndAccuracy, roundToNearestEven_accuracy _ _ positive]
    rfl
  · rw [if_neg few]
    have wide : 2 ^ 53 ≤ num / den := (Nat.le_div_iff_mul_le positive).2 (Nat.not_lt.1 few)
    rw [shift_wide _ wide highest least]
    simp only [roundedMantissa_shiftRightOne _ _ positive]
    rfl

/-- A number between the points halfway from `m * 2 ^ e` to the machine numbers next to it. It lies
on one of them only if `m` is even. Below a power of two, the next machine number is nearer. -/
structure Between (q : ℚ) (m : Nat) (e : Int) : Prop where
  low : (4 * m - 2) * 2 ^ (e - 2) ≤ q
  high : q ≤ (4 * m + 2) * 2 ^ (e - 2)
  even : (4 * m - 2) * 2 ^ (e - 2) = q ∨ q = (4 * m + 2) * 2 ^ (e - 2) → m % 2 = 0
  least : m = 2 ^ 52 → (4 * m - 1) * 2 ^ (e - 2) ≤ q

namespace Between

variable {x : ℚ} {num den m : Nat} {e s : Int}

/-- A number of fifty-three digits before the point has the exponent of the machine number around
which it lies, or it lies just below a power of two. -/
theorem exponent_cases (full : Full m) (between : Between (x * 2 ^ s) m e) (low : 2 ^ 52 ≤ x)
    (high : x < 2 ^ 53) : s = e ∨ s = e - 1 := by
  have unit : (0 : ℚ) < 2 ^ (e - 2) := by positivity
  have lowM : (2 : ℚ) ^ 52 ≤ m := by exact_mod_cast full.1
  have highM : (m : ℚ) + 1 ≤ 2 ^ 53 := by exact_mod_cast full.2
  have above := between.low
  have below := between.high
  have notAbove : ¬e < s := fun more => by
    have scale : (2 : ℚ) ^ (e - 2 + 3) ≤ 2 ^ s := zpow_le_zpow_right₀ (by norm_num) (by omega)
    rw [zpow_add₀ (by norm_num)] at scale
    have least := mul_le_mul low scale (by positivity) (by linarith)
    have most := mul_le_mul_of_nonneg_right highM unit.le
    norm_num at least
    linarith
  have notBelow : ¬s < e - 1 := fun more => by
    have scale : (2 : ℚ) ^ s ≤ 2 ^ (e - 2) := zpow_le_zpow_right₀ (by norm_num) (by omega)
    have most := mul_le_mul high.le scale (by positivity) (by norm_num)
    have least := mul_le_mul_of_nonneg_right lowM unit.le
    linarith
  omega

/-- A quotient with the exponent of the machine number rounds to its significand. -/
theorem roundDiv_eq (positive : 0 < den) (between : Between (num / den * 2 ^ e) m e) :
    roundDiv num den = m := by
  have dens : (0 : ℚ) < den := by exact_mod_cast positive
  have unit : (0 : ℚ) < 2 ^ (e - 2) := by positivity
  have whole : (num : ℚ) / den * den = num := div_mul_cancel₀ _ dens.ne'
  have quarters : (2 : ℚ) ^ e = 2 ^ (e - 2) * 4 := by
    rw [zpow_sub₀ (by norm_num)]
    norm_num
  obtain ⟨above, below, even, _⟩ := between
  generalize (num : ℚ) / den = x at *
  rw [quarters] at above below even
  have lowX : 4 * (m : ℚ) - 2 ≤ 4 * x := le_of_mul_le_mul_right (by linarith) unit
  have highX : 4 * x ≤ 4 * (m : ℚ) + 2 := le_of_mul_le_mul_right (by linarith) unit
  refine Decimal.roundDiv_eq positive ?_ ?_ ?_
  · have := mul_le_mul_of_nonneg_right lowX dens.le
    rw [← @Nat.cast_le ℚ]
    push_cast
    linarith
  · have := mul_le_mul_of_nonneg_right highX dens.le
    rw [← @Nat.cast_le ℚ]
    push_cast
    linarith
  · rintro (same | same)
    · have cast : (2 : ℚ) * m * den = 2 * num + den := by exact_mod_cast same
      have exact : 2 * (m : ℚ) = 2 * x + 1 := mul_right_cancel₀ dens.ne' (by linarith)
      exact even (.inl (by linear_combination (2 * 2 ^ (e - 2)) * exact))
    · have cast : (2 : ℚ) * num = 2 * m * den + den := by exact_mod_cast same
      have exact : 2 * x = 2 * (m : ℚ) + 1 := mul_right_cancel₀ dens.ne' (by linarith)
      exact even (.inr (by linear_combination (2 * 2 ^ (e - 2)) * exact))

/-- A quotient with the exponent below rounds up to a power of two. -/
theorem carry (positive : 0 < den) (full : Full m)
    (between : Between (num / den * 2 ^ (e - 1)) m e) (high : num < 2 ^ 53 * den) :
    m = 2 ^ 52 ∧ roundDiv num den = 2 ^ 53 := by
  have dens : (0 : ℚ) < den := by exact_mod_cast positive
  have unit : (0 : ℚ) < 2 ^ (e - 2) := by positivity
  have whole : (num : ℚ) / den * den = num := div_mul_cancel₀ _ dens.ne'
  have highX : (num : ℚ) / den < 2 ^ 53 := by
    rw [div_lt_iff₀ dens]
    exact_mod_cast high
  have halves : (2 : ℚ) ^ (e - 1) = 2 ^ (e - 2) * 2 := by
    rw [← zpow_add_one₀ (by norm_num)]
    congr 1
    omega
  obtain ⟨above, _, _, quarter⟩ := between
  generalize (num : ℚ) / den = x at *
  rw [halves] at above quarter
  have power : m = 2 ^ 52 := by
    refine Nat.le_antisymm (Nat.not_lt.1 fun more => ?_) full.1
    have lowM : (2 : ℚ) ^ 52 + 1 ≤ m := by exact_mod_cast more
    have most := mul_lt_mul_of_pos_right highX unit
    have least := mul_le_mul_of_nonneg_right lowM unit.le
    linarith
  have lowX : 4 * (m : ℚ) - 1 ≤ 2 * x :=
    le_of_mul_le_mul_right (by linarith [quarter power]) unit
  have low := mul_le_mul_of_nonneg_right lowX dens.le
  rw [power] at low
  refine ⟨power, Decimal.roundDiv_eq positive ?_ (by omega) fun _ => rfl⟩
  rw [← @Nat.cast_le ℚ]
  push_cast at low ⊢
  linarith

/-- A quotient of fifty-three digits before the point rounds to the machine number around which it
lies, perhaps by way of a carry. -/
theorem settled (sign : Sign) (positive : 0 < den) (full : Full m)
    (between : Between (num / den * 2 ^ s) m e) (low : 2 ^ 52 * den ≤ num)
    (high : num < 2 ^ 53 * den) (least : -1074 ≤ s) :
    Decimal.settled sign (roundDiv num den) s = .finite sign m e full.pos := by
  have dens : (0 : ℚ) < den := by exact_mod_cast positive
  have lowX : (2 : ℚ) ^ 52 ≤ num / den := by
    rw [le_div_iff₀ dens]
    exact_mod_cast low
  have highX : (num : ℚ) / den < 2 ^ 53 := by
    rw [div_lt_iff₀ dens]
    exact_mod_cast high
  rcases between.exponent_cases full lowX highX with rfl | rfl
  · rw [between.roundDiv_eq positive]
    exact settled_full sign full least _
  · obtain ⟨rfl, rounds⟩ := between.carry positive full high
    rw [rounds, settled_carry sign least]
    congr 1
    omega

end Between

/-- A quotient of full significands, before it is packed. -/
theorem div_finite {m₁ m₂ : Nat} {e₁ e₂ : Int} (positive₁ : 0 < m₁) (positive₂ : 0 < m₂)
    (full₁ : Full m₁) (full₂ : Full m₂) (least : -1021 ≤ e₁ - e₂) :
    div Format.binary64 (.finite .positive m₁ e₁ positive₁) (.finite .positive m₂ e₂ positive₂) =
      roundWithAccuracy Format.binary64 .positive (m₁ * 2 ^ 53 / m₂) (e₁ - e₂ - 53)
        (accuracyOfFraction (m₁ * 2 ^ 53 % m₂) m₂) := by
  have total : totalExponent m₁ e₁ - totalExponent m₂ e₂ = e₁ - e₂ := by
    rw [totalExponent, totalExponent, full₁.log2, full₂.log2]
    omega
  have target : min (e₁ - e₂) (Format.binary64.targetExponent (e₁ - e₂)) = e₁ - e₂ - 53 := by
    have bits : (Format.binary64.mantissaBits : Int) = 53 := rfl
    have lowest : Format.binary64.minExponent = -1074 := rfl
    rw [Format.targetExponent, bits, lowest]
    omega
  have shift : (e₁ - e₂ - (e₁ - e₂ - 53)).toNat = 53 := by omega
  have core : divCore Format.binary64 m₁ e₁ m₂ e₂ =
      (m₁ * 2 ^ 53 / m₂, e₁ - e₂ - 53, accuracyOfFraction (m₁ * 2 ^ 53 % m₂) m₂) := by
    rw [divCore, total, target, shift, Nat.shiftLeft_eq]
  rw [div, core]
  rfl

/-- Division finds the machine number around which the quotient lies. -/
theorem unpack_div {x y : Float} {m₁ m₂ m : Nat} {e₁ e₂ e : Int} {positive₁ : 0 < m₁}
    {positive₂ : 0 < m₂} (positive : 0 < m)
    (first : x.toModel.unpack = .finite .positive m₁ e₁ positive₁)
    (second : y.toModel.unpack = .finite .positive m₂ e₂ positive₂)
    (full₁ : Full m₁) (full₂ : Full m₂) (full : Full m) (least : -1021 ≤ e₁ - e₂)
    (lowest : -1074 ≤ e) (greatest : e ≤ 971)
    (between : Between (m₁ * 2 ^ e₁ / (m₂ * 2 ^ e₂)) m e) :
    (x / y).toModel.unpack = .finite .positive m e positive := by
  have quotient : div Format.binary64 x.toModel.unpack y.toModel.unpack =
      .finite .positive m e positive := by
    have scale : (2 : ℚ) ^ (e₁ - e₂ - 53) = 2 ^ e₁ / 2 ^ e₂ / 2 ^ 53 := by
      rw [zpow_sub₀ (by norm_num), zpow_sub₀ (by norm_num)]
      exact congrArg _ (zpow_natCast 2 53)
    have same : (m₁ : ℚ) * 2 ^ e₁ / (m₂ * 2 ^ e₂) =
        ((m₁ * 2 ^ 53 : ℕ) : ℚ) / m₂ * 2 ^ (e₁ - e₂ - 53) := by
      rw [scale]
      push_cast
      field_simp
      norm_num
    have low : 2 ^ 52 * m₂ ≤ m₁ * 2 ^ 53 := by
      have := full₁.1
      have := full₂.2
      omega
    have high : m₁ * 2 ^ 53 < 2 ^ 54 * m₂ := by
      have := full₁.2
      have := full₂.1
      omega
    rw [first, second, div_finite positive₁ positive₂ full₁ full₂ least,
      roundWithAccuracy_quotient .positive positive₂ low high (by omega)]
    split
    · next few =>
      rw [same] at between
      exact between.settled .positive positive₂ full low few (by omega)
    · next many =>
      have doubled : (m₁ : ℚ) * 2 ^ e₁ / (m₂ * 2 ^ e₂) =
          ((m₁ * 2 ^ 53 : ℕ) : ℚ) / ((m₂ * 2 : ℕ) : ℚ) * 2 ^ (e₁ - e₂ - 53 + 1) := by
        rw [same, zpow_add₀ (by norm_num)]
        push_cast
        field_simp
      rw [doubled] at between
      exact between.settled .positive (by omega) full (by omega) (by omega) (by omega)
  have packed : (x / y).toModel.unpack = unpack Format.binary64
      (pack Format.binary64 (div Format.binary64 x.toModel.unpack y.toModel.unpack)) := rfl
  rw [packed, quotient]
  exact unpack_pack positive full lowest greatest

/-- A machine number that is not rounded: it denotes `value`. -/
structure Denotes (x : Float) (value m : Nat) (e : Int) : Prop where
  full : Full m
  unpacked : x.toModel.unpack = .finite .positive m e full.pos
  exact : (m : ℚ) * 2 ^ e = value

theorem denotes_toFloat {n : Nat} (positive : 0 < n) (small : n < 2 ^ 53) :
    Denotes (UInt64.ofNat n).toFloat n (n * 2 ^ (52 - n.log2)) (n.log2 - 52) := by
  have log := Nat.log2_self_le positive.ne'
  have log' : n < 2 ^ (n.log2 + 1) := Nat.lt_log2_self
  have digits : n.log2 ≤ 52 := by
    have : n.log2 < 53 := (Nat.log2_lt positive.ne').2 small
    omega
  have full : Full (n * 2 ^ (52 - n.log2)) := by
    constructor
    · calc 2 ^ 52 = 2 ^ n.log2 * 2 ^ (52 - n.log2) := by rw [← pow_add]; congr 1; omega
        _ ≤ n * 2 ^ (52 - n.log2) := Nat.mul_le_mul_right _ log
    · calc n * 2 ^ (52 - n.log2) < 2 ^ (n.log2 + 1) * 2 ^ (52 - n.log2) :=
            Nat.mul_lt_mul_of_pos_right log' (Nat.pow_pos (by decide))
        _ = 2 ^ 53 := by rw [← pow_add]; congr 1; omega
  have least : -1074 ≤ (n.log2 : Int) - 52 := by omega
  have rounded : round Format.binary64 .positive n 0 =
      .finite .positive (n * 2 ^ (52 - n.log2)) (n.log2 - 52)
        full.pos := by
    have target := targetExponent_of_log2 0 (by omega : (n.log2 : Int) = 52 + (n.log2 - 52))
      (by omega)
    have shift : (0 - ((n.log2 : Int) - 52)).toNat = 52 - n.log2 := by omega
    have lower : (0 : Int) - ((52 - n.log2 : ℕ) : Int) = n.log2 - 52 := by omega
    rw [Int.zero_add] at target
    unfold UnpackedFloat.round
    simp only [target, decreaseExponent, shift, lower, Nat.shiftLeft_eq, roundWithAccuracy,
      shift_full .exact full least]
    exact settled_full .positive full least _
  refine ⟨full, ?_, ?_⟩
  · have whole : (UInt64.ofNat n).toNat = n :=
      UInt64.toNat_ofNat_of_lt' (Nat.lt_trans small (by decide))
    have sign : compare (n : Int) 0 = .gt := compare_gt_iff_gt.2 (by omega)
    have unpacked : (UInt64.ofNat n).toFloat.toModel.unpack = unpack Format.binary64
        (pack Format.binary64
          (UnpackedFloat.normalize Format.binary64 (UInt64.ofNat n).toNat 0 .positive)) := rfl
    rw [unpacked, whole, UnpackedFloat.normalize, sign]
    simp only [Int.toNat_natCast]
    rw [rounded]
    exact unpack_pack _ full least (by omega)
  · have power : (n.log2 : Int) - 52 = -((52 - n.log2 : ℕ) : Int) := by omega
    rw [power, zpow_neg, zpow_natCast]
    push_cast
    field_simp

/-- Whether the `k`th power of ten is a machine number. -/
def powerDenotes (k : Nat) : Bool :=
  match (Json.Number.powerOfTen k).toModel.unpack with
  | .finite .positive m e _ =>
    2 ^ 52 ≤ m && m < 2 ^ 53 && -52 ≤ e && e ≤ 21 && m * 2 ^ (e + 52).toNat == 10 ^ k * 2 ^ 52
  | _ => false

theorem powerDenotes_all : ∀ k < 23, powerDenotes k = true := by decide +kernel

/-- The first powers of ten are not rounded. -/
theorem exists_denotes_powerOfTen {k : Nat} (small : k < 23) :
    ∃ m e, Denotes (Json.Number.powerOfTen k) (10 ^ k) m e ∧ e ≤ 21 := by
  have denotes := powerDenotes_all k small
  unfold powerDenotes at denotes
  split at denotes
  · next m e positive unpacked =>
    simp only [Bool.and_eq_true, decide_eq_true_eq, beq_iff_eq] at denotes
    obtain ⟨⟨⟨⟨low, high⟩, least⟩, most⟩, same⟩ := denotes
    refine ⟨m, e, ⟨⟨low, high⟩, unpacked, ?_⟩, most⟩
    have up : (2 : ℚ) ^ e = 2 ^ (e + 52).toNat / 2 ^ 52 := by
      rw [← zpow_natCast, ← zpow_natCast, ← zpow_sub₀ (by norm_num)]
      congr 1
      omega
    have cast : (m : ℚ) * 2 ^ (e + 52).toNat = 10 ^ k * 2 ^ 52 := by exact_mod_cast same
    rw [up, ← mul_div_assoc, cast]
    push_cast
    field_simp
  · cases denotes

/-- A number of few digits is divided by a small power of ten as exactly as can be. -/
theorem unpack_divide {n k m : Nat} {e : Int} (positive : 0 < n) (few : n < 2 ^ 53)
    (small : k < 23) (full : Full m) (lowest : -1074 ≤ e) (greatest : e ≤ 971)
    (between : Between (n / 10 ^ k) m e) :
    (Json.Number.divide (UInt64.ofNat n).toFloat k).toModel.unpack =
      .finite .positive m e full.pos := by
  obtain ⟨m₂, e₂, power, most⟩ := exists_denotes_powerOfTen small
  have number := denotes_toFloat positive few
  have quotient : Json.Number.divide (UInt64.ofNat n).toFloat k =
      (UInt64.ofNat n).toFloat / Json.Number.powerOfTen k := by
    rw [Json.Number.divide, if_pos]
    exact Nat.le_of_lt_succ (Nat.lt_trans small (by decide))
  rw [quotient]
  refine unpack_div full.pos number.unpacked power.unpacked number.full power.full full
    (by omega) lowest greatest ?_
  rw [number.exact, power.exact]
  exact_mod_cast between

/-- What rounds to a number of fifty-three digits lies between its neighbours. -/
theorem between_of_holds {value : Binary} {grid : Int} {point : Nat} (full : Full value.significand)
    (normal : leastExponent < value.exponent)
    (holds : value.interval.holds (value.interval.scale grid) point) :
    Between (point * 10 ^ grid) value.significand value.exponent := by
  obtain ⟨low, high, closed⟩ := Interval.holds_iff.1 holds
  have some := full.1
  have unit : (0 : ℚ) < 2 ^ (value.exponent - 2) := by positivity
  have highest : (value.interval.high : ℚ) = 4 * value.significand + 2 := by
    simp [Binary.interval]
  have even : value.interval.closed → value.significand % 2 = 0 := by simp [Binary.interval]
  change _ * (2 : ℚ) ^ (value.exponent - 2) ≤ _ at low
  change _ ≤ _ * (2 : ℚ) ^ (value.exponent - 2) at high
  change _ * (2 : ℚ) ^ (value.exponent - 2) = _ ∨ _ = _ * (2 : ℚ) ^ (value.exponent - 2) → _
    at closed
  rw [highest] at high closed
  by_cases power : value.significand = hiddenBit
  · have lowest : (value.interval.low : ℚ) = 4 * value.significand - 1 := by
      have nat : value.interval.low + 1 = 4 * value.significand := by
        simp only [Binary.interval, power, normal, and_self, if_true, hiddenBit]
      rw [eq_sub_iff_add_eq]
      exact_mod_cast nat
    rw [lowest] at low
    refine ⟨by linarith, high, fun _ => ?_, fun _ => low⟩
    rw [power]
    rfl
  · have lowest : (value.interval.low : ℚ) = 4 * value.significand - 2 := by
      have nat : value.interval.low + 2 = 4 * value.significand := by
        simp only [Binary.interval, power, false_and, if_false]
        omega
      rw [eq_sub_iff_add_eq]
      exact_mod_cast nat
    rw [lowest] at low closed
    refine ⟨low, high, fun ends => even (closed ends), fun same => ?_⟩
    exact absurd same power

end Billiard.Decimal
