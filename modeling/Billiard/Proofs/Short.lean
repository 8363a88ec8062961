import Billiard.Proofs.Reread
import Billiard.Proofs.Rounding

/-!
Numbers that come back. The zeros are found with their signs, and so is every number that is written
without an exponent and with few digits (`reread_of_short`): its digits are a machine number, the
power of ten by which they are divided is one, and the quotient rounds to the number because its
shortest digits do.
-/

namespace Billiard.Decimal

namespace Digits

variable {number : Digits}

/-- The digits as they are written, and how many of them stand behind the point, tell the number. -/
theorem written_div_places (number : Digits) :
    (number.written : ℚ) / 10 ^ number.places = number.digits * 10 ^ number.exponent := by
  unfold written places
  cases number.exponent with
  | ofNat up =>
    simp only [Int.ofNat_eq_natCast, zpow_natCast]
    push_cast
    rw [pow_succ]
    field_simp
  | negSucc down =>
    simp only [zpow_negSucc]
    field_simp

theorem digits_le_written (number : Digits) : number.digits ≤ number.written := by
  unfold written
  cases number.exponent with
  | ofNat up => exact Nat.le_mul_of_pos_right _ (Nat.pow_pos (by decide))
  | negSucc down => exact Nat.le_refl _

/-- Few digits that do not begin too far behind the point do not end too far behind it. -/
theorem exponent_of_leading (few : number.digits < 10 ^ 16) (leading : -5 ≤ number.leading) :
    -20 ≤ number.exponent := by
  have length : number.text.length ≤ 16 := by
    rw [← String.length_toList, toList_text]
    exact Nat.toDigits_length 10 _ 16 (by decide) few
  unfold Digits.leading at leading
  omega

theorem places_of_exponent (least : -20 ≤ number.exponent) : number.places < 23 := by
  unfold places
  cases exponent : number.exponent with
  | ofNat up => exact (by decide : 1 < 23)
  | negSucc down =>
    change down + 1 < 23
    rw [exponent] at least
    omega

end Digits

/-- A number that is not far below one has a full significand. -/
theorem full_of_holds {value : Binary} {grid : Int} {point : Nat} (proper : value.Proper)
    (some : 0 < point) (least : -20 ≤ grid)
    (holds : value.interval.holds (value.interval.scale grid) point) :
    leastExponent < value.exponent ∧ Full value.significand := by
  have normal : leastExponent < value.exponent := by
    by_contra lowest
    have exponent : value.exponent - 2 ≤ -200 := by
      simp only [leastExponent] at lowest
      omega
    have top : (value.interval.high : ℚ) ≤ 2 ^ 56 := by
      have bound := proper.bound
      have nat : value.interval.high ≤ 2 ^ 56 := by
        simp only [Binary.interval]
        omega
      exact_mod_cast nat
    have one : (1 : ℚ) ≤ point := by exact_mod_cast some
    have above : (10 : ℚ) ^ (-20 : Int) ≤ point * 10 ^ grid :=
      calc (10 : ℚ) ^ (-20 : Int) ≤ 10 ^ grid := zpow_le_zpow_right₀ (by norm_num) least
        _ ≤ point * 10 ^ grid := le_mul_of_one_le_left (by positivity) one
    have below : (point : ℚ) * 10 ^ grid ≤ 2 ^ 56 * 2 ^ (-200 : Int) :=
      calc (point : ℚ) * 10 ^ grid
          ≤ value.interval.high * 2 ^ value.interval.exponent := (Interval.holds_iff.1 holds).2.1
        _ ≤ 2 ^ 56 * 2 ^ (-200 : Int) :=
          mul_le_mul top (zpow_le_zpow_right₀ (by norm_num) exponent) (by positivity) (by norm_num)
    have apart : (2 : ℚ) ^ 56 * 2 ^ (-200 : Int) < 10 ^ (-20 : Int) := by norm_num
    linarith
  exact ⟨normal, proper.full normal, proper.bound⟩

end Billiard.Decimal

namespace Billiard.Json.Number

open Decimal (Exact Full Digits)

/-- Written without an exponent, with digits that make a number below `2 ^ 53`. -/
def Short (x : Float) : Prop :=
  x.isFinite ∧ 'e' ∉ (Document.floatText x).toList ∧
    Nat.ofDigitChars 10 ((Document.floatText x).toList.filter Char.isDigit) 0 < 2 ^ 53

instance (x : Float) : Decidable (Short x) := inferInstanceAs (Decidable (_ ∧ _ ∧ _))

/-- The value of a text with one digit behind the point. -/
theorem reread_of_tenths {x significand : Float} {text : String}
    (wrote : Codec.float.encode Document.pretty x = text)
    (read : Codec.float.decode text = .ok (divide significand 1)) :
    Codec.float.reread x = .ok (significand / powerOfTen 1) := by
  rw [Codec.reread, wrote, read, divide, if_pos (by decide)]

theorem reread_zero : Codec.float.reread 0.0 = .ok 0.0 :=
  (reread_of_tenths (by decide +kernel : _ = "0.0") rfl).trans rfl

theorem reread_neg_zero : Codec.float.reread (-0.0) = .ok (-0.0) := by
  have wrote : Codec.float.encode Document.pretty (-0.0) = "-0.0" := by decide +kernel
  have read : Codec.float.decode "-0.0" = .ok (-divide 0.0 1) := rfl
  rw [Codec.reread, wrote, read, divide, if_pos (by decide)]
  rfl

/-- Short digits, divided by the power of ten of their places, are the number. -/
theorem signed_divide {x : Float} {value : Decimal.Binary}
    (exact : Exact.ofFloat x = .finite value) (positive : 0 < value.significand)
    (proper : value.Proper) (leading : -5 ≤ (Decimal.shortest .toEven value).leading)
    (few : (Decimal.shortest .toEven value).written < 2 ^ 53) :
    signed value.negative (divide (UInt64.ofNat (Decimal.shortest .toEven value).written).toFloat
      (Decimal.shortest .toEven value).places) = x := by
  have some : 0 < (Decimal.shortest .toEven value).digits :=
    Nat.pos_of_ne_zero (Decimal.digits_shortest_ne_zero .toEven positive.ne' proper)
  have less := Digits.digits_le_written (Decimal.shortest .toEven value)
  have least := Digits.exponent_of_leading (by omega) leading
  have holds : value.interval.holds
      (value.interval.scale (Decimal.shortest .toEven value).exponent)
      (Decimal.shortest .toEven value).digits :=
    (Decimal.holds_or_le_shortest .toEven positive.ne' proper).resolve_right (by omega)
  obtain ⟨normal, full⟩ := Decimal.full_of_holds proper some least holds
  have between := Decimal.between_of_holds full normal holds
  rw [← Digits.written_div_places] at between
  have quotient := Decimal.unpack_divide (by omega) few (Digits.places_of_exponent least) full
    proper.least proper.greatest between
  have whole := (Decimal.unpack_of_exact exact).trans (dif_pos positive)
  apply Decimal.eq_of_unpack
  · rw [whole, signed]
    split
    · exact Decimal.unpack_neg full proper.least proper.greatest quotient
    · exact quotient
  · rw [signed]
    split
    · rw [Decimal.unpack_neg full proper.least proper.greatest quotient]
      exact nofun
    · rw [quotient]
      exact nofun

/-- The text of a short number is made of a sign and all places of its shortest digits. -/
theorem Short.exists_text {x : Float} (short : Short x) :
    ∃ value, Exact.ofFloat x = .finite value ∧ value.Proper ∧
      -5 ≤ (Decimal.shortest .toEven value).leading ∧
        (Decimal.shortest .toEven value).written < 2 ^ 53 ∧
          (Document.floatText x).toList = (Decimal.sign value.negative).toList ++
            ((Decimal.shortest .toEven value).positional true).toList := by
  obtain ⟨finite, noPower, few⟩ := short
  obtain ⟨value, exact, proper⟩ := Exact.exists_finite finite
  have text : (Document.floatText x).toList = (Decimal.sign value.negative).toList ++
      (if number.positional (Decimal.shortest .toEven value).leading then
        (Decimal.shortest .toEven value).positional true
      else (Decimal.shortest .toEven value).scientific).toList := by
    rw [Document.floatText, if_pos finite, Decimal.Layout.render, exact]
    exact String.toList_append ..
  rw [text] at noPower few ⊢
  by_cases positional : number.positional (Decimal.shortest .toEven value).leading
  · rw [if_pos positional] at few ⊢
    have leading : -5 ≤ (Decimal.shortest .toEven value).leading :=
      (by simpa [number] using positional : _ ∧ _).1
    have lone := @Decimal.exponent_shortest_of_zero .toEven value proper
    have digits := (Digits.positional_isPointed lone).ofDigitChars_filter value.negative
    exact ⟨value, exact, proper, leading, digits ▸ few, rfl⟩
  · rw [if_neg positional] at noPower
    exact absurd (List.mem_append_right _ Digits.e_mem_scientific) noPower

/-- A number that is written without an exponent and with few digits is found as it is. -/
theorem reread_of_short {x : Float} (short : Short x) : Codec.float.reread x = .ok x := by
  obtain ⟨value, exact, proper, leading, few, text⟩ := short.exists_text
  by_cases zero : value.significand = 0
  · rcases Decimal.eq_zero_of_exact exact zero with rfl | rfl
    · exact reread_zero
    · exact reread_neg_zero
  have lone := @Decimal.exponent_shortest_of_zero .toEven value proper
  have pointed := Digits.positional_isPointed lone
  have read := pointed.read_eq value.negative (Nat.lt_trans few (by decide))
  rw [signed_divide exact (Nat.pos_of_ne_zero zero) proper leading few] at read
  rw [Codec.finds_float.reread_eq, Number.again, if_pos short.1, text, read]
  rfl

end Billiard.Json.Number
