import Mathlib
import Billiard.Decimal.Binary

/-!
What the bits of machine numbers tell. A finite number has a sign, fewer than fifty-four binary
digits and an exponent that is not too great (`Exact.exists_finite`), which is how it is unpacked
for arithmetic (`unpack_of_exact`). Two numbers that are equal have the same bits, but for zeros
(`eq_of_beq`).
-/

namespace Billiard.Decimal

open Float.Model (Format UnpackedFloat)
open Float.Model.UnpackedFloat (unpackExponent unpackMantissa unpackSign)

/-- The exponent field of a machine number. -/
theorem toNat_field (bits : UInt64) :
    ((bits >>> 52) &&& 0x7ff).toNat =
      (@unpackExponent Format.binary64 bits.toBitVec).toNat := by
  have mask (n : Nat) : n &&& 0x7ff = n % 2 ^ 11 := Nat.and_two_pow_sub_one_eq_mod n 11
  rw [UInt64.toNat_and, UInt64.toNat_shiftRight]
  simp only [unpackExponent, BitVec.toNat_cast, BitVec.extractLsb_toNat]
  exact mask _

theorem bias_eq :
    (Format.binary64.exponentBias : Int) + Format.binary64.mantissaBitsWithoutImplicit = 1075 := rfl

/-- The bit in front of a fraction that is not written. -/
theorem toNat_hidden (fraction : BitVec 52) :
    (1#1 ++ fraction).toNat = 2 ^ 52 + fraction.toNat := by
  rw [BitVec.toNat_append, Nat.shiftLeft_eq]
  exact (Nat.two_pow_add_eq_or_of_lt fraction.isLt 1).symm

/-- What a finite machine number may stand for. -/
structure Binary.Proper (value : Binary) : Prop where
  bound : value.significand < 2 ^ 53
  least : leastExponent ≤ value.exponent
  greatest : value.exponent ≤ 971
  full : leastExponent < value.exponent → 2 ^ 52 ≤ value.significand

/-- A finite machine number stands for a number of fifty-three binary digits at most. -/
theorem Exact.exists_finite {x : Float} (finite : x.isFinite) :
    ∃ value, Exact.ofFloat x = .finite value ∧ value.Proper := by
  have field := toNat_field x.toModel.toBits
  have fraction : (x.toBits &&& 0xfffffffffffff).toNat < 2 ^ 52 := by
    rw [UInt64.toNat_and]
    exact Nat.lt_of_le_of_lt Nat.and_le_right (by decide)
  have notFull : ((x.toModel.toBits >>> 52) &&& 0x7ff).toNat ≠ 0x7ff := by
    intro full
    rw [field] at full
    have same : @unpackExponent Format.binary64 x.toModel.toBits.toBitVec = (-1#11) :=
      BitVec.eq_of_toNat_eq full
    change x.toModel.unpack.isFinite = true at finite
    rw [Float.Model.unpack, UnpackedFloat.unpack] at finite
    simp only [same, if_true] at finite
    split at finite <;> simp [UnpackedFloat.isFinite] at finite
  have bound : ((x.toModel.toBits >>> 52) &&& 0x7ff).toNat < 2 ^ 11 := by
    rw [field]
    exact BitVec.isLt _
  change (x.toBits &&& 0xfffffffffffff).toNat < _ at fraction
  unfold ofFloat ofBits
  simp only
  split
  · next full => exact absurd full notFull
  · split
    · refine ⟨_, rfl, ?_, Int.le_refl _, by simp [leastExponent], fun more => ?_⟩
      · simp only
        omega
      · exact absurd more (Int.lt_irrefl _)
    · refine ⟨_, rfl, ?_, ?_, ?_, fun _ => Nat.le_add_right _ _⟩
      · simp only [hiddenBit, Nat.pow_eq]
        omega
      · simp only
        omega
      · simp only [leastExponent, Float.toBits]
        omega

/-- The parts of a machine number tell all of its bits. -/
theorem eq_of_parts {x y : BitVec Format.binary64.numBits}
    (sign : unpackSign x = unpackSign y) (exponent : unpackExponent x = unpackExponent y)
    (mantissa : unpackMantissa x = unpackMantissa y) : x = y := by
  have low := congrArg BitVec.toNat mantissa
  have middle := congrArg BitVec.toNat exponent
  have high := congrArg BitVec.toNat sign
  simp only [unpackSign, unpackExponent, unpackMantissa, BitVec.toNat_cast,
    BitVec.extractLsb_toNat, Nat.shiftRight_eq_div_pow] at low middle high
  have first := x.isLt
  have second := y.isLt
  apply BitVec.eq_of_toNat_eq
  simp only [Format.numBits] at *
  omega

private theorem sign_inj {a b : BitVec 1}
    (same : UnpackedFloat.Sign.ofBitVec a = UnpackedFloat.Sign.ofBitVec b) : a = b := by
  unfold UnpackedFloat.Sign.ofBitVec at same
  split at same <;> split at same
  · next first second => rw [first, second]
  · cases same
  · cases same
  · apply BitVec.eq_of_toNat_eq
    bv_omega

/-- Sign, exponent field and fraction of the machine number that was unpacked. -/
def fields : UnpackedFloat → Option (UnpackedFloat.Sign × Nat × Nat)
  | .notANumber => none
  | .infinity sign => some (sign, 2047, 0)
  | .zero sign => some (sign, 0, 0)
  | .finite sign mantissa exponent _ =>
    some (if mantissa < 2 ^ 52 then (sign, 0, mantissa)
      else (sign, (exponent + 1075).toNat, mantissa - 2 ^ 52))

theorem fields_unpack {bits : BitVec Format.binary64.numBits}
    (number : UnpackedFloat.unpack Format.binary64 bits ≠ .notANumber) :
    fields (UnpackedFloat.unpack Format.binary64 bits) =
      some (.ofBitVec (unpackSign bits), (unpackExponent bits).toNat,
        (unpackMantissa bits).toNat) := by
  have small := (@unpackMantissa Format.binary64 bits).isLt
  unfold UnpackedFloat.unpack at number ⊢
  simp only at number ⊢
  split
  · next full =>
    split
    · next none =>
      rw [full, none]
      rfl
    · next some => simp [full, some] at number
  · split
    · next least =>
      split
      · next none =>
        rw [least, none]
        rfl
      · rw [fields, if_pos small, least]
        rfl
    · have hidden := toNat_hidden (@unpackMantissa Format.binary64 bits)
      have exponent (field : Nat) : ((field : Int) - 1075 + 1075).toNat = field := by omega
      rw [fields, if_neg (by omega), hidden, Nat.add_sub_cancel_left, bias_eq, exponent]

/-- Unpacking loses nothing, but what is not a number. -/
theorem eq_of_unpack_eq {x y : BitVec Format.binary64.numBits}
    (same : UnpackedFloat.unpack Format.binary64 x = UnpackedFloat.unpack Format.binary64 y)
    (number : UnpackedFloat.unpack Format.binary64 x ≠ .notANumber) : x = y := by
  have first := fields_unpack number
  have second := fields_unpack (same ▸ number)
  rw [same, second, Option.some.injEq, Prod.mk.injEq, Prod.mk.injEq] at first
  obtain ⟨sign, exponent, mantissa⟩ := first
  exact eq_of_parts (sign_inj sign.symm) (BitVec.eq_of_toNat_eq exponent.symm)
    (BitVec.eq_of_toNat_eq mantissa.symm)

/-- Numbers compare as equal if they are the same, or zeros of any sign. -/
theorem eq_of_compare {a b : UnpackedFloat} (same : a.compare b = some .eq) :
    a = b ∧ a ≠ .notANumber ∨ ∃ sign sign', a = .zero sign ∧ b = .zero sign' := by
  cases a with
  | notANumber => cases b <;> simp [UnpackedFloat.compare] at same
  | infinity sign =>
    cases b with
    | infinity sign' => cases sign <;> cases sign' <;> simp_all [UnpackedFloat.compare, compare]
    | _ => cases sign <;> simp [UnpackedFloat.compare] at same
  | zero sign =>
    cases b with
    | zero sign' => exact .inr ⟨sign, sign', rfl, rfl⟩
    | finite sign' _ _ _ => cases sign' <;> simp [UnpackedFloat.compare] at same
    | infinity sign' => cases sign' <;> simp [UnpackedFloat.compare] at same
    | notANumber => simp [UnpackedFloat.compare] at same
  | finite sign mantissa exponent positive =>
    cases b with
    | finite sign' mantissa' exponent' positive' =>
      cases sign <;> cases sign' <;>
        simp [UnpackedFloat.compare, Ordering.then_eq_eq] at same ⊢ <;>
        exact ⟨same.2, same.1⟩
    | zero _ => cases sign <;> simp [UnpackedFloat.compare] at same
    | infinity sign' => cases sign' <;> simp [UnpackedFloat.compare] at same
    | notANumber => simp [UnpackedFloat.compare] at same

private theorem eq_of_toBitVec {x y : Float}
    (same : x.toModel.toBits.toBitVec = y.toModel.toBits.toBitVec) : x = y := by
  obtain ⟨⟨bits, _⟩⟩ := x
  obtain ⟨⟨bits', _⟩⟩ := y
  obtain rfl : bits = bits' := UInt64.toBitVec_inj.1 same
  rfl

private theorem eq_zero_of_unpack {x : Float} {sign : UnpackedFloat.Sign}
    (zero : UnpackedFloat.unpack Format.binary64 x.toModel.toBits.toBitVec = .zero sign) :
    x = 0.0 ∨ x = -0.0 := by
  cases sign with
  | positive =>
    refine .inl (eq_of_toBitVec (eq_of_unpack_eq ?_ (by simp [zero])))
    exact zero.trans (by rfl)
  | negative =>
    refine .inr (eq_of_toBitVec (eq_of_unpack_eq ?_ (by simp [zero])))
    exact zero.trans (by rfl)

/-- What is unpacked tells the machine number. -/
theorem eq_of_unpack {x y : Float} (same : x.toModel.unpack = y.toModel.unpack)
    (number : x.toModel.unpack ≠ .notANumber) : x = y :=
  eq_of_toBitVec (eq_of_unpack_eq same number)

/-- Equal machine numbers are the same, or zeros of any sign. -/
theorem eq_of_beq {x y : Float} (same : x == y) :
    x = y ∨ (x = 0.0 ∨ x = -0.0) ∧ (y = 0.0 ∨ y = -0.0) := by
  change (x.toModel.unpack.compare y.toModel.unpack == some .eq) = true at same
  have compares := beq_iff_eq.1 same
  rcases eq_of_compare compares with ⟨alike, number⟩ | ⟨sign, sign', zero, zero'⟩
  · exact .inl (eq_of_unpack alike number)
  · exact .inr ⟨eq_zero_of_unpack zero, eq_zero_of_unpack zero'⟩

theorem toNat_fraction (bits : UInt64) :
    (bits &&& 0xfffffffffffff).toNat =
      (@unpackMantissa Format.binary64 bits.toBitVec).toNat := by
  have mask (n : Nat) : n &&& 0xfffffffffffff = n % 2 ^ 52 := Nat.and_two_pow_sub_one_eq_mod n 52
  rw [UInt64.toNat_and]
  simp only [unpackMantissa, BitVec.toNat_cast, BitVec.extractLsb_toNat]
  exact mask _

theorem ofBitVec_unpackSign (bits : UInt64) :
    UnpackedFloat.Sign.ofBitVec (@unpackSign Format.binary64 bits.toBitVec) =
      if bits >>> 63 != 0 then .negative else .positive := by
  have high : (@unpackSign Format.binary64 bits.toBitVec).toNat = (bits >>> 63).toNat := by
    have bound : bits.toNat < 2 ^ 64 := bits.toNat_lt
    rw [UInt64.toNat_shiftRight]
    simp only [unpackSign, BitVec.toNat_cast, BitVec.extractLsb_toNat, Nat.shiftRight_eq_div_pow]
    change bits.toNat / 2 ^ 63 % 2 = bits.toNat / 2 ^ 63
    omega
  unfold UnpackedFloat.Sign.ofBitVec
  by_cases zero : bits >>> 63 = 0
  · rw [zero] at high ⊢
    have same : @unpackSign Format.binary64 bits.toBitVec = 0#1 := BitVec.eq_of_toNat_eq high
    rw [same]
    rfl
  · have other : @unpackSign Format.binary64 bits.toBitVec ≠ 0#1 := by
      intro same
      rw [same] at high
      exact zero (UInt64.toNat_inj.1 high.symm)
    rw [if_neg other, if_pos (bne_iff_ne.2 zero)]

private theorem unpack_of_ofBits {bits : UInt64} {negative : Bool} {m : Nat} {e : Int}
    (exact : Exact.ofBits bits = .finite ⟨negative, m, e⟩) :
    UnpackedFloat.unpack Format.binary64 bits.toBitVec =
      if positive : 0 < m then .finite (if negative then .negative else .positive) m e positive
      else .zero (if negative then .negative else .positive) := by
  have field := toNat_field bits
  have fraction := toNat_fraction bits
  have sign := ofBitVec_unpackSign bits
  unfold Exact.ofBits at exact
  simp only [field, fraction] at exact
  rw [UnpackedFloat.unpack]
  simp only [sign]
  split at exact
  · split at exact <;> cases exact
  · next notFull =>
    have full : @unpackExponent Format.binary64 bits.toBitVec ≠ -1#11 :=
      fun same => notFull (by rw [same]; rfl)
    rw [if_neg full]
    split at exact
    · next least =>
      cases exact
      have zero : @unpackExponent Format.binary64 bits.toBitVec = 0#11 :=
        BitVec.eq_of_toNat_eq least
      rw [if_pos zero]
      by_cases none : @unpackMantissa Format.binary64 bits.toBitVec = 0#52
      · rw [dif_pos none, dif_neg (by rw [none]; decide)]
      · have some : 0 < (@unpackMantissa Format.binary64 bits.toBitVec).toNat :=
          Nat.pos_of_ne_zero fun same => none (BitVec.eq_of_toNat_eq same)
        rw [dif_neg none, dif_pos some, zero]
        rfl
    · next some =>
      have normal : @unpackExponent Format.binary64 bits.toBitVec ≠ 0#11 :=
        fun same => some (by rw [same]; rfl)
      have hidden := toNat_hidden (@unpackMantissa Format.binary64 bits.toBitVec)
      cases exact
      rw [if_neg normal, dif_pos (Nat.add_pos_left (by decide) _)]
      refine UnpackedFloat.finite.injEq .. ▸ ⟨rfl, hidden, ?_⟩
      rw [bias_eq, leastExponent]
      omega

/-- A finite number is unpacked to what it stands for. -/
theorem unpack_of_exact {x : Float} {negative : Bool} {m : Nat} {e : Int}
    (exact : Exact.ofFloat x = .finite ⟨negative, m, e⟩) :
    x.toModel.unpack =
      if positive : 0 < m then .finite (if negative then .negative else .positive) m e positive
      else .zero (if negative then .negative else .positive) := unpack_of_ofBits exact

/-- A number that stands for zero is one of the zeros. -/
theorem eq_zero_of_exact {x : Float} {value : Binary} (exact : Exact.ofFloat x = .finite value)
    (zero : value.significand = 0) : x = 0.0 ∨ x = -0.0 := by
  have nothing : ¬0 < value.significand := by omega
  exact eq_zero_of_unpack ((unpack_of_exact exact).trans (dif_neg nothing))

/-- A finite machine number is equal to itself. -/
theorem beq_self {x : Float} (finite : x.isFinite) : x == x := by
  change (x.toModel.unpack.compare x.toModel.unpack == some .eq) = true
  change x.toModel.unpack.isFinite = true at finite
  cases unpacked : x.toModel.unpack with
  | notANumber => simp [unpacked, UnpackedFloat.isFinite] at finite
  | infinity sign => simp [unpacked, UnpackedFloat.isFinite] at finite
  | zero sign => cases sign <;> rfl
  | finite sign mantissa exponent positive => cases sign <;> simp [UnpackedFloat.compare]

/-- Which of two numbers is the smaller one does not depend on which is asked about. -/
theorem swap_compare (a b : UnpackedFloat) : (a.compare b).map .swap = b.compare a := by
  cases a with
  | notANumber => cases b <;> simp [UnpackedFloat.compare]
  | infinity sign =>
    cases b with
    | infinity sign' => cases sign <;> cases sign' <;> rfl
    | _ => cases sign <;> rfl
  | zero sign =>
    cases b with
    | infinity sign' => cases sign' <;> rfl
    | finite sign' _ _ _ => cases sign' <;> rfl
    | _ => rfl
  | finite sign mantissa exponent _ =>
    cases b with
    | infinity sign' => cases sign <;> cases sign' <;> rfl
    | zero _ => cases sign <;> rfl
    | notANumber => cases sign <;> rfl
    | finite sign' mantissa' exponent' _ =>
      cases sign <;> cases sign' <;>
        simp [UnpackedFloat.compare, Ordering.swap_then, ← Std.OrientedOrd.eq_swap]

theorem isSome_compare {a b : UnpackedFloat} (first : a.isFinite) (second : b.isFinite) :
    (a.compare b).isSome := by
  cases a with
  | notANumber | infinity _ => cases first
  | zero sign | finite sign _ _ _ =>
    cases b with
    | notANumber | infinity _ => cases second
    | zero sign' | finite sign' _ _ _ => cases sign <;> cases sign' <;> rfl

/-- Finite numbers are in order, one way or the other. -/
theorem not_lt_iff {x y : Float} (first : x.isFinite) (second : y.isFinite) :
    ¬x < y ↔ y ≤ x := by
  have comparable : (x.toModel.unpack.compare y.toModel.unpack).isSome :=
    isSome_compare first second
  obtain ⟨order, compared⟩ := Option.isSome_iff_exists.1 comparable
  have swapped := swap_compare x.toModel.unpack y.toModel.unpack
  have less : x < y ↔ order = .lt := by
    change decide ((x.toModel.unpack.compare y.toModel.unpack == some .lt) = true) = true ↔ _
    simp [compared]
  have most : y ≤ x ↔ order.swap.isLE := by
    change decide ((y.toModel.unpack.compare x.toModel.unpack).any (·.isLE) = true) = true ↔ _
    simp [← swapped, compared]
  rw [less, most]
  cases order <;> decide

end Billiard.Decimal
