import Mathlib
import Reckon.Number.Double

/-!
Doubles by their fields. Sign, exponent field and fraction make up the bits of a double, and with
them what the arithmetic works on: a finite double other than a zero is its significand at its
scale, which starts at `2 ^ -1074`. A change of sign changes no other field, so a double that is
not NaN is its size with its sign.
-/

namespace Reckon.Double

open Float.Model (Format UnpackedFloat)
open Float.Model.UnpackedFloat (Sign unpackSign unpackExponent unpackMantissa packComponents)

variable {x y : Float}

abbrev bits (x : Float) : BitVec Format.binary64.numBits :=
  x.toBits.toBitVec

theorem bits_inj : bits x = bits y ↔ x = y := by
  rw [UInt64.toBitVec_inj, Float.toBits_inj]

def sign (x : Float) : Sign :=
  .ofBitVec (unpackSign (bits x))

theorem exponentField_eq (x : Float) : exponentField x = (unpackExponent (bits x)).toNat := by
  rw [Float.Model.UnpackedFloat.unpackExponent_def, BitVec.extractLsb'_toNat,
    Nat.shiftRight_eq_div_pow]
  rfl

theorem fraction_eq (x : Float) :
    x.toBits.toNat % leadingBit = (unpackMantissa (bits x)).toNat := by
  rw [Float.Model.UnpackedFloat.unpackMantissa_def, BitVec.extractLsb'_toNat, Nat.shiftRight_zero]
  rfl

theorem sign_eq (x : Float) : sign x = if isNegative x then .negative else .positive := by
  have below := x.toBits.toNat_lt
  have half : (unpackSign (bits x)).toNat = x.toBits.toNat / 0x8000000000000000 := by
    rw [Float.Model.UnpackedFloat.unpackSign_def, BitVec.extractLsb'_toNat,
      Nat.shiftRight_eq_div_pow]
    change x.toBits.toNat / 0x8000000000000000 % 2 = _
    omega
  have zero : unpackSign (bits x) = 0#1 ↔ ¬ 0x8000000000000000 ≤ x.toBits.toNat := by
    rw [← BitVec.toNat_inj, half]
    change _ = 0 ↔ _
    omega
  simp only [sign, Sign.ofBitVec, zero, isNegative, ite_not, decide_eq_true_eq]

theorem isNegative_congr (same : sign x = sign y) : isNegative x = isNegative y := by
  rw [sign_eq, sign_eq] at same
  cases negative : isNegative x <;> cases negative' : isNegative y <;> simp_all

theorem bits_eq (x : Float) : bits x =
    packComponents .binary64 (sign x) (unpackExponent (bits x)) (unpackMantissa (bits x)) :=
  (Float.Model.UnpackedFloat.packComponents_unpackSign_unpackExponent_unpackMantissa _).symm

abbrev unpacked (x : Float) : UnpackedFloat :=
  .unpack .binary64 (bits x)

theorem pack_unpacked (x : Float) : (unpacked x).pack .binary64 = bits x :=
  Float.Model.UnpackedFloat.pack_unpack_of_valid x.toModel.valid

theorem unpacked_inj : unpacked x = unpacked y ↔ x = y :=
  (Float.Model.UnpackedFloat.unpack_inj_of_valid x.toModel.valid y.toModel.valid).trans bits_inj

theorem exponentField_eq_zero : exponentField x = 0 ↔ unpackExponent (bits x) = 0#11 := by
  rw [exponentField_eq, ← BitVec.toNat_inj]
  rfl

theorem exponentField_eq_top : exponentField x = 0x7ff ↔ unpackExponent (bits x) = -1#11 := by
  rw [exponentField_eq, ← BitVec.toNat_inj]
  rfl

theorem toNat_append_one (m : BitVec 52) : (1#1 ++ m).toNat = leadingBit + m.toNat := by
  rw [BitVec.toNat_append, ← Nat.shiftLeft_add_eq_or_of_lt m.isLt]
  rfl

theorem unpacked_eq (x : Float) : unpacked x =
    if exponentField x = 0x7ff then
      if x.toBits.toNat % leadingBit = 0 then .infinity (sign x) else .notANumber
    else if zero : significand x = 0 then .zero (sign x)
    else .finite (sign x) (significand x) (scale x - 1074) (Nat.pos_of_ne_zero zero) := by
  have mantissa : x.toBits.toNat % leadingBit = 0 ↔ unpackMantissa (bits x) = 0#52 := by
    rw [fraction_eq, ← BitVec.toNat_inj]
    rfl
  unfold unpacked UnpackedFloat.unpack
  dsimp only
  rw [← sign]
  by_cases top : exponentField x = 0x7ff
  · rw [if_pos (exponentField_eq_top.mp top), if_pos top]
    simp only [mantissa]
  rw [if_neg (mt exponentField_eq_top.mpr top), if_neg top]
  by_cases low : exponentField x = 0
  · have significand_eq : significand x = (unpackMantissa (bits x)).toNat := by
      rw [significand, if_pos low, fraction_eq]
    have scale_eq : scale x = 0 := by rw [scale, low]
    have empty : significand x = 0 ↔ unpackMantissa (bits x) = 0#52 := by
      rw [significand_eq, ← BitVec.toNat_inj]
      rfl
    rw [if_pos (exponentField_eq_zero.mp low)]
    by_cases zero : significand x = 0
    · rw [dif_pos (empty.mp zero), dif_pos zero]
    · rw [dif_neg (mt empty.mpr zero), dif_neg zero]
      congr 1
      · exact significand_eq.symm
      · rw [scale_eq, exponentField_eq_zero.mp low]
        rfl
  · have significand_eq : significand x = (1#1 ++ unpackMantissa (bits x)).toNat := by
      rw [significand, if_neg low, fraction_eq, toNat_append_one]
    have nonzero : significand x ≠ 0 := by
      rw [significand_eq, toNat_append_one]
      exact Nat.ne_of_gt (Nat.add_pos_left (by decide) _)
    rw [if_neg (mt exponentField_eq_zero.mpr low), dif_neg nonzero]
    congr 1
    · exact significand_eq.symm
    · have shift : (exponentField x : Int) - 1075 = (exponentField x - 1 : Nat) - 1074 := by omega
      rw [← exponentField_eq]
      exact shift

theorem isFinite_iff : x.isFinite = true ↔ exponentField x ≠ 0x7ff := by
  change (unpacked x).isFinite = true ↔ _
  rw [unpacked_eq]
  split
  · next top => split <;> simp [UnpackedFloat.isFinite, top]
  · next other => split <;> simp [UnpackedFloat.isFinite, other]

theorem exponentField_of_infinite (infinite : ¬ x.isFinite) : exponentField x = 0x7ff :=
  not_not.mp (mt isFinite_iff.mpr infinite)

theorem isNaN_of_isFinite (finite : x.isFinite) : x.isNaN = false := by
  have finite' : (unpacked x).isFinite = true := finite
  change (unpacked x).isNaN = false
  cases found : unpacked x with
  | notANumber => simp [found, UnpackedFloat.isFinite] at finite'
  | _ => rfl

theorem beq_self_of_isFinite (finite : x.isFinite) : (x == x) = true := by
  have number := isNaN_of_isFinite finite
  rw [Float.isNaN_eq_decide_eq_nan] at number
  exact Float.beq_self_iff.mpr (of_decide_eq_false number)

theorem unpacked_zero (finite : x.isFinite) (zero : significand x = 0) :
    unpacked x = .zero (sign x) := by
  rw [unpacked_eq, if_neg (isFinite_iff.mp finite), dif_pos zero]

theorem unpacked_finite (finite : x.isFinite) (pos : 0 < significand x) :
    unpacked x = .finite (sign x) (significand x) (scale x - 1074) pos := by
  rw [unpacked_eq, if_neg (isFinite_iff.mp finite), dif_neg (Nat.ne_of_gt pos)]

theorem bits_abs (x : Float) : bits x.abs =
    packComponents .binary64 .positive (unpackExponent (bits x)) (unpackMantissa (bits x)) := by
  have packed : ∀ u : UnpackedFloat, u.abs.pack .binary64 = packComponents .binary64 .positive
      (unpackExponent (u.pack .binary64)) (unpackMantissa (u.pack .binary64)) := by
    intro u
    cases u with
    | finite =>
      simp only [UnpackedFloat.abs, UnpackedFloat.pack]
      split
      · simp [UnpackedFloat.packedInfinity]
      · split <;> simp
    | _ => simp [UnpackedFloat.abs, UnpackedFloat.pack, UnpackedFloat.packedInfinity,
        UnpackedFloat.packedZero, UnpackedFloat.packedNaN]
  rw [← pack_unpacked x]
  exact packed (unpacked x)

theorem unpackExponent_abs (x : Float) :
    unpackExponent (bits x.abs) = unpackExponent (bits x) := by
  rw [bits_abs, Float.Model.UnpackedFloat.unpackExponent_packComponents]

theorem unpackMantissa_abs (x : Float) :
    unpackMantissa (bits x.abs) = unpackMantissa (bits x) := by
  rw [bits_abs, Float.Model.UnpackedFloat.unpackMantissa_packComponents]

theorem sign_abs (x : Float) : sign x.abs = .positive := by
  rw [sign, bits_abs, Float.Model.UnpackedFloat.unpackSign_packComponents,
    Sign.ofBitVec_toBitVec]

@[simp]
theorem isNegative_abs (x : Float) : isNegative x.abs = false := by
  have positive := sign_abs x
  rw [sign_eq] at positive
  by_contra negative
  simp [negative] at positive

@[simp]
theorem exponentField_abs (x : Float) : exponentField x.abs = exponentField x := by
  rw [exponentField_eq, exponentField_eq, unpackExponent_abs]

theorem fraction_abs (x : Float) :
    x.abs.toBits.toNat % leadingBit = x.toBits.toNat % leadingBit := by
  rw [fraction_eq, fraction_eq, unpackMantissa_abs]

@[simp]
theorem significand_abs (x : Float) : significand x.abs = significand x := by
  simp only [significand, fraction_abs, exponentField_abs]

@[simp]
theorem scale_abs (x : Float) : scale x.abs = scale x := by
  rw [scale, scale, exponentField_abs]

@[simp]
theorem magnitude_abs (x : Float) : magnitude x.abs = magnitude x := by
  rw [magnitude, magnitude, significand_abs, scale_abs]

theorem isFinite_abs (finite : x.isFinite) : x.abs.isFinite = true := by
  rw [isFinite_iff, exponentField_abs]
  exact isFinite_iff.mp finite

theorem unpacked_abs (x : Float) : unpacked x.abs = (unpacked x).abs := by
  rw [unpacked_eq, unpacked_eq, exponentField_abs, fraction_abs, sign_abs]
  simp only [significand_abs, scale_abs]
  split
  · split <;> rfl
  · split <;> rfl

theorem neg_abs (number : x.isNaN = false) (negative : sign x = .negative) : -x.abs = x := by
  have solid : (unpacked x).isNaN = false := number
  have negated : (unpacked x.abs).neg = unpacked x := by
    rw [unpacked_abs]
    rw [unpacked_eq, negative] at solid ⊢
    split at solid
    · next top =>
      rw [if_pos top]
      split at solid
      · next empty => rw [if_pos empty]; rfl
      · exact absurd solid (by decide)
    · next other =>
      rw [if_neg other]
      split <;> rfl
  have packed : bits (-x.abs) = (unpacked x.abs).neg.pack .binary64 := rfl
  rw [← bits_inj, packed, negated, pack_unpacked]

theorem withSign_abs (number : x.isNaN = false) : withSign (isNegative x) x.abs = x := by
  have signed := sign_eq x
  cases negative : isNegative x with
  | false =>
    rw [negative] at signed
    refine bits_inj.mp ?_
    calc bits x.abs = packComponents .binary64 (sign x) (unpackExponent (bits x))
          (unpackMantissa (bits x)) := by rw [bits_abs, signed, if_neg Bool.false_ne_true]
      _ = bits x := (bits_eq x).symm
  | true =>
    rw [negative] at signed
    exact neg_abs number signed

theorem eq_notANumber (blank : x.isNaN = true) : x = notANumber := by
  have same : notANumber = Float.nan := by decide +kernel
  rw [Float.isNaN_eq_decide_eq_nan, ← same] at blank
  exact of_decide_eq_true blank

theorem unpacked_infinity : unpacked infinity = .infinity .positive :=
  rfl

theorem unpacked_literal_zero : unpacked 0 = .zero .positive :=
  rfl

theorem abs_eq_infinity (number : x.isNaN = false) (infinite : ¬ x.isFinite) :
    x.abs = infinity := by
  have solid : (unpacked x).isNaN = false := number
  have top := exponentField_of_infinite infinite
  rw [← unpacked_inj, unpacked_infinity, unpacked_abs]
  rw [unpacked_eq, if_pos top] at solid ⊢
  split at solid
  · next empty => rw [if_pos empty]; rfl
  · exact absurd solid (by decide)

theorem infinite_cases (infinite : ¬ x.isFinite) :
    x = notANumber ∨ x = infinity ∨ x = -infinity := by
  by_cases number : x.isNaN = false
  · have signed := withSign_abs number
    rw [abs_eq_infinity number infinite] at signed
    cases negative : isNegative x with
    | false => exact .inr (.inl (by rw [← signed, negative]; rfl))
    | true => exact .inr (.inr (by rw [← signed, negative]; rfl))
  · exact .inl (eq_notANumber (Bool.eq_true_of_not_eq_false number))

theorem beq_infinity (finite : x.isFinite) : (x == infinity) = false := by
  refine Bool.eq_false_iff.mpr fun same => ?_
  obtain ⟨-, -, rfl | ⟨-, zero⟩ | ⟨-, zero⟩⟩ := Float.beq_iff_ne_nan_and_eq.mp same
  · exact absurd finite (by decide +kernel)
  · exact absurd zero (by decide +kernel)
  · exact absurd zero (by decide +kernel)

theorem eq_zero_of_beq (zero : (x == 0) = true) : x = 0 ∨ x = -0 := by
  obtain ⟨-, -, same | ⟨same, -⟩ | ⟨same, -⟩⟩ := Float.beq_iff_ne_nan_and_eq.mp zero
  · exact .inl same
  · exact .inl same
  · exact .inr same

theorem beq_zero_iff (finite : x.isFinite) : (x == 0) = true ↔ significand x = 0 := by
  have compared : (x == 0) = (unpacked x).beq (unpacked 0) := rfl
  rw [compared, unpacked_literal_zero]
  rcases Nat.eq_zero_or_pos (significand x) with zero | pos
  · rw [unpacked_zero finite zero]
    exact iff_of_true rfl zero
  · rw [unpacked_finite finite pos]
    refine iff_of_false ?_ (Nat.ne_of_gt pos)
    cases sign x <;> exact Bool.false_ne_true

theorem abs_eq_zero (finite : x.isFinite) (zero : significand x = 0) : x.abs = 0 := by
  rw [← unpacked_inj, unpacked_abs, unpacked_zero finite zero]
  rfl

end Reckon.Double
