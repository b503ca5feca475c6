import Reckon.Number.Shortest
import Reckon.Proofs.Number.Fields

/-!
Rounding where there is nothing to round. A quotient that is a double gives that double, so the
shortest digits of a positive number have the number as their value, whichever decimals were tried:
the exact one stands behind them, and it has so many digits that no exponent settles its value.
-/

namespace Reckon

namespace Double

variable {x y : Float} {numerator denominator : Nat}

theorem exponentField_lt (x : Float) : exponentField x < 0x800 :=
  Nat.mod_lt _ (by decide)

theorem significand_lt (x : Float) : significand x < 2 * leadingBit := by
  have fraction : x.toBits.toNat % leadingBit < leadingBit := Nat.mod_lt _ (by decide)
  unfold significand
  dsimp only
  split <;> omega

theorem leadingBit_le (scaled : 0 < scale x) : leadingBit ≤ significand x := by
  have field : exponentField x ≠ 0 := fun zero => by simp [scale, zero] at scaled
  rw [significand, if_neg field]
  exact Nat.le_add_right _ _

theorem toNat_toBits (nonnegative : isNegative x = false) :
    scale x * leadingBit + significand x = x.toBits.toNat := by
  have small : x.toBits.toNat < 0x8000000000000000 := by simpa [isNegative] using nonnegative
  have field : exponentField x = x.toBits.toNat / leadingBit :=
    Nat.mod_eq_of_lt (by unfold leadingBit; omega)
  have divided := Nat.div_add_mod x.toBits.toNat leadingBit
  unfold significand scale
  rw [field]
  dsimp only
  generalize x.toBits.toNat = n at *
  unfold leadingBit at *
  split <;> omega

theorem log2_magnitude (x : Float) : (magnitude x).log2 - 52 = scale x := by
  have below := significand_lt x
  rw [magnitude, Nat.shiftLeft_eq]
  by_cases scaled : 0 < scale x
  · have above := leadingBit_le scaled
    have leading : (significand x * 2 ^ scale x).log2 = 52 + scale x := by
      refine (Nat.log2_eq_iff (by positivity)).mpr ⟨?_, ?_⟩
      · rw [Nat.pow_add]
        exact Nat.mul_le_mul_right _ above
      · rw [Nat.add_right_comm, Nat.pow_add]
        exact Nat.mul_lt_mul_of_pos_right below (by positivity)
    omega
  · have scale_eq : scale x = 0 := Nat.eq_zero_of_not_pos scaled
    rw [scale_eq, Nat.pow_zero, Nat.mul_one]
    by_cases zero : significand x = 0
    · rw [zero]
      rfl
    · have leading : (significand x).log2 < 53 := (Nat.log2_lt zero).mpr below
      omega

theorem nearest_exact (finite : x.isFinite) (nonnegative : isNegative x = false)
    (positive : 0 < denominator) (exact : numerator <<< 1074 = magnitude x * denominator) :
    nearest numerator denominator = x := by
  have below : exponentField x ≤ 0x7fe := by
    have field := exponentField_lt x
    have top := isFinite_iff.mp finite
    omega
  have quotient : magnitude x * denominator / denominator = magnitude x :=
    Nat.mul_div_cancel _ positive
  have rounded : roundHalfEven (magnitude x * denominator) (denominator <<< scale x) =
      significand x := by
    have factors : magnitude x * denominator = significand x * (denominator <<< scale x) := by
      rw [magnitude, Nat.shiftLeft_eq, Nat.shiftLeft_eq, Nat.mul_assoc,
        Nat.mul_comm (2 ^ scale x) denominator]
    rw [factors]
    refine roundHalfEven_mul _ _ ?_
    rw [Nat.shiftLeft_eq]
    positivity
  have fits : x.toBits.toNat ≤ 0x7ff0000000000000 := by
    rw [← toNat_toBits nonnegative]
    have small := significand_lt x
    unfold scale
    unfold leadingBit at *
    omega
  rw [nearest, exact, quotient, log2_magnitude, rounded, toNat_toBits nonnegative,
    Nat.min_eq_left fits, UInt64.ofNat_toNat, Float.ofBits_toBits]

theorem magnitude_eq_zero : magnitude x = 0 ↔ significand x = 0 := by
  rw [magnitude, Nat.shiftLeft_eq_zero_iff]

end Double

namespace Shortest

open Double

variable {x : Float} {tie : Tie}

theorem ten_pow_pos (k : Nat) : 0 < Nat.pow 10 k :=
  Nat.pow_pos (by decide)

theorem five_mul_shiftLeft (n k : Nat) : (n * Nat.pow 5 k) <<< k = n * Nat.pow 10 k := by
  rw [Nat.shiftLeft_eq, Nat.mul_assoc]
  exact congrArg (n * ·) (Nat.mul_pow 5 2 k).symm

theorem mul_five_ne_zero {n : Nat} (positive : 0 < n) (k : Nat) : n * Nat.pow 5 k ≠ 0 :=
  Nat.mul_ne_zero (Nat.ne_of_gt positive) (Nat.ne_of_gt (Nat.pow_pos (by decide)))

theorem le_log2_mul_five {n : Nat} (positive : 0 < n) (k : Nat) :
    k ≤ (n * Nat.pow 5 k).log2 := by
  refine (Nat.le_log2 (mul_five_ne_zero positive k)).mpr ?_
  calc 2 ^ k ≤ 5 ^ k := Nat.pow_le_pow_left (by decide) k
    _ ≤ n * 5 ^ k := Nat.le_mul_of_pos_left _ positive

theorem value_decimal (finite : x.isFinite) (nonnegative : isNegative x = false)
    (positive : 0 < significand x) {places : Nat} (all : places = 1074) :
    Decimal.value (magnitude x * Nat.pow 5 places) (-places) = x := by
  have sized : 0 < magnitude x := Nat.pos_of_ne_zero fun zero =>
    absurd (magnitude_eq_zero.mp zero) (Nat.ne_of_gt positive)
  have nonzero := mul_five_ne_zero sized places
  have long := le_log2_mul_five sized places
  have opposite : (- -(places : Int)).toNat = places := by omega
  rw [Decimal.value, if_neg, if_neg (by omega), if_neg (by omega), opposite]
  · refine nearest_exact finite nonnegative (ten_pow_pos places) ?_
    rw [← all, five_mul_shiftLeft]
  · omega

theorem value_exact (finite : x.isFinite) (nonnegative : isNegative x = false)
    (positive : 0 < significand x) : (exact x).value = x := by
  have exponent : (-1074 : Int) = -(1074 : Nat) := rfl
  unfold exact Digits.value
  rw [exponent]
  generalize same : 1074 = places
  exact value_decimal finite nonnegative positive same.symm

/-- The shortest digits of a positive number read back. -/
theorem value_ofPositive (finite : x.isFinite) (nonnegative : isNegative x = false)
    (positive : 0 < significand x) : (ofPositive tie x).value = x := by
  cases readsBack_or_exact tie x with
  | inl found => exact Float.toBits_inj.mp (of_decide_eq_true found)
  | inr found => rw [found, value_exact finite nonnegative positive]

theorem digits_pos (finite : x.isFinite) (nonnegative : isNegative x = false)
    (positive : 0 < significand x) : 0 < (ofPositive tie x).digits := by
  have value : (ofPositive tie x).value = x := value_ofPositive finite nonnegative positive
  refine Nat.pos_of_ne_zero fun zero => ?_
  rw [Digits.value, zero, Decimal.value, if_pos (.inl rfl)] at value
  subst value
  exact absurd positive (by decide +kernel)

end Shortest

end Reckon
