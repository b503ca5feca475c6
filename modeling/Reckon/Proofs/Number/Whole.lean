import Reckon.Number.WholePart
import Reckon.Proofs.Number.Difference

/-!
Whole numbers among the doubles. A finite number without a fraction is its whole part with its
sign, and what is less than `10 ^ 15` in size has a whole part far below every bound of a 64-bit
integer.
-/

namespace Reckon.WholePart

open Double
open Float.Model (UnpackedFloat)

variable {x : Float}

theorem beq_truncate (finite : x.isFinite) (whole : (fraction x == 0) = true) :
    (x == withSign (isNegative x) (nearest (size x) 1)) = true := by
  have truncated : truncate x = withSign (isNegative x) (nearest (size x) 1) := if_pos finite
  rw [← truncated]
  exact beq_of_difference finite whole

theorem scale_eq_zero (zero : significand x = 0) : scale x = 0 :=
  Nat.eq_zero_of_not_pos fun scaled => absurd (leadingBit_le scaled) (by rw [zero]; decide)

theorem scale_le_of_lt (small : x.abs < 1000000000000000) :
    x.isFinite = true ∧ scale x ≤ 1071 := by
  have compared : (unpacked x.abs).lt (unpacked 1000000000000000) = true := of_decide_eq_true small
  have positive : isNegative 1000000000000000 = false := by decide +kernel
  have top : scale 1000000000000000 = 1071 := by decide +kernel
  rw [unpacked_abs, unpacked_finite (x := 1000000000000000) (by decide +kernel)
    (by decide +kernel), sign_eq, positive] at compared
  have finite : x.isFinite = true := by
    by_contra infinite
    rw [unpacked_eq x, if_pos (exponentField_of_infinite infinite)] at compared
    split at compared <;> exact absurd compared Bool.false_ne_true
  refine ⟨finite, ?_⟩
  rcases Nat.eq_zero_or_pos (significand x) with zero | pos
  · rw [scale_eq_zero zero]
    exact Nat.zero_le _
  · rw [unpacked_finite finite pos] at compared
    by_contra above
    have greater : compare ((scale x : Int) - 1074) ((scale 1000000000000000 : Int) - 1074) = .gt :=
      Int.compare_eq_gt.mpr (by omega)
    simp [UnpackedFloat.lt, UnpackedFloat.abs, UnpackedFloat.compare, greater] at compared

theorem size_lt (small : x.abs < 1000000000000000) : size x < 2 * leadingBit := by
  have within := (scale_le_of_lt small).2
  have below := significand_lt x
  have shifts : 1074 = scale x + (1074 - scale x) := by omega
  rw [size, magnitude, shifts, Nat.shiftRight_add, Nat.shiftLeft_shiftRight]
  exact Nat.lt_of_le_of_lt (Nat.shiftRight_le _ _) below

end Reckon.WholePart
