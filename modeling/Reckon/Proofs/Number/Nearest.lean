import Reckon.Proofs.Number.Exact

/-!
How far a quotient is rounded. The nearest double is within half a unit of its last place, so a
natural number grows by no more than one part in `2 ^ 53`, and what is rounded to a finite double
is itself hardly above it. Sizes are natural numbers, in units of `2 ^ -1074`.
-/

namespace Reckon.Double

open Float.Model (Format)

variable {x : Float} {numerator denominator rounded steps : Nat}

theorem roundHalfEven_bounds (numerator denominator : Nat) :
    numerator / denominator ≤ roundHalfEven numerator denominator ∧
      roundHalfEven numerator denominator ≤ numerator / denominator + 1 := by
  unfold roundHalfEven
  dsimp only
  split <;> omega

theorem roundHalfEven_error (numerator : Nat) (positive : 0 < denominator) :
    2 * numerator ≤ (2 * roundHalfEven numerator denominator + 1) * denominator ∧
      2 * (roundHalfEven numerator denominator * denominator) ≤ 2 * numerator + denominator := by
  have parts := Nat.div_add_mod numerator denominator
  have below := Nat.mod_lt numerator positive
  unfold roundHalfEven
  dsimp only
  generalize numerator / denominator = quotient at *
  generalize numerator % denominator = rest at *
  split
  · next less =>
    rw [Nat.compare_eq_lt] at less
    constructor <;> nlinarith
  · next half =>
    rw [Nat.compare_eq_eq] at half
    obtain even | odd := Nat.mod_two_eq_zero_or_one quotient
    · rw [even]
      constructor <;> nlinarith
    · rw [odd]
      constructor <;> nlinarith
  · next more =>
    rw [Nat.compare_eq_gt] at more
    constructor <;> nlinarith

theorem magnitude_of_bits (low : steps = 0 ∨ leadingBit ≤ rounded)
    (high : rounded ≤ 2 * leadingBit) (fits : steps * leadingBit + rounded < 0x7ff0000000000000)
    (bits : x.toBits.toNat = steps * leadingBit + rounded) :
    magnitude x = rounded <<< steps := by
  have fields (field fraction : Nat) (parts : steps * leadingBit + rounded =
      field * leadingBit + fraction) (small : fraction < leadingBit) :
      exponentField x = field ∧ x.toBits.toNat % leadingBit = fraction := by
    unfold exponentField
    rw [bits, parts]
    unfold leadingBit at *
    omega
  rcases Nat.lt_or_ge rounded leadingBit with short | leading
  · obtain rfl := low.resolve_right (Nat.not_le_of_lt short)
    obtain ⟨field, fraction⟩ := fields 0 rounded rfl short
    rw [magnitude, significand, scale, field, fraction]
    rfl
  · rcases Nat.lt_or_eq_of_le high with below | rfl
    · obtain ⟨field, fraction⟩ := fields (steps + 1) (rounded - leadingBit)
        (by unfold leadingBit at *; omega) (by unfold leadingBit at *; omega)
      rw [magnitude, significand, scale, field, fraction, if_neg (Nat.succ_ne_zero _),
        Nat.add_sub_of_le leading, Nat.add_sub_cancel]
    · -- The carry is a step of its own.
      obtain ⟨field, fraction⟩ := fields (steps + 2) 0 (by unfold leadingBit at *; omega) (by decide)
      rw [magnitude, significand, scale, field, fraction, if_neg (Nat.succ_ne_zero _)]
      change leadingBit <<< (steps + 1) = _
      rw [Nat.add_comm, Nat.shiftLeft_add]
      rfl

theorem toBits_ofBits {u : UInt64} (number : u.toNat ≤ 0x7ff0000000000000) :
    (Float.ofBits u).toBits = u := by
  have valid : Format.binary64.Valid u.toBitVec := by
    refine ⟨fun top nonzero => absurd (BitVec.eq_of_toNat_eq ?_) nonzero⟩
    have field := congrArg BitVec.toNat top
    rw [Float.Model.UnpackedFloat.unpackExponent_def, BitVec.extractLsb'_toNat,
      Nat.shiftRight_eq_div_pow] at field
    rw [Float.Model.UnpackedFloat.unpackMantissa_def, BitVec.extractLsb'_toNat,
      Nat.shiftRight_zero]
    change u.toNat / 0x10000000000000 % 0x800 = 0x7ff at field
    change u.toNat % 0x10000000000000 = 0
    omega
  exact UInt64.toBitVec_inj.mp (Float.Model.UnpackedFloat.pack_unpack_of_valid valid)

/-- The steps of the nearest double, before the significand carries. -/
def nearestScale (numerator denominator : Nat) : Nat :=
  (numerator <<< 1074 / denominator).log2 - 52

theorem nearestScale_bounds (numerator denominator : Nat) :
    (nearestScale numerator denominator = 0 ∨
      leadingBit ≤ numerator <<< 1074 / (denominator <<< nearestScale numerator denominator)) ∧
    numerator <<< 1074 / (denominator <<< nearestScale numerator denominator) < 2 * leadingBit := by
  unfold nearestScale
  generalize numerator <<< 1074 = units
  rw [Nat.shiftLeft_eq, ← Nat.div_div_eq_div_mul]
  generalize units / denominator = quotient
  have most : quotient < 2 ^ (53 + (quotient.log2 - 52)) :=
    Nat.lt_of_lt_of_le Nat.lt_log2_self (Nat.pow_le_pow_right (by decide) (by omega))
  refine ⟨?_, ?_⟩
  · rcases Nat.lt_or_ge quotient.log2 52 with short | long
    · exact .inl (by omega)
    · have nonzero : quotient ≠ 0 := by
        rintro rfl
        exact absurd long (by decide)
      refine .inr ((Nat.le_div_iff_mul_le (by positivity)).mpr ?_)
      refine Nat.le_trans ?_ (Nat.log2_self_le nonzero)
      rw [show quotient.log2 = 52 + (quotient.log2 - 52) by omega, Nat.pow_add]
      exact Nat.le_of_eq (by rw [Nat.add_sub_cancel_left])
  · rw [Nat.div_lt_iff_lt_mul (by positivity)]
    rwa [Nat.pow_add] at most

theorem toBits_nearest (numerator denominator : Nat) :
    (nearest numerator denominator).toBits.toNat =
      min (nearestScale numerator denominator * leadingBit +
        roundHalfEven (numerator <<< 1074) (denominator <<< nearestScale numerator denominator))
        0x7ff0000000000000 := by
  have value := UInt64.toNat_ofNat_of_lt' (Nat.lt_of_le_of_lt (Nat.min_le_right
    (nearestScale numerator denominator * leadingBit + roundHalfEven (numerator <<< 1074)
      (denominator <<< nearestScale numerator denominator)) 0x7ff0000000000000) (by decide))
  unfold nearest
  dsimp only
  rw [← nearestScale, toBits_ofBits, value]
  rw [value]
  exact Nat.min_le_right _ _

/-- A number that is rounded to a finite double is rounded at the last place of some scale. -/
theorem magnitude_nearest (finite : (nearest numerator denominator).isFinite) :
    nearestScale numerator denominator ≤ 2045 ∧ magnitude (nearest numerator denominator) =
      roundHalfEven (numerator <<< 1074) (denominator <<< nearestScale numerator denominator) <<<
        nearestScale numerator denominator := by
  have bits := toBits_nearest numerator denominator
  obtain ⟨low, high⟩ := nearestScale_bounds numerator denominator
  have near := roundHalfEven_bounds (numerator <<< 1074)
    (denominator <<< nearestScale numerator denominator)
  have proper := isFinite_iff.mp finite
  unfold exponentField at proper
  generalize nearestScale numerator denominator = steps at *
  generalize roundHalfEven (numerator <<< 1074) (denominator <<< steps) = rounded at *
  generalize numerator <<< 1074 / denominator <<< steps = quotient at *
  unfold leadingBit at *
  have fits : steps * 0x10000000000000 + rounded < 0x7ff0000000000000 := by omega
  refine ⟨by omega, magnitude_of_bits ?_ ?_ fits ?_⟩ <;> unfold leadingBit <;> omega

theorem isFinite_nearest (small : nearestScale numerator denominator ≤ 2044) :
    (nearest numerator denominator).isFinite := by
  have bits := toBits_nearest numerator denominator
  have high := (nearestScale_bounds numerator denominator).2
  have near := (roundHalfEven_bounds (numerator <<< 1074)
    (denominator <<< nearestScale numerator denominator)).2
  refine isFinite_iff.mpr ?_
  unfold exponentField
  generalize nearestScale numerator denominator = steps at *
  generalize roundHalfEven (numerator <<< 1074) (denominator <<< steps) = rounded at *
  generalize numerator <<< 1074 / denominator <<< steps = quotient at *
  unfold leadingBit at *
  omega

theorem isFinite_nearest_of_lt {places : Nat} (below : numerator < 2 ^ places)
    (small : places ≤ 1023) : (nearest numerator 1).isFinite := by
  refine isFinite_nearest ?_
  have most : numerator <<< 1074 < 2 ^ (places + 1074) := by
    rw [Nat.shiftLeft_eq, Nat.pow_add]
    exact Nat.mul_lt_mul_of_pos_right below (by positivity)
  unfold nearestScale
  rw [Nat.div_one]
  generalize numerator <<< 1074 = units at *
  rcases Nat.eq_zero_or_pos units with rfl | pos
  · exact Nat.zero_le _
  · have digits := (Nat.log2_lt (Nat.ne_of_gt pos)).mpr most
    omega

theorem nearestScale_le (finite : (nearest numerator denominator).isFinite) :
    nearestScale numerator denominator ≤ scale (nearest numerator denominator) := by
  rcases Nat.eq_zero_or_pos (nearestScale numerator denominator) with zero | pos
  · rw [zero]
    exact Nat.zero_le _
  · have low := (nearestScale_bounds numerator denominator).1.resolve_left (Nat.ne_of_gt pos)
    have near := (roundHalfEven_bounds (numerator <<< 1074)
      (denominator <<< nearestScale numerator denominator)).1
    have leading := Nat.le_trans low near
    rw [← log2_magnitude, (magnitude_nearest finite).2, Nat.shiftLeft_eq]
    generalize roundHalfEven _ _ = rounded at leading ⊢
    generalize nearestScale numerator denominator = steps
    have digits : 52 + steps ≤ (rounded * 2 ^ steps).log2 := by
      have present : 0 < rounded := Nat.lt_of_lt_of_le (by decide) leading
      refine (Nat.le_log2 (Nat.ne_of_gt (Nat.mul_pos present (by positivity)))).mpr ?_
      rw [Nat.pow_add]
      exact Nat.mul_le_mul_right _ leading
    omega

theorem magnitude_nearest_le (finite : (nearest numerator 1).isFinite) :
    2 ^ 53 * magnitude (nearest numerator 1) ≤ (2 ^ 53 + 1) * numerator <<< 1074 := by
  have size := (magnitude_nearest finite).2
  have low := (nearestScale_bounds numerator 1).1
  rw [Nat.one_shiftLeft] at size low
  have error := (roundHalfEven_error (numerator <<< 1074)
    (show 0 < 2 ^ nearestScale numerator 1 by positivity)).2
  rw [Nat.shiftLeft_eq] at size
  rw [← size] at error
  generalize magnitude (nearest numerator 1) = size at *
  generalize numerator <<< 1074 = units at *
  rcases low with unscaled | leading
  · rw [unscaled] at error
    omega
  · rw [Nat.le_div_iff_mul_le (by positivity)] at leading
    unfold leadingBit at leading
    omega

theorem le_magnitude_nearest (positive : 0 < denominator)
    (finite : (nearest numerator denominator).isFinite) :
    2 * numerator <<< 1074 ≤ (2 * magnitude (nearest numerator denominator) +
      2 ^ nearestScale numerator denominator) * denominator := by
  have shifted : 0 < denominator <<< nearestScale numerator denominator := by
    rw [Nat.shiftLeft_eq]
    positivity
  have error := (roundHalfEven_error (numerator <<< 1074) shifted).1
  rw [(magnitude_nearest finite).2, Nat.shiftLeft_eq (roundHalfEven _ _)]
  generalize roundHalfEven _ _ = rounded at error ⊢
  generalize numerator <<< 1074 = units at error ⊢
  generalize nearestScale numerator denominator = steps at error ⊢
  calc 2 * units
    _ ≤ (2 * rounded + 1) * (denominator * 2 ^ steps) := by rwa [Nat.shiftLeft_eq] at error
    _ = (2 * (rounded * 2 ^ steps) + 2 ^ steps) * denominator := by ring

end Reckon.Double
