import Reckon.Proofs.Number.Exact

/-!
Differences of doubles. The significands of two doubles differ by whole units of `2 ^ -1074`, and
no such difference but zero is rounded away, so a difference is a zero only between equal numbers.
-/

namespace Reckon.Double

open Float.Model (Format UnpackedFloat)
open Float.Model.UnpackedFloat (Sign Accuracy ExtendedMantissa)

variable {x y : Float} {mantissa : Nat} {exponent : Int} {s : Sign}

theorem mantissa_shiftRight (em : ExtendedMantissa) (k : Nat) :
    (em >>> k).mantissa = em.mantissa / 2 ^ k := by
  induction k with
  | zero => exact (Nat.div_one _).symm
  | succ k ih =>
    change (em >>> k).mantissa / 2 = _
    rw [ih, Nat.div_div_eq_div_mul, Nat.pow_succ]

theorem mantissa_le_rounded (em : ExtendedMantissa) : em.mantissa ≤ em.roundedMantissa := by
  obtain ⟨m, round, sticky⟩ := em
  cases round <;> cases sticky <;> simp [ExtendedMantissa.roundedMantissa,
    ExtendedMantissa.accuracy, Accuracy.roundToNearestEven]

theorem mantissa_ofAccuracy (m : Nat) (accuracy : Accuracy) :
    (ExtendedMantissa.ofMantissaAndAccuracy m accuracy).mantissa = m := by
  rcases accuracy with _ | order
  · rfl
  · cases order <;> rfl

/-- A finite number other than zero, within the digits and above the least exponent of a double. -/
def Sized (u : UnpackedFloat) : Prop :=
  ∃ s m e, ∃ pos : 0 < m, u = .finite s m e pos ∧ m < 2 * leadingBit ∧ -1074 ≤ e

theorem targetExponent_eq (total : Int) :
    Format.binary64.targetExponent total = max (total - 53) (-1074) :=
  rfl

theorem shifted_bounds (pos : 0 < mantissa) (above : -1074 ≤ exponent) (accuracy : Accuracy) :
    let shifted := UnpackedFloat.shiftToTargetExponent .binary64 mantissa exponent accuracy
    0 < shifted.1.mantissa ∧ shifted.1.mantissa < 2 * leadingBit ∧ -1074 ≤ shifted.2 := by
  have shift : (Format.binary64.targetExponent
      (Float.Model.totalExponent mantissa exponent) - exponent).toNat = mantissa.log2 - 52 := by
    rw [targetExponent_eq, Float.Model.totalExponent]
    omega
  have least := Nat.log2_self_le (Nat.ne_of_gt pos)
  have most : mantissa < 2 ^ (53 + (mantissa.log2 - 52)) :=
    Nat.lt_of_lt_of_le Nat.lt_log2_self (Nat.pow_le_pow_right (by decide) (by omega))
  simp only [UnpackedFloat.shiftToTargetExponent, UnpackedFloat.shiftToExponent, shift,
    mantissa_shiftRight, mantissa_ofAccuracy]
  refine ⟨Nat.div_pos ?_ (by positivity), ?_, by omega⟩
  · exact Nat.le_trans (Nat.pow_le_pow_right (by decide) (Nat.sub_le _ _)) least
  · rw [Nat.div_lt_iff_lt_mul (by positivity)]
    rwa [Nat.pow_add] at most

theorem sized_roundWithAccuracy (pos : 0 < mantissa) (above : -1074 ≤ exponent)
    (accuracy : Accuracy) :
    Sized (UnpackedFloat.roundWithAccuracy .binary64 s mantissa exponent accuracy) := by
  obtain ⟨positive, -, above'⟩ := shifted_bounds pos above accuracy
  obtain ⟨positive', below, above''⟩ :=
    shifted_bounds (Nat.lt_of_lt_of_le positive (mantissa_le_rounded _)) above' .exact
  unfold UnpackedFloat.roundWithAccuracy
  dsimp only
  rw [dif_neg (Nat.ne_of_gt positive')]
  exact ⟨_, _, _, positive', rfl, below, above''⟩

theorem sized_round (pos : 0 < mantissa) (above : -1074 ≤ exponent) :
    Sized (UnpackedFloat.round .binary64 s mantissa exponent) := by
  unfold UnpackedFloat.round UnpackedFloat.decreaseExponent
  refine sized_roundWithAccuracy ?_ ?_ .exact
  · rw [Nat.shiftLeft_eq]
    positivity
  · rw [targetExponent_eq]
    omega

theorem sized_normalize {difference : Int} (nonzero : difference ≠ 0) (above : -1074 ≤ exponent) :
    Sized (UnpackedFloat.normalize .binary64 difference exponent s) := by
  unfold UnpackedFloat.normalize
  split
  · next less =>
    rw [Int.compare_eq_lt] at less
    exact sized_round (by omega) above
  · next same => exact absurd (Int.compare_eq_eq.mp same) nonzero
  · next greater =>
    rw [Int.compare_eq_gt] at greater
    exact sized_round (by omega) above

theorem Sized.pack {u : UnpackedFloat} (sized : Sized u) (s : Sign) :
    u.pack .binary64 ≠ UnpackedFloat.packedZero .binary64 s := by
  obtain ⟨_, m, e, pos, rfl, below, above⟩ := sized
  intro zero
  have fields : UnpackedFloat.unpackExponent (UnpackedFloat.packedZero .binary64 s) = 0#11 ∧
      UnpackedFloat.unpackMantissa (UnpackedFloat.packedZero .binary64 s) = 0#52 :=
    ⟨UnpackedFloat.unpackExponent_packComponents, UnpackedFloat.unpackMantissa_packComponents⟩
  rw [← zero] at fields
  unfold UnpackedFloat.pack at fields
  dsimp only at fields
  split at fields
  · next large =>
    rw [UnpackedFloat.packedInfinity, UnpackedFloat.unpackExponent_packComponents] at fields
    exact absurd fields.1 (by decide)
  · next small =>
    split at fields
    · next leading =>
      rw [UnpackedFloat.unpackExponent_packComponents] at fields
      have field := congrArg BitVec.toNat fields.1
      change (e + 1023 + 52).toNat % 2048 = 0 at field
      change ¬ 2048 ≤ (e + 1023 + 52).toNat + 1 at small
      omega
    · next short =>
      rw [UnpackedFloat.unpackMantissa_packComponents] at fields
      have field := congrArg BitVec.toNat fields.2
      change m % leadingBit = 0 at field
      have upper : m.log2 < 53 := (Nat.log2_lt (Nat.ne_of_gt pos)).mpr below
      have lower : m.log2 < 52 := Nat.lt_of_le_of_ne (Nat.le_of_lt_succ upper) fun same =>
        short (congrArg (· + 1) same)
      rw [Nat.mod_eq_of_lt ((Nat.log2_lt (Nat.ne_of_gt pos)).mp lower)] at field
      exact absurd field (Nat.ne_of_gt pos)

theorem shiftLeft_eq_mul (n k : Nat) : n <<< k = n * 1 <<< k := by
  rw [Nat.shiftLeft_eq, Nat.one_shiftLeft]

theorem eq_of_magnitude (finite : x.isFinite) (finite' : y.isFinite)
    (signs : isNegative x = isNegative y) (same : magnitude x = magnitude y) : x = y := by
  have positive (k : Nat) : 0 < 1 <<< k := by
    rw [Nat.one_shiftLeft]
    positivity
  have size {z : Float} (finite : z.isFinite) : nearest (magnitude z) (1 <<< 1074) = z.abs :=
    nearest_exact (isFinite_abs finite) (isNegative_abs z) (positive 1074)
      (by rw [magnitude_abs, shiftLeft_eq_mul])
  rw [← withSign_abs (isNaN_of_isFinite finite), ← withSign_abs (isNaN_of_isFinite finite'),
    ← size finite, ← size finite', signs, same]

theorem eq_of_apply {m m' k k' : Nat} {s s' : Sign} (pos : 0 < m) (pos' : 0 < m')
    (same : s.apply (m <<< (k - min k k') : Nat) - s'.apply (m' <<< (k' - min k k') : Nat) = 0) :
    s = s' ∧ m <<< k = m' <<< k' := by
  have left : 0 < m <<< (k - min k k') := by
    rw [Nat.shiftLeft_eq]
    positivity
  have right : 0 < m' <<< (k' - min k k') := by
    rw [Nat.shiftLeft_eq]
    positivity
  have alike : s = s' ∧ m <<< (k - min k k') = m' <<< (k' - min k k') := by
    cases s <;> cases s' <;> simp only [Sign.apply] at same <;> simp <;> omega
  refine ⟨alike.1, ?_⟩
  calc m <<< k = m <<< (k - min k k') <<< min k k' := by
        rw [← Nat.shiftLeft_add, Nat.sub_add_cancel (Nat.min_le_left k k')]
    _ = m' <<< (k' - min k k') <<< min k k' := by rw [alike.2]
    _ = m' <<< k' := by
        rw [← Nat.shiftLeft_add, Nat.sub_add_cancel (Nat.min_le_right k k')]

theorem bits_of_beq_zero (zero : (x == 0) = true) :
    ∃ s, bits x = UnpackedFloat.packedZero .binary64 s := by
  rcases eq_zero_of_beq zero with rfl | rfl
  · exact ⟨.positive, rfl⟩
  · exact ⟨.negative, by decide +kernel⟩

theorem unpacked_cases (finite : x.isFinite) : unpacked x = .zero (sign x) ∨
    ∃ pos, unpacked x = .finite (sign x) (significand x) (scale x - 1074) pos :=
  (Nat.eq_zero_or_pos (significand x)).imp (unpacked_zero finite) fun pos =>
    ⟨pos, unpacked_finite finite pos⟩

theorem pack_sub_eq_zero (zero : (x - y == 0) = true) :
    ∃ s, (UnpackedFloat.sub .binary64 (unpacked x) (unpacked y)).pack .binary64 =
      UnpackedFloat.packedZero .binary64 s :=
  bits_of_beq_zero zero

theorem isFinite_of_difference (finite : x.isFinite) (zero : (x - y == 0) = true) :
    y.isFinite = true := by
  obtain ⟨s, packed⟩ := pack_sub_eq_zero zero
  have field := congrArg UnpackedFloat.unpackExponent packed
  rw [UnpackedFloat.packedZero, UnpackedFloat.unpackExponent_packComponents] at field
  by_contra infinite
  rw [unpacked_eq y, if_pos (exponentField_of_infinite infinite)] at field
  obtain whole | ⟨_, whole⟩ := unpacked_cases finite <;>
  · rw [whole] at field
    split at field <;>
      simp [UnpackedFloat.sub, UnpackedFloat.pack, UnpackedFloat.packedInfinity,
        UnpackedFloat.packedNaN] at field

theorem beq_of_difference (finite : x.isFinite) (zero : (x - y == 0) = true) :
    (x == y) = true := by
  have finite' := isFinite_of_difference finite zero
  obtain ⟨s, packed⟩ := pack_sub_eq_zero zero
  have compared : (x == y) = (unpacked x).beq (unpacked y) := rfl
  obtain left | ⟨pos, left⟩ := unpacked_cases finite <;>
  obtain right | ⟨pos', right⟩ := unpacked_cases finite' <;>
  rw [left, right] at packed
  · rw [compared, left, right]
    rfl
  · exact absurd packed (Sized.pack ⟨_, _, _, pos', rfl, significand_lt y, by omega⟩ s)
  · exact absurd packed (Sized.pack ⟨_, _, _, pos, rfl, significand_lt x, by omega⟩ s)
  · have shift : ((scale x : Int) - 1074 - min (scale x - 1074 : Int) (scale y - 1074)).toNat =
        scale x - min (scale x) (scale y) := by omega
    have shift' : ((scale y : Int) - 1074 - min (scale x - 1074 : Int) (scale y - 1074)).toNat =
        scale y - min (scale x) (scale y) := by omega
    simp only [UnpackedFloat.sub, UnpackedFloat.decreaseExponent, shift, shift'] at packed
    have agree := not_not.mp fun nonzero =>
      (sized_normalize nonzero (by omega)).pack s packed
    obtain ⟨signs, sizes⟩ := eq_of_apply pos pos' agree
    obtain rfl : x = y := eq_of_magnitude finite finite' (isNegative_congr signs) sizes
    exact beq_self_of_isFinite finite

end Reckon.Double
