import Reckon.Proofs.Number.Difference

/-!
Where products and quotients of doubles stay finite. Rounding keeps 53 digits of a mantissa and
takes one more step of the exponent only when they carry, so a product that is less than half a
unit of the last place above the largest double is rounded to a double, and a quotient by eight or
more is so in any case.
-/

namespace Reckon.Double

open Float.Model (Format UnpackedFloat)
open Float.Model.UnpackedFloat (Sign Accuracy ExtendedMantissa)

variable {x y : Float} {mantissa k : Nat} {exponent bound : Int} {s : Sign} {u : UnpackedFloat}

/-- A zero, or a finite number with an exponent up to a bound. -/
def Bounded (bound : Int) (u : UnpackedFloat) : Prop :=
  (∃ s, u = .zero s) ∨ ∃ s m e pos, u = .finite s m e pos ∧ e ≤ bound

theorem Bounded.mono (bounded : Bounded bound u) {wider : Int} (le : bound ≤ wider) :
    Bounded wider u :=
  bounded.imp id fun ⟨s, m, e, pos, same, below⟩ => ⟨s, m, e, pos, same, Int.le_trans below le⟩

theorem isFinite_of_bounded (packed : bits x = u.pack .binary64) (bounded : Bounded 971 u) :
    x.isFinite = true := by
  have proper (field : BitVec 11) (other : field.toNat ≠ 0x7ff)
      (unpacked : UnpackedFloat.unpackExponent (bits x) = field) : x.isFinite = true := by
    rw [isFinite_iff, exponentField_eq, unpacked]
    exact other
  obtain ⟨s, rfl⟩ | ⟨s, m, e, pos, rfl, below⟩ := bounded
  · refine proper 0#11 (by decide) ?_
    rw [packed, UnpackedFloat.pack, UnpackedFloat.packedZero,
      UnpackedFloat.unpackExponent_packComponents]
    rfl
  · unfold UnpackedFloat.pack at packed
    dsimp only at packed
    have small : (e + 1023 + 52).toNat < 0x7ff := by omega
    rw [if_neg] at packed
    · split at packed
      · refine proper (BitVec.ofNat 11 (e + 1023 + 52).toNat) ?_ ?_
        · rw [BitVec.toNat_ofNat]
          omega
        · rw [packed, UnpackedFloat.unpackExponent_packComponents]
          rfl
      · refine proper 0#11 (by decide) ?_
        rw [packed, UnpackedFloat.unpackExponent_packComponents]
    · change ¬ 2048 ≤ (e + 1023 + 52).toNat + 1
      omega

theorem isInf_or_isFinite (packed : bits x = u.pack .binary64) (bounded : Bounded bound u) :
    x.isInf = true ∨ x.isFinite = true := by
  by_cases small : Bounded 971 u
  · exact .inr (isFinite_of_bounded packed small)
  · obtain ⟨s, rfl⟩ | ⟨s, m, e, pos, rfl, -⟩ := bounded
    · exact absurd (.inl ⟨s, rfl⟩) small
    · have above : 971 < e := Int.lt_of_not_ge fun below =>
        small (.inr ⟨s, m, e, pos, rfl, below⟩)
      have infinite : bits x = UnpackedFloat.packedInfinity .binary64 s := by
        rw [packed, UnpackedFloat.pack]
        refine if_pos ?_
        change 2048 ≤ (e + 1023 + 52).toNat + 1
        omega
      left
      change (unpacked x).isInf = true
      rw [unpacked, infinite]
      cases s <;> rfl

theorem isInf_of_isFinite (finite : x.isFinite) : x.isInf = false := by
  have finite' : (unpacked x).isFinite = true := finite
  change (unpacked x).isInf = false
  cases found : unpacked x with
  | infinity => simp [found, UnpackedFloat.isFinite] at finite'
  | _ => rfl

theorem rounded_le (em : ExtendedMantissa) :
    em.roundedMantissa ≤ em.mantissa + em.roundBit.toNat := by
  obtain ⟨m, round, sticky⟩ := em
  cases round <;> cases sticky <;> simp [ExtendedMantissa.roundedMantissa,
    ExtendedMantissa.accuracy, Accuracy.roundToNearestEven]
  omega

def target (mantissa : Nat) (exponent : Int) : Int :=
  max (Float.Model.totalExponent mantissa exponent - 53) (-1074)

def roundedAt (mantissa : Nat) (exponent : Int) (accuracy : Accuracy) : Nat :=
  (ExtendedMantissa.ofMantissaAndAccuracy mantissa accuracy >>>
    (target mantissa exponent - exponent).toNat).roundedMantissa

theorem exponent_shifted (mantissa : Nat) (exponent : Int) (accuracy : Accuracy) :
    (UnpackedFloat.shiftToTargetExponent .binary64 mantissa exponent accuracy).2 =
      max exponent (target mantissa exponent) := by
  change exponent + ((target mantissa exponent - exponent).toNat : Int) = _
  omega

theorem target_le_of_log2 (low : -1074 ≤ exponent) {digits : Nat}
    (short : mantissa < 2 ^ (53 + digits)) : target mantissa exponent ≤ exponent + digits := by
  have log : mantissa.log2 < 53 + digits := by
    rcases Nat.eq_zero_or_pos mantissa with rfl | pos
    · exact Nat.add_pos_left (by decide) _
    · exact (Nat.log2_lt (Nat.ne_of_gt pos)).mpr short
  rw [target, Float.Model.totalExponent]
  omega

theorem bounded_roundWithAccuracy (accuracy : Accuracy) {digits : Nat}
    (short : roundedAt mantissa exponent accuracy < 2 ^ (53 + digits)) :
    Bounded (max exponent (target mantissa exponent) + digits)
      (UnpackedFloat.roundWithAccuracy .binary64 s mantissa exponent accuracy) := by
  have first := exponent_shifted mantissa exponent accuracy
  have low : -1074 ≤ max exponent (target mantissa exponent) :=
    le_max_of_le_right (le_max_right _ _)
  unfold UnpackedFloat.roundWithAccuracy
  dsimp only
  split
  · exact .inl ⟨s, rfl⟩
  · refine .inr ⟨_, _, _, _, rfl, ?_⟩
    have carried := target_le_of_log2 low short
    rw [exponent_shifted, first]
    exact max_le (by omega) carried

theorem roundedAt_lt (mantissa : Nat) (exponent : Int) (accuracy : Accuracy) :
    roundedAt mantissa exponent accuracy < 2 ^ (53 + 1) := by
  have most : mantissa < 2 ^ (53 + (target mantissa exponent - exponent).toNat) := by
    refine Nat.lt_of_lt_of_le Nat.lt_log2_self (Nat.pow_le_pow_right (by decide) ?_)
    rw [target, Float.Model.totalExponent]
    omega
  have cut : mantissa / 2 ^ (target mantissa exponent - exponent).toNat < 2 ^ 53 := by
    rw [Nat.div_lt_iff_lt_mul (by positivity)]
    rwa [Nat.pow_add] at most
  have rounded := rounded_le (ExtendedMantissa.ofMantissaAndAccuracy mantissa accuracy >>>
    (target mantissa exponent - exponent).toNat)
  rw [mantissa_shiftRight, mantissa_ofAccuracy] at rounded
  have bit := Bool.toNat_le (ExtendedMantissa.ofMantissaAndAccuracy mantissa accuracy >>>
    (target mantissa exponent - exponent).toNat).roundBit
  rw [roundedAt]
  omega

theorem roundedAt_le (beyond : exponent < target mantissa exponent) :
    2 * roundedAt mantissa exponent .exact ≤
      mantissa / 2 ^ ((target mantissa exponent - exponent).toNat - 1) + 1 := by
  obtain ⟨k, more⟩ := Nat.exists_eq_succ_of_ne_zero
    (show (target mantissa exponent - exponent).toNat ≠ 0 by omega)
  rw [roundedAt, more, Nat.succ_sub_one]
  have rounded := rounded_le (ExtendedMantissa.ofMantissaAndAccuracy mantissa .exact >>> (k + 1))
  have bit : (ExtendedMantissa.ofMantissaAndAccuracy mantissa .exact >>> (k + 1)).roundBit.toNat =
      mantissa / 2 ^ k % 2 := by
    change ((ExtendedMantissa.ofMantissaAndAccuracy mantissa .exact >>> k).mantissa % 2 !=
      0).toNat = _
    rw [mantissa_shiftRight, mantissa_ofAccuracy]
    obtain even | odd := Nat.mod_two_eq_zero_or_one (mantissa / 2 ^ k)
    · rw [even]
      rfl
    · rw [odd]
      rfl
  rw [bit, mantissa_shiftRight, mantissa_ofAccuracy, Nat.pow_succ, ← Nat.div_div_eq_div_mul]
    at rounded
  rw [Nat.succ_eq_add_one]
  omega

theorem bounded_of_lt (aligned : exponent ≤ target mantissa exponent) {steps top : Nat}
    (unit : exponent = steps - 2148) (last : top = 3118)
    (small : mantissa * 2 ^ steps < (2 ^ 54 - 1) * 2 ^ top) :
    Bounded 971 (UnpackedFloat.roundWithAccuracy .binary64 s mantissa exponent .exact) := by
  -- Only at the largest scale could a carry lead out of the doubles, so there it is ruled out.
  rcases Int.lt_or_le 970 (target mantissa exponent) with high | low
  · have total : target mantissa exponent = mantissa.log2 + 1 + exponent - 53 := by
      rw [target, Float.Model.totalExponent] at high ⊢
      omega
    have nonzero : mantissa ≠ 0 := by
      rintro rfl
      rw [Nat.log2_zero] at total
      omega
    have leading : 2 ^ (mantissa.log2 + steps) < 2 ^ (54 + top) := by
      rw [Nat.pow_add, Nat.pow_add]
      refine Nat.lt_of_le_of_lt (Nat.mul_le_mul_right _ (Nat.log2_self_le nonzero)) ?_
      exact Nat.lt_of_lt_of_le small (Nat.mul_le_mul_right _ (by decide))
    have digits := (Nat.pow_lt_pow_iff_right (by decide)).mp leading
    have last_place : target mantissa exponent = 971 := by omega
    have rounded : roundedAt mantissa exponent .exact < 2 ^ (53 + 0) := by
      rw [Nat.add_zero]
      rcases Int.lt_or_eq_of_le aligned with beyond | same
      · have cut : mantissa < (2 ^ 54 - 1) * 2 ^ (top - steps) := by
          have split : top = top - steps + steps := by omega
          rw [split, Nat.pow_add, ← Nat.mul_assoc] at small
          exact Nat.lt_of_mul_lt_mul_right small
        have shift : (target mantissa exponent - exponent).toNat - 1 = top - steps := by omega
        have half := roundedAt_le beyond
        rw [shift] at half
        rw [← Nat.div_lt_iff_lt_mul (by positivity)] at cut
        omega
      · have split : steps = top + 1 := by omega
        have kept : roundedAt mantissa exponent .exact = mantissa := by
          rw [roundedAt, ← same, Int.sub_self]
          rfl
        rw [split, Nat.pow_succ', ← Nat.mul_assoc] at small
        have half := Nat.lt_of_mul_lt_mul_right small
        omega
    exact (bounded_roundWithAccuracy .exact rounded).mono (by omega)
  · exact (bounded_roundWithAccuracy .exact (roundedAt_lt mantissa exponent .exact)).mono
      (by omega)

/-- The mantissa of a product is as long as that of a normal factor, so it is only ever shifted
towards larger exponents. -/
theorem product_aligned (pos : 0 < significand x) (pos' : 0 < significand y) :
    (scale x - 1074 : Int) + (scale y - 1074) ≤ target (significand x * significand y)
      ((scale x - 1074 : Int) + (scale y - 1074)) := by
  have long {m n : Nat} (leading : leadingBit ≤ m) (positive : 0 < n) : 52 ≤ (m * n).log2 := by
    have present : 0 < m := Nat.lt_of_lt_of_le (by decide) leading
    refine (Nat.le_log2 (Nat.ne_of_gt (Nat.mul_pos present positive))).mpr ?_
    exact Nat.le_trans leading (Nat.le_mul_of_pos_right m positive)
  rw [target, Float.Model.totalExponent]
  rcases Nat.eq_zero_or_pos (scale x) with zero | scaled
  · rcases Nat.eq_zero_or_pos (scale y) with zero' | scaled'
    · omega
    · have digits := long (leadingBit_le scaled') pos
      rw [Nat.mul_comm] at digits
      omega
  · have digits := long (leadingBit_le scaled) pos'
    omega

/-- The least size that is rounded to infinity, `2 ^ 1024 - 2 ^ 970`. -/
def overflow : Nat :=
  (2 ^ 54 - 1) * 2 ^ 2044

theorem overflow_mul (k : Nat) : overflow * 2 ^ k = (2 ^ 54 - 1) * 2 ^ (2044 + k) := by
  rw [overflow, Nat.mul_assoc, Nat.pow_add 2 2044 k]

theorem scale_le (finite : x.isFinite) : scale x ≤ 2045 := by
  have field := exponentField_lt x
  have top := isFinite_iff.mp finite
  unfold scale
  omega

theorem isFinite_neg (finite : x.isFinite) : (-x).isFinite = true := by
  have packed : bits (-x) = (unpacked x).neg.pack .binary64 := rfl
  have below := scale_le finite
  obtain zero | ⟨pos, whole⟩ := unpacked_cases finite
  · rw [zero] at packed
    exact isFinite_of_bounded packed (.inl ⟨_, rfl⟩)
  · rw [whole] at packed
    exact isFinite_of_bounded packed (.inr ⟨_, _, _, pos, rfl, by omega⟩)

theorem magnitude_lt_overflow (finite : x.isFinite) : magnitude x < overflow := by
  have below := significand_lt x
  have scaled := scale_le finite
  unfold leadingBit at below
  obtain ⟨top, last⟩ : ∃ top, top = 2044 := ⟨_, rfl⟩
  rw [magnitude, Nat.shiftLeft_eq, overflow, ← last]
  calc significand x * 2 ^ scale x
    _ ≤ significand x * 2 ^ (top + 1) :=
        Nat.mul_le_mul_left _ (Nat.pow_le_pow_right (by decide) (by omega))
    _ = significand x * 2 * 2 ^ top := by rw [Nat.pow_succ', Nat.mul_assoc]
    _ < (2 ^ 54 - 1) * 2 ^ top := Nat.mul_lt_mul_of_pos_right (by omega) (Nat.two_pow_pos top)

theorem exists_pack_mul (finite : x.isFinite) (finite' : y.isFinite) :
    ∃ u bound, bits (x * y) = u.pack .binary64 ∧ Bounded bound u ∧
      (magnitude x * magnitude y < overflow * 2 ^ 1074 → Bounded 971 u) := by
  have packed : bits (x * y) =
      (UnpackedFloat.mul .binary64 (unpacked x) (unpacked y)).pack .binary64 := rfl
  obtain left | ⟨pos, left⟩ := unpacked_cases finite <;>
  obtain right | ⟨pos', right⟩ := unpacked_cases finite' <;>
  rw [left, right] at packed
  · exact ⟨_, 0, packed, .inl ⟨_, rfl⟩, fun _ => .inl ⟨_, rfl⟩⟩
  · exact ⟨_, 0, packed, .inl ⟨_, rfl⟩, fun _ => .inl ⟨_, rfl⟩⟩
  · exact ⟨_, 0, packed, .inl ⟨_, rfl⟩, fun _ => .inl ⟨_, rfl⟩⟩
  · have aligned := product_aligned pos pos'
    refine ⟨_, _, packed, bounded_roundWithAccuracy .exact (roundedAt_lt _ _ _),
      fun small => ?_⟩
    obtain ⟨top, last⟩ : ∃ top, top = 2044 + 1074 := ⟨_, rfl⟩
    rw [overflow_mul, ← last] at small
    have factors : magnitude x * magnitude y =
        significand x * significand y * 2 ^ (scale x + scale y) := by
      rw [magnitude, magnitude, Nat.shiftLeft_eq, Nat.shiftLeft_eq, Nat.pow_add]
      exact Nat.mul_mul_mul_comm _ _ _ _
    rw [factors] at small
    exact bounded_of_lt aligned (by omega) last small

theorem isInf_or_isFinite_mul (finite : x.isFinite) (finite' : y.isFinite) :
    (x * y).isInf = true ∨ (x * y).isFinite = true := by
  obtain ⟨u, bound, packed, bounded, -⟩ := exists_pack_mul finite finite'
  exact isInf_or_isFinite packed bounded

theorem isFinite_mul (finite : x.isFinite) (finite' : y.isFinite)
    (small : magnitude x * magnitude y < overflow * 2 ^ 1074) : (x * y).isFinite = true := by
  obtain ⟨u, bound, packed, -, bounded⟩ := exists_pack_mul finite finite'
  exact isFinite_of_bounded packed (bounded small)

theorem log2_quotient_le {m m' : Nat} (below : m < 2 * leadingBit) (normal : leadingBit ≤ m')
    (shift : Nat) : (m <<< shift / m').log2 ≤ shift := by
  have small : m <<< shift / m' < 2 ^ (shift + 1) := by
    rw [Nat.div_lt_iff_lt_mul (Nat.lt_of_lt_of_le (by decide) normal), Nat.shiftLeft_eq]
    calc m * 2 ^ shift
      _ < 2 * leadingBit * 2 ^ shift := Nat.mul_lt_mul_of_pos_right below (by positivity)
      _ = 2 ^ (shift + 1) * leadingBit := by ring
      _ ≤ 2 ^ (shift + 1) * m' := Nat.mul_le_mul_left _ normal
  rcases Nat.eq_zero_or_pos (m <<< shift / m') with zero | pos
  · rw [zero, Nat.log2_zero]
    exact Nat.zero_le _
  · exact Nat.le_of_lt_succ ((Nat.log2_lt (Nat.ne_of_gt pos)).mpr small)

theorem isFinite_div (finite : x.isFinite) (finite' : y.isFinite) (large : 1025 ≤ scale y) :
    (x / y).isFinite = true := by
  have normal := leadingBit_le (Nat.lt_of_lt_of_le (by decide) large)
  have packed : bits (x / y) =
      (UnpackedFloat.div .binary64 (unpacked x) (unpacked y)).pack .binary64 := rfl
  have pos' : 0 < significand y := Nat.lt_of_lt_of_le (by decide) normal
  rw [unpacked_finite finite' pos'] at packed
  obtain left | ⟨pos, left⟩ := unpacked_cases finite <;>
  rw [left] at packed
  · exact isFinite_of_bounded packed (.inl ⟨_, rfl⟩)
  · refine isFinite_of_bounded packed ?_
    have below := significand_lt x
    have scaled := scale_le finite
    simp only [UnpackedFloat.div, UnpackedFloat.divCore, targetExponent_eq]
    refine (bounded_roundWithAccuracy _ (roundedAt_lt _ _ _)).mono ?_
    have least : 52 ≤ (significand y).log2 :=
      (Nat.le_log2 (Nat.ne_of_gt pos')).mpr normal
    have most : (significand x).log2 < 53 := (Nat.log2_lt (Nat.ne_of_gt pos)).mpr below
    have digits := log2_quotient_le below normal
    rw [target, Float.Model.totalExponent, Float.Model.totalExponent, Float.Model.totalExponent]
    generalize aim : min ((scale x - 1074 : Int) - (scale y - 1074)) _ = t
    have digits := digits ((scale x - 1074 : Int) - (scale y - 1074) - t).toNat
    omega

/-- The third largest double: two units of the last place are left for rounding. -/
def safe : Nat :=
  (2 ^ 53 - 3) * 2 ^ (2044 + 1)

theorem product_lt {a b s t : Nat} (left : 2 ^ 53 * a ≤ (2 ^ 53 + 1) * s <<< 1074)
    (right : 2 ^ 53 * b ≤ (2 ^ 53 + 1) * t <<< 1074)
    (room : (s * t) <<< 1074 ≤ (2 ^ 54 - 5) * 2 ^ 2044) : a * b < overflow * 2 ^ 1074 := by
  unfold overflow
  have units (k : Nat) : 0 < 2 ^ k := Nat.two_pow_pos k
  generalize 2044 = top at room ⊢
  generalize 1074 = places at left right room ⊢
  rw [Nat.shiftLeft_eq] at left right room
  have positive : 0 < 2 ^ top * 2 ^ places := Nat.mul_pos (units top) (units places)
  generalize 2 ^ places = u at *
  generalize 2 ^ top = h at *
  refine Nat.lt_of_mul_lt_mul_left (a := 2 ^ 106) ?_
  calc 2 ^ 106 * (a * b)
    _ = 2 ^ 53 * a * (2 ^ 53 * b) := by ring
    _ ≤ (2 ^ 53 + 1) * (s * u) * ((2 ^ 53 + 1) * (t * u)) := Nat.mul_le_mul left right
    _ = (2 ^ 53 + 1) ^ 2 * u * (s * t * u) := by ring
    _ ≤ (2 ^ 53 + 1) ^ 2 * u * ((2 ^ 54 - 5) * h) := Nat.mul_le_mul_left _ room
    _ = (2 ^ 53 + 1) ^ 2 * (2 ^ 54 - 5) * (h * u) := by ring
    _ < 2 ^ 106 * (2 ^ 54 - 1) * (h * u) := Nat.mul_lt_mul_of_pos_right (by decide) positive
    _ = 2 ^ 106 * ((2 ^ 54 - 1) * h * u) := by ring

theorem scale_of_large (finite : x.isFinite) (beyond : safe < magnitude x) : scale x = 2045 := by
  have below := significand_lt x
  have scaled := scale_le finite
  unfold leadingBit at below
  obtain ⟨top, last⟩ : ∃ top, top = 2044 := ⟨_, rfl⟩
  rw [magnitude, Nat.shiftLeft_eq, safe, ← last] at beyond
  by_contra other
  have half : significand x * 2 ^ scale x ≤ (2 ^ 53 - 1) * 2 ^ top :=
    Nat.mul_le_mul (by omega) (Nat.pow_le_pow_right (by decide) (by omega))
  have whole : (2 ^ 53 - 3) * 2 ^ (top + 1) = (2 ^ 54 - 6) * 2 ^ top := by
    rw [Nat.pow_succ]
    ring
  have less : (2 ^ 53 - 1) * 2 ^ top ≤ (2 ^ 54 - 6) * 2 ^ top := Nat.mul_le_mul_right _ (by decide)
  omega

theorem largest_cases (finite : x.isFinite) (beyond : safe < magnitude x) :
    x.toBits ∈ [0x7feffffffffffffe, 0x7fefffffffffffff, 0xffeffffffffffffe, 0xffefffffffffffff] := by
  have below := significand_lt x
  have word := x.toBits.toNat_lt
  have scale_eq := scale_of_large finite beyond
  obtain ⟨top, last⟩ : ∃ top, top = 2044 + 1 := ⟨_, rfl⟩
  have large : 2 ^ 53 - 3 < significand x := by
    rw [magnitude, Nat.shiftLeft_eq, safe, ← last, scale_eq.trans last.symm] at beyond
    exact Nat.lt_of_mul_lt_mul_right beyond
  have bits : x.toBits.toNat ∈ [0x7feffffffffffffe, 0x7fefffffffffffff, 0xffeffffffffffffe,
      0xffefffffffffffff] := by
    have field : exponentField x ≠ 0 := fun zero => by simp [scale, zero] at scale_eq
    rw [significand, if_neg field] at large below
    unfold scale exponentField at scale_eq
    unfold leadingBit at *
    simp only [List.mem_cons, List.not_mem_nil, or_false]
    omega
  simp only [List.mem_cons, List.not_mem_nil, or_false] at bits ⊢
  exact bits.imp UInt64.toNat_inj.mp (.imp UInt64.toNat_inj.mp
    (.imp UInt64.toNat_inj.mp UInt64.toNat_inj.mp))

end Reckon.Double
