import Reckon.Proofs.Json.Value
import Reckon.Proofs.Number.Nearest
import Reckon.Proofs.Number.Overflow

/-!
Values of numerals. A numeral that has a value has a finite one, and the numeral of a finite number
has a value: the digits that are gathered do not exceed those of the number, and the two roundings
of the quick way add at most two units of the last place, which takes only the two largest doubles
to where a product might overflow.
-/

namespace Reckon.Json

namespace Numeral

open Double

variable {n : Numeral} {x y : Float} {exponent : Int} {significand k : Nat} {cs : List Char}

structure IsPower (k : Nat) (power : Float) : Prop where
  finite : power.isFinite
  large : 0 < k → 1025 ≤ scale power
  size : 2 ^ 53 * magnitude power ≤ (2 ^ 53 + 1) * Nat.pow 10 k <<< 1074

theorem value_power (near : k ≤ 308) : Decimal.value 1 k = nearest (Nat.pow 10 k) 1 := by
  rw [Decimal.value, if_neg, if_neg (by omega), if_pos (Int.natCast_nonneg k), Int.toNat_natCast,
    Nat.one_mul]
  rintro (zero | far)
  · exact absurd zero Nat.one_ne_zero
  · omega

theorem isPower (near : k ≤ 308) : IsPower k (Decimal.value 1 k) := by
  rw [value_power near]
  have finite : (nearest (Nat.pow 10 k) 1).isFinite := by
    rcases Nat.lt_or_eq_of_le near with below | rfl
    · have small : Nat.pow 10 k < 2 ^ 1020 :=
        Nat.lt_of_le_of_lt (Nat.pow_le_pow_right (by decide) (Nat.le_of_lt_succ below))
          (by decide +kernel)
      exact isFinite_nearest_of_lt small (by decide)
    · decide +kernel
  refine ⟨finite, fun positive => ?_, magnitude_nearest_le finite⟩
  have eight : 2 ^ 3 ≤ Nat.pow 10 k := by
    calc 2 ^ 3 ≤ 10 ^ 1 := by decide
      _ ≤ 10 ^ k := Nat.pow_le_pow_right (by decide) positive
  have shifted (places : Nat) : 2 ^ (3 + places) ≤ Nat.pow 10 k <<< places := by
    rw [Nat.shiftLeft_eq, Nat.pow_add]
    exact Nat.mul_le_mul_right _ eight
  have units := shifted 1074
  refine Nat.le_trans ?_ (nearestScale_le finite)
  unfold nearestScale
  rw [Nat.div_one]
  generalize Nat.pow 10 k <<< 1074 = size at units ⊢
  have digits := (Nat.le_log2 (Nat.ne_of_gt (Nat.lt_of_lt_of_le (by positivity) units))).mpr units
  omega

theorem gather_lt (small : significand < UInt64.size) (cs : List Char) :
    (gather significand cs).1 < UInt64.size := by
  induction cs generalizing significand with
  | nil => exact small
  | cons c cs ih =>
    rw [gather]
    split
    · next fits => exact ih fits
    · exact small

theorem gather_le (significand : Nat) (cs : List Char) :
    (gather significand cs).1 * Nat.pow 10 (gather significand cs).2.length ≤
      Nat.ofDigitChars 10 cs significand := by
  induction cs generalizing significand with
  | nil => exact Nat.le_of_eq (Nat.mul_one _)
  | cons c cs ih =>
    rw [gather]
    split
    · rw [Nat.ofDigitChars_cons]
      exact ih _
    · exact mul_pow_le_ofDigitChars significand (c :: cs)

theorem isFinite_scaleTen (finite : x.isFinite) (scaled : scaleTen x exponent = some y) :
    y.isFinite := by
  fun_induction scaleTen x exponent with
  | case1 x exponent near power negative =>
    have ten := isPower near
    obtain rfl := Option.some.inj scaled
    exact isFinite_div finite ten.finite (ten.large (by omega))
  | case2 => cases scaled
  | case3 x exponent near power whole inside =>
    obtain rfl := Option.some.inj scaled
    exact (isInf_or_isFinite_mul finite (isPower near).finite).resolve_left inside
  | case4 => exact Option.some.inj scaled ▸ finite
  | case5 => cases scaled
  | case6 x exponent far nonzero negative ih =>
    have ten : IsPower 308 (Decimal.value 1 308) := isPower (Nat.le_refl _)
    exact ih (isFinite_div finite ten.finite (ten.large (by decide))) scaled

theorem isSome_scaleTen_mul (finite : x.isFinite) (near : k ≤ 308)
    (small : magnitude x * magnitude (Decimal.value 1 k) < overflow * 2 ^ 1074) :
    (scaleTen x k).isSome := by
  have inside := isInf_of_isFinite (isFinite_mul finite (isPower near).finite small)
  rw [scaleTen, if_pos (by omega), if_neg (by omega), Int.natAbs_natCast, inside]
  rfl

theorem isSome_scaleTen_div (finite : x.isFinite) (nonpositive : exponent ≤ 0) :
    (scaleTen x exponent).isSome := by
  fun_induction scaleTen x exponent with
  | case1 => rfl
  | case2 x exponent near power whole overflows =>
    have one : magnitude (Decimal.value 1 (0 : Nat)) = 2 ^ 1074 := by decide +kernel
    obtain rfl : exponent = (0 : Nat) := by omega
    have shifted (k : Nat) : magnitude x * 2 ^ k < overflow * 2 ^ k :=
      Nat.mul_lt_mul_of_pos_right (magnitude_lt_overflow finite) (Nat.two_pow_pos k)
    have small : magnitude x * magnitude power < overflow * 2 ^ 1074 := by
      rw [show magnitude power = 2 ^ 1074 from one]
      exact shifted 1074
    have inside := isInf_of_isFinite (isFinite_mul finite (isPower near).finite small)
    exact absurd overflows (Bool.eq_false_iff.mp inside)
  | case3 => rfl
  | case4 => rfl
  | case5 x exponent far nonzero whole => omega
  | case6 x exponent far nonzero negative ih =>
    have ten : IsPower 308 (Decimal.value 1 308) := isPower (Nat.le_refl _)
    exact ih (isFinite_div finite ten.finite (ten.large (by decide))) (by omega)

theorem isFinite_gathered (small : significand < UInt64.size) :
    (nearest significand 1).isFinite :=
  isFinite_nearest_of_lt small (show 64 ≤ 1023 by decide)

theorem gather_small (cs cs' : List Char) :
    (gather (gather 0 cs).1 cs').1 < UInt64.size :=
  gather_lt (gather_lt (by decide) cs) cs'

theorem isFinite_value? (found : n.value? = some x) : x.isFinite := by
  obtain ⟨size, scaled, rfl⟩ := Option.map_eq_some_iff.mp found
  have finite := isFinite_scaleTen (isFinite_gathered (gather_small _ _)) scaled
  cases n.negative with
  | false => exact finite
  | true => exact isFinite_neg finite

/-- The significand and the power of ten that a numeral's value is computed from. -/
def gathered (n : Numeral) : Nat × Int :=
  let (whole, excess) := gather 0 n.whole
  let (significand, ignored) := gather whole n.fraction
  (significand, excess.length - (n.fraction.length - ignored.length) + n.exponent.getD 0)

theorem value?_eq (n : Numeral) : n.value? =
    (scaleTen (nearest n.gathered.1 1) n.gathered.2).map (withSign n.negative) :=
  rfl

theorem ofDigitChars_lt (all : ∀ c ∈ cs, c.isDigit = true) (significand : Nat) :
    Nat.ofDigitChars 10 cs significand < (significand + 1) * Nat.pow 10 cs.length := by
  induction cs generalizing significand with
  | nil => exact Nat.lt_of_lt_of_eq (Nat.lt_succ_self _) (Nat.mul_one _).symm
  | cons c cs ih =>
    obtain ⟨digit, others⟩ := List.forall_mem_cons.mp all
    have small : c.toNat - '0'.toNat ≤ 9 := by
      have range : c.toNat ≤ 57 := (Char.isDigit_iff_toNat.mp digit).2
      change c.toNat - 48 ≤ 9
      omega
    rw [Nat.ofDigitChars_cons]
    calc Nat.ofDigitChars 10 cs (10 * significand + (c.toNat - '0'.toNat))
      _ < (10 * significand + (c.toNat - '0'.toNat) + 1) * 10 ^ cs.length := ih others _
      _ ≤ 10 * (significand + 1) * 10 ^ cs.length := Nat.mul_le_mul_right _ (by omega)
      _ = (significand + 1) * 10 ^ (cs.length + 1) := by ring

theorem gather_whole {digits : Nat} {power : Int} (denotes : n.Denotes digits power) :
    gather 0 n.whole = (Nat.ofDigitChars 10 n.whole 0, []) := by
  refine gather_eq 0 n.whole ?_
  refine Nat.lt_of_lt_of_le (ofDigitChars_lt denotes.formed.whole 0) ?_
  rw [Nat.zero_add, Nat.one_mul]
  exact Nat.le_trans (Nat.pow_le_pow_right (by decide) denotes.short) (by decide)

theorem gathered_le {digits : Nat} {power : Int} (denotes : n.Denotes digits power)
    (positive : n.gathered.2 = k) :
    n.gathered.1 * Nat.pow 10 k * Nat.pow 10 (-power).toNat ≤ digits * Nat.pow 10 power.toNat := by
  obtain ⟨zeros, value, exponent⟩ := denotes.size
  have within := gather_le (Nat.ofDigitChars 10 n.whole 0) n.fraction
  rw [← Nat.ofDigitChars_append, ← Decimal.digitsValue_eq (_ ++ _), value] at within
  rw [gathered, gather_whole denotes] at positive ⊢
  dsimp only [List.length_nil] at positive ⊢
  generalize gather (Nat.ofDigitChars 10 n.whole 0) n.fraction = parts at *
  have places : k + (-power).toNat + zeros = parts.2.length + power.toNat := by omega
  refine Nat.le_of_mul_le_mul_right ?_ (Shortest.ten_pow_pos zeros)
  calc parts.1 * 10 ^ k * 10 ^ (-power).toNat * 10 ^ zeros
    _ = parts.1 * 10 ^ (k + (-power).toNat + zeros) := by ring
    _ = parts.1 * 10 ^ parts.2.length * 10 ^ power.toNat := by rw [places]; ring
    _ ≤ digits * 10 ^ zeros * 10 ^ power.toNat := Nat.mul_le_mul_right _ within
    _ = digits * 10 ^ power.toNat * 10 ^ zeros := by ring

theorem nearest_of_value {digits : Nat} {power : Int} (value : Decimal.value digits power = x)
    (finite : x.isFinite) (worth : Nat.pow 10 (-power).toNat ≤ digits * Nat.pow 10 power.toNat) :
    nearest (digits * Nat.pow 10 power.toNat) (Nat.pow 10 (-power).toNat) = x := by
  have nonzero : ¬ (digits = 0 ∨ power < -(400 + digits.log2 : Nat)) := by
    rintro (rfl | far)
    · rw [Nat.zero_mul] at worth
      exact absurd worth (Nat.not_le_of_lt (Shortest.ten_pow_pos _))
    · have whole : power.toNat = 0 := by omega
      have below : digits < 2 ^ (digits.log2 + 1) := Nat.lt_log2_self
      have long : 2 ^ (digits.log2 + 1) ≤ Nat.pow 10 (-power).toNat :=
        calc 2 ^ (digits.log2 + 1) ≤ 10 ^ (digits.log2 + 1) := Nat.pow_le_pow_left (by decide) _
          _ ≤ 10 ^ (-power).toNat := Nat.pow_le_pow_right (by decide) (by omega)
      rw [whole] at worth
      change Nat.pow 10 (-power).toNat ≤ digits * 1 at worth
      omega
  rw [Decimal.value, if_neg nonzero] at value
  split at value
  · subst value
    exact absurd finite (by decide +kernel)
  · split at value
    · next whole =>
      rw [show (-power).toNat = 0 by omega]
      exact value
    · next below =>
      rw [show power.toNat = 0 by omega]
      exact (congrArg (nearest · _) (Nat.mul_one digits)).trans value

/-- What is gathered for a number stays below half a unit of the last place above it. -/
theorem gathered_room {d : Shortest.Digits} (denotes : n.Denotes d.digits d.exponent)
    (value : d.value = x) (finite : x.isFinite) (room : magnitude x ≤ safe)
    (positive : n.gathered.2 = k) (present : 0 < n.gathered.1) :
    (n.gathered.1 * Nat.pow 10 k) <<< 1074 ≤ (2 ^ 54 - 5) * 2 ^ 2044 := by
  have within := gathered_le denotes positive
  have worth : Nat.pow 10 (-d.exponent).toNat ≤ d.digits * Nat.pow 10 d.exponent.toNat := by
    refine Nat.le_trans (Nat.le_mul_of_pos_left _ ?_) within
    exact Nat.mul_pos present (Shortest.ten_pow_pos k)
  have same := nearest_of_value value finite worth
  have least := Shortest.ten_pow_pos (-d.exponent).toNat
  generalize d.digits * Nat.pow 10 d.exponent.toNat = numerator at within same
  generalize Nat.pow 10 (-d.exponent).toNat = denominator at within same least
  generalize n.gathered.1 * Nat.pow 10 k = size at within ⊢
  rw [← same] at finite
  have near := (magnitude_nearest finite).1
  have upper := le_magnitude_nearest least finite
  rw [same] at upper
  -- From here on no step computes a power.
  obtain ⟨top, last⟩ : ∃ top, top = 2044 := ⟨_, rfl⟩
  rw [safe, ← last] at room
  rw [← last]
  have unit : 2 ^ nearestScale numerator denominator ≤ 2 ^ (top + 1) :=
    Nat.pow_le_pow_right (by decide) (by omega)
  generalize 1074 = places at upper ⊢
  rw [Nat.shiftLeft_eq] at upper ⊢
  refine Nat.le_of_mul_le_mul_right (c := 2 * denominator) ?_ (by omega)
  calc size * 2 ^ places * (2 * denominator)
    _ = 2 * (size * denominator * 2 ^ places) := by ring
    _ ≤ 2 * (numerator * 2 ^ places) := Nat.mul_le_mul_left _ (Nat.mul_le_mul_right _ within)
    _ ≤ (2 * magnitude x + 2 ^ nearestScale numerator denominator) * denominator := upper
    _ ≤ (2 * ((2 ^ 53 - 3) * 2 ^ (top + 1)) + 2 ^ (top + 1)) * denominator :=
        Nat.mul_le_mul_right _ (Nat.add_le_add (Nat.mul_le_mul_left _ room) unit)
    _ = (2 ^ 54 - 5) * 2 ^ top * (2 * denominator) := by rw [Nat.pow_succ]; ring

theorem le_of_room (present : 0 < significand)
    (room : (significand * Nat.pow 10 k) <<< 1074 ≤ (2 ^ 54 - 5) * 2 ^ 2044) : k ≤ 308 := by
  by_contra far
  have least (l places : Nat) (le : l ≤ k) :
      Nat.pow 10 l <<< places ≤ (significand * Nat.pow 10 k) <<< places := by
    rw [Nat.shiftLeft_eq, Nat.shiftLeft_eq]
    refine Nat.mul_le_mul_right _ (Nat.le_trans ?_ (Nat.le_mul_of_pos_left _ present))
    exact Nat.pow_le_pow_right (by decide) le
  obtain ⟨l, first⟩ : ∃ l, l = 309 := ⟨_, rfl⟩
  have beyond : ¬ Nat.pow 10 l <<< 1074 ≤ (2 ^ 54 - 5) * 2 ^ 2044 := by
    rw [first]
    decide +kernel
  exact beyond (Nat.le_trans (least l 1074 (by omega)) room)

theorem isSome_scaleTen_zero (k : Nat) : (scaleTen (nearest 0 1) k).isSome := by
  have zero : (nearest 0 1 == 0) = true := by decide +kernel
  rcases Nat.lt_or_ge 308 k with far | near
  · rw [scaleTen, if_neg (by omega), if_pos zero]
    rfl
  · have small : magnitude (nearest 0 1) = 0 := by decide +kernel
    have room : 0 < overflow * 2 ^ 1074 := by decide +kernel
    refine isSome_scaleTen_mul (isFinite_gathered (by decide)) near ?_
    rwa [small, Nat.zero_mul]

theorem isSome_scaled {d : Shortest.Digits} (denotes : n.Denotes d.digits d.exponent)
    (value : d.value = x) (finite : x.isFinite) (room : magnitude x ≤ safe) :
    (scaleTen (nearest n.gathered.1 1) n.gathered.2).isSome := by
  have small : n.gathered.1 < UInt64.size := gather_small n.whole n.fraction
  have rounded := isFinite_gathered small
  rcases Int.lt_or_le 0 n.gathered.2 with above | below
  · obtain ⟨k, positive⟩ := Int.eq_ofNat_of_zero_le (Int.le_of_lt above)
    rcases Nat.eq_zero_or_pos n.gathered.1 with zero | present
    · rw [zero, positive]
      exact isSome_scaleTen_zero k
    · have within := gathered_room denotes value finite room positive present
      have near := le_of_room present within
      rw [positive]
      exact isSome_scaleTen_mul rounded near
        (product_lt (magnitude_nearest_le rounded) (isPower near).size within)
  · exact isSome_scaleTen_div rounded below

end Numeral

open Double Numeral

variable {x : Float}

def reread? (x : Float) : Option Float :=
  match written x with
  | number n => n.value?
  | _ => none

theorem isSome_largest : ∀ u ∈ ([0x7feffffffffffffe, 0x7fefffffffffffff, 0xffeffffffffffffe,
    0xffefffffffffffff] : List UInt64), (reread? (Float.ofBits u)).isSome := by
  simp only [List.forall_mem_cons]
  refine ⟨?_, ?_, ?_, ?_, List.forall_mem_nil _⟩ <;> decide +kernel

theorem isSome_reread? (finite : x.isFinite) : (reread? x).isSome := by
  rcases Nat.lt_or_ge safe (magnitude x) with beyond | room
  · have value := isSome_largest _ (largest_cases finite beyond)
    rwa [Float.ofBits_toBits] at value
  · obtain ⟨n, d, denotes, value, -, tree⟩ := exists_written finite
    rw [reread?, tree]
    dsimp only
    rw [value?_eq, Option.isSome_map]
    rw [← magnitude_abs] at room
    exact isSome_scaled (n := n) denotes value (isFinite_abs finite) room

end Reckon.Json
