import Reckon.Proofs.Number.Difference
import Reckon.Proofs.Number.Positional

/-!
Texts that spell a number the way formulas write numbers: a run of digits and points, behind a
minus sign or not. Such a text reads as the number. The plain layout spells every finite number,
and an integer spells the double nearest to it.
-/

namespace Reckon

namespace Decimal

/-- The text is a minus sign or nothing, and then digits that read as a number; with the sign the
number is `x`. -/
def Spells (text : String) (x : Float) : Prop :=
  ∃ negative digits size, text = String.ofList (if negative then '-' :: digits else digits) ∧
    IsRun digits ∧ readDigits digits = some size ∧ Double.withSign negative size = x

variable {text : String} {x : Float} {cs : List Char}

theorem read?_signed (negative : Bool) (minus : ∀ rest, cs ≠ '-' :: rest)
    (plus : ∀ rest, cs ≠ '+' :: rest) :
    read? (String.ofList (if negative then '-' :: cs else cs)) =
      (readUnsigned cs).map (Double.withSign negative) := by
  unfold read?
  rw [String.toList_ofList]
  cases negative with
  | true => rfl
  | false =>
    rw [if_neg Bool.false_ne_true]
    have unsigned : (readUnsigned cs).map (Double.withSign false) = readUnsigned cs :=
      Option.map_id'
    rw [unsigned]
    split
    · next rest => exact absurd rfl (minus rest)
    · next rest => exact absurd rfl (plus rest)
    · rfl

theorem IsRun.ne_cons (run : IsRun cs) {c : Char} (other : ¬ (c.isDigit = true ∨ c = '.'))
    (rest : List Char) : cs ≠ c :: rest :=
  fun same => other (run c (same ▸ List.mem_cons_self))

theorem Spells.read? (spells : Spells text x) : read? text = some x := by
  obtain ⟨negative, digits, size, rfl, run, reads, rfl⟩ := spells
  rw [read?_signed negative (run.ne_cons (by decide)) (run.ne_cons (by decide)),
    readUnsigned_eq run, reads]
  rfl

theorem isRun_digits (all : ∀ c ∈ cs, c.isDigit = true) : IsRun cs :=
  fun c mem => .inl (all c mem)

theorem toString_int (n : Int) : toString n =
    String.ofList (if n < 0 then '-' :: Nat.toDigits 10 n.natAbs else Nat.toDigits 10 n.natAbs) := by
  cases n with
  | ofNat m => exact Nat.repr_eq_ofList_toDigits
  | negSucc m =>
    have digits : m.succ.repr = String.ofList (Nat.toDigits 10 m.succ) :=
      Nat.repr_eq_ofList_toDigits
    have signed : toString (Int.negSucc m) = "-" ++ m.succ.repr := rfl
    rw [if_pos (Int.negSucc_lt_zero m), Int.natAbs_negSucc, signed, digits, ← String.toList_inj]
    simp only [String.toList_append, String.toList_ofList]
    rfl

theorem spells_toString (n : Int) :
    Spells (toString n) (Double.withSign (n < 0) (value n.natAbs 0)) := by
  refine ⟨n < 0, Nat.toDigits 10 n.natAbs, _, ?_, isRun_digits (all_toDigits _), ?_, rfl⟩
  · rw [toString_int]
    simp
  · rw [readDigits_whole (all_toDigits _) Nat.toDigits_ne_nil, digitsValue_toDigits]

end Decimal

namespace Layout

open Decimal Double

variable {x : Float}

theorem exponent_le {d : Shortest.Digits} (finite : x.isFinite) (positive : 0 < significand x)
    (value : d.value = x) : d.exponent ≤ 400 := by
  by_contra far
  unfold Shortest.Digits.value Decimal.value at value
  split at value
  · subst value
    exact absurd positive (by decide +kernel)
  · rw [if_pos (Int.not_le.mp far)] at value
    subst value
    exact absurd finite (by decide +kernel)

theorem signed_of_finite (positive : Float → List Char) (finite : x.isFinite) :
    signed positive x =
      let text := if significand x = 0 then ['0'] else positive x.abs
      String.ofList (if isNegative x then '-' :: text else text) := by
  have number := isNaN_of_isFinite finite
  have bounded := beq_infinity (isFinite_abs finite)
  have zero := beq_zero_iff (isFinite_abs finite)
  simp only [signed, number, bounded, zero, significand_abs, Bool.false_eq_true, if_false]

theorem plain_eq (finite : x.isFinite) : ∃ digits,
    plain x = String.ofList (if isNegative x then '-' :: digits else digits) ∧
    IsRun digits ∧ readDigits digits = some x.abs := by
  refine ⟨_, signed_of_finite _ finite, ?_⟩
  split
  · next zero =>
    rw [abs_eq_zero finite zero]
    exact ⟨isRun_digits (List.forall_mem_singleton.mpr rfl), rfl⟩
  · next nonzero =>
    have positive : 0 < significand x.abs :=
      (significand_abs x).symm ▸ Nat.pos_of_ne_zero nonzero
    have value : (Shortest.ofPositive .up x.abs).value = x.abs :=
      Shortest.value_ofPositive (isFinite_abs finite) (isNegative_abs x) positive
    have all := all_toDigits (Shortest.ofPositive .up x.abs).digits
    refine ⟨isRun_positional all _, ?_⟩
    rw [readDigits_positional all Nat.toDigits_ne_nil
      (exponent_le (isFinite_abs finite) positive value), digitsValue_toDigits]
    exact congrArg some value

theorem spells_plain (finite : x.isFinite) : Spells (plain x) x := by
  obtain ⟨digits, text, run, reads⟩ := plain_eq finite
  exact ⟨isNegative x, digits, x.abs, text, run, reads, withSign_abs (isNaN_of_isFinite finite)⟩

end Layout

end Reckon
