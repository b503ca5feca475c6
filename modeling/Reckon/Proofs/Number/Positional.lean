import Reckon.Proofs.Number.Exact
import Reckon.Proofs.Number.Plain
import Reckon.Number.Layout

/-!
Numbers written without an exponent. The digits of a number are its value whatever zeros stand in
front of them, and zeros behind them are powers of ten; a point behind which some of the digits
stand is a negative power. So the positional text of digits reads as their value.
-/

namespace Reckon

namespace Decimal

variable {cs digits fraction : List Char}

theorem digitsValue_eq (cs : List Char) : digitsValue cs = Nat.ofDigitChars 10 cs 0 :=
  Nat.ofDigitChars_eq_foldl.symm

theorem digitsValue_toDigits (n : Nat) : digitsValue (Nat.toDigits 10 n) = n := by
  rw [digitsValue_eq, Nat.ofDigitChars_ten_toDigits]

theorem digitsValue_append_zeros (cs : List Char) (n : Nat) :
    digitsValue (cs ++ Layout.zeros n) = digitsValue cs * Nat.pow 10 n := by
  rw [digitsValue_eq, digitsValue_eq, Nat.ofDigitChars_append, Layout.zeros,
    Nat.ofDigitChars_replicate_zero, Nat.mul_comm]
  rfl

theorem digitsValue_zeros_append (n : Nat) (cs : List Char) :
    digitsValue (Layout.zeros n ++ cs) = digitsValue cs := by
  rw [digitsValue_eq, digitsValue_eq, Nat.ofDigitChars_append, Layout.zeros,
    Nat.ofDigitChars_replicate_zero, Nat.mul_zero]

theorem all_toDigits (n : Nat) : ∀ c ∈ Nat.toDigits 10 n, c.isDigit = true :=
  fun _ mem => Nat.isDigit_of_mem_toDigits (by decide) (by decide) mem

theorem all_zeros (n : Nat) : ∀ c ∈ Layout.zeros n, c.isDigit = true :=
  fun _ mem => List.eq_of_mem_replicate mem ▸ rfl

theorem readDigits_whole (all : ∀ c ∈ digits, c.isDigit = true) (nonempty : digits ≠ []) :
    readDigits digits = some (value (digitsValue digits) 0) := by
  unfold readDigits
  simp only [takeWhile_digits all, dropWhile_digits all, List.append_nil, if_neg nonempty,
    readExponent, Option.map_some]
  rfl

theorem readDigits_point (all : ∀ c ∈ digits, c.isDigit = true)
    (all' : ∀ c ∈ fraction, c.isDigit = true) (nonempty : digits ++ fraction ≠ []) :
    readDigits (digits ++ '.' :: fraction) =
      some (value (digitsValue (digits ++ fraction)) (-fraction.length)) := by
  unfold readDigits
  simp only [takeWhile_point all, dropWhile_point all, takeWhile_digits all',
    dropWhile_digits all', if_neg nonempty, readExponent, Option.map_some, Int.zero_sub]

theorem value_whole {n : Nat} (nonzero : n ≠ 0) : value n 0 = Double.nearest n 1 := by
  rw [value, if_neg, if_neg (by decide), if_pos (Int.le_refl 0)]
  · exact congrArg (Double.nearest · 1) (Nat.mul_one n)
  · rintro (zero | far)
    · exact nonzero zero
    · omega

theorem value_mul_pow (n places : Nat) (near : places ≤ 400) :
    value (n * Nat.pow 10 places) 0 = value n places := by
  by_cases zero : n = 0
  · rw [zero, Nat.zero_mul, value, value, if_pos (.inl rfl), if_pos (.inl rfl)]
  · have nonzero : n * Nat.pow 10 places ≠ 0 :=
      Nat.mul_ne_zero zero (Nat.ne_of_gt (Shortest.ten_pow_pos places))
    rw [value_whole nonzero, value, if_neg, if_neg (by omega), if_pos (by omega)]
    · rfl
    · omega

end Decimal

namespace Layout

variable {digits : List Char} {exponent : Int}

theorem positional_of_nonneg (whole : 0 ≤ exponent) :
    positional digits exponent = digits ++ zeros exponent.toNat :=
  if_pos whole

theorem positional_of_neg (digits : List Char) (negative : exponent < 0) : ∃ whole fraction,
    positional digits exponent = whole ++ '.' :: fraction ∧
    whole ++ fraction = zeros ((-exponent).toNat + 1 - digits.length) ++ digits ∧
    whole ≠ [] ∧ fraction.length = (-exponent).toNat := by
  have enough : (-exponent).toNat <
      (zeros ((-exponent).toNat + 1 - digits.length) ++ digits).length := by
    rw [List.length_append, zeros, List.length_replicate]
    omega
  refine ⟨_, _, if_neg (Int.not_le.mpr negative), List.take_append_drop _ _, ?_, ?_⟩
  · rw [← List.length_pos_iff, List.length_take]
    omega
  · rw [List.length_drop]
    omega

theorem isRun_positional (all : ∀ c ∈ digits, c.isDigit = true) (exponent : Int) :
    Decimal.IsRun (positional digits exponent) := by
  have padded : ∀ n, ∀ c ∈ zeros n ++ digits, c.isDigit = true := fun n =>
    List.forall_mem_append.mpr ⟨Decimal.all_zeros n, all⟩
  rcases Int.lt_or_le exponent 0 with negative | whole
  · obtain ⟨whole, fraction, text, parts, -⟩ := positional_of_neg digits negative
    obtain ⟨all_whole, all_fraction⟩ := List.forall_mem_append.mp (parts ▸ padded _)
    rw [text]
    refine List.forall_mem_append.mpr ⟨fun c mem => .inl (all_whole c mem),
      List.forall_mem_cons.mpr ⟨.inr rfl, fun c mem => .inl (all_fraction c mem)⟩⟩
  · rw [positional_of_nonneg whole]
    exact List.forall_mem_append.mpr ⟨fun c mem => .inl (all c mem),
      fun c mem => .inl (Decimal.all_zeros _ c mem)⟩

theorem readDigits_positional (all : ∀ c ∈ digits, c.isDigit = true) (nonempty : digits ≠ [])
    (near : exponent ≤ 400) : Decimal.readDigits (positional digits exponent) =
      some (Decimal.value (Decimal.digitsValue digits) exponent) := by
  rcases Int.lt_or_le exponent 0 with negative | whole
  · obtain ⟨whole, fraction, text, parts, present, places⟩ := positional_of_neg digits negative
    obtain ⟨all_whole, all_fraction⟩ := List.forall_mem_append.mp
      (parts ▸ List.forall_mem_append.mpr ⟨Decimal.all_zeros _, all⟩)
    have power : -(fraction.length : Int) = exponent := by omega
    rw [text, Decimal.readDigits_point all_whole all_fraction
      (List.append_ne_nil_of_left_ne_nil present _), parts, Decimal.digitsValue_zeros_append,
      power]
  · rw [positional_of_nonneg whole, Decimal.readDigits_whole, Decimal.digitsValue_append_zeros,
      Decimal.value_mul_pow _ _ (by omega), Int.toNat_of_nonneg whole]
    · exact List.forall_mem_append.mpr ⟨all, Decimal.all_zeros _⟩
    · exact List.append_ne_nil_of_left_ne_nil nonempty _

end Layout

end Reckon
