import Reckon.Json.Numeral
import Reckon.Proofs.Number.Spelling

/-!
Numerals of written numbers. A numeral has one spelling among the texts that read as it, the one
with a sign in front of every exponent, and it is read up to what cannot carry it on. Every finite
number is written as such a spelling, so what is read behind it does not depend on its value, and its
value is that of the numeral: mostly, but not always, the number itself.
-/

namespace Reckon.Json

namespace Numeral

/-- A text that does not carry a numeral on. -/
def Ends (rest : List Char) : Prop :=
  ∀ c ∈ rest.head?, c.isDigit = false ∧ c ∉ ['.', 'e', 'E']

structure WellFormed (n : Numeral) : Prop where
  whole : ∀ c ∈ n.whole, c.isDigit = true
  nonempty : n.whole ≠ []
  unpadded : ∀ c more, n.whole ≠ '0' :: c :: more
  fraction : ∀ c ∈ n.fraction, c.isDigit = true

def spellExponent (exponent : Int) : List Char :=
  'e' :: (if exponent < 0 then '-' else '+') :: Nat.toDigits 10 exponent.natAbs

def spell (n : Numeral) : List Char :=
  let fraction := if n.fraction = [] then [] else '.' :: n.fraction
  let size := n.whole ++ (fraction ++ (n.exponent.map spellExponent).getD [])
  if n.negative then '-' :: size else size

variable {n : Numeral} {digits rest : List Char} {exponent : Int}

theorem ends_nil : Ends [] :=
  fun _ mem => by cases mem

theorem readDigits_append (all : ∀ c ∈ digits, c.isDigit = true) (nonempty : digits ≠ [])
    (ends : ∀ c ∈ rest.head?, c.isDigit = false) :
    readDigits (digits ++ rest) = some (digits, rest) := by
  have cut : rest.takeWhile Char.isDigit = [] ∧ rest.dropWhile Char.isDigit = rest := by
    cases rest with
    | nil => exact ⟨rfl, rfl⟩
    | cons c rest => simp [ends c rfl]
  rw [readDigits, List.takeWhile_append_of_pos all, List.dropWhile_append_of_pos all, cut.1, cut.2,
    List.append_nil]
  cases digits with
  | nil => exact absurd rfl nonempty
  | cons c digits => rfl

theorem readWhole_append (formed : WellFormed n) (ends : ∀ c ∈ rest.head?, c.isDigit = false) :
    readWhole (n.whole ++ rest) = some (n.whole, rest) := by
  rw [readWhole, readDigits_append formed.whole formed.nonempty ends]
  dsimp only [Option.bind_eq_bind, Option.bind_some]
  split
  · next c more padded => exact absurd padded (formed.unpadded c more)
  · rfl

theorem readFraction_append (all : ∀ c ∈ digits, c.isDigit = true)
    (ends : ∀ c ∈ rest.head?, c.isDigit = false ∧ c ≠ '.') :
    readFraction ((if digits = [] then [] else '.' :: digits) ++ rest) = some (digits, rest) := by
  by_cases empty : digits = []
  · rw [if_pos empty, empty, List.nil_append]
    unfold readFraction
    split
    · next behind => exact absurd rfl (ends '.' rfl).2
    · rfl
  · rw [if_neg empty, List.cons_append, readFraction]
    exact readDigits_append all empty fun c mem => (ends c mem).1

theorem readExponent_none (ends : Ends rest) : readExponent rest = some (none, rest) := by
  cases rest with
  | nil => rfl
  | cons c rest =>
    have other := (ends c rfl).2
    simp only [List.mem_cons, List.not_mem_nil, or_false, not_or] at other
    exact if_neg (not_or.mpr ⟨other.2.1, other.2.2⟩)

theorem readExponent_minus (cs : List Char) : readExponent ('e' :: '-' :: cs) =
    (readDigits cs).map fun (digits, rest) =>
      (some (-(Decimal.digitsValue digits : Int)), rest) := by
  cases found : readDigits cs <;> simp [readExponent, found]

theorem readExponent_plus (cs : List Char) : readExponent ('e' :: '+' :: cs) =
    (readDigits cs).map fun (digits, rest) =>
      (some (Decimal.digitsValue digits : Int), rest) := by
  cases found : readDigits cs <;> simp [readExponent, found]

theorem readExponent_append (ends : Ends rest) :
    readExponent (spellExponent exponent ++ rest) = some (some exponent, rest) := by
  have digits := readDigits_append (Decimal.all_toDigits exponent.natAbs) Nat.toDigits_ne_nil
    fun c mem => (ends c mem).1
  have size := Decimal.digitsValue_toDigits exponent.natAbs
  rw [spellExponent, List.cons_append, List.cons_append]
  by_cases negative : exponent < 0
  · have value : -(exponent.natAbs : Int) = exponent := by omega
    rw [if_pos negative, readExponent_minus, digits, Option.map_some]
    dsimp only
    rw [size, value]
  · have value : (exponent.natAbs : Int) = exponent := by omega
    rw [if_neg negative, readExponent_plus, digits, Option.map_some]
    dsimp only
    rw [size, value]

theorem ends_exponent (ends : Ends rest) (exponent : Option Int) :
    ∀ c ∈ ((exponent.map spellExponent).getD [] ++ rest).head?, c.isDigit = false ∧ c ≠ '.' := by
  cases exponent with
  | none => exact fun c mem => ⟨(ends c mem).1, fun same => (ends c mem).2 (same ▸ .head _)⟩
  | some exponent =>
    intro c mem
    obtain rfl : 'e' = c := Option.some.inj mem
    decide

theorem ends_fraction (fraction : List Char)
    (ends : ∀ c ∈ rest.head?, c.isDigit = false ∧ c ≠ '.') :
    ∀ c ∈ ((if fraction = [] then [] else '.' :: fraction) ++ rest).head?, c.isDigit = false := by
  split
  · exact fun c mem => (ends c mem).1
  · intro c mem
    obtain rfl : '.' = c := Option.some.inj mem
    decide

def readSize (negative : Bool) (cs : List Char) : Option (Numeral × List Char) := do
  let (whole, cs) ← readWhole cs
  let (fraction, cs) ← readFraction cs
  let (exponent, cs) ← readExponent cs
  return (⟨negative, whole, fraction, exponent⟩, cs)

theorem read?_minus (cs : List Char) : read? ('-' :: cs) = readSize true cs :=
  rfl

theorem read?_unsigned {cs : List Char} (unsigned : ∀ behind, cs ≠ '-' :: behind) :
    read? cs = readSize false cs := by
  unfold read?
  split
  · next negative cs found =>
    split at found
    · next behind => exact absurd rfl (unsigned behind)
    · obtain ⟨rfl, rfl⟩ := Prod.mk.inj found
      rfl

theorem readSize_append (formed : WellFormed n) (ends : Ends rest) (negative : Bool) :
    readSize negative (n.whole ++ ((if n.fraction = [] then [] else '.' :: n.fraction) ++
      ((n.exponent.map spellExponent).getD [] ++ rest))) =
      some (⟨negative, n.whole, n.fraction, n.exponent⟩, rest) := by
  have behind := ends_exponent ends n.exponent
  have exponent : readExponent ((n.exponent.map spellExponent).getD [] ++ rest) =
      some (n.exponent, rest) := by
    cases n.exponent with
    | none => exact readExponent_none ends
    | some exponent => exact readExponent_append ends
  have fraction := readFraction_append formed.fraction behind
  have whole := readWhole_append formed (ends_fraction n.fraction behind)
  simp only [readSize, whole, fraction, exponent, Option.bind_eq_bind, Option.bind_some]
  rfl

theorem read?_spell (formed : WellFormed n) (ends : Ends rest) :
    read? (n.spell ++ rest) = some (n, rest) := by
  have size := readSize_append formed ends n.negative
  unfold spell
  cases negative : n.negative with
  | true =>
    rw [if_pos rfl, List.cons_append, read?_minus, List.append_assoc, List.append_assoc,
      ← negative, size]
  | false =>
    rw [if_neg Bool.false_ne_true, read?_unsigned, List.append_assoc, List.append_assoc,
      ← negative, size]
    intro behind same
    cases whole : n.whole with
    | nil => exact formed.nonempty whole
    | cons c more =>
      rw [whole, List.cons_append, List.cons_append, List.cons.injEq] at same
      exact absurd (same.1 ▸ formed.whole c (whole ▸ List.mem_cons_self)) (by decide)

theorem toDigits_ne_zero_cons {k : Nat} (positive : 0 < k) (more : List Char) :
    Nat.toDigits 10 k ≠ '0' :: more := by
  have digit : ∀ d < 10, 0 < d → Nat.digitChar d ≠ '0' := by decide
  induction k using Nat.strongRecOn generalizing more with
  | ind k ih =>
    rw [Nat.toDigits_eq_if (by decide)]
    split
    · next small => exact fun same => digit k small positive (List.cons.inj same).1
    · next large =>
      cases front : Nat.toDigits 10 (k / 10) with
      | nil => exact absurd front Nat.toDigits_ne_nil
      | cons c others =>
        intro same
        rw [List.cons_append, List.cons.injEq] at same
        exact ih (k / 10) (by omega) (by omega) others (front.trans (by rw [same.1]))

theorem unpadded_toDigits (k : Nat) (c : Char) (more : List Char) :
    Nat.toDigits 10 k ≠ '0' :: c :: more := by
  rcases Nat.eq_zero_or_pos k with rfl | positive
  · have zero : Nat.toDigits 10 0 = ['0'] := rfl
    simp [zero]
  · exact toDigits_ne_zero_cons positive _

def ofNat (k : Nat) : Numeral :=
  ⟨false, Nat.toDigits 10 k, [], none⟩

theorem wellFormed_ofNat (k : Nat) : WellFormed (ofNat k) where
  whole := Decimal.all_toDigits k
  nonempty := Nat.toDigits_ne_nil
  unpadded := unpadded_toDigits k
  fraction := List.forall_mem_nil _

theorem spell_ofNat (k : Nat) : spell (ofNat k) = (toString k).toList := by
  rw [Nat.toString_eq_ofList_toDigits, String.toList_ofList]
  simp [spell, ofNat]

theorem mul_pow_le_ofDigitChars (k : Nat) (cs : List Char) :
    k * Nat.pow 10 cs.length ≤ Nat.ofDigitChars 10 cs k := by
  rw [Nat.ofDigitChars_eq_ofDigitChars_zero, Nat.mul_comm]
  exact Nat.le_add_right _ _

theorem gather_eq (k : Nat) (cs : List Char) (fits : Nat.ofDigitChars 10 cs k < UInt64.size) :
    gather k cs = (Nat.ofDigitChars 10 cs k, []) := by
  induction cs generalizing k with
  | nil => rfl
  | cons c cs ih =>
    rw [Nat.ofDigitChars_cons] at fits ⊢
    have longer := mul_pow_le_ofDigitChars (10 * k + (c.toNat - '0'.toNat)) cs
    have next := Nat.lt_of_le_of_lt (Nat.le_mul_of_pos_right _ (Shortest.ten_pow_pos cs.length))
      (Nat.lt_of_le_of_lt longer fits)
    rw [gather, if_pos next]
    exact ih _ fits

theorem natural?_ofNat {k : Nat} (fits : k < UInt64.size) : natural? (ofNat k) = some k := by
  have gathered := gather_eq 0 (Nat.toDigits 10 k) (by rwa [Nat.ofDigitChars_ten_toDigits])
  rw [Nat.ofDigitChars_ten_toDigits] at gathered
  simp only [natural?, ofNat, gathered]

/-- An unsigned numeral with the digits and the power of ten of a number, and not too many digits
in front of its point to be gathered. -/
structure Denotes (n : Numeral) (digits : Nat) (exponent : Int) : Prop where
  formed : WellFormed n
  unsigned : n.negative = false
  short : n.whole.length ≤ 16
  size : ∃ zeros, Decimal.digitsValue (n.whole ++ n.fraction) = digits * Nat.pow 10 zeros ∧
    n.exponent.getD 0 - n.fraction.length = exponent - zeros

theorem WellFormed.signed (formed : WellFormed n) (negative : Bool) :
    WellFormed { n with negative } :=
  ⟨formed.whole, formed.nonempty, formed.unpadded, formed.fraction⟩

theorem spell_signed (unsigned : n.negative = false) (negative : Bool) :
    spell { n with negative } = if negative then '-' :: n.spell else n.spell := by
  simp [spell, unsigned]

theorem ne_zero_cons_append {front back : List Char} (unpadded : ∀ more, front ≠ '0' :: more)
    (nonempty : front ≠ []) (more : List Char) : front ++ back ≠ '0' :: more := by
  cases front with
  | nil => exact absurd rfl nonempty
  | cons c front =>
    rw [List.cons_append, ne_eq, List.cons.injEq]
    exact fun same => unpadded front (by rw [same.1])

theorem exists_spell_positional (all : ∀ c ∈ digits, c.isDigit = true)
    (unpadded : ∀ more, digits ≠ '0' :: more) (nonempty : digits ≠ [])
    (near : digits.length + exponent ≤ 16) :
    ∃ n : Numeral, n.Denotes (Decimal.digitsValue digits) exponent ∧ n.spell =
      if 0 ≤ exponent then Layout.positional digits exponent ++ ".0".toList
      else Layout.positional digits exponent := by
  rcases Int.lt_or_le exponent 0 with negative | whole
  · obtain ⟨whole, fraction, text, parts, present, places⟩ :=
      Layout.positional_of_neg digits negative
    obtain ⟨all_whole, all_fraction⟩ := List.forall_mem_append.mp
      (parts ▸ List.forall_mem_append.mpr ⟨Decimal.all_zeros _, all⟩)
    have length := congrArg List.length parts
    rw [List.length_append, List.length_append, Layout.zeros, List.length_replicate] at length
    refine ⟨⟨false, whole, fraction, none⟩,
      ⟨⟨all_whole, present, ?_, all_fraction⟩, rfl, ?_, 0, ?_, ?_⟩, ?_⟩
    · -- Zeros are put in front of the digits only up to one place before the point.
      rintro c more rfl
      have none_added : (-exponent).toNat + 1 - digits.length = 0 := by
        rw [List.length_cons, List.length_cons] at length
        omega
      rw [none_added] at parts
      exact unpadded _ parts.symm
    · dsimp only
      omega
    · exact (congrArg Decimal.digitsValue parts).trans
        ((Decimal.digitsValue_zeros_append _ _).trans (Nat.mul_one _).symm)
    · dsimp only [Option.getD_none]
      omega
    · have some_places : fraction ≠ [] := by
        rw [← List.length_pos_iff]
        omega
      rw [if_neg (Int.not_le.mpr negative), text]
      simp [spell, some_places]
  · refine ⟨⟨false, digits ++ Layout.zeros exponent.toNat, ['0'], none⟩,
      ⟨⟨?_, ?_, fun c more => ?_, List.forall_mem_singleton.mpr rfl⟩, rfl, ?_,
        exponent.toNat + 1, ?_, ?_⟩, ?_⟩
    · exact List.forall_mem_append.mpr ⟨all, Decimal.all_zeros _⟩
    · exact List.append_ne_nil_of_left_ne_nil nonempty _
    · exact ne_zero_cons_append unpadded nonempty _
    · rw [List.length_append, Layout.zeros, List.length_replicate]
      omega
    · rw [List.append_assoc, ← Decimal.digitsValue_append_zeros, Layout.zeros, Layout.zeros,
        List.replicate_succ']
    · dsimp only [Option.getD_none, List.length_singleton]
      omega
    · rw [if_pos whole, Layout.positional_of_nonneg whole]
      simp [spell]

def mantissa : List Char → List Char
  | first :: second :: more => first :: '.' :: second :: more
  | single => single

theorem exists_spell_scientific (all : ∀ c ∈ digits, c.isDigit = true)
    (unpadded : ∀ more, digits ≠ '0' :: more) (nonempty : digits ≠ []) (exponent : Int) :
    ∃ n : Numeral, n.Denotes (Decimal.digitsValue digits) exponent ∧
      n.spell = mantissa digits ++ spellExponent (digits.length + exponent - 1) := by
  match digits with
  | [] => exact absurd rfl nonempty
  | [first] =>
    refine ⟨⟨false, [first], [], some (1 + exponent - 1)⟩, ⟨⟨all, nonempty, by simp,
      List.forall_mem_nil _⟩, rfl, by simp, 0, (Nat.mul_one _).symm, ?_⟩, ?_⟩
    · dsimp only [Option.getD_some, List.length_nil]
      omega
    · simp [spell, mantissa]
  | first :: second :: more =>
    obtain ⟨here, later⟩ := List.forall_mem_cons.mp all
    refine ⟨⟨false, [first], second :: more, some ((first :: second :: more).length +
      exponent - 1)⟩, ⟨⟨List.forall_mem_singleton.mpr here, List.cons_ne_nil _ _, by simp, later⟩,
      rfl, by simp, 0, (Nat.mul_one _).symm, ?_⟩, ?_⟩
    · dsimp only [Option.getD_some, List.length_cons]
      omega
    · simp [spell, mantissa]

theorem spellExponent_eq (exponent : Int) : spellExponent exponent =
    (if 0 ≤ exponent then "e+" else "e").toList ++ (toString exponent).toList := by
  rw [Decimal.toString_int, String.toList_ofList, spellExponent]
  by_cases negative : exponent < 0
  · rw [if_pos negative, if_pos negative, if_neg (Int.not_le.mpr negative)]
    rfl
  · rw [if_neg negative, if_neg negative, if_pos (Int.not_lt.mp negative)]
    rfl

theorem spellExponent_sub_one (point : Int) : spellExponent (point - 1) =
    (if 0 < point then "e+" else "e").toList ++ (toString (point - 1)).toList := by
  rw [spellExponent_eq]
  by_cases before : 0 < point
  · rw [if_pos before, if_pos (show 0 ≤ point - 1 by omega)]
  · rw [if_neg before, if_neg (show ¬ 0 ≤ point - 1 by omega)]

theorem exists_spell_writePositive {x : Float}
    (positive : 0 < (Shortest.ofPositive .even x).digits) :
    ∃ n : Numeral, n.Denotes (Shortest.ofPositive .even x).digits
      (Shortest.ofPositive .even x).exponent ∧ writePositive x = n.spell := by
  unfold writePositive
  -- Nothing of the digits counts but that they do not begin with a zero.
  generalize Shortest.ofPositive .even x = d at positive ⊢
  have all := Decimal.all_toDigits d.digits
  have unpadded := toDigits_ne_zero_cons positive
  have nonempty : Nat.toDigits 10 d.digits ≠ [] := Nat.toDigits_ne_nil
  have value := Decimal.digitsValue_toDigits d.digits
  dsimp only
  generalize Nat.toDigits 10 d.digits = digits at all unpadded nonempty value ⊢
  rw [← value]
  split
  · next near =>
    obtain ⟨n, denotes, text⟩ := exists_spell_positional all unpadded nonempty near.2
    exact ⟨n, denotes, text.symm⟩
  · obtain ⟨n, denotes, text⟩ := exists_spell_scientific all unpadded nonempty d.exponent
    refine ⟨n, denotes, ?_⟩
    rw [text, spellExponent_sub_one, List.append_assoc]
    refine congrArg (· ++ _) ?_
    rcases digits with _ | ⟨first, _ | ⟨second, more⟩⟩ <;> rfl

theorem exists_spell {x : Float} (finite : x.isFinite) :
    ∃ (n : Numeral) (d : Shortest.Digits), n.Denotes d.digits d.exponent ∧ d.value = x.abs ∧
      (writeNumber x).toList = spell { n with negative := Double.isNegative x } := by
  have unsigned : ∃ (n : Numeral) (d : Shortest.Digits), n.Denotes d.digits d.exponent ∧
      d.value = x.abs ∧ (if x == 0 then "0.0".toList else writePositive x.abs) = n.spell := by
    split
    · next zero =>
      have digit : ∀ c ∈ ['0'], c.isDigit = true := List.forall_mem_singleton.mpr rfl
      refine ⟨⟨false, ['0'], ['0'], none⟩, ⟨0, 0⟩,
        ⟨⟨digit, by simp, by simp, digit⟩, rfl, by simp, 1, rfl, rfl⟩, ?_, rfl⟩
      exact (Double.abs_eq_zero finite ((Double.beq_zero_iff finite).mp zero)).symm
    · next nonzero =>
      have positive : 0 < Double.significand x.abs := by
        rw [Double.significand_abs]
        exact Nat.pos_of_ne_zero (mt (Double.beq_zero_iff finite).mpr nonzero)
      have finite' := Double.isFinite_abs finite
      have nonnegative := Double.isNegative_abs x
      obtain ⟨n, denotes, text⟩ := exists_spell_writePositive
        (Shortest.digits_pos finite' nonnegative positive)
      exact ⟨n, _, denotes, Shortest.value_ofPositive finite' nonnegative positive, text⟩
  obtain ⟨n, d, denotes, value, text⟩ := unsigned
  refine ⟨n, d, denotes, value, ?_⟩
  rw [spell_signed denotes.unsigned, ← text, writeNumber, finite, if_neg (by simp),
    String.toList_ofList]

end Numeral

end Reckon.Json
