import Mathlib.Data.List.TakeWhile
import Reckon.Number.Decimal

/-!
Numbers without sign and exponent. A run of digits and points is the text of a number exactly when
it has a digit and no second point: a sign, a word and an exponent cannot occur in it, so reading
stops at a second point and nowhere else.
-/

namespace Reckon.Decimal

/-- A run of digits and points, as numbers stand in formulas. -/
def IsRun (cs : List Char) : Prop :=
  ∀ c ∈ cs, c.isDigit = true ∨ c = '.'

def IsPlain (cs : List Char) : Prop :=
  cs.count '.' ≤ 1 ∧ ∃ c ∈ cs, c.isDigit = true

variable {cs digits rest : List Char}

theorem IsRun.cut (run : IsRun cs) : ∃ digits, (∀ c ∈ digits, c.isDigit = true) ∧
    (cs = digits ∨ ∃ rest, cs = digits ++ '.' :: rest ∧ IsRun rest) := by
  induction cs with
  | nil => exact ⟨[], List.forall_mem_nil _, .inl rfl⟩
  | cons c cs ih =>
    have later : IsRun cs := fun d mem => run d (List.mem_cons_of_mem c mem)
    cases run c List.mem_cons_self with
    | inl digit =>
      obtain ⟨digits, all, cut⟩ := ih later
      refine ⟨c :: digits, List.forall_mem_cons.mpr ⟨digit, all⟩, ?_⟩
      rcases cut with rfl | ⟨rest, rfl, further⟩
      · exact .inl rfl
      · exact .inr ⟨rest, rfl, further⟩
    | inr point => exact ⟨[], List.forall_mem_nil _, .inr ⟨cs, point ▸ rfl, later⟩⟩

theorem count_point (all : ∀ c ∈ digits, c.isDigit = true) : digits.count '.' = 0 :=
  List.count_eq_zero.mpr fun mem => absurd (all '.' mem) (by decide)

theorem takeWhile_digits (all : ∀ c ∈ digits, c.isDigit = true) :
    digits.takeWhile Char.isDigit = digits :=
  List.takeWhile_eq_self_iff.mpr all

theorem dropWhile_digits (all : ∀ c ∈ digits, c.isDigit = true) :
    digits.dropWhile Char.isDigit = [] :=
  List.dropWhile_eq_nil_iff.mpr all

theorem takeWhile_point (all : ∀ c ∈ digits, c.isDigit = true) :
    (digits ++ '.' :: rest).takeWhile Char.isDigit = digits := by
  rw [List.takeWhile_append_of_pos all, List.takeWhile_cons_of_neg (by decide), List.append_nil]

theorem dropWhile_point (all : ∀ c ∈ digits, c.isDigit = true) :
    (digits ++ '.' :: rest).dropWhile Char.isDigit = '.' :: rest := by
  rw [List.dropWhile_append_of_pos all, List.dropWhile_cons_of_neg (by decide)]

theorem isPlain_digits (all : ∀ c ∈ digits, c.isDigit = true) : IsPlain digits ↔ digits ≠ [] := by
  rw [IsPlain, count_point all]
  constructor
  · rintro ⟨-, c, mem, -⟩ rfl
    exact absurd mem List.not_mem_nil
  · intro nonempty
    obtain ⟨c, mem⟩ := List.exists_mem_of_ne_nil digits nonempty
    exact ⟨Nat.zero_le 1, c, mem, all c mem⟩

theorem isPlain_point (all : ∀ c ∈ digits, c.isDigit = true) {fraction : List Char}
    (allFraction : ∀ c ∈ fraction, c.isDigit = true) :
    IsPlain (digits ++ '.' :: fraction) ↔ digits ++ fraction ≠ [] := by
  have allBoth : ∀ c ∈ digits ++ fraction, c.isDigit = true :=
    List.forall_mem_append.mpr ⟨all, allFraction⟩
  rw [← isPlain_digits allBoth]
  simp only [IsPlain, List.count_append, List.count_cons, count_point all, count_point allFraction,
    List.mem_append, List.mem_cons]
  constructor
  · rintro ⟨-, c, mem | rfl | mem, digit⟩
    · exact ⟨Nat.zero_le 1, c, .inl mem, digit⟩
    · exact absurd digit (by decide)
    · exact ⟨Nat.zero_le 1, c, .inr mem, digit⟩
  · rintro ⟨-, c, mem, digit⟩
    exact ⟨by decide, c, mem.imp_right .inr, digit⟩

theorem readDigits_isSome (run : IsRun cs) : (readDigits cs).isSome ↔ IsPlain cs := by
  obtain ⟨digits, all, rfl | ⟨rest, rfl, behind⟩⟩ := run.cut
  · rw [isPlain_digits all]
    unfold readDigits
    simp only [takeWhile_digits all, dropWhile_digits all, List.append_nil]
    split <;> simp_all [readExponent]
  · obtain ⟨fraction, allFraction, rfl | ⟨further, rfl, -⟩⟩ := behind.cut
    · rw [isPlain_point all allFraction]
      unfold readDigits
      simp only [takeWhile_point all, dropWhile_point all, takeWhile_digits allFraction,
        dropWhile_digits allFraction]
      split <;> simp_all [readExponent]
    · have second : ¬ IsPlain (digits ++ '.' :: (fraction ++ '.' :: further)) := by
        rintro ⟨few, -⟩
        simp [List.count_append] at few
        omega
      have unread : readExponent ('.' :: further) = none := by simp [readExponent]
      simp only [second, iff_false]
      unfold readDigits
      simp only [takeWhile_point all, dropWhile_point all, takeWhile_point allFraction,
        dropWhile_point allFraction, unread]
      split <;> simp

theorem toLower_of_run {c : Char} (here : c.isDigit = true ∨ c = '.') : c.toLower = c := by
  have small : c.toNat ≤ '9'.toNat := by
    cases here with
    | inl digit => exact (Char.isDigit_iff_toNat.mp digit).2
    | inr point => exact point ▸ by decide
  have noCapital : ¬ (c.val ≥ 'A'.val ∧ c.val ≤ 'Z'.val) := by
    rintro ⟨above, -⟩
    exact absurd (Nat.le_trans (UInt32.le_iff_toNat_le.mp above) small) (by decide)
  exact dif_neg noCapital

theorem readUnsigned_eq (run : IsRun cs) : readUnsigned cs = readDigits cs := by
  have lowered : cs.map Char.toLower = cs :=
    (List.map_congr_left fun c mem => toLower_of_run (run c mem)).trans (List.map_id' cs)
  have noWord : ∀ letter, ¬ (letter.isDigit = true ∨ letter = '.') → ∀ word, cs ≠ letter :: word :=
    fun letter other word same => other (run letter (same ▸ List.mem_cons_self))
  unfold readUnsigned
  simp only [lowered]
  rw [if_neg, if_neg]
  · exact noWord 'n' (by decide) _
  · exact not_or.mpr ⟨noWord 'i' (by decide) _, noWord 'i' (by decide) _⟩

theorem read?_isSome {text : String} (run : IsRun text.toList) :
    (read? text).isSome ↔ IsPlain text.toList := by
  rw [← readDigits_isSome run, ← readUnsigned_eq run]
  unfold read?
  split
  · next found =>
    have sign := run '-' (by rw [found]; exact List.mem_cons_self)
    exact absurd sign (by decide)
  · next found =>
    have sign := run '+' (by rw [found]; exact List.mem_cons_self)
    exact absurd sign (by decide)
  · rfl

end Reckon.Decimal
