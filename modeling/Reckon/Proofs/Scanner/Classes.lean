import Reckon.Text.Blank
import Reckon.Token

/-!
Character classes. Symbols stand for themselves; digits with the point, letters and the underscore
are the characters of runs, and each of these classes decides the kind of its characters. A blank
is in none of them, so no token has a blank in it.
-/

namespace Reckon

/-- What holds of the characters of a list is checked for these alone, not for all characters. -/
theorem forall_mem_of_all {cs : List Char} {property : Char → Prop} [DecidablePred property]
    (all : cs.all (fun c => property c) = true) : ∀ c ∈ cs, property c :=
  fun c mem => of_decide_eq_true (List.all_eq_true.mp all c mem)

namespace TokenKind

variable {c : Char}

theorem isAlpha_iff_toNat : c.isAlpha = true ↔
    ('A'.toNat ≤ c.toNat ∧ c.toNat ≤ 'Z'.toNat) ∨ ('a'.toNat ≤ c.toNat ∧ c.toNat ≤ 'z'.toNat) := by
  have le_iff (a b : Char) : decide (a.val ≤ b.val) = true ↔ a.toNat ≤ b.toNat :=
    decide_eq_true_iff.trans UInt32.le_iff_toNat_le
  have upper : c.isUpper = true ↔ 'A'.toNat ≤ c.toNat ∧ c.toNat ≤ 'Z'.toNat :=
    decide_eq_true_iff.trans (and_congr UInt32.le_iff_toNat_le UInt32.le_iff_toNat_le)
  have lower : c.isLower = true ↔ 'a'.toNat ≤ c.toNat ∧ c.toNat ≤ 'z'.toNat :=
    Bool.and_eq_true_iff.trans (and_congr (le_iff 'a' c) (le_iff c 'z'))
  exact Bool.or_eq_true_iff.trans (or_congr upper lower)

theorem isDigit_of_isAlpha (letter : c.isAlpha = true) : c.isDigit = false := by
  rw [isAlpha_iff_toNat] at letter
  rw [Bool.eq_false_iff, ne_eq, Char.isDigit_iff_toNat]
  simp at letter ⊢
  omega

def symbols : List Char :=
  [',', '*', '/', '^', '%', '+', '-', '!', '~', '{', '[', '(', '}', ']', ')', '<', '>', '=',
    '&', '|', '?']

theorem not_bracket_of_not_symbol (other : c ∉ symbols) :
    Bracket.opens? c = none ∧ Bracket.closes? c = none := by
  simp only [symbols, List.mem_cons, List.not_mem_nil, or_false, not_or] at other
  constructor
  · unfold Bracket.opens?
    split <;> simp_all
  · unfold Bracket.closes?
    split <;> simp_all

theorem ofChar_of_not_symbol (other : c ∉ symbols) : ofChar c =
    if c.isDigit || c = '.' then .number
    else if c = '_' then .previous
    else if c.isAlpha then .identifier
    else .invalid := by
  obtain ⟨opens, closes⟩ := not_bracket_of_not_symbol other
  simp only [symbols, List.mem_cons, List.not_mem_nil, or_false, not_or] at other
  unfold ofChar
  simp [opens, closes, other]

theorem ofChar_of_symbol (symbol : c ∈ symbols) :
    ofChar c ∉ [.number, .previous, .identifier, .invalid] := by
  have table : ∀ s ∈ symbols, ofChar s ∉ [.number, .previous, .identifier, .invalid] :=
    forall_mem_of_all (by decide)
  exact table c symbol

theorem ofChar_number : ofChar c = .number ↔ c.isDigit = true ∨ c = '.' := by
  by_cases symbol : c ∈ symbols
  · have other : ∀ s ∈ symbols, ¬ (s.isDigit = true ∨ s = '.') :=
      forall_mem_of_all (by decide)
    have kind := ofChar_of_symbol symbol
    exact iff_of_false (by simp_all) (other c symbol)
  · rw [ofChar_of_not_symbol symbol]
    repeat' split
    all_goals simp_all

theorem ofChar_previous : ofChar c = .previous ↔ c = '_' := by
  by_cases symbol : c ∈ symbols
  · have other : ∀ s ∈ symbols, s ≠ '_' := forall_mem_of_all (by decide)
    have kind := ofChar_of_symbol symbol
    exact iff_of_false (by simp_all) (other c symbol)
  · rw [ofChar_of_not_symbol symbol]
    by_cases underscore : c = '_'
    · subst underscore
      decide
    · rw [if_neg underscore]
      repeat' split
      all_goals simp_all

theorem ofChar_identifier : ofChar c = .identifier ↔ c.isAlpha = true := by
  by_cases symbol : c ∈ symbols
  · have other : ∀ s ∈ symbols, ¬ s.isAlpha = true := forall_mem_of_all (by decide)
    have kind := ofChar_of_symbol symbol
    exact iff_of_false (by simp_all) (other c symbol)
  · rw [ofChar_of_not_symbol symbol]
    by_cases letter : c.isAlpha = true
    · have point : c ≠ '.' := by
        rintro rfl
        contradiction
      have underscore : c ≠ '_' := by
        rintro rfl
        contradiction
      simp [isDigit_of_isAlpha letter, point, underscore, letter]
    · repeat' split
      all_goals simp_all

theorem ofChar_relational : ofChar c = .relational ↔ c ∈ ['<', '>', '='] := by
  by_cases symbol : c ∈ symbols
  · have table : ∀ s ∈ symbols, ofChar s = .relational ↔ s ∈ ['<', '>', '='] :=
      forall_mem_of_all (by decide)
    exact table c symbol
  · have among : ∀ s ∈ ['<', '>', '='], s ∈ symbols := forall_mem_of_all (by decide)
    have other : c ∉ ['<', '>', '='] := fun mem => symbol (among c mem)
    refine iff_of_false ?_ other
    rw [ofChar_of_not_symbol symbol]
    repeat' split
    all_goals decide

def isSingle : TokenKind → Bool
  | operator | boolean | opening | closing | delimiter => true
  | _ => false

theorem mem_symbols_of_isSingle (single : (ofChar c).isSingle = true) : c ∈ symbols := by
  refine Decidable.byContradiction fun other => ?_
  rw [ofChar_of_not_symbol other] at single
  repeat' split at single
  all_goals contradiction

theorem not_bracket_of_ofChar (opening : ofChar c ≠ .opening) (closing : ofChar c ≠ .closing) :
    Bracket.opens? c = none ∧ Bracket.closes? c = none := by
  by_cases symbol : c ∈ symbols
  · have table : ∀ s ∈ symbols, ofChar s = .opening ∨ ofChar s = .closing ∨
        (Bracket.opens? s = none ∧ Bracket.closes? s = none) := forall_mem_of_all (by decide)
    exact ((table c symbol).resolve_left opening).resolve_left closing
  · exact not_bracket_of_not_symbol symbol

theorem opens_of_ofChar (opening : ofChar c = .opening) :
    ∃ style, Bracket.opens? c = some style := by
  have table : ∀ s ∈ symbols, ofChar s = .opening → (Bracket.opens? s).isSome :=
    forall_mem_of_all (by decide)
  have symbol := mem_symbols_of_isSingle (c := c) (by rw [opening]; rfl)
  exact Option.isSome_iff_exists.mp (table c symbol opening)

theorem closes_of_ofChar (closing : ofChar c = .closing) :
    Bracket.opens? c = none ∧ ∃ style, Bracket.closes? c = some style := by
  have table : ∀ s ∈ symbols, ofChar s = .closing →
      Bracket.opens? s = none ∧ (Bracket.closes? s).isSome := forall_mem_of_all (by decide)
  have symbol := mem_symbols_of_isSingle (c := c) (by rw [closing]; rfl)
  exact (table c symbol closing).imp_right Option.isSome_iff_exists.mp

theorem toNat_of_ofChar (valid : ofChar c ≠ .invalid) :
    '!'.toNat ≤ c.toNat ∧ c.toNat ≤ '~'.toNat := by
  by_cases symbol : c ∈ symbols
  · have table : ∀ s ∈ symbols, '!'.toNat ≤ s.toNat ∧ s.toNat ≤ '~'.toNat :=
      forall_mem_of_all (by decide)
    exact table c symbol
  · rw [ofChar_of_not_symbol symbol] at valid
    split at valid
    · next number =>
      simp only [Bool.or_eq_true, decide_eq_true_eq, Char.isDigit_iff_toNat] at number
      rcases number with digit | rfl
      · simp at digit ⊢
        omega
      · decide
    · split at valid
      · next underscore => exact underscore ▸ by decide
      · split at valid
        · next letter =>
          rw [isAlpha_iff_toNat] at letter
          simp at letter ⊢
          omega
        · exact absurd rfl valid

theorem not_isBlank_of_ofChar (valid : ofChar c ≠ .invalid) : Text.isBlank c = false := by
  have range := toNat_of_ofChar valid
  simp only [Text.isBlank, Bool.or_eq_false_iff, Bool.and_eq_false_iff, decide_eq_false_iff_not,
    beq_eq_false_iff_ne]
  simp at range
  omega

theorem ofChar_of_isBlank (blank : Text.isBlank c = true) : ofChar c = .invalid :=
  Decidable.byContradiction fun valid =>
    Bool.false_ne_true ((not_isBlank_of_ofChar valid).symm.trans blank)

theorem continues_number : continues .number c = true ↔ c.isDigit = true ∨ c = '.' := by
  simp [continues, ofChar_number]

theorem continues_previous : continues .previous c = true ↔ c = '_' := by
  simp [continues, ofChar_previous]

theorem continues_identifier : continues .identifier c = true ↔ c.isAlphanum = true := by
  simp [continues, ofChar_identifier, Char.isAlphanum]

end TokenKind

end Reckon
