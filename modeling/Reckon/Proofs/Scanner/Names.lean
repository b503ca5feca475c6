import Reckon.Proofs.Scanner.WellFormed
import Reckon.Text.Name

/-!
Names of a text. No token has a blank in it, so nothing is trimmed from an identifier of a text, and
its normal form is its lower case. That is an identifier again, in lower case already. So a text
mentions names in normal form only.
-/

namespace Reckon

namespace Text

theorem trim_eq_self {s : String} (solid : ∀ c ∈ s.toList, isBlank c = false) :
    trim s = s := by
  have first : s.toList.dropWhile isBlank = s.toList := by
    cases chars : s.toList with
    | nil => rfl
    | cons c cs =>
      have here := solid c (by simp [chars])
      rw [List.dropWhile_cons_of_neg (by simp [here])]
  have last : s.toList.reverse.dropWhile isBlank = s.toList.reverse := by
    cases chars : s.toList.reverse with
    | nil => rfl
    | cons c cs =>
      have here := solid c (List.mem_reverse.mp (by simp [chars]))
      rw [List.dropWhile_cons_of_neg (by simp [here])]
  rw [trim, first, trimEnd, last, List.reverse_reverse, String.ofList_toList]

variable {c : Char}

theorem isUpper_iff_toNat : c.isUpper = true ↔ 'A'.toNat ≤ c.toNat ∧ c.toNat ≤ 'Z'.toNat :=
  decide_eq_true_iff.trans (and_congr UInt32.le_iff_toNat_le UInt32.le_iff_toNat_le)

theorem toLower_eq_self (small : c.isUpper = false) : c.toLower = c :=
  dif_neg (of_decide_eq_false small)

theorem toNat_toLower (upper : c.isUpper = true) : c.toLower.toNat = c.toNat + 32 := by
  have lowered : c.toLower.val = c.val + ('a'.val - 'A'.val) :=
    congrArg Char.val (dif_pos (of_decide_eq_true upper))
  have sum : (c.val + ('a'.val - 'A'.val)).toNat = (c.toNat + 32) % 2 ^ 32 := UInt32.toNat_add ..
  have small := (isUpper_iff_toNat.mp upper).2
  simp at small
  rw [Char.toNat, lowered]
  exact sum.trans (Nat.mod_eq_of_lt (by omega))

theorem isAlpha_toLower (letter : c.isAlpha = true) : c.toLower.isAlpha = true := by
  by_cases upper : c.isUpper = true
  · have range := isUpper_iff_toNat.mp upper
    rw [TokenKind.isAlpha_iff_toNat, toNat_toLower upper]
    simp at range ⊢
    omega
  · rwa [toLower_eq_self (by simpa using upper)]

theorem isAlphanum_toLower (word : c.isAlphanum = true) : c.toLower.isAlphanum = true := by
  simp only [Char.isAlphanum, Bool.or_eq_true] at word ⊢
  cases word with
  | inl letter => exact .inl (isAlpha_toLower letter)
  | inr digit =>
    have small : c.isUpper = false := by
      rw [Bool.eq_false_iff, ne_eq, isUpper_iff_toNat]
      rw [Char.isDigit_iff_toNat] at digit
      simp at digit ⊢
      omega
    exact .inr (by rwa [toLower_eq_self small])

theorem isAlpha_of_isUpper (upper : c.isUpper = true) : c.isAlpha = true :=
  Bool.or_eq_true_iff.mpr (.inl upper)

theorem isAlpha_of_toLower (letter : c.toLower.isAlpha = true) : c.isAlpha = true := by
  by_cases upper : c.isUpper = true
  · exact isAlpha_of_isUpper upper
  · rwa [toLower_eq_self (by simpa using upper)] at letter

theorem isAlphanum_of_toLower (word : c.toLower.isAlphanum = true) : c.isAlphanum = true := by
  by_cases upper : c.isUpper = true
  · exact Bool.or_eq_true_iff.mpr (.inl (isAlpha_of_isUpper upper))
  · rwa [toLower_eq_self (by simpa using upper)] at word

theorem toLower_toLower : c.toLower.toLower = c.toLower := by
  by_cases upper : c.isUpper = true
  · refine toLower_eq_self ?_
    rw [Bool.eq_false_iff, ne_eq, isUpper_iff_toNat, toNat_toLower upper]
    have range := isUpper_iff_toNat.mp upper
    simp at range ⊢
    omega
  · have small : c.isUpper = false := by simpa using upper
    rw [toLower_eq_self small, toLower_eq_self small]

theorem lowercase_word {cs : List Char} (word : ∀ c ∈ cs, c.isAlphanum = true) :
    lowercase (String.ofList cs) = String.ofList (cs.map Char.toLower) := by
  rw [lowercase, String.toList_ofList, lowerFrom_ascii]
  intro c mem
  have range := word c mem
  simp only [Char.isAlphanum, Bool.or_eq_true, TokenKind.isAlpha_iff_toNat,
    Char.isDigit_iff_toNat] at range
  simp at range
  omega

end Text

namespace Token.WellFormed

variable {token : Token} {text : String}

theorem solid {c : Char} (formed : token.WellFormed) (mem : c ∈ token.text.toList) :
    Text.isBlank c = false := by
  have valid := formed.valid
  refine TokenKind.not_isBlank_of_ofChar ?_
  rcases formed.ofChar_of_mem mem with same | ⟨-, digit⟩
  · rwa [same]
  · rw [digit]
    decide

theorem normalName_eq (formed : token.WellFormed) :
    Text.normalName token.text = Text.lowercase token.text := by
  rw [Text.normalName, Text.trim_eq_self fun c => formed.solid]

theorem exists_word (formed : WellFormed ⟨.identifier, text⟩) : ∃ first others,
    text = String.ofList (first :: others) ∧ first.isAlpha = true ∧
      ∀ c ∈ first :: others, c.isAlphanum = true := by
  generalize named : (⟨.identifier, text⟩ : Token) = token at formed
  cases formed with
  | single single =>
    obtain ⟨kind, -⟩ := Token.mk.inj named
    rw [← kind] at single
    contradiction
  | identifier letter word =>
    obtain ⟨-, rfl⟩ := Token.mk.inj named
    refine ⟨_, _, rfl, letter, List.forall_mem_cons.mpr ⟨?_, word⟩⟩
    simp [Char.isAlphanum, letter]
  | relational | number | previous => simp at named

theorem lowercase (formed : WellFormed ⟨.identifier, text⟩) :
    WellFormed ⟨.identifier, Text.lowercase text⟩ := by
  obtain ⟨first, others, rfl, letter, word⟩ := formed.exists_word
  rw [Text.lowercase_word word]
  refine .identifier (Text.isAlpha_toLower letter) fun c mem => ?_
  obtain ⟨d, among, rfl⟩ := List.mem_map.mp mem
  exact Text.isAlphanum_toLower (word d (List.mem_cons_of_mem _ among))

theorem normalName_lowercase (formed : WellFormed ⟨.identifier, text⟩) :
    Text.normalName (Text.lowercase text) = Text.lowercase text := by
  rw [formed.lowercase.normalName_eq]
  obtain ⟨first, others, rfl, -, word⟩ := formed.exists_word
  rw [Text.lowercase_word word, Text.lowercase_word]
  · rw [List.map_map]
    congr 2
    funext c
    exact Text.toLower_toLower
  · intro c mem
    obtain ⟨d, among, rfl⟩ := List.mem_map.mp mem
    exact Text.isAlphanum_toLower (word d among)

theorem lowercase_ne_empty (formed : WellFormed ⟨.identifier, text⟩) : Text.lowercase text ≠ "" := by
  obtain ⟨c, others, chars⟩ := formed.lowercase.exists_cons
  intro empty
  rw [empty] at chars
  contradiction

end Token.WellFormed

namespace Scanner

theorem wellFormed_of_mem_readAll {cs : List Char} {token : Token}
    (mem : token ∈ (readAll cs).tokens) : token.WellFormed := by
  fun_induction readAll cs with
  | case1 => contradiction
  | case2 => contradiction
  | case3 cs first rest found reading ih =>
    obtain ⟨_, _, _, _, formed, _⟩ := read_eq_token.mp found
    cases List.mem_cons.mp mem with
    | inl here => exact here ▸ formed
    | inr later => exact ih later

theorem tokens_eq_ok {text : String} {read : List Token} (scanned : tokens text = .ok read) :
    (readAll text.toList).tokens = read := by
  unfold tokens at scanned
  dsimp only at scanned
  split at scanned
  · exact Except.ok.inj scanned
  · contradiction

theorem normalName_of_mem_readAll {cs : List Char} {token : Token}
    (mem : token ∈ (readAll cs).tokens) :
    Text.normalName token.text = Text.lowercase token.text :=
  (wellFormed_of_mem_readAll mem).normalName_eq

/-- An identifier of the text has the name for its lower case. -/
def Mentions (text name : String) : Prop :=
  ∃ token ∈ (readAll text.toList).tokens,
    token.kind = .identifier ∧ Text.lowercase token.text = name

instance (text name : String) : Decidable (Mentions text name) :=
  inferInstanceAs (Decidable (∃ token ∈ (readAll text.toList).tokens,
    token.kind = .identifier ∧ Text.lowercase token.text = name))

theorem Mentions.normalName_eq {text name : String} (mentions : Mentions text name) :
    Text.normalName name = name := by
  obtain ⟨⟨kind, word⟩, mem, rfl, rfl⟩ := mentions
  exact (wellFormed_of_mem_readAll mem).normalName_lowercase

end Scanner

end Reckon
