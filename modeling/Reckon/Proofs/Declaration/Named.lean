import Reckon.Proofs.Declaration.Renaming

/-!
The name that a source is declared under, by its tokens. The text in front of the first opening
bracket is written with the tokens in front of the first opening token. Its normal form is an
identifier only if it holds this identifier and blanks around it: lowering a text changes no blank
in it, and the other characters of its tokens are plain letters, digits and symbols. So sources with
the same tokens up to case are declared under the same names.
-/

namespace Reckon

namespace Text

variable {c : Char} {cs before : List Char}

def wideBlanks : List CaseTable.Span :=
  [⟨0x80, 0xa0⟩, ⟨0x1680, 0x1680⟩, ⟨0x2000, 0x205f⟩, ⟨0x3000, 0x3000⟩]

theorem exists_wideBlanks (blank : isBlank c = true) (wide : ¬ c.toNat < 0x80) :
    ∃ span ∈ wideBlanks, span.first ≤ c.toNat ∧ c.toNat ≤ span.last := by
  simp only [isBlank, Bool.or_eq_true, Bool.and_eq_true, decide_eq_true_eq, beq_iff_eq] at blank
  simp only [wideBlanks, List.exists_mem_cons_iff, List.not_mem_nil, false_and, exists_false, or_false]
  omega

theorem lowerChar_of_isBlank (blank : isBlank c = true) : lowerChar c = c := by
  by_cases narrow : c.toNat < 0x80
  · have small : c.isUpper = false := by
      rw [Bool.eq_false_iff, ne_eq, isUpper_iff_toNat]
      simp only [isBlank, Bool.or_eq_true, Bool.and_eq_true, decide_eq_true_eq, beq_iff_eq] at blank
      simp
      omega
    rw [lowerChar, if_pos narrow, toLower_eq_self small]
  · have table : wideBlanks.all (fun span => CaseTable.lowerings.all fun range =>
        range.last < span.first || span.last < range.first) = true := by decide +kernel
    obtain ⟨span, among, first, last⟩ := exists_wideBlanks blank narrow
    have apart := List.all_eq_true.mp (List.all_eq_true.mp table span among)
    have absent : CaseTable.lowerings.find? (·.covers c.toNat) = none := by
      rw [List.find?_eq_none]
      intro range mem covered
      have outside := apart range mem
      simp only [CaseTable.Lowering.covers, Bool.and_eq_true, decide_eq_true_eq] at covered
      simp only [Bool.or_eq_true, decide_eq_true_eq] at outside
      omega
    rw [lowerChar, if_neg narrow, absent]

theorem mem_lowerFrom_of_isBlank (blank : isBlank c = true) (mem : c ∈ cs) :
    c ∈ lowerFrom before cs := by
  induction cs generalizing before with
  | nil => contradiction
  | cons d cs ih =>
    rw [lowerFrom, List.mem_append]
    rcases List.mem_cons.mp mem with rfl | later
    · have capital : c ≠ 'Σ' ∧ c ≠ 'İ' := by
        constructor
        · rintro rfl
          contradiction
        · rintro rfl
          contradiction
      rw [if_neg capital.1, if_neg capital.2, lowerChar_of_isBlank blank]
      exact .inl (List.mem_singleton_self c)
    · exact .inr (ih later)

end Text

namespace Scanner

variable {cs : List Char} {tokens : List Token} {token : Token} {name : String} {c : Char}

theorem Written.exists_token_of_mem (written : Written cs tokens) (mem : c ∈ cs)
    (solid : ¬ Text.isBlank c = true) : ∃ token ∈ tokens, c ∈ token.text.toList := by
  induction written with
  | blank blank => exact absurd (blank c mem) solid
  | @token blanks rest token tokens blank _ _ _ ih =>
    rw [List.mem_append, List.mem_append] at mem
    rcases mem with between | here | later
    · exact absurd (blank c between) solid
    · exact ⟨token, List.mem_cons_self, here⟩
    · obtain ⟨token, among, inside⟩ := ih later
      exact ⟨token, List.mem_cons_of_mem _ among, inside⟩

theorem Written.ascii (written : Written cs tokens) (mem : c ∈ cs)
    (solid : ¬ Text.isBlank c = true) : c.toNat < 0x80 := by
  obtain ⟨token, among, inside⟩ := written.exists_token_of_mem mem solid
  have formed := written.wellFormed among
  have valid : TokenKind.ofChar c ≠ .invalid := by
    rcases formed.ofChar_of_mem inside with same | ⟨-, digit⟩
    · rw [same]
      exact formed.valid
    · rw [digit]
      decide
  exact Nat.lt_of_le_of_lt (TokenKind.toNat_of_ofChar valid).2 (by decide)

theorem written_between {front back : List Char} (blank : ∀ c ∈ front, Text.isBlank c = true)
    (formed : token.WellFormed) (blank' : ∀ c ∈ back, Text.isBlank c = true) :
    Written (front ++ (token.text.toList ++ back)) [token] := by
  refine .token blank formed ?_ (.blank blank')
  cases back with
  | nil => exact token.ends_nil
  | cons d back => exact Token.ends_of_isBlank (blank' d List.mem_cons_self) token back

theorem normalName_of_written (written : Written cs [token]) :
    Text.normalName (String.ofList cs) = Text.lowercase token.text := by
  cases written with
  | @token blanks rest _ _ blank formed _ behind =>
    cases behind with
    | blank blank' =>
      rw [Text.normalName, Text.trim_blanks_append blank, Text.trim_append_blanks blank',
        String.ofList_toList, Text.trim_eq_self fun c => formed.solid]

theorem wellFormed_of_lowercase {word : String}
    (chars : ∀ c ∈ word.toList, Text.isBlank c = true ∨ c.toNat < 0x80)
    (formed : Token.WellFormed ⟨.identifier, Text.lowercase word⟩) :
    Token.WellFormed ⟨.identifier, word⟩ := by
  obtain ⟨first, others, same, letter, all⟩ := formed.exists_word
  have lowered : Text.lowerFrom [] word.toList = first :: others := String.ofList_injective same
  have ascii : ∀ c ∈ word.toList, c.toNat < 0x80 := by
    intro c mem
    refine (chars c mem).resolve_left fun isBlank => ?_
    have among : c ∈ Text.lowerFrom [] word.toList := Text.mem_lowerFrom_of_isBlank isBlank mem
    have solid := formed.solid (c := c) (by rwa [Text.lowercase, String.toList_ofList])
    exact Bool.false_ne_true (solid.symm.trans isBlank)
  rw [Text.lowerFrom_ascii [] _ ascii] at lowered
  obtain ⟨d, rest, split, rfl, rfl⟩ := List.map_eq_cons_iff.mp lowered
  rw [← String.ofList_toList (s := word), split]
  refine .identifier (Text.isAlpha_of_toLower letter) fun c mem => ?_
  exact Text.isAlphanum_of_toLower (all _ (List.mem_cons_of_mem _ (List.mem_map_of_mem mem)))

theorem exists_token_of_normalName (written : Written cs tokens)
    (formed : Token.WellFormed ⟨.identifier, name⟩)
    (same : Text.normalName (String.ofList cs) = name) :
    ∃ word, tokens = [⟨.identifier, word⟩] ∧ Text.lowercase word = name := by
  obtain ⟨front, back, blank, blank', split⟩ := Text.exists_blanks_trim (String.ofList cs)
  rw [String.toList_ofList] at split
  rw [Text.normalName] at same
  generalize Text.trim (String.ofList cs) = word at split same
  have chars : ∀ c ∈ word.toList, Text.isBlank c = true ∨ c.toNat < 0x80 := fun c mem =>
    or_iff_not_imp_left.mpr (written.ascii (by simp [split, mem]))
  have alone := written_between blank (wellFormed_of_lowercase chars (same ▸ formed)) blank'
  dsimp only at alone
  rw [← split] at alone
  exact ⟨word, alone.unique written, same⟩

end Scanner

namespace Declaration

variable {cs : List Char} {tokens : List Token} {header source name : String}

def frontOf (tokens : List Token) : List Token :=
  tokens.takeWhile fun token => token.kind ≠ .opening

theorem written_front (written : Scanner.Written cs tokens) :
    Scanner.Written (cs.takeWhile precedesList) (frontOf tokens) := by
  have others : ∀ {front : List Char} {before : List Token}, Scanner.Written front before →
      (∀ d ∈ front, (Bracket.opens? d).isSome = false) →
        ∀ token ∈ before, decide (token.kind ≠ .opening) = true := fun front plain token mem =>
    decide_eq_true (kind_ne_opening front mem plain)
  rcases front_cases written with plain | ⟨front, c, list, before, _, rfl, plain, opens, first, -, rfl⟩
  · have text : cs.takeWhile precedesList = cs :=
      List.takeWhile_eq_self_iff.mpr (by simpa [precedesList] using plain)
    have all : frontOf tokens = tokens := List.takeWhile_eq_self_iff.mpr (others written plain)
    rwa [text, all]
  · have text : (front ++ c :: list).takeWhile precedesList = front := by
      rw [List.takeWhile_append_of_pos (by simpa [precedesList] using plain)]
      simp [precedesList, opens]
    rw [text, frontOf, List.takeWhile_append_of_pos (others first plain)]
    simpa [ofChar_of_opens opens] using first

/-- A header is declared under an identifier if this is all that stands in front of its list. -/
theorem normalName_upTo_iff (written : Scanner.Written header.toList tokens)
    (formed : Token.WellFormed ⟨.identifier, name⟩) :
    Text.normalName (Text.upTo (fun c => (Bracket.opens? c).isSome) header) = name ↔
      ∃ word, frontOf tokens = [⟨.identifier, word⟩] ∧ Text.lowercase word = name := by
  have front := written_front written
  have text : Text.upTo (fun c => (Bracket.opens? c).isSome) header =
      String.ofList (header.toList.takeWhile precedesList) := rfl
  rw [text]
  constructor
  · exact Scanner.exists_token_of_normalName front formed
  · rintro ⟨word, alone, rfl⟩
    rw [alone] at front
    have normal := Scanner.normalName_of_written front
    exact normal

end Declaration

end Reckon
