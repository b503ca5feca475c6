import Reckon.Proofs.Bracket.Neutral
import Reckon.Proofs.Scanner.Blanks
import Reckon.Proofs.Scanner.Names
import Reckon.Proofs.Tree.Reading
import Reckon.Proofs.Tree.Replacing

/-!
Renaming the identifiers of a text. The words of a text are replaced where they stand, up to the
first fault, and everything else stays as it is. What comes out has the tokens of the text with the
identifiers among them renamed, the same fault, and the same brackets.
-/

namespace Reckon

def Token.rename (f : String → String) (token : Token) : Token :=
  if token.kind = .identifier then { token with text := f token.text } else token

/-- Identifiers are renamed to identifiers. -/
def Token.Renaming (f : String → String) : Prop :=
  ∀ text, WellFormed ⟨.identifier, text⟩ → WellFormed ⟨.identifier, f text⟩

namespace Token

variable {f : String → String} {token : Token} {c : Char} {rest : List Char}

theorem rename_identifier (named : token.kind = .identifier) :
    token.rename f = ⟨.identifier, f token.text⟩ := by
  rw [rename, if_pos named, named]

theorem rename_other (other : token.kind ≠ .identifier) : token.rename f = token := by
  rw [rename, if_neg other]

@[simp] theorem kind_rename : (token.rename f).kind = token.kind := by
  unfold rename
  split <;> rfl

theorem replacing_rename (f : String → String) : Replacing (rename f) where
  kind _ := kind_rename
  operation token operation := by
    refine rename_other fun named => ?_
    rw [named] at operation
    contradiction

theorem WellFormed.rename (formed : token.WellFormed) (words : Renaming f) :
    (token.rename f).WellFormed := by
  by_cases named : token.kind = .identifier
  · obtain ⟨kind, text⟩ := token
    subst named
    exact words text formed
  · rwa [rename_other named]

theorem WellFormed.exists_letter (formed : token.WellFormed) (named : token.kind = .identifier) :
    ∃ c others, token.text.toList = c :: others ∧ c.isAlpha = true := by
  obtain ⟨kind, text⟩ := token
  subst named
  obtain ⟨c, others, rfl, letter, -⟩ := formed.exists_word
  exact ⟨c, others, String.toList_ofList, letter⟩

theorem carriedOn_letter {d : Char} (letter : c.isAlpha = true) (letter' : d.isAlpha = true)
    (ends : token.carriedOn c = false) : token.carriedOn d = false := by
  have word : ∀ e : Char, e.isAlpha = true → TokenKind.ofChar e = .identifier :=
    fun e => TokenKind.ofChar_identifier.mpr
  have digit := TokenKind.isDigit_of_isAlpha letter'
  unfold carriedOn at ends ⊢
  split at ends
  · next kind => simp [kind, TokenKind.continues, word d letter']
  · next kind => simp [kind, TokenKind.continues, word c letter] at ends
  · next kind => simp [kind, TokenKind.continues, word d letter']
  · next first kind single =>
    have unpaired : d ≠ '=' ∧ d ≠ '>' := by
      constructor
      · rintro rfl
        exact absurd letter' (by decide)
      · rintro rfl
        exact absurd letter' (by decide)
    simp [Scanner.isRelationalPair, unpaired]
  · rfl

theorem Ends.rename (ends : token.Ends rest) : (token.rename f).Ends rest := by
  by_cases named : token.kind = .identifier
  · intro c mem
    have stops := ends c mem
    rw [rename_identifier named]
    rwa [carriedOn, named] at stops
  · rwa [rename_other named]

end Token

namespace Scanner

variable {f : String → String} {cs rest blanks : List Char} {token : Token} {fault : ReadFault}

/-- The text with its identifiers renamed up to the first fault. -/
def rename (f : String → String) (cs : List Char) : List Char :=
  match _h : read cs with
  | .finished | .fault _ _ => cs
  | .token token rest =>
    cs.takeWhile Text.isBlank ++ ((token.rename f).text.toList ++ rename f rest)
termination_by cs.length
decreasing_by exact read_shorter _h

theorem rename_of_finished (finished : read cs = .finished) : rename f cs = cs := by
  rw [rename]
  split <;> simp_all

theorem rename_of_fault (found : read cs = .fault fault rest) : rename f cs = cs := by
  rw [rename]
  split <;> simp_all

theorem rename_of_token (blank : ∀ c ∈ blanks, Text.isBlank c = true) (formed : token.WellFormed)
    (ends : token.Ends rest) : rename f (blanks ++ (token.text.toList ++ rest)) =
      blanks ++ ((token.rename f).text.toList ++ rename f rest) := by
  have found : read (blanks ++ (token.text.toList ++ rest)) = .token token rest :=
    read_eq_token.mpr ⟨blanks, _, blank, rfl, formed, ends, rfl⟩
  have first : (blanks ++ (token.text.toList ++ rest)).takeWhile Text.isBlank = blanks := by
    obtain ⟨c, others, chars⟩ := formed.exists_cons
    have solid : Text.isBlank c = false := formed.solid (by simp [chars])
    rw [List.takeWhile_append_of_pos blank, chars, List.cons_append,
      List.takeWhile_cons_of_neg (by simp [solid]), List.append_nil]
  rw [rename]
  split
  · simp_all
  · simp_all
  · next other after same =>
    obtain ⟨rfl, rfl⟩ := Step.token.inj (same.symm.trans found)
    rw [first]

theorem ends_rename (words : Token.Renaming f) {before : Token} (ends : before.Ends cs) :
    before.Ends (rename f cs) := by
  cases found : read cs with
  | finished => rwa [rename_of_finished found]
  | fault fault rest => rwa [rename_of_fault found]
  | token token rest =>
    obtain ⟨blanks, after, blank, rfl, formed, further, rfl⟩ := read_eq_token.mp found
    rw [rename_of_token blank formed further]
    cases blanks with
    | cons d blanks => exact ends
    | nil =>
      by_cases named : token.kind = .identifier
      · obtain ⟨c, others, chars, letter⟩ := formed.exists_letter named
        obtain ⟨d, others', chars', letter'⟩ :=
          (formed.rename words).exists_letter (Token.kind_rename.trans named)
        rw [List.nil_append, chars] at ends
        rw [List.nil_append, chars']
        intro e mem
        obtain rfl := Option.some.inj mem
        exact Token.carriedOn_letter letter letter' (ends c rfl)
      · obtain ⟨c, others, chars⟩ := formed.exists_cons
        rw [List.nil_append, chars] at ends
        rw [Token.rename_other named, List.nil_append, chars]
        exact ends

theorem read_rename (words : Token.Renaming f) (found : read cs = .token token rest) :
    read (rename f cs) = .token (token.rename f) (rename f rest) := by
  obtain ⟨blanks, after, blank, rfl, formed, ends, rfl⟩ := read_eq_token.mp found
  rw [rename_of_token blank formed ends]
  exact read_eq_token.mpr
    ⟨blanks, _, blank, rfl, formed.rename words, (ends_rename words ends).rename, rfl⟩

theorem readAll_rename (words : Token.Renaming f) (cs : List Char) :
    (readAll (rename f cs)).tokens = (readAll cs).tokens.map (Token.rename f) ∧
      (readAll (rename f cs)).fault = (readAll cs).fault := by
  fun_induction readAll cs with
  | case1 cs finished =>
    rw [rename_of_finished finished, readAll_of_finished finished]
    exact ⟨rfl, rfl⟩
  | case2 cs fault rest found =>
    rw [rename_of_fault found, readAll_of_fault found]
    exact ⟨rfl, rfl⟩
  | case3 cs token rest found reading ih =>
    rw [readAll_of_token (read_rename words found)]
    exact ⟨congrArg (token.rename f :: ·) ih.1, ih.2⟩

theorem Written.rename (words : Token.Renaming f) {tokens : List Token}
    (written : Written cs tokens) : Written (rename f cs) (tokens.map (Token.rename f)) := by
  obtain ⟨renamed, fault⟩ := readAll_rename words cs
  rw [written.readAll_eq] at renamed fault
  exact renamed ▸ written_of_readAll fault

theorem isBlank_rename (words : Token.Renaming f) :
    (∀ c ∈ rename f cs, Text.isBlank c = true) ↔ ∀ c ∈ cs, Text.isBlank c = true := by
  rw [← read_eq_finished, ← read_eq_finished]
  cases found : read cs with
  | finished => rw [rename_of_finished found, found]
  | fault fault rest => rw [rename_of_fault found, found]
  | token token rest => simp [read_rename words found]

theorem mem_rename (words : Token.Renaming f) {c : Char} (mem : c ∈ rename f cs) :
    c ∈ cs ∨ c.isAlphanum = true := by
  fun_induction readAll cs with
  | case1 cs finished =>
    rw [rename_of_finished finished] at mem
    exact .inl mem
  | case2 cs fault rest found =>
    rw [rename_of_fault found] at mem
    exact .inl mem
  | case3 cs token rest found reading ih =>
    obtain ⟨blanks, after, blank, rfl, formed, ends, rfl⟩ := read_eq_token.mp found
    rw [rename_of_token blank formed ends, List.mem_append, List.mem_append] at mem
    rw [List.mem_append, List.mem_append]
    rcases mem with front | here | later
    · exact .inl (.inl front)
    · by_cases named : token.kind = .identifier
      · have formed' := formed.rename words
        rw [Token.rename_identifier named] at formed' here
        obtain ⟨first, others, same, -, word⟩ := formed'.exists_word
        dsimp only at here
        rw [same, String.toList_ofList] at here
        exact .inr (word c here)
      · rw [Token.rename_other named] at here
        exact .inl (.inr (.inl here))
    · exact (ih later).imp_left fun mem => .inr (.inr mem)

theorem check_rename (words : Token.Renaming f) (stack : List Bracket.Style) :
    Bracket.check stack (rename f cs) = Bracket.check stack cs := by
  fun_induction readAll cs generalizing stack with
  | case1 cs finished => rw [rename_of_finished finished]
  | case2 cs fault rest found => rw [rename_of_fault found]
  | case3 cs token rest found reading ih =>
    obtain ⟨blanks, after, blank, rfl, formed, ends, rfl⟩ := read_eq_token.mp found
    rw [rename_of_token blank formed ends, neutral_of_isBlank blank, neutral_of_isBlank blank]
    by_cases named : token.kind = .identifier
    · have plain : token.Plain := by simp [Token.Plain, named]
      have plain' : (token.rename f).Plain := by simp [Token.Plain, named]
      rw [(formed.rename words).neutral plain', formed.neutral plain, ih]
    · rw [Token.rename_other named]
      exact Bracket.check_append_congr ih token.text.toList stack

end Scanner

end Reckon
