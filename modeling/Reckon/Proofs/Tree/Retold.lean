import Reckon.Proofs.Scanner.Renaming
import Reckon.Tree.Build

/-!
Texts told again in other words. A text may be another one with its tokens replaced, as it is when
its identifiers are renamed: its brackets close one another in the same way, and it has the same
fault, if any. Both texts are then read as trees that differ in the replaced tokens only, or both
are refused for the same reason.
-/

namespace Reckon

variable {f : Token → Token} {text text' : String}

namespace Scanner

/-- A text with its tokens replaced. -/
structure Retold (f : Token → Token) (text text' : String) : Prop where
  brackets : Bracket.check [] text'.toList = Bracket.check [] text.toList
  tokens : (readAll text'.toList).tokens = (readAll text.toList).tokens.map f
  fault : (readAll text'.toList).fault = (readAll text.toList).fault

theorem check_trim (text : String) :
    Bracket.check [] (Text.trim text).toList = Bracket.check [] text.toList := by
  obtain ⟨front, back, blank, blank', same⟩ := Text.exists_blanks_trim text
  have behind : Bracket.check [] ((Text.trim text).toList ++ (back ++ [])) =
      Bracket.check [] ((Text.trim text).toList ++ []) :=
    (neutral_of_isBlank blank').check_append
  rw [List.append_nil, List.append_nil] at behind
  rw [same, neutral_of_isBlank blank, behind]

theorem retold_rename {f : String → String} (words : Token.Renaming f) (text : String) :
    Retold (Token.rename f) (Text.trim text)
      (Text.trim (String.ofList (rename f text.toList))) where
  brackets := by rw [check_trim, check_trim, String.toList_ofList, check_rename words]
  tokens := by
    rw [(readAll_trim _).1, (readAll_trim _).1, String.toList_ofList, (readAll_rename words _).1]
  fault := by
    rw [(readAll_trim _).2, (readAll_trim _).2, String.toList_ofList, (readAll_rename words _).2]

end Scanner

namespace Tree

inductive Retold (f : Token → Token) : Except ReadError Node → Except ReadError Node → Prop
  | tree (tree : Node) : Retold f (.ok tree) (.ok (tree.mapTokens f))
  | error {error error' : ReadError} : error.fault.variant = error'.fault.variant →
    Retold f (.error error) (.error error')

theorem retold_read (replacing : Token.Replacing f) (retold : Scanner.Retold f text text')
    (maxDepth level : Nat) :
    Retold f (read maxDepth level text) (read maxDepth level text') := by
  unfold read Scanner.validate Scanner.tokens
  dsimp only
  rw [retold.brackets, retold.tokens, retold.fault]
  cases Bracket.check [] text.toList with
  | some fault => exact .error rfl
  | none =>
    cases (Scanner.readAll text.toList).fault with
    | some fault => exact .error rfl
    | none =>
      simp only [bind, Except.bind]
      have built := replaced_build replacing maxDepth level (Scanner.readAll text.toList).tokens
      generalize build maxDepth level (Scanner.readAll text.toList).tokens = result at built
      generalize build maxDepth level ((Scanner.readAll text.toList).tokens.map f) = result' at built
      cases built with
      | ok same => exact same ▸ .tree _
      | error same => exact .error same

end Tree

end Reckon
