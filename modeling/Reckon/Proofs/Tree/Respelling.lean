import Reckon.Proofs.Evaluation.Simulation
import Reckon.Proofs.Scanner.Respelling
import Reckon.Proofs.Scope.Calls

/-!
Trees of texts that are spelled alike. They are the same in canonical spelling, and where one text is
refused the other one is refused for the same reason. The value of a tree is that of its canonical
spelling, since names are asked in normal form and all other tokens are canonical already.
-/

namespace Reckon

variable {text text' : String}

theorem Node.Regular.plain {node : Node} (regular : node.Regular) : node.token.Plain := by
  cases regular with
  | leaf plain => exact plain
  | operation operation => exact Grammar.plain_of_isOperation operation
  | call named => exact Grammar.plain_of_identifier named

namespace Tree

/-- Trees that are the same in canonical spelling, or errors for the same reason. -/
inductive Respelled : Except ReadError Node → Except ReadError Node → Prop
  | tree {tree tree' : Node} :
    tree.mapTokens Token.canonical = tree'.mapTokens Token.canonical → Respelled (.ok tree) (.ok tree')
  | error {error error' : ReadError} : error.fault.variant = error'.fault.variant →
    Respelled (.error error) (.error error')

theorem respelled_read (equivalent : Scanner.Equivalent text text') (maxDepth level : Nat) :
    Respelled (read maxDepth level text) (read maxDepth level text') := by
  unfold read Scanner.validate Scanner.tokens
  dsimp only
  rw [equivalent.brackets, equivalent.fault]
  cases Bracket.check [] text'.toList with
  | some fault => exact .error rfl
  | none =>
    cases (Scanner.readAll text'.toList).fault with
    | some fault => exact .error rfl
    | none =>
      simp only [bind, Except.bind]
      have built := replaced_build Token.replacing_canonical maxDepth level
        (Scanner.readAll text.toList).tokens
      have built' := replaced_build Token.replacing_canonical maxDepth level
        (Scanner.readAll text'.toList).tokens
      rw [equivalent.tokens] at built
      generalize build maxDepth level (Scanner.readAll text.toList).tokens = result at built
      generalize build maxDepth level (Scanner.readAll text'.toList).tokens = result' at built'
      generalize build maxDepth level _ = canonical at built built'
      cases built with
      | ok same =>
        cases built' with
        | ok same' => exact .tree (same.symm.trans same')
      | error same =>
        cases built' with
        | error same' => exact .error (same.trans same'.symm)

end Tree

namespace Evaluation

variable {m : Type → Type} [Monad m] [LawfulMonad m]

theorem evaluate_canonical (env : Environment m) {limit level : Nat} {tree : Node}
    (found : Tree.read limit level text = .ok tree) :
    evaluate env level tree = evaluate env level (tree.mapTokens Token.canonical) := by
  refine (Simulation.equality m).evaluate_mapTokens tree rfl fun inner mem => ?_
  obtain ⟨regular, formed⟩ := Tree.regular_of_read found inner mem
  by_cases named : inner.token.kind = .identifier
  · have normal : Text.normalName inner.token.canonical.text = Text.normalName inner.token.text :=
      (formed.normalName_canonical named).trans formed.normalName_eq.symm
    refine .name named ((Token.kind_canonical _).trans named) ?_ fun l _ arguments => ?_
    · rw [normal]
    · rw [normal]
      exact rfl
  · exact .same named (Token.canonical_other named regular.plain)

end Evaluation

end Reckon
