import Reckon.Proofs.Span.Separated
import Reckon.Tree.Node

/-!
A stratified grammar of expressions. Operations have eight ranks, weakest first, and an expression
of one rank is an expression of the next stronger rank, or an operation of its own rank between an
expression of that rank and one of the next stronger rank, either of which may be missing. The
strongest expressions are single tokens, expressions in brackets and calls. Nothing here refers to
how a tree is built.
-/

namespace Reckon.Grammar

def rank? (token : Token) : Option Nat :=
  match token.kind, token.text with
  | .boolean, "&" => some 0
  | .boolean, "|" => some 1
  | .boolean, "?" => some 2
  | .relational, _ => some 3
  | .operator, "/" => some 4
  | .operator, "+" | .operator, "-" => some 5
  | .operator, "*" | .operator, "%" | .operator, "^" => some 6
  | .operator, "~" | .operator, "!" => some 7
  | _, _ => none

def primary : Nat :=
  8

/-- An operation has one of the texts that operations have; other tokens may have any text. -/
def Known (token : Token) : Prop :=
  token.kind.isOperation → (rank? token).isSome

mutual

inductive Expression : Nat → List Token → Node → Prop
  | stronger {rank : Nat} {span : List Token} {tree : Node} : rank < primary →
    Expression (rank + 1) span tree → Expression rank span tree
  | operation {rank : Nat} {left right : List Token} {operation : Token}
    {leftTree rightTree : List Node} : rank? operation = some rank →
    Operand rank left leftTree → Operand (rank + 1) right rightTree →
    Expression rank (left ++ operation :: right) ⟨operation, leftTree, rightTree⟩
  | token {token : Token} : token.Plain → token.kind.isOperation = false →
    Expression primary [token] (Node.leaf token)
  | brackets {bracket last : Token} {inside : List Token} {tree : Node} :
    bracket.kind = .opening → last.kind = .closing → Expression 0 inside tree →
    Expression primary (bracket :: (inside ++ [last])) tree
  | constant {name bracket last : Token} : name.kind = .identifier → bracket.kind = .opening →
    last.kind = .closing → Expression primary [name, bracket, last] (Node.leaf name)
  | call {name bracket last : Token} {inside : List Token} {trees : List Node} :
    name.kind = .identifier → bracket.kind = .opening → last.kind = .closing →
    Arguments inside trees →
    Expression primary (name :: bracket :: (inside ++ [last])) ⟨name, [], trees⟩

inductive Operand : Nat → List Token → List Node → Prop
  | missing {rank : Nat} : Operand rank [] []
  | given {rank : Nat} {span : List Token} {tree : Node} : Expression rank span tree →
    Operand rank span [tree]

/-- The arguments of a call. A delimiter outside the brackets of the call's inside separates two
of them, so it cannot be a token of one. -/
inductive Arguments : List Token → List Node → Prop
  | last {span : List Token} {tree : Node} : Expression 0 span tree → Span.Undelimited span →
    Arguments span [tree]
  | more {span rest : List Token} {delimiter : Token} {tree : Node} {trees : List Node} :
    Expression 0 span tree → Span.Undelimited span → delimiter.kind = .delimiter →
    Arguments rest trees → Arguments (span ++ delimiter :: rest) (tree :: trees)

end

variable {span inside : List Token} {tree : Node} {trees : List Node} {rank lower : Nat}

theorem isOperation_of_rank {token : Token} (ranked : rank? token = some rank) :
    token.kind.isOperation = true := by
  unfold rank? at ranked
  split at ranked <;> simp_all [TokenKind.isOperation]

theorem lt_primary_of_rank {token : Token} (ranked : rank? token = some rank) :
    rank < primary := by
  unfold rank? at ranked
  split at ranked <;> simp_all [primary] <;> omega

theorem rank_of_not_isOperation {token : Token} (other : token.kind.isOperation = false) :
    rank? token = none := by
  cases ranked : rank? token with
  | none => rfl
  | some rank =>
    rw [isOperation_of_rank ranked] at other
    contradiction

theorem plain_of_isOperation {token : Token} (operation : token.kind.isOperation = true) :
    token.Plain := by
  constructor <;> intro kind <;> rw [kind] at operation <;> contradiction

theorem plain_of_identifier {token : Token} (named : token.kind = .identifier) : token.Plain := by
  constructor <;> rw [named] <;> decide

theorem Expression.weaken (le : lower ≤ rank) (inRank : rank ≤ primary)
    (expression : Expression rank span tree) : Expression lower span tree := by
  induction le with
  | refl => exact expression
  | step _ ih => exact ih (Nat.le_of_succ_le inRank) (.stronger inRank expression)

mutual

theorem Expression.balanced {rank : Nat} {span : List Token} {tree : Node} :
    Expression rank span tree → Span.Balanced span
  | .stronger _ expression => expression.balanced
  | .operation ranked left right =>
    left.balanced.append
      ((Span.balanced_cons_plain (plain_of_isOperation (isOperation_of_rank ranked))).mpr
        right.balanced)
  | .token plain _ => Span.balanced_plain plain
  | .brackets opens closes expression => expression.balanced.enclose opens closes
  | .constant named opens closes =>
    (Span.balanced_cons_plain (plain_of_identifier named)).mpr
      (Span.balanced_nil.enclose opens closes)
  | .call named opens closes arguments =>
    (Span.balanced_cons_plain (plain_of_identifier named)).mpr
      (arguments.balanced.enclose opens closes)

theorem Operand.balanced {rank : Nat} {span : List Token} {trees : List Node} :
    Operand rank span trees → Span.Balanced span
  | .missing => Span.balanced_nil
  | .given expression => expression.balanced

theorem Arguments.balanced {inside : List Token} {trees : List Node} :
    Arguments inside trees → Span.Balanced inside
  | .last expression _ => expression.balanced
  | .more expression _ delimits rest =>
    expression.balanced.append
      ((Span.balanced_cons_plain (by constructor <;> rw [delimits] <;> decide)).mpr rest.balanced)

end

def NoneWeaker (rank : Nat) (span : List Token) : Prop :=
  ∀ token ∈ Span.outside 0 span, ∀ r, rank? token = some r → rank ≤ r

theorem noneWeaker_append {left right : List Token} (balanced : Span.Balanced left) :
    NoneWeaker rank (left ++ right) ↔ NoneWeaker rank left ∧ NoneWeaker rank right := by
  simp only [NoneWeaker, Span.outside_append balanced, List.mem_append, or_imp, forall_and]

theorem noneWeaker_cons {token : Token} {rest : List Token} (plain : token.Plain) :
    NoneWeaker rank (token :: rest) ↔
      (∀ r, rank? token = some r → rank ≤ r) ∧ NoneWeaker rank rest := by
  simp only [NoneWeaker, Span.outside_plain plain, List.forall_mem_cons]

theorem NoneWeaker.of_outside_eq_nil (nothing : Span.outside 0 span = []) :
    NoneWeaker rank span := by
  intro token mem
  rw [nothing] at mem
  contradiction

mutual

theorem Expression.noneWeaker {rank : Nat} {span : List Token} {tree : Node} :
    Expression rank span tree → NoneWeaker rank span
  | .stronger _ expression => fun token mem r ranked =>
    Nat.le_of_succ_le (expression.noneWeaker token mem r ranked)
  | .operation ranked left right =>
    (noneWeaker_append left.balanced).mpr ⟨left.noneWeaker,
      (noneWeaker_cons (plain_of_isOperation (isOperation_of_rank ranked))).mpr
        ⟨fun _ same => Nat.le_of_eq (Option.some.inj (ranked.symm.trans same)),
          fun token mem r ranked => Nat.le_of_succ_le (right.noneWeaker token mem r ranked)⟩⟩
  | .token plain other =>
    (noneWeaker_cons plain).mpr ⟨fun r ranked => by
      rw [rank_of_not_isOperation other] at ranked
      contradiction, .of_outside_eq_nil rfl⟩
  | .brackets opens closes expression =>
    .of_outside_eq_nil (Span.outside_enclosed ⟨rfl, opens, closes, expression.balanced⟩)
  | .constant named opens closes =>
    (noneWeaker_cons (plain_of_identifier named)).mpr ⟨fun r ranked => by
      rw [rank_of_not_isOperation (by rw [named]; decide)] at ranked
      contradiction, .of_outside_eq_nil
        (Span.outside_enclosed ⟨rfl, opens, closes, Span.balanced_nil⟩)⟩
  | .call named opens closes arguments =>
    (noneWeaker_cons (plain_of_identifier named)).mpr ⟨fun r ranked => by
      rw [rank_of_not_isOperation (by rw [named]; decide)] at ranked
      contradiction, .of_outside_eq_nil
        (Span.outside_enclosed ⟨rfl, opens, closes, arguments.balanced⟩)⟩

theorem Operand.noneWeaker {rank : Nat} {span : List Token} {trees : List Node} :
    Operand rank span trees → NoneWeaker rank span
  | .missing => .of_outside_eq_nil rfl
  | .given expression => expression.noneWeaker

end

theorem Expression.strengthen (le : lower ≤ rank) (inRank : rank ≤ primary)
    (strong : NoneWeaker rank span) (expression : Expression lower span tree) :
    Expression rank span tree := by
  induction le with
  | refl => exact expression
  | @step rank _ ih =>
    have weaker : NoneWeaker rank span := fun token mem r ranked =>
      Nat.le_of_succ_le (strong token mem r ranked)
    cases ih (Nat.le_of_succ_le inRank) weaker with
    | stronger _ expression => exact expression
    | operation ranked left right =>
      have plain := plain_of_isOperation (isOperation_of_rank ranked)
      rw [noneWeaker_append left.balanced, noneWeaker_cons plain] at strong
      have above := strong.2.1 rank ranked
      omega
    | token | brackets | constant | call => simp [primary] at inRank

end Reckon.Grammar
