import Reckon.Proofs.Span.Group
import Reckon.Proofs.Tree.Context
import Reckon.Proofs.Tree.Display

/-!
An expression in brackets within another one. Unless a name stands before the brackets and makes
them those of a call, what surrounds them is read in the same way whatever stands in them: the tree
is one context with the inner tree plugged in. So one leaf can hold the place of any text that is
an expression.
-/

namespace Reckon

open Reckon.Span (Balanced Undelimited)

namespace Grammar

def Unnamed (span : List Token) : Prop :=
  ∀ token ∈ span.getLast?, token.kind ≠ .identifier

theorem Unnamed.of_append {front back : List Token} (unnamed : Unnamed (front ++ back)) :
    Unnamed back := by
  intro token mem
  refine unnamed token ?_
  rw [List.getLast?_append, Option.mem_def.mp mem]
  rfl

theorem Unnamed.of_cons {token : Token} {back : List Token} (unnamed : Unnamed (token :: back)) :
    Unnamed back := by
  rw [← List.singleton_append] at unnamed
  exact unnamed.of_append

theorem plain_of_delimiter {token : Token} (delimits : token.kind = .delimiter) : token.Plain := by
  constructor <;> rw [delimits] <;> decide

structure Group (bracket : Token) (inside : List Token) (last : Token) (inner : Node) : Prop where
  opens : bracket.kind = .opening
  closes : last.kind = .closing
  within : Expression 0 inside inner

/-- A context is what stands around two brackets, whatever expression is between them. -/
structure Surrounds (bracket last : Token) (parses : List Token → Node → Prop)
    (before behind : List Token) (context : Node.Context) : Prop where
  covered : context.tokens ⊆ before ++ behind
  fills : ∀ inside inner, Expression 0 inside inner →
    parses (before ++ bracket :: (inside ++ last :: behind)) (context.plug inner)

namespace Surrounds

variable {bracket last operation : Token} {before behind between left right : List Token}
  {context : Node.Context} {rank : Nat} {trees front back : List Node}

theorem inLeft (ranked : rank? operation = some rank) (second : Operand (rank + 1) right trees)
    (surrounds : Surrounds bracket last (fun span tree => Operand rank span [tree])
      before between context) :
    Surrounds bracket last (Expression rank) before (between ++ operation :: right)
      (.inLeft operation [] context [] trees) where
  covered := Node.Context.tokens_cons_subset.mpr
    ⟨by simp, List.Subset.trans surrounds.covered (by grind), fun child mem =>
      List.Subset.trans (second.regular child mem).tokens_subset (by grind)⟩
  fills other tree given := by
    have filled := Expression.operation ranked (surrounds.fills other tree given) second
    simpa [Node.Context.plug] using filled

theorem inRight (ranked : rank? operation = some rank) (first : Operand rank left trees)
    (surrounds : Surrounds bracket last (fun span tree => Operand (rank + 1) span [tree])
      between behind context) :
    Surrounds bracket last (Expression rank) (left ++ operation :: between) behind
      (.inRight operation trees [] context []) where
  covered := Node.Context.tokens_cons_subset.mpr
    ⟨by simp, List.Subset.trans surrounds.covered (by grind), fun child mem =>
      List.Subset.trans (first.regular child (by simpa using mem)).tokens_subset (by grind)⟩
  fills other tree given := by
    have filled := Expression.operation ranked first (surrounds.fills other tree given)
    simpa [Node.Context.plug] using filled

theorem brackets {opening closing : Token} (opens : opening.kind = .opening)
    (closes : closing.kind = .closing)
    (surrounds : Surrounds bracket last (Expression 0) before between context) :
    Surrounds bracket last (Expression primary) (opening :: before) (between ++ [closing])
      context where
  covered := List.Subset.trans surrounds.covered (by grind)
  fills other tree given := by
    have filled := Expression.brackets opens closes (surrounds.fills other tree given)
    simpa using filled

theorem call {name opening closing : Token} (named : name.kind = .identifier)
    (opens : opening.kind = .opening) (closes : closing.kind = .closing)
    (beside : ∀ child ∈ front ++ back, child.tokens ⊆ before ++ between)
    (surrounds : Surrounds bracket last (fun span tree => Arguments span (front ++ tree :: back))
      before between context) :
    Surrounds bracket last (Expression primary) (name :: opening :: before)
      (between ++ [closing]) (.inRight name [] front context back) where
  covered := Node.Context.tokens_cons_subset.mpr
    ⟨by simp, List.Subset.trans surrounds.covered (by grind), fun child mem =>
      List.Subset.trans (beside child (by simpa using mem)) (by grind)⟩
  fills other tree given := by
    have filled := Expression.call named opens closes (surrounds.fills other tree given)
    simpa [Node.Context.plug] using filled

theorem first {delimiter : Token} (delimits : delimiter.kind = .delimiter)
    (others : Arguments right trees)
    (quiet : ∀ other tree, Expression 0 other tree →
      Undelimited (before ++ bracket :: (other ++ last :: between)))
    (surrounds : Surrounds bracket last (Expression 0) before between context) :
    Surrounds bracket last (fun span tree => Arguments span (tree :: trees)) before
      (between ++ delimiter :: right) context where
  covered := List.Subset.trans surrounds.covered (by grind)
  fills other tree given := by
    have filled := Arguments.more (surrounds.fills other tree given) (quiet other tree given)
      delimits others
    simpa using filled

theorem later {delimiter : Token} {argument : Node} (expression : Expression 0 left argument)
    (quiet : Undelimited left) (delimits : delimiter.kind = .delimiter)
    (surrounds : Surrounds bracket last (fun span tree => Arguments span (front ++ tree :: back))
      between behind context) :
    Surrounds bracket last
      (fun span tree => Arguments span (argument :: front ++ tree :: back))
      (left ++ delimiter :: between) behind context where
  covered := List.Subset.trans surrounds.covered (by grind)
  fills other tree given := by
    have filled := Arguments.more expression quiet delimits (surrounds.fills other tree given)
    simpa using filled

end Surrounds

variable {bracket last : Token} {inside : List Token} {inner : Node}

theorem Group.undelimited {span before behind : List Token} {tree : Node}
    (group : Group bracket inside last inner) (expression : Expression 0 span tree)
    (quiet : Undelimited span) (whole : span = before ++ bracket :: (inside ++ last :: behind))
    (other : List Token) (otherTree : Node) (given : Expression 0 other otherTree) :
    Undelimited (before ++ bracket :: (other ++ last :: behind)) := by
  subst whole
  exact quiet.group group.opens group.closes group.within.balanced given.balanced
    expression.balanced

mutual

theorem Expression.around {rank : Nat} {span before behind : List Token} {tree : Node}
    (group : Group bracket inside last inner) : Expression rank span tree →
    span = before ++ bracket :: (inside ++ last :: behind) → Unnamed before →
    ∃ context, tree = context.plug inner ∧
      Surrounds bracket last (Expression rank) before behind context
  | .stronger low expression => fun whole unnamed => by
    obtain ⟨context, rfl, covered, fills⟩ := expression.around group whole unnamed
    exact ⟨context, rfl, covered, fun other tree given => .stronger low (fills other tree given)⟩
  | .operation ranked first second => fun whole unnamed => by
    have plain := plain_of_isOperation (isOperation_of_rank ranked)
    rcases Span.group_of_cut group.opens group.closes plain first.balanced group.within.balanced
      whole with ⟨between, here, rfl⟩ | ⟨between, rfl, here⟩
    · obtain ⟨context, rfl, surrounds⟩ := first.around group here unnamed
      exact ⟨_, rfl, surrounds.inLeft ranked second⟩
    · obtain ⟨context, rfl, surrounds⟩ := second.around group here unnamed.of_append.of_cons
      exact ⟨_, rfl, surrounds.inRight ranked first⟩
  | .token _ _ => fun whole unnamed => by
    have length := congrArg List.length whole
    simp at length
    omega
  | .brackets opens closes expression => fun whole unnamed => by
    cases before with
    | nil =>
      obtain ⟨rfl, tail⟩ := List.cons.inj whole
      obtain ⟨rfl, rfl, rfl⟩ := Span.eq_group_of_enclosed group.closes expression.balanced
        group.within.balanced tail
      obtain rfl := group.within.unique expression
      exact ⟨.hole, rfl, List.nil_subset _, fun other tree given => .brackets opens closes given⟩
    | cons first before =>
      obtain ⟨rfl, tail⟩ := List.cons.inj whole
      obtain ⟨between, here, rfl⟩ := Span.group_of_enclosed group.opens expression.balanced
        group.within.balanced tail
      obtain ⟨context, rfl, surrounds⟩ := expression.around group here unnamed.of_cons
      exact ⟨context, rfl, surrounds.brackets opens closes⟩
  | .constant named _ _ => fun whole unnamed => by
    have given := List.length_pos_iff.mpr group.within.ne_nil
    cases before with
    | nil =>
      obtain ⟨rfl, -⟩ := List.cons.inj whole
      exact absurd group.opens (by rw [named]; decide)
    | cons first before =>
      have length := congrArg List.length whole
      simp at length
      omega
  | .call named opens closes arguments => fun whole unnamed => by
    match before with
    | [] =>
      obtain ⟨rfl, -⟩ := List.cons.inj whole
      exact absurd group.opens (by rw [named]; decide)
    | [first] =>
      -- The name would stand right before the group, which would be the brackets of the call.
      obtain ⟨rfl, -⟩ := List.cons.inj whole
      exact absurd named (unnamed _ rfl)
    | first :: second :: before =>
      obtain ⟨rfl, tail⟩ := List.cons.inj whole
      obtain ⟨rfl, further⟩ := List.cons.inj tail
      obtain ⟨between, here, rfl⟩ := Span.group_of_enclosed group.opens arguments.balanced
        group.within.balanced further
      obtain ⟨front, context, back, rfl, beside, surrounds⟩ :=
        arguments.around group here unnamed.of_cons.of_cons
      exact ⟨_, rfl, surrounds.call named opens closes beside⟩

theorem Operand.around {rank : Nat} {span before behind : List Token} {trees : List Node}
    (group : Group bracket inside last inner) : Operand rank span trees →
    span = before ++ bracket :: (inside ++ last :: behind) → Unnamed before →
    ∃ context : Node.Context, trees = [context.plug inner] ∧
      Surrounds bracket last (fun span tree => Operand rank span [tree]) before behind context
  | .missing => fun whole unnamed => by
    have length := congrArg List.length whole
    simp at length
  | .given expression => fun whole unnamed => by
    obtain ⟨context, rfl, covered, fills⟩ := expression.around group whole unnamed
    exact ⟨context, rfl, covered, fun other tree given => .given (fills other tree given)⟩

theorem Arguments.around {span before behind : List Token} {trees : List Node}
    (group : Group bracket inside last inner) : Arguments span trees →
    span = before ++ bracket :: (inside ++ last :: behind) → Unnamed before →
    ∃ (front : List Node) (context : Node.Context) (back : List Node),
      trees = front ++ context.plug inner :: back ∧
      (∀ child ∈ front ++ back, child.tokens ⊆ before ++ behind) ∧
      Surrounds bracket last (fun span tree => Arguments span (front ++ tree :: back))
        before behind context
  | .last expression quiet => fun whole unnamed => by
    obtain ⟨context, rfl, covered, fills⟩ := expression.around group whole unnamed
    exact ⟨[], context, [], rfl, List.forall_mem_nil _, covered, fun other tree given =>
      .last (fills other tree given) (group.undelimited expression quiet whole other tree given)⟩
  | .more expression quiet delimits others => fun whole unnamed => by
    have plain : Token.Plain _ := plain_of_delimiter delimits
    rcases Span.group_of_cut group.opens group.closes plain expression.balanced
      group.within.balanced whole with ⟨between, here, rfl⟩ | ⟨between, rfl, here⟩
    · obtain ⟨context, rfl, surrounds⟩ := expression.around group here unnamed
      refine ⟨[], context, _, rfl, fun child mem => ?_, surrounds.first delimits others
        (group.undelimited expression quiet here)⟩
      exact List.Subset.trans (others.regular child mem).tokens_subset (by grind)
    · obtain ⟨front, context, back, rfl, beside, surrounds⟩ :=
        others.around group here unnamed.of_append.of_cons
      refine ⟨_ :: front, context, back, rfl, List.forall_mem_cons.mpr ⟨?_, fun child mem => ?_⟩,
        surrounds.later expression quiet delimits⟩
      · exact List.Subset.trans expression.regular.tokens_subset (by grind)
      · exact List.Subset.trans (beside child mem) (by grind)

end

end Grammar

namespace Tree

variable {front a back name : String} {inside : List Token} {inner tree : Node}
  {maxDepth level : Nat}

theorem written_in_round {cs ds es : List Char} {tokens : List Token} :
    Scanner.Written (cs ++ '(' :: (ds ++ ')' :: es)) tokens ↔
      ∃ before inside behind, Scanner.Written cs before ∧ Scanner.Written ds inside ∧
        Scanner.Written es behind ∧
        tokens = before ++ ⟨.opening, "("⟩ :: (inside ++ ⟨.closing, ")"⟩ :: behind) := by
  rw [Scanner.written_append_bracket (.inl rfl)]
  constructor
  · rintro ⟨before, after, first, tail, rfl⟩
    obtain ⟨inside, behind, second, third, rfl⟩ :=
      (Scanner.written_append_bracket (.inr rfl)).mp tail
    exact ⟨before, inside, behind, first, second, third, rfl⟩
  · rintro ⟨before, inside, behind, first, second, third, rfl⟩
    exact ⟨before, _, first, (Scanner.written_append_bracket (.inr rfl)).mpr
      ⟨inside, behind, second, third, rfl⟩, rfl⟩

theorem chars_in_round : (front ++ "(" ++ a ++ ")" ++ back).toList =
    front.toList ++ '(' :: (a.toList ++ ')' :: back.toList) := by
  simp [String.toList_append]

/-- A text that is an expression, with its tokens and its tree. -/
structure Spells (text : String) (span : List Token) (tree : Node) : Prop where
  neutral : Bracket.Neutral text.toList
  written : Scanner.Written text.toList span
  expression : Grammar.Expression 0 span tree

theorem exists_spells {limit base : Nat} (found : read limit base a = .ok inner) :
    ∃ inside, Spells a inside inner := by
  obtain ⟨nested, inside, written, expression, -⟩ := read_eq_ok_iff.mp found
  exact ⟨inside, Bracket.neutral_of_nested nested, written, expression⟩

theorem spells_name (named : Token.WellFormed ⟨.identifier, name⟩) :
    Spells name [⟨.identifier, name⟩] (Node.leaf ⟨.identifier, name⟩) where
  neutral := named.neutral (Grammar.plain_of_identifier rfl)
  written := Scanner.written_token named
  expression := (Grammar.Expression.token (Grammar.plain_of_identifier rfl) rfl).weaken
    (Nat.zero_le _) (Nat.le_refl _)

theorem read_in_round (spells : Spells a inside inner) :
    read maxDepth level (front ++ "(" ++ a ++ ")" ++ back) = .ok tree ↔
      Bracket.check [] (front.toList ++ back.toList) = none ∧
      ∃ before behind, Scanner.Written front.toList before ∧ Scanner.Written back.toList behind ∧
        Grammar.Expression 0 (before ++ ⟨.opening, "("⟩ :: (inside ++ ⟨.closing, ")"⟩ :: behind))
          tree ∧ level + tree.need ≤ maxDepth := by
  have nested : Bracket.check [] (front.toList ++ '(' :: (a.toList ++ ')' :: back.toList)) =
      Bracket.check [] (front.toList ++ back.toList) := by
    have same : Bracket.check [] (front.toList ++ ('(' :: (a.toList ++ [')']) ++ back.toList)) =
        Bracket.check [] (front.toList ++ back.toList) := spells.neutral.in_round.check_append
    simpa using same
  rw [read_eq_ok_iff, chars_in_round, nested]
  refine and_congr_right fun _ => ⟨?_, ?_⟩
  · rintro ⟨tokens, whole, expression, fits⟩
    obtain ⟨before, inside', behind, first, second, third, rfl⟩ := written_in_round.mp whole
    obtain rfl := spells.written.unique second
    exact ⟨before, behind, first, third, expression, fits⟩
  · rintro ⟨before, behind, first, third, expression, fits⟩
    exact ⟨_, written_in_round.mpr ⟨before, inside, behind, first, spells.written, third, rfl⟩,
      expression, fits⟩

/-- What is read around a text in round brackets is one context, and it stays if another text that
is an expression stands there. -/
theorem exists_context (spells : Spells a inside inner)
    (unnamed : ∀ tokens, Scanner.tokens front = .ok tokens → Grammar.Unnamed tokens)
    (found : read maxDepth level (front ++ "(" ++ a ++ ")" ++ back) = .ok tree) :
    ∃ (before behind : List Token) (context : Node.Context),
      Scanner.tokens front = .ok before ∧ Scanner.tokens back = .ok behind ∧
      context.tokens ⊆ before ++ behind ∧ tree = context.plug inner ∧
      ∀ other span held, Spells other span held →
        level + (before.length + span.length + behind.length + 2) ≤ maxDepth →
        read maxDepth level (front ++ "(" ++ other ++ ")" ++ back) = .ok (context.plug held) := by
  obtain ⟨check, before, behind, first, third, expression, -⟩ := (read_in_round spells).mp found
  have scanned := Scanner.tokens_eq_ok_iff.mpr first
  have group : Grammar.Group ⟨.opening, "("⟩ inside ⟨.closing, ")"⟩ inner :=
    ⟨rfl, rfl, spells.expression⟩
  obtain ⟨context, rfl, covered, fills⟩ := expression.around group rfl (unnamed before scanned)
  refine ⟨before, behind, context, scanned, Scanner.tokens_eq_ok_iff.mpr third, covered, rfl,
    fun other span held spells room => ?_⟩
  have filled := fills span held spells.expression
  have small := filled.need_le
  simp only [List.length_append, List.length_cons] at small
  exact (read_in_round spells).mpr ⟨check, before, behind, first, third, filled, by omega⟩

theorem room_in_round {before behind : List Token} (spells : Spells a inside inner)
    (room : ∀ tokens, Scanner.tokens (front ++ "(" ++ a ++ ")" ++ back) = .ok tokens →
      level + tokens.length ≤ maxDepth)
    (first : Scanner.tokens front = .ok before) (third : Scanner.tokens back = .ok behind) :
    level + (before.length + inside.length + behind.length + 2) ≤ maxDepth := by
  have whole := written_in_round.mpr ⟨before, inside, behind, Scanner.tokens_eq_ok_iff.mp first,
    spells.written, Scanner.tokens_eq_ok_iff.mp third, rfl⟩
  have enough := room _ (Scanner.tokens_eq_ok_iff.mpr (chars_in_round ▸ whole))
  simp only [List.length_append, List.length_cons] at enough
  omega

theorem exists_context_of_name (spells : Spells a inside inner)
    (named : Token.WellFormed ⟨.identifier, name⟩)
    (unnamed : ∀ tokens, Scanner.tokens front = .ok tokens → Grammar.Unnamed tokens)
    (absentFront : ∀ tokens, Scanner.tokens front = .ok tokens → ⟨.identifier, name⟩ ∉ tokens)
    (absentBack : ∀ tokens, Scanner.tokens back = .ok tokens → ⟨.identifier, name⟩ ∉ tokens)
    (room : ∀ tokens, Scanner.tokens (front ++ "(" ++ a ++ ")" ++ back) = .ok tokens →
      level + tokens.length ≤ maxDepth)
    (found : read maxDepth level (front ++ "(" ++ a ++ ")" ++ back) = .ok tree) :
    ∃ context : Node.Context, ⟨.identifier, name⟩ ∉ context.tokens ∧
      read maxDepth level (front ++ "(" ++ name ++ ")" ++ back) =
        .ok (context.plug (Node.leaf ⟨.identifier, name⟩)) ∧ tree = context.plug inner := by
  obtain ⟨before, behind, context, first, third, covered, same, fills⟩ :=
    exists_context spells unnamed found
  have absent := List.not_mem_append (absentFront before first) (absentBack behind third)
  have given := List.length_pos_iff.mpr spells.expression.ne_nil
  have enough := room_in_round spells room first third
  refine ⟨context, mt (covered ·) absent, fills name _ _ (spells_name named) ?_, same⟩
  rw [List.length_singleton]
  omega

/-- Putting a text that is read in the place of a name between round brackets puts its tree in the
place of the one leaf with that name, and nothing else changes. -/
theorem substitution {limit base : Nat} (found : read limit base a = .ok inner)
    (named : Token.WellFormed ⟨.identifier, name⟩)
    (unnamed : ∀ tokens, Scanner.tokens front = .ok tokens → Grammar.Unnamed tokens)
    (absentFront : ∀ tokens, Scanner.tokens front = .ok tokens → ⟨.identifier, name⟩ ∉ tokens)
    (absentBack : ∀ tokens, Scanner.tokens back = .ok tokens → ⟨.identifier, name⟩ ∉ tokens)
    (room : ∀ tokens, Scanner.tokens (front ++ "(" ++ a ++ ")" ++ back) = .ok tokens →
      level + tokens.length ≤ maxDepth) :
    ((∃ tree, read maxDepth level (front ++ "(" ++ a ++ ")" ++ back) = .ok tree) ↔
      ∃ tree, read maxDepth level (front ++ "(" ++ name ++ ")" ++ back) = .ok tree) ∧
    ∀ whole held, read maxDepth level (front ++ "(" ++ a ++ ")" ++ back) = .ok whole →
      read maxDepth level (front ++ "(" ++ name ++ ")" ++ back) = .ok held →
      (∃ context : Node.Context, ⟨.identifier, name⟩ ∉ context.tokens ∧
        held = context.plug (Node.leaf ⟨.identifier, name⟩) ∧ whole = context.plug inner) ∧
      whole = held.replaceLeaf ⟨.identifier, name⟩ inner := by
  obtain ⟨inside, spells⟩ := exists_spells found
  refine ⟨⟨?_, ?_⟩, fun whole held foundWhole foundHeld => ?_⟩
  · rintro ⟨whole, foundWhole⟩
    obtain ⟨context, -, foundHeld, -⟩ :=
      exists_context_of_name spells named unnamed absentFront absentBack room foundWhole
    exact ⟨_, foundHeld⟩
  · rintro ⟨held, foundHeld⟩
    obtain ⟨before, behind, context, first, third, -, -, fills⟩ :=
      exists_context (spells_name named) unnamed foundHeld
    exact ⟨_, fills a inside inner spells (room_in_round spells room first third)⟩
  · -- The tree with the name is unique, so it is the context that the other tree has.
    obtain ⟨context, unused, foundHeld', rfl⟩ :=
      exists_context_of_name spells named unnamed absentFront absentBack room foundWhole
    obtain rfl := Except.ok.inj (foundHeld.symm.trans foundHeld')
    exact ⟨⟨context, unused, rfl, rfl⟩, (Node.replaceLeaf_plug unused).symm⟩

theorem substitution_of_negated_factorial :
    let x : Token := ⟨.identifier, "x"⟩
    let sum : Node := ⟨⟨.operator, "+"⟩, [.leaf ⟨.number, "1"⟩], [.leaf ⟨.previous, "_"⟩]⟩
    let minus (tree : Node) : Node := ⟨⟨.operator, "-"⟩, [], [⟨⟨.operator, "!"⟩, [tree], []⟩]⟩
    read 2 0 "(1 + _)" = .ok sum ∧ read 11 0 "-((1 + _))!" = .ok (minus sum) ∧
    read 11 0 "-(x)!" = .ok (minus (.leaf x)) ∧
    (∃ context : Node.Context, x ∉ context.tokens ∧
      minus (.leaf x) = context.plug (.leaf x) ∧ minus sum = context.plug sum) ∧
    minus sum = (minus (.leaf x)).replaceLeaf x sum := by
  intro x sum minus
  have first : Scanner.Written "-".toList [⟨.operator, "-"⟩] :=
    Scanner.written_token (.single (c := '-') rfl)
  have last : Scanner.Written "!".toList [⟨.operator, "!"⟩] :=
    Scanner.written_token (.single (c := '!') rfl)
  have named : Token.WellFormed ⟨.identifier, String.ofList ['x']⟩ :=
    .identifier rfl (List.forall_mem_nil _)
  have previous : Token.WellFormed ⟨.previous, String.ofList ['_']⟩ :=
    .previous (List.forall_mem_nil _)
  have number : Token.WellFormed ⟨.number, "1"⟩ :=
    .number (forall_mem_of_all (by decide)) ⟨by decide, '1', by decide, rfl⟩
  have printable : sum.Printable :=
    .operation (.single (c := '+') rfl) rfl (by decide) (by decide) (by decide)
      (List.forall_mem_singleton.mpr (.leaf number (by decide)))
      (List.forall_mem_singleton.mpr (.leaf previous (by decide)))
  have displayed : sum.display = "(1 + _)" := by simp [sum, Node.display, Node.leaf]
  have found : read 2 0 "(1 + _)" = .ok sum := displayed ▸ printable.read_display (by decide)
  -- What is in the brackets is read as it is, whatever it is.
  have around {text : String} {span : List Token} {tree : Node} (spells : Spells text span tree)
      (fits : (minus tree).need ≤ 11) :
      read 11 0 ("-" ++ "(" ++ text ++ ")" ++ "!") = .ok (minus tree) := by
    have group : Grammar.Expression 7 (⟨.opening, "("⟩ :: (span ++ [⟨.closing, ")"⟩])) tree :=
      (Grammar.Expression.brackets rfl rfl spells.expression).weaken (by decide) (by decide)
    have factorial : Grammar.Expression 6 (_ ++ ⟨.operator, "!"⟩ :: []) _ :=
      (Grammar.Expression.operation rfl (.given group) .missing).weaken (by decide) (by decide)
    have negated : Grammar.Expression 0 ([] ++ ⟨.operator, "-"⟩ :: _) _ :=
      (Grammar.Expression.operation rfl .missing (.given factorial)).weaken (by decide) (by decide)
    exact (read_in_round spells).mpr ⟨by decide, _, _, first, last, by simpa using negated,
      by omega⟩
  obtain ⟨inside, spells⟩ := exists_spells found
  have foundWhole : read 11 0 "-((1 + _))!" = .ok (minus sum) := around spells (by decide)
  have foundHeld : read 11 0 "-(x)!" = .ok (minus (.leaf x)) :=
    around (spells_name named) (by decide)
  refine ⟨found, foundWhole, foundHeld, ?_⟩
  refine (@substitution "-" "(1 + _)" "!" "x" sum 11 0 2 0 found named ?_ ?_ ?_ ?_).2 _ _
    foundWhole foundHeld
  · intro tokens scanned
    rw [first.unique (Scanner.tokens_eq_ok_iff.mp scanned), Grammar.Unnamed]
    decide
  · intro tokens scanned
    rw [first.unique (Scanner.tokens_eq_ok_iff.mp scanned)]
    decide
  · intro tokens scanned
    rw [last.unique (Scanner.tokens_eq_ok_iff.mp scanned)]
    decide
  · intro tokens scanned
    have short := (Scanner.tokens_eq_ok_iff.mp scanned).length_le
    simpa using short

end Tree

end Reckon
