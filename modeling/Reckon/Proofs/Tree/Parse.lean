import Reckon.Proofs.Tree.Grammar
import Reckon.Proofs.Tree.Level

/-!
Building a tree is parsing by the grammar. What is built from a balanced span is an expression of
the weakest rank, and every expression is built as soon as the limit leaves room for its levels.
So no span has two trees.
-/

namespace Reckon.Grammar

variable {span : List Token} {tree : Node} {rank limit level : Nat}

/-- Where a rank stands among those of the search, which has one more between the boolean and the
relational operations. -/
def searchRank (rank : Nat) : Nat :=
  if rank < 3 then rank else rank + 1

theorem searchRank_le_iff {lower : Nat} :
    searchRank lower ≤ searchRank rank ↔ lower ≤ rank := by
  unfold searchRank
  split <;> split <;> omega

theorem searchRank_lt_iff {lower : Nat} :
    searchRank lower < searchRank rank ↔ lower < rank := by
  rw [← Nat.not_le, ← Nat.not_le, searchRank_le_iff]

theorem span_rank_of_rank {token : Token} (ranked : rank? token = some rank) :
    Span.rank? token = some (searchRank rank) := by
  unfold rank? at ranked
  split at ranked
  case h_4 kind =>
    obtain rfl := Option.some.inj ranked
    simp only [Span.rank?, kind]
    decide
  case h_13 => contradiction
  all_goals
    next kind text =>
      obtain rfl := Option.some.inj ranked
      simp only [Span.rank?, kind, text]
      decide

theorem rank_of_span_rank {token : Token} {searched : Nat} (known : Known token)
    (ranked : Span.rank? token = some searched) :
    ∃ rank, rank? token = some rank ∧ searched = searchRank rank := by
  have operation := Span.isOperation_of_rank ranked
  obtain ⟨rank, found⟩ := Option.isSome_iff_exists.mp (known operation)
  rw [span_rank_of_rank found] at ranked
  exact ⟨rank, found, (Option.some.inj ranked).symm⟩

theorem noneBelow_of_noneWeaker (known : ∀ token ∈ span, Known token)
    (strong : NoneWeaker rank span) : Span.NoneBelow (searchRank rank) span := by
  intro token mem searched ranked
  obtain ⟨r, found, rfl⟩ := rank_of_span_rank (known token (Span.mem_of_mem_outside mem)) ranked
  exact searchRank_le_iff.mpr (strong token mem r found)

theorem noneWeaker_of_noneBelow {searched : Nat} (below : Span.NoneBelow searched span)
    (above : ∀ r, searched ≤ searchRank r → rank ≤ r) : NoneWeaker rank span := by
  intro token mem r ranked
  exact above r (below token mem (searchRank r) (span_rank_of_rank ranked))

theorem expression_of_strip (balanced : Span.Balanced span)
    (expression : Expression 0 (Span.strip span) tree) : Expression 0 span tree := by
  induction span using Span.strip_induction with
  | kept span same => exact same ▸ expression
  | enclosed bracket inside last span encloses strips ih =>
    obtain ⟨rfl, opens, closes, inner⟩ := encloses
    exact (Expression.brackets opens closes (ih inner (strips ▸ expression))).weaken
      (Nat.zero_le _) (Nat.le_refl _)

theorem expression_of_token {token : Token} (plain : token.Plain) (known : Known token) :
    Expression 0 [token] (Node.leaf token) := by
  cases operation : token.kind.isOperation with
  | false => exact (Expression.token plain operation).weaken (Nat.zero_le _) (Nat.le_refl _)
  | true =>
    obtain ⟨rank, ranked⟩ := Option.isSome_iff_exists.mp (known operation)
    have alone : Expression rank ([] ++ token :: []) ⟨token, [], []⟩ :=
      .operation ranked .missing .missing
    exact alone.weaken (Nat.zero_le _) (Nat.le_of_lt (lt_primary_of_rank ranked))

theorem arguments_of_separated {inside : List Token} {spans : List (List Token)}
    {trees : List Node} (separated : Span.Separated inside spans)
    (each : List.Forall₂ (Expression 0) spans trees) : Arguments inside trees := by
  induction separated generalizing trees with
  | last _ quiet =>
    cases each with
    | cons first rest =>
      cases rest with
      | nil => exact .last first quiet
  | more _ quiet delimits _ ih =>
    cases each with
    | cons first rest => exact .more first quiet delimits (ih rest)

theorem operand_of_built {nodes : List Node} (strong : NoneWeaker rank span)
    (inRank : rank ≤ primary)
    (operand : Tree.Operand (fun span tree => Expression 0 span tree) span nodes) :
    Operand rank span nodes := by
  cases operand with
  | missing => exact .missing
  | given _ expression => exact .given (expression.strengthen (Nat.zero_le _) inRank strong)

theorem expression_of_cut {cut : Span.Cut} {searched : Nat} {left right : List Node}
    (weakest : cut.IsWeakest searched) (known : ∀ token ∈ cut.span, Known token)
    (before : Tree.Operand (Expression 0) cut.before left)
    (after : Tree.Operand (Expression 0) cut.after right) :
    Expression 0 cut.span ⟨cut.operation, left, right⟩ := by
  have here : cut.operation ∈ cut.span := by simp [Span.Cut.span]
  obtain ⟨rank, ranked, rfl⟩ := rank_of_span_rank (known _ here) weakest.ranked
  have inRank := lt_primary_of_rank ranked
  have strong : NoneWeaker rank cut.before :=
    noneWeaker_of_noneBelow weakest.before fun _ => searchRank_le_iff.mp
  have stronger : NoneWeaker (rank + 1) cut.after :=
    noneWeaker_of_noneBelow weakest.after fun _ => searchRank_lt_iff.mp
  have whole : Expression rank cut.span ⟨cut.operation, left, right⟩ :=
    .operation ranked (operand_of_built strong (Nat.le_of_lt inRank) before)
      (operand_of_built stronger inRank after)
  exact whole.weaken (Nat.zero_le rank) (Nat.le_of_lt inRank)

theorem expression_of_build (balanced : Span.Balanced span) (known : ∀ token ∈ span, Known token)
    (built : Tree.build limit level span = .ok tree) : Expression 0 span tree := by
  refine Tree.build_induction (motive := fun _ span tree => Span.Balanced span →
    (∀ token ∈ span, Known token) → Expression 0 span tree) ?leaf ?operation ?call built
    balanced known
  case leaf =>
    intro _ span token _ leaf balanced known
    refine expression_of_strip balanced ?_
    cases Tree.strip_of_part_leaf leaf with
    | inl single =>
      have alone : Span.Balanced [token] := single ▸ balanced.strip
      have mem : token ∈ Span.strip span := single ▸ List.mem_singleton_self token
      rw [single]
      exact expression_of_token alone.plain (known token (Span.mem_of_mem_strip mem))
    | inr called =>
      obtain ⟨bracket, last, shape, named, opens, closes⟩ := Span.call?_eq_some.mp called
      rw [shape]
      exact (Expression.constant named opens closes).weaken (Nat.zero_le _) (Nat.le_refl _)
  case operation =>
    intro _ span cut left right _ operation before after balanced known
    refine expression_of_strip balanced ?_
    obtain ⟨whole, searched, weakest⟩ :=
      Span.isWeakest_of_weakest balanced.strip (Tree.weakest_of_part_operation operation)
    have known : ∀ token ∈ cut.span, Known token :=
      fun token mem => known token (Span.mem_of_mem_strip (whole ▸ mem))
    have splits := weakest.balanced_after (whole ▸ balanced.strip)
    rw [← whole]
    refine expression_of_cut weakest known ?_ ?_
    · exact before.imp fun _ operand => operand weakest.balanced fun token mem =>
        known token (by simp [Span.Cut.span, mem])
    · exact after.imp fun _ operand => operand splits fun token mem =>
        known token (by simp [Span.Cut.span, mem])
  case call =>
    intro _ span name arguments right _ call unstray each balanced known
    refine expression_of_strip balanced ?_
    obtain ⟨inside, called, rfl⟩ := Tree.call_of_part_call call
    obtain ⟨bracket, last, shape, named, opens, closes⟩ := Span.call?_eq_some.mp called
    have enclosed : Span.Balanced (bracket :: (inside ++ [last])) := by
      have stripped := balanced.strip
      rw [shape, Span.balanced_cons_plain (plain_of_identifier named)] at stripped
      exact stripped
    -- No stray bracket ended the reading, so the arguments are balanced and cover the inside.
    have inner := enclosed.of_enclosed opens closes (Span.depthAfter_of_not_stray unstray)
    have separated := inner.separated
    have trees : List.Forall₂ (Expression 0) (Span.arguments 0 [] inside).spans right :=
      ((List.forall₂_and_left _ _).mpr ⟨fun _ mem => mem, each⟩).imp fun argument _ both =>
        both.2 (separated.balanced both.1) fun token mem =>
          known token (Span.mem_of_mem_strip (by simp [shape, separated.subset both.1 mem]))
    rw [shape]
    exact (Expression.call named opens closes (arguments_of_separated separated trees)).weaken
      (Nat.zero_le _) (Nat.le_refl _)

theorem known_of_not_isOperation {token : Token} (other : token.kind.isOperation = false) :
    Known token := fun operation => by
  rw [other] at operation
  contradiction

theorem known_of_rank {token : Token} (ranked : rank? token = some rank) : Known token :=
  fun _ => by rw [ranked]; rfl

theorem known_of_kind {token : Token} {kind : TokenKind} (same : token.kind = kind)
    (other : kind.isOperation = false) : Known token :=
  known_of_not_isOperation (same ▸ other)

mutual

theorem Expression.known {rank : Nat} {span : List Token} {tree : Node} :
    Expression rank span tree → ∀ token ∈ span, Known token
  | .stronger _ expression => expression.known
  | .operation ranked left right => List.forall_mem_append.mpr
    ⟨left.known, List.forall_mem_cons.mpr ⟨known_of_rank ranked, right.known⟩⟩
  | .token _ other => List.forall_mem_singleton.mpr (known_of_not_isOperation other)
  | .brackets opens closes expression => List.forall_mem_cons.mpr
    ⟨known_of_kind opens rfl, List.forall_mem_append.mpr
      ⟨expression.known, List.forall_mem_singleton.mpr (known_of_kind closes rfl)⟩⟩
  | .constant named opens closes => List.forall_mem_cons.mpr
    ⟨known_of_kind named rfl, List.forall_mem_cons.mpr
      ⟨known_of_kind opens rfl, List.forall_mem_singleton.mpr (known_of_kind closes rfl)⟩⟩
  | .call named opens closes arguments => List.forall_mem_cons.mpr
    ⟨known_of_kind named rfl, List.forall_mem_cons.mpr
      ⟨known_of_kind opens rfl, List.forall_mem_append.mpr
        ⟨arguments.known, List.forall_mem_singleton.mpr (known_of_kind closes rfl)⟩⟩⟩

theorem Operand.known {rank : Nat} {span : List Token} {trees : List Node} :
    Operand rank span trees → ∀ token ∈ span, Known token
  | .missing => List.forall_mem_nil _
  | .given expression => expression.known

theorem Arguments.known {inside : List Token} {trees : List Node} :
    Arguments inside trees → ∀ token ∈ inside, Known token
  | .last expression _ => expression.known
  | .more expression _ delimits rest => List.forall_mem_append.mpr
    ⟨expression.known, List.forall_mem_cons.mpr ⟨known_of_kind delimits rfl, rest.known⟩⟩

end

theorem Expression.ne_nil {rank : Nat} {span : List Token} {tree : Node} :
    Expression rank span tree → span ≠ []
  | .stronger _ expression => expression.ne_nil
  | .operation .. => List.append_ne_nil_of_right_ne_nil _ (List.cons_ne_nil _ _)
  | .token .. | .brackets .. | .constant .. | .call .. => List.cons_ne_nil _ _

theorem Operand.eq_nil {trees : List Node} (operand : Operand rank [] trees) : trees = [] := by
  cases operand with
  | missing => rfl
  | given expression => exact absurd rfl expression.ne_nil

theorem build_token {token : Token} (plain : token.Plain) (room : level < limit) :
    Tree.build limit level [token] = .ok (Node.leaf token) := by
  have alone : token ∈ Span.outside 0 [token] := by
    rw [Span.outside_plain plain]
    exact List.mem_cons_self
  rw [Tree.build_of_part room (Tree.part_of_strip_singleton (Span.strip_of_mem_outside alone)),
    Tree.assemble]

theorem build_operation {left right : List Token} {operation : Token}
    {leftTree rightTree : List Node} (room : level < limit) (ranked : rank? operation = some rank)
    (before : Operand rank left leftTree) (after : Operand (rank + 1) right rightTree)
    (builtBefore : Tree.buildRight limit level left = .ok leftTree)
    (builtAfter : Tree.buildRight limit (level + 1) right = .ok rightTree) :
    Tree.build limit level (left ++ operation :: right) = .ok ⟨operation, leftTree, rightTree⟩ := by
  have plain := plain_of_isOperation (isOperation_of_rank ranked)
  by_cases alone : left = [] ∧ right = []
  · obtain ⟨rfl, rfl⟩ := alone
    rw [before.eq_nil, after.eq_nil]
    exact build_token plain room
  · let cut : Span.Cut := ⟨left, operation, right⟩
    have weakest : cut.IsWeakest (searchRank rank) :=
      ⟨before.balanced, span_rank_of_rank ranked,
        noneBelow_of_noneWeaker before.known before.noneWeaker,
        (noneBelow_of_noneWeaker after.known after.noneWeaker).mono
          (searchRank_lt_iff.mpr (Nat.lt_succ_self rank))⟩
    have balanced : Span.Balanced cut.span :=
      before.balanced.append ((Span.balanced_cons_plain plain).mpr after.balanced)
    have unstripped := Span.strip_of_mem_outside weakest.mem_outside
    have several : 1 < (Span.strip cut.span).length := by
      have beside : left.length + right.length ≠ 0 := by
        simpa [List.length_eq_zero_iff] using alone
      rw [unstripped]
      simp only [Span.Cut.span, cut, List.length_append, List.length_cons]
      omega
    have split : Tree.part cut.span = .operation cut :=
      Tree.part_of_cut several (by rw [unstripped]; exact Span.weakest_eq_some weakest balanced)
    have built : Tree.build limit level cut.span = .ok ⟨operation, leftTree, rightTree⟩ := by
      rw [Tree.build_of_part room split, Tree.assemble, builtBefore, builtAfter]
      rfl
    exact built

theorem part_call {name bracket last : Token} {inside : List Token}
    (named : name.kind = .identifier) (opens : bracket.kind = .opening)
    (closes : last.kind = .closing) (balanced : Span.Balanced inside) :
    Tree.part (name :: bracket :: (inside ++ [last])) =
      if inside = [] then .leaf name else .call name (Span.arguments 0 [] inside) := by
  have plain := plain_of_identifier named
  have enclosed := balanced.enclose opens closes
  have outside : Span.outside 0 (name :: bracket :: (inside ++ [last])) = [name] := by
    rw [Span.outside_plain plain, Span.outside_enclosed ⟨rfl, opens, closes, balanced⟩]
  have unstripped := Span.strip_of_mem_outside (outside ▸ List.mem_singleton_self name)
  refine Tree.part_of_call ?_ ?_
  · rw [unstripped]
    refine Span.weakest_eq_none ((Span.balanced_cons_plain plain).mpr enclosed) ?_
    rw [outside, List.forall_mem_singleton, Span.rank?, named]
  · rw [unstripped]
    exact Span.call?_eq_some.mpr ⟨bracket, last, rfl, named, opens, closes⟩

theorem build_constant {name bracket last : Token} (room : level < limit)
    (named : name.kind = .identifier) (opens : bracket.kind = .opening)
    (closes : last.kind = .closing) :
    Tree.build limit level [name, bracket, last] = .ok (Node.leaf name) := by
  have part := part_call named opens closes Span.balanced_nil
  rw [if_pos rfl] at part
  exact Tree.build_of_part room part

theorem build_call {name bracket last : Token} {inside : List Token} {spans : List (List Token)}
    {trees : List Node} (room : level < limit) (named : name.kind = .identifier)
    (opens : bracket.kind = .opening) (closes : last.kind = .closing) (given : inside ≠ [])
    (separated : Span.Separated inside spans) (balanced : Span.Balanced inside)
    (built : Tree.buildArguments limit (level + 1) name.text spans = .ok trees) :
    Tree.build limit level (name :: bracket :: (inside ++ [last])) = .ok ⟨name, [], trees⟩ := by
  have part := part_call named opens closes balanced
  rw [if_neg given, separated.arguments_eq] at part
  rw [Tree.build_of_part room part, Tree.assemble, built]
  rfl

theorem Arguments.ne_nil {inside : List Token} {trees : List Node}
    (arguments : Arguments inside trees) : inside ≠ [] := by
  cases arguments with
  | last expression _ => exact expression.ne_nil
  | more => simp

mutual

theorem Expression.build {rank : Nat} {span : List Token} {tree : Node} (level : Nat) :
    Expression rank span tree → level + tree.need ≤ limit →
      Tree.build limit level span = .ok tree
  | .stronger _ expression => expression.build level
  | .operation ranked left right => fun fits => by
    rw [Node.need] at fits
    exact build_operation (by omega) ranked left right (left.build level (by omega))
      (right.build (level + 1) (by omega))
  | .token plain _ => fun fits => build_token plain (by rw [Node.leaf, Node.need] at fits; omega)
  | .brackets opens closes expression => fun fits => by
    rw [Tree.build_of_strip (Span.strip_enclosed ⟨rfl, opens, closes, expression.balanced⟩)]
    exact expression.build level fits
  | .constant named opens closes => fun fits =>
    build_constant (by rw [Node.leaf, Node.need] at fits; omega) named opens closes
  | .call named opens closes arguments => fun fits => by
    rw [Node.need] at fits
    obtain ⟨spans, separated, built⟩ := arguments.build (level + 1) (by omega)
    exact build_call (by omega) named opens closes arguments.ne_nil separated arguments.balanced
      (Tree.buildArguments_eq_ok.mpr built)

theorem Operand.build {rank : Nat} {span : List Token} {trees : List Node} (level : Nat) :
    Operand rank span trees → level + Node.needMost trees ≤ limit →
      Tree.buildRight limit level span = .ok trees
  | .missing => fun _ => by rw [Tree.buildRight]
  | .given expression => fun fits => by
    rw [Node.needMost, Node.needMost] at fits
    rw [Tree.buildRight_of_ne_nil expression.ne_nil, expression.build level (by omega)]
    rfl

theorem Arguments.build {inside : List Token} {trees : List Node} (level : Nat) :
    Arguments inside trees → level + Node.needMost trees ≤ limit →
      ∃ spans, Span.Separated inside spans ∧ List.Forall₂ (fun span tree =>
        span ≠ [] ∧ Tree.build limit level span = .ok tree) spans trees
  | .last expression quiet => fun fits => by
    rw [Node.needMost, Node.needMost] at fits
    exact ⟨_, .last expression.balanced quiet,
      .cons ⟨expression.ne_nil, expression.build level (by omega)⟩ .nil⟩
  | .more expression quiet delimits rest => fun fits => by
    rw [Node.needMost] at fits
    obtain ⟨spans, separated, built⟩ := rest.build level (by omega)
    exact ⟨_, .more expression.balanced quiet delimits separated,
      .cons ⟨expression.ne_nil, expression.build level (by omega)⟩ built⟩

end

theorem Expression.unique {rank' : Nat} {other : Node} (expression : Expression rank span tree)
    (expression' : Expression rank' span other) : other = tree := by
  have built : Tree.build (tree.need + other.need) 0 span = .ok tree :=
    expression.build 0 (by omega)
  have built' : Tree.build (tree.need + other.need) 0 span = .ok other :=
    expression'.build 0 (by omega)
  exact Except.ok.inj (built'.symm.trans built)

mutual

theorem Expression.need_le {rank : Nat} {span : List Token} {tree : Node} :
    Expression rank span tree → tree.need ≤ span.length
  | .stronger _ expression => expression.need_le
  | .operation _ left right => by
    have before := left.needMost_le
    have after := right.needMost_le
    rw [Node.need, List.length_append, List.length_cons]
    omega
  | .token .. => Nat.le_refl 1
  | .brackets _ _ expression => by
    have inside := expression.need_le
    simp only [List.length_cons, List.length_append]
    omega
  | .constant .. => Nat.le_add_left 1 2
  | .call _ _ _ arguments => by
    have inside := arguments.needMost_le
    simp only [Node.need, Node.needMost, List.length_cons, List.length_append]
    omega

theorem Operand.needMost_le {rank : Nat} {span : List Token} {trees : List Node} :
    Operand rank span trees → Node.needMost trees ≤ span.length
  | .missing => Nat.le_refl 0
  | .given expression => Nat.max_le.mpr ⟨expression.need_le, Nat.zero_le _⟩

theorem Arguments.needMost_le {inside : List Token} {trees : List Node} :
    Arguments inside trees → Node.needMost trees ≤ inside.length
  | .last expression _ => Nat.max_le.mpr ⟨expression.need_le, Nat.zero_le _⟩
  | .more expression _ _ rest => by
    have first := expression.need_le
    have others := rest.needMost_le
    rw [Node.needMost, List.length_append, List.length_cons]
    omega

end

theorem Expression.tooDeep (expression : Expression rank span tree)
    (deep : limit < level + tree.need) :
    Tree.build limit level span = .error (.nestingTooDeep limit) := by
  have built : Tree.build (level + tree.need) level span = .ok tree :=
    expression.build level (Nat.le_refl _)
  cases Tree.raised_build (Nat.le_of_lt deep) (Nat.le_refl level) span with
  | inl fails => exact fails
  | inr same =>
    rw [built] at same
    have fits := Tree.need_of_build same.symm
    omega

/-- A span whose brackets match, with operations that have a rank, is built into the tree that the
grammar gives it, the only one there is, as soon as the levels of the tree are under the limit. They
are no more than the tokens of the span, and a tree that needs more levels fails for the limit. -/
theorem build_parses (balanced : Span.Balanced span) (known : ∀ token ∈ span, Known token) :
    (∀ limit level tree, Tree.build limit level span = .ok tree ↔
      Expression 0 span tree ∧ level + tree.need ≤ limit) ∧
    (∀ tree other, Expression 0 span tree → Expression 0 span other → other = tree) ∧
    (∀ tree, Expression 0 span tree → tree.need ≤ span.length ∧
      ∀ limit level, limit < level + tree.need →
        Tree.build limit level span = .error (.nestingTooDeep limit)) := by
  refine ⟨fun limit level tree => ⟨fun built => ?_, fun parsed => ?_⟩, ?_, ?_⟩
  · exact ⟨expression_of_build balanced known built, Tree.need_of_build built⟩
  · exact parsed.1.build level parsed.2
  · intro tree other expression expression'
    exact expression.unique expression'
  · intro tree expression
    exact ⟨expression.need_le, fun limit level deep => expression.tooDeep deep⟩

theorem build_negated_product :
    Tree.build 3 0 [⟨.operator, "-"⟩, ⟨.identifier, "a"⟩, ⟨.operator, "*"⟩, ⟨.number, "2"⟩] =
      .ok ⟨⟨.operator, "-"⟩, [], [⟨⟨.operator, "*"⟩, [Node.leaf ⟨.identifier, "a"⟩],
        [Node.leaf ⟨.number, "2"⟩]⟩]⟩ := by
  refine ((build_parses (by rfl) ?_).1 3 0 _).mpr ⟨?_, by decide⟩
  · simp only [Known, rank?]
    decide
  · have a : Expression 6 [⟨.identifier, "a"⟩] (Node.leaf ⟨.identifier, "a"⟩) :=
      (Expression.token (by constructor <;> decide) rfl).weaken (by decide) (Nat.le_refl _)
    have two : Expression 7 [⟨.number, "2"⟩] (Node.leaf ⟨.number, "2"⟩) :=
      (Expression.token (by constructor <;> decide) rfl).weaken (by decide) (Nat.le_refl _)
    have product : Expression 6 ([⟨.identifier, "a"⟩] ++ ⟨.operator, "*"⟩ :: [⟨.number, "2"⟩])
        ⟨⟨.operator, "*"⟩, [Node.leaf ⟨.identifier, "a"⟩], [Node.leaf ⟨.number, "2"⟩]⟩ :=
      .operation rfl (.given a) (.given two)
    have negated : Expression 5 ([] ++ ⟨.operator, "-"⟩ ::
        ([⟨.identifier, "a"⟩] ++ ⟨.operator, "*"⟩ :: [⟨.number, "2"⟩])) _ :=
      .operation rfl .missing (.given product)
    exact negated.weaken (by decide) (by decide)

end Reckon.Grammar
