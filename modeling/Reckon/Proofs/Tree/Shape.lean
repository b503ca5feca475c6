import Reckon.Proofs.Tree.Grammar

/-!
The shapes that nodes take. A tree that the grammar gives to a span has leaves, operations with one
operand or two and calls, and nothing else; all of its tokens stand in the span.
-/

namespace Reckon

namespace Node

mutual

def nodes : Node → List Node
  | ⟨token, left, right⟩ => ⟨token, left, right⟩ :: (nodesOf left ++ nodesOf right)

def nodesOf : List Node → List Node
  | [] => []
  | node :: more => nodes node ++ nodesOf more

end

theorem nodesOf_eq_flatMap (trees : List Node) : nodesOf trees = trees.flatMap nodes := by
  induction trees with
  | nil => rfl
  | cons node more ih => rw [nodesOf, ih, List.flatMap_cons]

theorem forall_nodes {property : Node → Prop} {token : Token} {left right : List Node} :
    (∀ node ∈ nodes ⟨token, left, right⟩, property node) ↔ property ⟨token, left, right⟩ ∧
      (∀ child ∈ left, ∀ node ∈ child.nodes, property node) ∧
      ∀ child ∈ right, ∀ node ∈ child.nodes, property node := by
  rw [nodes, List.forall_mem_cons, List.forall_mem_append, nodesOf_eq_flatMap, nodesOf_eq_flatMap,
    List.forall_mem_flatMap, List.forall_mem_flatMap]

theorem eq_singleton_of_mem {trees : List Node} {tree : Node} (few : trees.length ≤ 1)
    (mem : tree ∈ trees) : trees = [tree] := by
  obtain ⟨only, rfl⟩ := List.length_eq_one_iff.mp (Nat.le_antisymm few (List.length_pos_of_mem mem))
  rw [List.mem_singleton.mp mem]

/-- The shapes of the nodes that are built. -/
inductive Regular : Node → Prop
  | leaf {token : Token} : token.Plain → Regular ⟨token, [], []⟩
  | operation {token : Token} {left right : List Node} : token.kind.isOperation = true →
    left.length ≤ 1 → right.length ≤ 1 → left ++ right ≠ [] → Regular ⟨token, left, right⟩
  | call {token : Token} {right : List Node} : token.kind = .identifier → right ≠ [] →
    Regular ⟨token, [], right⟩

theorem Regular.length_left_le {node : Node} (regular : node.Regular) : node.left.length ≤ 1 := by
  cases regular with
  | leaf | call => exact Nat.zero_le 1
  | operation _ few => exact few

def RegularOver (span : List Token) (tree : Node) : Prop :=
  ∀ node ∈ tree.nodes, node.Regular ∧ node.token ∈ span

theorem RegularOver.mono {span wider : List Token} {tree : Node} (subset : span ⊆ wider)
    (regular : tree.RegularOver span) : tree.RegularOver wider :=
  fun node mem => (regular node mem).imp_right (subset ·)

theorem regularOver_leaf {span : List Token} {token : Token} (plain : token.Plain)
    (mem : token ∈ span) : (leaf token).RegularOver span :=
  forall_nodes.mpr ⟨⟨.leaf plain, mem⟩, List.forall_mem_nil _, List.forall_mem_nil _⟩

end Node

namespace Grammar

theorem Operand.length_le {rank : Nat} {span : List Token} {trees : List Node}
    (operand : Operand rank span trees) : trees.length ≤ 1 := by
  cases operand with
  | missing => exact Nat.zero_le 1
  | given => exact Nat.le_refl 1

theorem Arguments.trees_ne_nil {inside : List Token} {trees : List Node}
    (arguments : Arguments inside trees) : trees ≠ [] := by
  cases arguments with
  | last | more => exact List.cons_ne_nil _ _

mutual

theorem Expression.regular {rank : Nat} {span : List Token} {tree : Node} :
    Expression rank span tree → tree.RegularOver span
  | .stronger _ expression => expression.regular
  | @Expression.operation _ _ _ operation left right ranked before after => by
    have isOperation := isOperation_of_rank ranked
    refine Node.forall_nodes.mpr ⟨⟨?_, List.mem_append_right _ List.mem_cons_self⟩,
      fun child mem => (before.regular child mem).mono (List.subset_append_left _ _),
      fun child mem => (after.regular child mem).mono ?_⟩
    · by_cases alone : left ++ right = []
      · obtain ⟨rfl, rfl⟩ := List.append_eq_nil_iff.mp alone
        exact .leaf (plain_of_isOperation isOperation)
      · exact .operation isOperation before.length_le after.length_le alone
    · exact List.subset_append_of_subset_right _ (List.subset_cons_self _ _)
  | .token plain _ => Node.regularOver_leaf plain List.mem_cons_self
  | .brackets _ _ expression => expression.regular.mono
      (List.subset_cons_of_subset _ (List.subset_append_left _ _))
  | .constant named _ _ => Node.regularOver_leaf (plain_of_identifier named) List.mem_cons_self
  | .call named _ _ arguments => Node.forall_nodes.mpr
    ⟨⟨.call named arguments.trees_ne_nil, List.mem_cons_self⟩, List.forall_mem_nil _,
      fun child mem => (arguments.regular child mem).mono (List.subset_cons_of_subset _
        (List.subset_cons_of_subset _ (List.subset_append_left _ _)))⟩

theorem Operand.regular {rank : Nat} {span : List Token} {trees : List Node} :
    Operand rank span trees → ∀ tree ∈ trees, tree.RegularOver span
  | .missing => List.forall_mem_nil _
  | .given expression => List.forall_mem_singleton.mpr expression.regular

theorem Arguments.regular {inside : List Token} {trees : List Node} :
    Arguments inside trees → ∀ tree ∈ trees, tree.RegularOver inside
  | .last expression _ => List.forall_mem_singleton.mpr expression.regular
  | .more expression _ _ rest => List.forall_mem_cons.mpr
    ⟨expression.regular.mono (List.subset_append_left _ _), fun tree mem =>
      (rest.regular tree mem).mono
        (List.subset_append_of_subset_right _ (List.subset_cons_self _ _))⟩

end

end Grammar

end Reckon
