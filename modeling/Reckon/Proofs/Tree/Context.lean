import Reckon.Proofs.Tree.Level
import Reckon.Proofs.Tree.Shape

/-!
Trees with a hole. A context is the path from the root to the hole with everything beside it, and
plugging a tree in puts it there. Replacing a leaf whose token stands nowhere else in a tree is
plugging another tree into the context around that leaf.
-/

namespace Reckon.Node

def tokens (tree : Node) : List Token :=
  tree.nodes.map Node.token

theorem RegularOver.tokens_subset {span : List Token} {tree : Node}
    (regular : tree.RegularOver span) : tree.tokens ⊆ span := by
  intro token mem
  obtain ⟨node, below, rfl⟩ := List.mem_map.mp mem
  exact (regular node below).2

inductive Context where
  | hole
  | inLeft (token : Token) (before : List Node) (inner : Context) (after right : List Node)
  | inRight (token : Token) (left before : List Node) (inner : Context) (after : List Node)

namespace Context

def plug : Context → Node → Node
  | hole, tree => tree
  | inLeft token before inner after right, tree =>
    ⟨token, before ++ inner.plug tree :: after, right⟩
  | inRight token left before inner after, tree =>
    ⟨token, left, before ++ inner.plug tree :: after⟩

/-- The tokens on the path to the hole and beside it. -/
def tokens : Context → List Token
  | hole => []
  | inLeft token before inner after right =>
    token :: (inner.tokens ++ (before ++ after ++ right).flatMap Node.tokens)
  | inRight token left before inner after =>
    token :: (inner.tokens ++ (left ++ before ++ after).flatMap Node.tokens)

theorem tokens_cons_subset {token : Token} {inner span : List Token} {beside : List Node} :
    token :: (inner ++ beside.flatMap Node.tokens) ⊆ span ↔
      token ∈ span ∧ inner ⊆ span ∧ ∀ child ∈ beside, child.tokens ⊆ span := by
  rw [List.cons_subset, List.append_subset]
  exact and_congr_right fun _ => and_congr_right fun _ => List.forall_mem_flatMap

end Context

mutual

/-- Puts a tree in the place of every leaf with a token. -/
def replaceLeaf : Node → Token → Node → Node
  | ⟨own, left, right⟩, token, tree =>
    if own = token ∧ left.isEmpty ∧ right.isEmpty then tree
    else ⟨own, replaceLeaves left token tree, replaceLeaves right token tree⟩

def replaceLeaves : List Node → Token → Node → List Node
  | [], _, _ => []
  | node :: nodes, token, tree => replaceLeaf node token tree :: replaceLeaves nodes token tree

end

variable {token own : Token} {tree : Node} {left right : List Node}

theorem replaceLeaves_eq_map (nodes : List Node) :
    replaceLeaves nodes token tree = nodes.map (·.replaceLeaf token tree) := by
  induction nodes with
  | nil => rfl
  | cons node nodes ih => rw [replaceLeaves, ih, List.map_cons]

theorem replaceLeaf_leaf : (leaf token).replaceLeaf token tree = tree := by
  rw [leaf, replaceLeaf, if_pos ⟨rfl, rfl, rfl⟩]

theorem replaceLeaf_other (other : own ≠ token) : replaceLeaf ⟨own, left, right⟩ token tree =
    ⟨own, left.map (·.replaceLeaf token tree), right.map (·.replaceLeaf token tree)⟩ := by
  rw [replaceLeaf, if_neg (other ·.1), replaceLeaves_eq_map, replaceLeaves_eq_map]

theorem replaceLeaf_eq_self (node : Node) (absent : token ∉ node.tokens) :
    node.replaceLeaf token tree = node := by
  rw [tokens, List.mem_map, not_exists] at absent
  have others : ∀ inner ∈ node.nodes, inner.token ≠ token := fun inner mem same =>
    absent inner ⟨mem, same⟩
  clear absent
  induction node using Node.induction with
  | step own left right before after =>
    obtain ⟨other, othersLeft, othersRight⟩ := forall_nodes.mp others
    have sameLeft : left.map (·.replaceLeaf token tree) = left.map id :=
      List.map_congr_left fun child mem => before child mem (othersLeft child mem)
    have sameRight : right.map (·.replaceLeaf token tree) = right.map id :=
      List.map_congr_left fun child mem => after child mem (othersRight child mem)
    rw [replaceLeaf_other other, sameLeft, sameRight, List.map_id, List.map_id]

theorem map_replaceLeaf_eq_self {children : List Node}
    (absent : ∀ child ∈ children, token ∉ child.tokens) :
    children.map (·.replaceLeaf token tree) = children :=
  (List.map_congr_left fun child mem => replaceLeaf_eq_self child (absent child mem)).trans
    children.map_id

theorem Context.absent_cons {inner : List Token} {beside : List Node}
    (absent : token ∉ own :: (inner ++ beside.flatMap Node.tokens)) :
    own ≠ token ∧ token ∉ inner ∧ ∀ child ∈ beside, token ∉ child.tokens := by
  rw [List.mem_cons, List.mem_append, List.mem_flatMap, not_or, not_or, not_exists] at absent
  exact ⟨Ne.symm absent.1, absent.2.1, fun child mem below => absent.2.2 child ⟨mem, below⟩⟩

theorem replaceLeaf_plug {context : Context} (absent : token ∉ context.tokens) :
    (context.plug (leaf token)).replaceLeaf token tree = context.plug tree := by
  induction context with
  | hole => rw [Context.plug, Context.plug, replaceLeaf_leaf]
  | inLeft own before inner after right ih =>
    obtain ⟨other, inside, beside⟩ := Context.absent_cons absent
    rw [List.forall_mem_append, List.forall_mem_append] at beside
    obtain ⟨⟨keptBefore, keptAfter⟩, keptRight⟩ := beside
    rw [Context.plug, Context.plug, replaceLeaf_other other, List.map_append, List.map_cons,
      ih inside, map_replaceLeaf_eq_self keptBefore, map_replaceLeaf_eq_self keptAfter,
      map_replaceLeaf_eq_self keptRight]
  | inRight own left before inner after ih =>
    obtain ⟨other, inside, beside⟩ := Context.absent_cons absent
    rw [List.forall_mem_append, List.forall_mem_append] at beside
    obtain ⟨⟨keptLeft, keptBefore⟩, keptAfter⟩ := beside
    rw [Context.plug, Context.plug, replaceLeaf_other other, List.map_append, List.map_cons,
      ih inside, map_replaceLeaf_eq_self keptLeft, map_replaceLeaf_eq_self keptBefore,
      map_replaceLeaf_eq_self keptAfter]

end Reckon.Node
