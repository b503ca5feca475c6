import Reckon.Proofs.Evaluation.Simulation

/-!
Evaluation is strict. Every identifier of a span becomes a node of the tree that is built for it,
and every node of a tree is evaluated before the tree has a value: no operation and no call passes
over an operand. So a tree has no value when one of its names has none, whatever stands around it.
-/

namespace Reckon

namespace Outcome

variable {σ α β : Type}

/-- An outcome without a value, from whatever state of the host it starts. -/
def Fails (x : Outcome (StateM σ) α) : Prop :=
  ∀ s, ∃ failure, (x.runFrom s).1 = .error failure

theorem fails_throw (failure : Failure) : Fails (throw failure : Outcome (StateM σ) α) :=
  fun _ => ⟨failure, rfl⟩

theorem Fails.bind {x : Outcome (StateM σ) α} (fails : Fails x) (f : α → Outcome (StateM σ) β) :
    Fails (x >>= f) := by
  intro s
  obtain ⟨failure, ends⟩ := fails s
  exact ⟨failure, runFrom_bind_error ends f⟩

theorem fails_bind (x : Outcome (StateM σ) α) {f : α → Outcome (StateM σ) β}
    (fails : ∀ a, Fails (f a)) : Fails (x >>= f) := by
  intro s
  rw [runFrom_bind]
  cases x.runFrom s with
  | mk outcome s' =>
    cases outcome with
    | error failure => exact ⟨failure, rfl⟩
    | ok a => exact fails a s'

theorem fails_mapM {x : Outcome (StateM σ) α} {xs : List (Outcome (StateM σ) α)} (mem : x ∈ xs)
    (fails : Fails x) : Fails (xs.mapM id) := by
  induction xs with
  | nil => contradiction
  | cons first rest ih =>
    rw [List.mapM_cons]
    cases List.mem_cons.mp mem with
    | inl here => exact Fails.bind (here ▸ fails) _
    | inr later => exact fails_bind _ fun _ => (ih later).bind _

end Outcome

namespace Evaluation

open Outcome

variable {σ : Type} {env : Environment (StateM σ)} {level : Nat} {token : Token}

theorem applyPrefixed_fails {x : Outcome (StateM σ) Float} (fails : Fails x) :
    Fails (Operation.applyPrefixed token 0 [x]) := by
  rw [Operation.applyPrefixed_one]
  cases Operation.prefixed? token.text with
  | none => exact fails_throw _
  | some sign => exact fails.bind _

theorem applyToLeft_fails {x : Outcome (StateM σ) Float} (fails : Fails x) (left : Float) :
    Fails (Operation.applyToLeft token [x] left) := by
  rw [Operation.applyToLeft_one]
  split
  · exact fails_throw _
  · exact fails.bind _

theorem head_fails (operation : token.kind.isOperation = true) {x : Outcome (StateM σ) Float}
    (fails : Fails x) : Fails (head env level token 0 [x]) := by
  unfold head
  cases kind : token.kind with
  | operator => exact applyPrefixed_fails fails
  | relational | boolean => exact fails_throw _
  | _ => rw [kind] at operation; contradiction

theorem identifier_fails {text : String} {isLeaf : Bool}
    {operands : List (Outcome (StateM σ) Float)}
    (alone : isLeaf = true → literal? (Text.normalName text) = none)
    (fails : Fails (operands.mapM id) ∨
      ∀ arguments, Fails (env.resolve (Text.normalName text) arguments level)) :
    Fails (identifier env level text isLeaf operands) := by
  have asked : Fails (identifier env level text false operands) := by
    rw [identifier_asked]
    cases fails with
    | inl arguments => exact arguments.bind _
    | inr name => exact fails_bind _ fun arguments => (name arguments).bind _
  cases isLeaf with
  | false => exact asked
  | true =>
    rw [identifier_free env level (alone rfl)]
    exact asked

theorem evaluate_left_fails (operation : token.kind.isOperation = true) {left : Node}
    (fails : Fails (evaluate env level left)) (right : List Node) :
    Fails (evaluate env level ⟨token, [left], right⟩) := by
  rw [evaluate_spine env level operation]
  exact fails.bind _

theorem evaluate_right_fails (operation : token.kind.isOperation = true) {left : List Node}
    (few : left.length ≤ 1) {right : Node} (fails : Fails (evaluate env (level + 1) right)) :
    Fails (evaluate env level ⟨token, left, [right]⟩) := by
  match left with
  | [] =>
    rw [evaluate_head env level (.inr (by decide))]
    exact head_fails operation fails
  | [left] =>
    rw [evaluate_spine env level operation]
    exact fails_bind _ fun value => applyToLeft_fails fails value

theorem evaluate_call (named : token.kind = .identifier) (right : List Node) :
    evaluate env level ⟨token, [], right⟩ =
      identifier env level token.text (right.map (evaluate env (level + 1))).isEmpty
        (right.map (evaluate env (level + 1))) := by
  rw [evaluate_head env level (.inl (by rw [named]; decide)), head, named, List.length_nil]
  rfl

theorem evaluate_fails {maxDepth : Nat} {span : List Token} {tree : Node}
    (built : Tree.build maxDepth level span = .ok tree) (mem : token ∈ span)
    (named : token.kind = .identifier) (free : literal? (Text.normalName token.text) = none)
    (fails : ∀ arguments l, level ≤ l →
      Fails (env.resolve (Text.normalName token.text) arguments l)) :
    Fails (evaluate env level tree) := by
  have plain : token.Plain := by constructor <;> rw [named] <;> decide
  refine Tree.build_induction (motive := fun level span tree => token ∈ span →
    (∀ arguments l, level ≤ l → Fails (env.resolve (Text.normalName token.text) arguments l)) →
      Fails (evaluate env level tree)) ?leaf ?operation ?call built mem fails
  case leaf =>
    intro level span leaf _ part mem fails
    obtain rfl := Tree.eq_of_part_leaf part plain mem
    rw [Node.leaf, evaluate_call named]
    exact identifier_fails (fun _ => free)
      (.inr fun arguments => fails arguments level (Nat.le_refl _))
  case operation =>
    intro level span cut left right _ part before after mem fails
    have operation := Span.isOperation_of_weakest (Tree.weakest_of_part_operation part)
    rcases Tree.mem_of_part_operation part plain mem with inBefore | same | inAfter
    · obtain ⟨node, rfl, value⟩ := before.eq_singleton inBefore
      exact evaluate_left_fails operation (value inBefore fails) right
    · rw [← same, named] at operation
      exact absurd operation (by decide)
    · -- The right operand stands a level deeper, where the name has no value either.
      obtain ⟨node, rfl, value⟩ := after.eq_singleton inAfter
      have below := value inAfter fun arguments l le => fails arguments l (Nat.le_of_succ_le le)
      exact evaluate_right_fails operation before.length_le below
  case call =>
    intro level span name arguments right _ part unstray each mem fails
    have isName := Tree.identifier_of_part_call part
    rw [evaluate_call isName]
    have kept : token.kind ≠ .delimiter := by rw [named]; decide
    rcases Tree.mem_of_part_call part unstray plain kept mem with rfl | ⟨argument, mem, among⟩
    · exact identifier_fails (fun _ => free)
        (.inr fun arguments => fails arguments level (Nat.le_refl _))
    · obtain ⟨node, given, value⟩ := Tree.exists_of_mem_left each mem
      have below := value among fun arguments l le => fails arguments l (Nat.le_of_succ_le le)
      have operand : evaluate env (level + 1) node ∈ right.map (evaluate env (level + 1)) :=
        List.mem_map_of_mem given
      refine identifier_fails (fun empty => ?_) (.inl (fails_mapM operand below))
      rw [List.isEmpty_iff.mp empty] at operand
      exact absurd operand List.not_mem_nil

end Evaluation

end Reckon
