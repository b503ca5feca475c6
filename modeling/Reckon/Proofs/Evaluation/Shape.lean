import Reckon.Proofs.Evaluation.Operands
import Reckon.Proofs.Evaluation.Strict
import Reckon.Proofs.Tree.Display

/-!
Operand counts, found by looking at a tree. Every operation of a text is known and every number can
be read, so a tree that is read can only fail where an operation has the wrong number of operands,
where a delimiter stands as a leaf, in a factorial or in a resolver. Evaluation passes over no node:
a tree with a node of the first two sorts always fails, and one without never fails for its shape.
-/

namespace Reckon

namespace Node

/-- Whether a node has the operands that it takes, and is no delimiter without operands. -/
def shaped (node : Node) : Bool :=
  if node.token.kind.isOperation then
    Operation.takes node.token.text node.left.length node.right.length
  else !node.isLeaf || node.token.kind ≠ .delimiter

def wellShaped (tree : Node) : Bool :=
  tree.nodes.all shaped

theorem wellShaped_eq (token : Token) (left right : List Node) :
    wellShaped ⟨token, left, right⟩ =
      (shaped ⟨token, left, right⟩ && (left.all wellShaped && right.all wellShaped)) := by
  rw [wellShaped, nodes, List.all_cons, List.all_append, nodesOf_eq_flatMap, nodesOf_eq_flatMap,
    List.all_flatMap, List.all_flatMap]
  rfl

end Node

namespace Outcome

variable {σ α β : Type} {allowed : Failure → Prop}

/-- An outcome that fails with allowed failures only, from whatever state of the host it starts. -/
def FailsOnly (allowed : Failure → Prop) (x : Outcome (StateM σ) α) : Prop :=
  ∀ s failure, (x.runFrom s).1 = .error failure → allowed failure

theorem failsOnly_pure (a : α) : FailsOnly allowed (pure a : Outcome (StateM σ) α) :=
  fun _ _ fails => by contradiction

theorem failsOnly_throw {failure : Failure} (fine : allowed failure) :
    FailsOnly allowed (throw failure : Outcome (StateM σ) α) := by
  intro s other fails
  exact Except.error.inj fails ▸ fine

theorem FailsOnly.bind {x : Outcome (StateM σ) α} {f : α → Outcome (StateM σ) β}
    (first : FailsOnly allowed x) (later : ∀ a, FailsOnly allowed (f a)) :
    FailsOnly allowed (x >>= f) := by
  intro s failure fails
  rw [runFrom_bind] at fails
  cases ends : x.runFrom s with
  | mk outcome s' =>
    rw [ends] at fails
    cases outcome with
    | error other =>
      obtain rfl : other = failure := Except.error.inj fails
      exact first s other (by rw [ends])
    | ok a => exact later a s' failure fails

theorem failsOnly_mapM {xs : List (Outcome (StateM σ) α)} (each : ∀ x ∈ xs, FailsOnly allowed x) :
    FailsOnly allowed (xs.mapM id) := by
  induction xs with
  | nil =>
    rw [List.mapM_nil]
    exact failsOnly_pure []
  | cons x xs ih =>
    rw [List.forall_mem_cons] at each
    rw [List.mapM_cons]
    exact each.1.bind fun a => (ih each.2).bind fun rest => failsOnly_pure (a :: rest)

end Outcome

namespace Evaluation

open Outcome

variable {σ : Type} {env : Environment (StateM σ)} {level : Nat} {token : Token}
  {allowed : Failure → Prop}

theorem failsOnly_factorial (operand : ∀ value, allowed (.operand "!" value)) (x : Float) :
    FailsOnly allowed (Outcome.ofExcept (Operation.factorial x) : Outcome (StateM σ) Float) := by
  unfold Operation.factorial
  split
  · exact failsOnly_throw (operand x)
  · split <;> exact failsOnly_pure _

theorem failsOnly_identifier {text : String} {isLeaf : Bool}
    {operands : List (Outcome (StateM σ) Float)}
    (each : ∀ operand ∈ operands, FailsOnly allowed operand)
    (answers : ∀ name arguments, FailsOnly allowed (answer env level name arguments)) :
    FailsOnly allowed (identifier env level text isLeaf operands) := by
  have asked : FailsOnly allowed (identifier env level text false operands) := by
    rw [identifier_answer]
    exact (failsOnly_mapM each).bind fun arguments => answers _ arguments
  cases isLeaf with
  | false => exact asked
  | true =>
    cases literal : literal? (Text.normalName text) with
    | none =>
      rw [identifier_free env level literal]
      exact asked
    | some value =>
      rw [identifier_literal env level literal]
      exact failsOnly_pure value

theorem failsOnly_prefixed (formed : token.WellFormed) (operation : token.kind.isOperation = true)
    {operands : List (Outcome (StateM σ) Float)}
    (misfit : Operation.takes token.text 0 operands.length = false →
      ∀ expected found, allowed (.arity token.text expected found))
    (each : ∀ operand ∈ operands, FailsOnly allowed operand) :
    FailsOnly allowed (head env level token 0 operands) := by
  cases fit : Operation.takes token.text 0 operands.length with
  | false =>
    rw [head_of_not_takes env level operation fit]
    exact failsOnly_throw (misfit fit _ _)
  | true =>
    have single : operands.length = 1 := by
      have count := Operation.count_of_takes fit
      omega
    obtain ⟨operand, rfl⟩ := List.length_eq_one_iff.mp single
    obtain ⟨value, same⟩ := head_of_takes env level operand formed operation fit
    rw [same]
    exact (each operand List.mem_cons_self).bind fun right => failsOnly_pure (value right)

theorem failsOnly_applyToLeft (operand : ∀ value, allowed (.operand "!" value))
    (formed : token.WellFormed) (operation : token.kind.isOperation = true)
    {operands : List (Outcome (StateM σ) Float)}
    (misfit : Operation.takes token.text 1 operands.length = false →
      ∀ expected found, allowed (.arity token.text expected found))
    (each : ∀ operand ∈ operands, FailsOnly allowed operand) (left : Float) :
    FailsOnly allowed (Operation.applyToLeft token operands left) := by
  cases fit : Operation.takes token.text 1 operands.length with
  | false =>
    rw [Operation.applyToLeft_of_not_takes fit]
    exact failsOnly_throw (misfit fit _ _)
  | true =>
    match operands with
    | [] =>
      rw [Operation.applyToLeft_nil, if_pos (Operation.eq_factorial_of_takes fit)]
      exact failsOnly_factorial operand left
    | [right] =>
      obtain ⟨value, same⟩ := Operation.applyToLeft_of_takes right formed operation fit left
      rw [same]
      exact (each right List.mem_cons_self).bind fun right => failsOnly_pure (value right)
    | _ :: _ :: _ =>
      have count := Operation.count_of_takes fit
      simp at count

theorem isSome_read_of_number (formed : token.WellFormed) (number : token.kind = .number) :
    (Decimal.read? token.text).isSome := by
  cases formed with
  | number isRun plain => exact (Decimal.read?_isSome isRun).mpr plain
  | @single c single =>
    rw [show TokenKind.ofChar c = .number from number] at single
    contradiction
  | relational | identifier | previous => contradiction

theorem text_of_delimiter (formed : token.WellFormed) (delimits : token.kind = .delimiter) :
    token.text = "," := by
  cases formed with
  | @single c single =>
    have table : ∀ s ∈ TokenKind.symbols, TokenKind.ofChar s = .delimiter →
        String.singleton s = "," := forall_mem_of_all (by decide)
    exact table c (TokenKind.mem_symbols_of_isSingle single) delimits
  | relational | number | identifier | previous => contradiction

theorem failsOnly_leaf (formed : token.WellFormed) (plain : token.Plain)
    (other : token.kind.isOperation = false)
    (misfit : token.kind = .delimiter → allowed (.misplaced ","))
    (answers : ∀ name arguments, FailsOnly allowed (answer env level name arguments)) :
    FailsOnly allowed (head env level token 0 []) := by
  have valid := formed.valid
  obtain ⟨opening, closing⟩ := plain
  unfold head
  cases kind : token.kind with
  | previous => exact failsOnly_pure env.previous
  | number =>
    obtain ⟨value, found⟩ := Option.isSome_iff_exists.mp (isSome_read_of_number formed kind)
    simp only [found]
    exact failsOnly_pure value
  | identifier => exact failsOnly_identifier (List.forall_mem_nil _) answers
  | delimiter =>
    rw [text_of_delimiter formed kind]
    exact failsOnly_throw (misfit kind)
  | opening | closing | invalid => contradiction
  | operator | relational | boolean => rw [kind] at other; contradiction

theorem failsOnly_evaluate (operand : ∀ value, allowed (.operand "!" value)) {tree : Node}
    (built : ∀ node ∈ tree.nodes, node.Regular ∧ node.token.WellFormed)
    (misfit : ∀ node ∈ tree.nodes, node.shaped = false →
      (∀ expected found, allowed (.arity node.token.text expected found)) ∧
        allowed (.misplaced ","))
    (answers : ∀ name arguments l, FailsOnly allowed (answer env l name arguments)) :
    FailsOnly allowed (evaluate env level tree) := by
  induction tree using Node.induction generalizing level with
  | step token left right before after =>
    obtain ⟨⟨regular, formed⟩, builtLeft, builtRight⟩ := Node.forall_nodes.mp built
    obtain ⟨here, misfitLeft, misfitRight⟩ := Node.forall_nodes.mp misfit
    have eachLeft : ∀ child ∈ left, FailsOnly allowed (evaluate env level child) :=
      fun child mem => before child mem (builtLeft child mem) (misfitLeft child mem)
    have eachRight : ∀ operand ∈ right.map (evaluate env (level + 1)), FailsOnly allowed operand :=
      List.forall_mem_map.mpr fun child mem =>
        after child mem (builtRight child mem) (misfitRight child mem)
    cases operation : token.kind.isOperation with
    | true =>
      rw [Node.shaped, if_pos operation] at here
      have few := regular.length_left_le
      match left with
      | [] =>
        rw [evaluate_head env level (.inr (by decide))]
        refine failsOnly_prefixed formed operation (fun fit => ?_) eachRight
        rw [List.length_map] at fit
        exact (here fit).1
      | [child] =>
        rw [evaluate_spine env level operation]
        refine (eachLeft child List.mem_cons_self).bind fun value => ?_
        refine failsOnly_applyToLeft operand formed operation (fun fit => ?_) eachRight value
        rw [List.length_map] at fit
        exact (here fit).1
      | _ :: _ :: _ => simp at few
    | false =>
      cases regular with
      | leaf plain =>
        rw [evaluate_head env level (.inl operation)]
        refine failsOnly_leaf formed plain operation (fun delimits => (here ?_).2)
          fun name arguments => answers name arguments level
        rw [Node.shaped, if_neg (by rw [operation]; decide)]
        simp [delimits, Node.isLeaf]
      | operation isOperation =>
        rw [operation] at isOperation
        contradiction
      | call named =>
        rw [evaluate_call named]
        exact failsOnly_identifier eachRight fun name arguments => answers name arguments level

theorem fails_of_not_shaped {left right : List Node} (few : left.length ≤ 1)
    (misshapen : Node.shaped ⟨token, left, right⟩ = false) :
    Fails (evaluate env level ⟨token, left, right⟩) := by
  unfold Node.shaped at misshapen
  cases operation : token.kind.isOperation with
  | true =>
    have misfit : Operation.takes token.text left.length
        (right.map (evaluate env (level + 1))).length = false := by
      rw [List.length_map]
      rwa [if_pos operation] at misshapen
    match left with
    | [] =>
      rw [evaluate_head env level (.inr (by decide)), List.length_nil,
        head_of_not_takes env level operation misfit]
      exact fails_throw _
    | [child] =>
      rw [evaluate_spine env level operation]
      refine fails_bind _ fun value => ?_
      rw [Operation.applyToLeft_of_not_takes misfit]
      exact fails_throw _
    | _ :: _ :: _ => simp at few
  | false =>
    rw [if_neg (by rw [operation]; decide)] at misshapen
    have delimits : token.kind = .delimiter := by simp_all
    rw [evaluate_head env level (.inl operation), head, delimits]
    exact fails_throw _

theorem fails_of_not_wellShaped {tree : Node} (regular : ∀ node ∈ tree.nodes, node.Regular)
    (misshapen : tree.wellShaped = false) : Fails (evaluate env level tree) := by
  induction tree using Node.induction generalizing level with
  | step token left right before after =>
    obtain ⟨here, regularLeft, regularRight⟩ := Node.forall_nodes.mp regular
    have few := here.length_left_le
    rw [Node.wellShaped_eq, Bool.and_eq_false_iff, Bool.and_eq_false_iff, List.all_eq_false,
      List.all_eq_false] at misshapen
    rcases misshapen with misshapen | ⟨child, mem, misshapen⟩ | ⟨child, mem, misshapen⟩
    · exact fails_of_not_shaped few misshapen
    · rw [Bool.not_eq_true] at misshapen
      have below := @before child mem level (regularLeft child mem) misshapen
      cases here with
      | operation operation =>
        obtain rfl := Node.eq_singleton_of_mem few mem
        exact evaluate_left_fails operation below right
      | leaf | call => contradiction
    · rw [Bool.not_eq_true] at misshapen
      have below := @after child mem (level + 1) (regularRight child mem) misshapen
      cases here with
      | leaf => contradiction
      | operation operation _ fewRight =>
        obtain rfl := Node.eq_singleton_of_mem fewRight mem
        exact evaluate_right_fails operation few below
      | call named =>
        rw [evaluate_call named]
        have operand : evaluate env (level + 1) child ∈ right.map (evaluate env (level + 1)) :=
          List.mem_map_of_mem mem
        refine identifier_fails (fun empty => ?_) (.inl (fails_mapM operand below))
        rw [List.isEmpty_iff.mp empty] at operand
        contradiction

theorem failsOnly_answer {name : String} {arguments : List Float}
    (asked : FailsOnly allowed (env.resolve name arguments level))
    (unknown : ∀ s, ((env.resolve name arguments level).runFrom s).1 = .ok none →
      allowed (.unresolved name)) :
    FailsOnly allowed (answer env level name arguments) := by
  intro s failure fails
  rw [answer, runFrom_bind] at fails
  cases ends : (env.resolve name arguments level).runFrom s with
  | mk outcome s' =>
    rw [ends] at fails
    match outcome with
    | .error other =>
      obtain rfl : other = failure := Except.error.inj fails
      exact asked s other (by rw [ends])
    | .ok (some value) => contradiction
    | .ok none =>
      obtain rfl : .unresolved name = failure := Except.error.inj fails
      exact unknown s (by rw [ends])

/-- Whether a tree that is read fails for its shape can be seen from the tree, and a delimiter is
the only token that is ever misplaced in it. -/
theorem shape_decides {limit base : Nat} {text : String} {tree : Node}
    (found : Tree.read limit base text = .ok tree) :
    ((∀ name arguments l s, ∃ value,
        ((env.resolve name arguments l).runFrom s).1 = .ok (some value)) →
      (tree.wellShaped = true → ∀ s,
        (∃ value, ((evaluate env level tree).runFrom s).1 = .ok value) ∨
          ∃ value, ((evaluate env level tree).runFrom s).1 = .error (.operand "!" value)) ∧
      (tree.wellShaped = false → ∀ s value,
        ((evaluate env level tree).runFrom s).1 ≠ .ok value)) ∧
    ((∀ name arguments l s token,
        ((env.resolve name arguments l).runFrom s).1 ≠ .error (.misplaced token)) →
      ∀ s token, ((evaluate env level tree).runFrom s).1 = .error (.misplaced token) →
        token = ",") := by
  have built := Tree.regular_of_read found
  refine ⟨fun answers => ⟨fun wellShaped s => ?_, fun misshapen s value ends => ?_⟩,
    fun placed s token ends => ?_⟩
  · have shaped : ∀ node ∈ tree.nodes, node.shaped = true := List.all_eq_true.mp wellShaped
    have only : FailsOnly (fun failure => ∃ value, failure = .operand "!" value)
        (evaluate env level tree) := by
      refine failsOnly_evaluate (fun value => ⟨value, rfl⟩) built (fun node mem misfit => ?_)
        fun name arguments l => failsOnly_answer (fun s failure fails => ?_) fun s missing => ?_
      · rw [shaped node mem] at misfit
        contradiction
      · obtain ⟨value, given⟩ := answers name arguments l s
        rw [given] at fails
        contradiction
      · obtain ⟨value, given⟩ := answers name arguments l s
        rw [given] at missing
        cases missing
    cases ends : ((evaluate env level tree).runFrom s).1 with
    | ok value => exact .inl ⟨value, rfl⟩
    | error failure =>
      obtain ⟨value, rfl⟩ := only s failure ends
      exact .inr ⟨value, rfl⟩
  · have fails : Fails (evaluate env level tree) :=
      fails_of_not_wellShaped (fun node mem => (built node mem).1) misshapen
    obtain ⟨failure, ends'⟩ := fails s
    rw [ends] at ends'
    contradiction
  · have only : FailsOnly (fun failure => ∀ token, failure = .misplaced token → token = ",")
        (evaluate env level tree) := by
      refine failsOnly_evaluate (fun value token same => by contradiction) built
        (fun node mem misfit => ⟨fun expected found token same => by contradiction,
          fun token same => (Failure.misplaced.inj same).symm⟩)
        fun name arguments l => failsOnly_answer (fun s failure fails token same => ?_)
          fun s none token same => by contradiction
      exact absurd (same ▸ fails) (placed name arguments l s token)
    exact only s _ ends token rfl

theorem shape_decides_of_signs :
    let env : Environment (StateM Nat) := ⟨fun _ _ _ => do modify (· + 1); return some 1, 0⟩
    let signed (sign : String) : Node := ⟨⟨.operator, sign⟩, [], [⟨⟨.identifier, "x"⟩, [], []⟩]⟩
    (∀ s, (∃ value, ((evaluate env 0 (signed "-")).runFrom s).1 = .ok value) ∨
      ∃ value, ((evaluate env 0 (signed "-")).runFrom s).1 = .error (.operand "!" value)) ∧
    (∀ s value, ((evaluate env 0 (signed "+")).runFrom s).1 ≠ .ok value) ∧
    ∀ s token, ((evaluate env 0 (signed "+")).runFrom s).1 = .error (.misplaced token) →
      token = "," := by
  intro env signed
  have name : Token.WellFormed ⟨.identifier, String.ofList ['x']⟩ :=
    .identifier rfl (List.forall_mem_nil _)
  have printable (c : Char) (single : (TokenKind.ofChar c).isSingle = true)
      (operator : TokenKind.ofChar c = .operator) :
      Node.Printable (signed (String.singleton c)) := by
    have sign := Token.WellFormed.single single
    rw [operator] at sign
    exact .operation sign rfl (by decide) (by decide) (List.cons_ne_nil _ _)
      (List.forall_mem_nil _) (List.forall_mem_singleton.mpr (.leaf name (by decide)))
  have minus : Tree.read 2 0 (signed "-").display = .ok (signed "-") :=
    (printable '-' rfl rfl).read_display (by decide)
  have plus : Tree.read 2 0 (signed "+").display = .ok (signed "+") :=
    (printable '+' rfl rfl).read_display (by decide)
  have answers (text : String) (arguments : List Float) (l s : Nat) :
      ((env.resolve text arguments l).runFrom s).1 = .ok (some 1) := rfl
  refine ⟨(shape_decides minus).1 (fun text arguments l s => ⟨1, answers text arguments l s⟩) |>.1
    (by decide), (shape_decides plus).1 (fun text arguments l s => ⟨1, answers text arguments l s⟩)
    |>.2 (by decide), (shape_decides plus).2 fun text arguments l s token => ?_⟩
  rw [answers]
  exact nofun

end Evaluation

end Reckon
