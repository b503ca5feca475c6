import Reckon.Proofs.Evaluation.Operands
import Reckon.Proofs.Evaluation.Simulation
import Reckon.Proofs.Tree.Display

/-!
Evaluation by plain recursion. The recursion computes operands one after the other, in the order in
which they stand, and hands their values on; no operation waits and no spine is walked. The walk has
its values and its failures for every tree that can be written down, and asks its host the same
questions in the same order, each at the level of the node that asks.
-/

namespace Reckon

namespace Operation

def apply (token : Token) (left right : List Float) : Except Failure Float :=
  match left, right with
  | [], [operand] =>
    match prefixed? token.text with
    | some sign => .ok (sign operand)
    | none => .error (arityFailure token.text 1)
  | [operand], [] => factorial operand
  | [first], [second] => binary token first second
  | _, _ => .error (arityFailure token.text (left.length + right.length))

end Operation

namespace Evaluation

variable {m : Type → Type} [Monad m]

/-- The value of a node that is no operation with one left child. Its right children have
`arguments` for values, which are computed only where they are called for. -/
def headValue (env : Environment m) (level : Nat) (token : Token) (leftCount rightCount : Nat)
    (arguments : Outcome m (List Float)) : Outcome m Float :=
  match token.kind with
  | .previous => return env.previous
  | .number =>
    match Decimal.read? token.text with
    | some value => return value
    | none => throw (.misplaced token.text)
  | .identifier =>
    match leftCount + rightCount, literal? (Text.normalName token.text) with
    | 0, some value => return value
    | _, _ => do answer env level (Text.normalName token.text) (← arguments)
  | .operator =>
    if leftCount = 0 ∧ Operation.takes token.text 0 rightCount then do
      Outcome.ofExcept (Operation.apply token [] (← arguments))
    else throw (Operation.arityFailure token.text (leftCount + rightCount))
  | .relational | .boolean =>
    throw (Operation.arityFailure token.text (leftCount + rightCount))
  | .opening | .closing | .delimiter | .invalid => throw (.misplaced token.text)

mutual

def value (env : Environment m) (level : Nat) : Node → Outcome m Float
  | ⟨token, [left], right⟩ =>
    if token.kind.isOperation then do
      let first ← value env level left
      if Operation.takes token.text 1 right.length then
        Outcome.ofExcept (Operation.apply token [first] (← values env (level + 1) right))
      else throw (Operation.arityFailure token.text (1 + right.length))
    else headValue env level token 1 right.length (values env (level + 1) right)
  | ⟨token, [], right⟩ =>
    headValue env level token 0 right.length (values env (level + 1) right)
  | ⟨token, _ :: _ :: more, right⟩ =>
    headValue env level token (more.length + 2) right.length (values env (level + 1) right)

def values (env : Environment m) (level : Nat) : List Node → Outcome m (List Float)
  | [] => return []
  | node :: nodes => do
    let first ← value env level node
    return first :: (← values env level nodes)

end

theorem value_head (env : Environment m) (level : Nat) {token : Token} {left : List Node}
    (last : token.kind.isOperation = false ∨ left.length ≠ 1) (right : List Node) :
    value env level ⟨token, left, right⟩ =
      headValue env level token left.length right.length (values env (level + 1) right) := by
  match left with
  | [] => rw [value, List.length_nil]
  | [left] =>
    cases last with
    | inl other => rw [value, if_neg (by rw [other]; decide), List.length_singleton]
    | inr several => exact absurd rfl several
  | _ :: _ :: more => rw [value, List.length_cons, List.length_cons]

variable [LawfulMonad m]

theorem values_eq (env : Environment m) (level : Nat) {nodes : List Node}
    (each : ∀ node ∈ nodes, evaluate env level node = value env level node) :
    (nodes.map (evaluate env level)).mapM id = values env level nodes := by
  induction nodes with
  | nil => rw [List.map_nil, List.mapM_nil, values]
  | cons node nodes ih =>
    rw [List.forall_mem_cons] at each
    rw [List.map_cons, List.mapM_cons, ih each.2, values, id, each.1]

theorem applyToLeft_eq (env : Environment m) (level : Nat) {token : Token} {right : List Node}
    (each : ∀ node ∈ right, evaluate env level node = value env level node) (first : Float) :
    Operation.applyToLeft token (right.map (evaluate env level)) first =
      if Operation.takes token.text 1 right.length then do
        Outcome.ofExcept (Operation.apply token [first] (← values env level right))
      else throw (Operation.arityFailure token.text (1 + right.length)) := by
  cases fit : Operation.takes token.text 1 right.length with
  | false =>
    rw [← List.length_map (evaluate env level)] at fit
    rw [Operation.applyToLeft_of_not_takes fit, List.length_map, if_neg Bool.false_ne_true]
  | true =>
    rw [if_pos rfl]
    match right with
    | [] =>
      rw [List.map_nil, Operation.applyToLeft_nil, if_pos (Operation.eq_factorial_of_takes fit),
        values, pure_bind, Operation.apply]
    | [node] =>
      have binary : ¬ (token.text = "!" ∨ token.text = "~") := by
        rintro (text | text) <;> rw [text] at fit <;> contradiction
      rw [List.map_singleton, Operation.applyToLeft_one, if_neg binary,
        each node List.mem_cons_self]
      simp only [values, pure_bind, bind_assoc, Operation.apply]
    | _ :: _ :: _ =>
      have count := Operation.count_of_takes fit
      simp at count

theorem applyPrefixed_eq (env : Environment m) (level : Nat) {token : Token} (leftCount : Nat)
    {right : List Node}
    (each : ∀ node ∈ right, evaluate env level node = value env level node) :
    Operation.applyPrefixed token leftCount (right.map (evaluate env level)) =
      if leftCount = 0 ∧ Operation.takes token.text 0 right.length then do
        Outcome.ofExcept (Operation.apply token [] (← values env level right))
      else throw (Operation.arityFailure token.text (leftCount + right.length)) := by
  by_cases fit : leftCount = 0 ∧ Operation.takes token.text 0 right.length = true
  · rw [if_pos fit]
    obtain ⟨rfl, fit⟩ := fit
    have single : right.length = 1 := by
      have count := Operation.count_of_takes fit
      omega
    obtain ⟨node, rfl⟩ := List.length_eq_one_iff.mp single
    have known : (Operation.prefixed? token.text).isSome = true := by
      rwa [Operation.isSome_prefixed]
    obtain ⟨sign, known⟩ := Option.isSome_iff_exists.mp known
    rw [List.map_singleton, Operation.applyPrefixed_one, each node List.mem_cons_self, known]
    simp only [values, pure_bind, bind_assoc, Operation.apply, known]
    rfl
  · rw [if_neg fit]
    by_cases leading : leftCount = 0
    · subst leading
      have misfit :
          Operation.takes token.text 0 (right.map (evaluate env level)).length = false := by
        rw [List.length_map]
        simpa using fit
      rw [Operation.applyPrefixed_of_not_takes misfit, List.length_map]
    · rw [Operation.applyPrefixed_other token (.inl leading), List.length_map]

theorem identifier_eq (env : Environment m) (level : Nat) {token : Token} (leftCount : Nat)
    {right : List Node} (named : token.kind = .identifier)
    (each : ∀ node ∈ right, evaluate env (level + 1) node = value env (level + 1) node) :
    identifier env level token.text
      (leftCount = 0 && (right.map (evaluate env (level + 1))).isEmpty)
      (right.map (evaluate env (level + 1))) =
    headValue env level token leftCount right.length (values env (level + 1) right) := by
  have asked : identifier env level token.text false (right.map (evaluate env (level + 1))) =
      values env (level + 1) right >>= answer env level (Text.normalName token.text) := by
    rw [identifier_answer, values_eq env (level + 1) each]
  unfold headValue
  rw [named]
  by_cases alone : leftCount + right.length = 0
  · obtain ⟨rfl, empty⟩ := Nat.add_eq_zero_iff.mp alone
    obtain rfl := List.eq_nil_of_length_eq_zero empty
    cases literal : literal? (Text.normalName token.text) with
    | some value => exact identifier_literal env level literal _
    | none => exact (identifier_free env level literal _).trans asked
  · have notLeaf : (decide (leftCount = 0) && (right.map (evaluate env (level + 1))).isEmpty) =
        false := by
      rw [Bool.and_eq_false_iff, decide_eq_false_iff_not, List.isEmpty_eq_false_iff, ne_eq,
        List.map_eq_nil_iff, ← List.length_eq_zero_iff]
      omega
    obtain ⟨count, more⟩ := Nat.exists_eq_succ_of_ne_zero alone
    rw [notLeaf, asked, more]
    rfl

theorem head_eq (env : Environment m) (level : Nat) {token : Token} (leftCount : Nat)
    {right : List Node}
    (each : ∀ node ∈ right, evaluate env (level + 1) node = value env (level + 1) node) :
    head env level token leftCount (right.map (evaluate env (level + 1))) =
      headValue env level token leftCount right.length (values env (level + 1) right) := by
  cases kind : token.kind with
  | identifier =>
    rw [← identifier_eq env level leftCount kind each, head, kind]
  | operator =>
    rw [head, headValue, kind]
    exact applyPrefixed_eq env (level + 1) leftCount each
  | number =>
    cases found : Decimal.read? token.text <;> simp only [head, headValue, kind, found]
  | relational | boolean => rw [head, headValue, kind, List.length_map]
  | previous | opening | closing | delimiter | invalid => rw [head, headValue, kind]

theorem evaluate_eq_value (env : Environment m) (level : Nat) (node : Node) :
    evaluate env level node = value env level node := by
  induction node using Node.induction generalizing level with
  | step token left right before after =>
    by_cases spine : token.kind.isOperation = true ∧ left.length = 1
    · obtain ⟨operation, single⟩ := spine
      obtain ⟨child, rfl⟩ := List.length_eq_one_iff.mp single
      rw [evaluate_spine env level operation, value, if_pos operation,
        before child List.mem_cons_self level]
      refine congrArg _ (funext fun first => ?_)
      exact applyToLeft_eq env (level + 1) (fun node mem => after node mem (level + 1)) first
    · have last : token.kind.isOperation = false ∨ left.length ≠ 1 := by
        rwa [Classical.not_and_iff_not_or_not, Bool.not_eq_true] at spine
      rw [evaluate_head env level last, value_head env level last]
      exact head_eq env level left.length fun node mem => after node mem (level + 1)

end Evaluation

structure Query where
  name : String
  arguments : List Float
  level : Nat

namespace Environment

variable {σ : Type}

/-- The environment whose resolver notes every query before it is answered. -/
def noting (env : Environment (StateM σ)) : Environment (StateM (σ × List Query)) where
  resolve name arguments level := ExceptT.mk fun (s, queries) =>
    let (outcome, after) := (env.resolve name arguments level).runFrom s
    (outcome, after, queries ++ [⟨name, arguments, level⟩])
  previous := env.previous

end Environment

/-- The outcome that notes queries is the outcome, and the queries it adds are of one sort. -/
def Simulation.noting (σ : Type) (sort : Query → Prop) :
    Simulation (StateM (σ × List Query)) (StateM σ) where
  Rel x y := ∀ s queries, ∃ more, (∀ query ∈ more, sort query) ∧
    x.runFrom (s, queries) = ((y.runFrom s).1, (y.runFrom s).2, queries ++ more)
  pure _ s queries := ⟨[], List.forall_mem_nil _, by rw [List.append_nil]; rfl⟩
  throw _ s queries := ⟨[], List.forall_mem_nil _, by rw [List.append_nil]; rfl⟩
  bind := by
    intro α β x y f g first later s queries
    obtain ⟨more, sorted, ran⟩ := first s queries
    rw [Outcome.runFrom_bind, Outcome.runFrom_bind, ran]
    cases y.runFrom s with
    | mk outcome s =>
      cases outcome with
      | error failure => exact ⟨more, sorted, rfl⟩
      | ok a =>
        obtain ⟨further, sorted', ran'⟩ := later a s (queries ++ more)
        refine ⟨more ++ further, List.forall_mem_append.mpr ⟨sorted, sorted'⟩, ?_⟩
        rw [← List.append_assoc]
        exact ran'

namespace Evaluation

variable {σ : Type}

theorem noting_evaluate (env : Environment (StateM σ)) (level : Nat) (node : Node) :
    (Simulation.noting σ (·.level ∈ node.levels level)).Rel (evaluate env.noting level node)
      (evaluate env level node) := by
  refine Simulation.evaluate _ node rfl fun l mem name arguments s queries => ?_
  exact ⟨[⟨name, arguments, l⟩], List.forall_mem_singleton.mpr mem, rfl⟩

/-- The walk down the spine refines plain recursion: it has the same outcomes in every host, it asks
the same queries in the same order, and it asks them at the levels of the tree, which stay under the
limit if the tree was read with one. -/
theorem evaluate_refines (node : Node) (level : Nat) :
    (∀ (m : Type → Type) [Monad m] [LawfulMonad m] (env : Environment m),
      evaluate env level node = value env level node) ∧
    ∀ (σ : Type) (env : Environment (StateM σ)) (s : σ), ∃ queries outcome after,
      (evaluate env level node).runFrom s = (outcome, after) ∧
      (value env level node).runFrom s = (outcome, after) ∧
      (evaluate env.noting level node).runFrom (s, []) = (outcome, after, queries) ∧
      (value env.noting level node).runFrom (s, []) = (outcome, after, queries) ∧
      (∀ query ∈ queries, query.level ∈ node.levels level) ∧
      ∀ limit text, Tree.read limit level text = .ok node →
        ∀ query ∈ queries, level ≤ query.level ∧ query.level < limit := by
  refine ⟨fun m _ _ env => evaluate_eq_value env level node, fun σ env s => ?_⟩
  obtain ⟨queries, levels, ran⟩ := noting_evaluate env level node s []
  refine ⟨queries, _, _, rfl, ?_, ran, ?_, levels, fun limit text found query mem => ?_⟩
  · rw [← evaluate_eq_value env level node]
    rfl
  · rw [← evaluate_eq_value env.noting level node]
    exact ran
  · exact Tree.bounds_of_read found (levels query mem)

theorem evaluate_refines_of_call :
    let env : Environment (StateM Nat) := ⟨fun _ _ _ => do modify (· + 1); return some 1, 0⟩
    let call : Node := ⟨⟨.identifier, "f"⟩, [], [⟨⟨.identifier, "x"⟩, [], []⟩]⟩
    evaluate env 0 call = value env 0 call ∧
      ∃ queries : List Query,
        ((evaluate env.noting 0 call).runFrom (0, [])).2.2 = queries ∧
        ((value env.noting 0 call).runFrom (0, [])).2.2 = queries ∧
        ∀ query ∈ queries, 0 ≤ query.level ∧ query.level < 2 := by
  intro env call
  have name (first : Char) (letter : first.isAlpha = true) :
      Token.WellFormed ⟨.identifier, String.ofList [first]⟩ :=
    .identifier letter (List.forall_mem_nil _)
  have printable : call.Printable := .call (name 'f' rfl) rfl (List.cons_ne_nil _ _)
    (List.forall_mem_singleton.mpr (.leaf (name 'x' rfl) (by decide)))
  have found : Tree.read 2 0 call.display = .ok call := printable.read_display (by decide)
  obtain ⟨queries, outcome, after, -, -, walked, computed, -, bounded⟩ :=
    (evaluate_refines call 0).2 Nat env 0
  refine ⟨(evaluate_refines call 0).1 (StateM Nat) env, queries, ?_, ?_,
    bounded 2 call.display found⟩
  · rw [walked]
  · rw [computed]

end Evaluation

end Reckon
