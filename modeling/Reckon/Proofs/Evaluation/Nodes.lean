import Reckon.Evaluation

/-!
Evaluation node by node. The walk down the left spine gives the value that plain recursion gives:
an operation with one left child is applied to the value of that child, and every other node
decides for itself what to do with its right children, one level below it. What an operation does
depends only on its token, the number of its operands and their values.
-/

namespace Reckon

namespace Operation

variable {m : Type → Type} [Monad m] (token : Token) (left : Float)

def prefixed? (sign : String) : Option (Float → Float) :=
  match sign with
  | "-" => some fun x => -x
  | "~" => some fun x => flag (WholePart.truncate x != 1)
  | _ => none

theorem applyPrefixed_one (operand : Outcome m Float) :
    applyPrefixed token 0 [operand] = match prefixed? token.text with
      | some sign => do return sign (← operand)
      | none => throw (arityFailure token.text 1) := by
  unfold applyPrefixed prefixed?
  split <;> simp_all

theorem applyPrefixed_other {leftCount : Nat} {operands : List (Outcome m Float)}
    (other : leftCount ≠ 0 ∨ operands.length ≠ 1) :
    applyPrefixed token leftCount operands =
      throw (arityFailure token.text (leftCount + operands.length)) := by
  unfold applyPrefixed
  split <;> simp_all

def binary (left right : Float) : Except Failure Float :=
  match token.kind with
  | .relational => .ok (flag (relational token.text left right))
  | .boolean => .ok (flag (boolean token.text left right))
  | _ =>
    match arithmetic? token.text left right with
    | some value => .ok value
    | none => .error (.misplaced token.text)

theorem applyToLeft_nil :
    applyToLeft token ([] : List (Outcome m Float)) left =
      if token.text = "!" then Outcome.ofExcept (factorial left)
      else throw (arityFailure token.text 1) := by
  unfold applyToLeft
  split <;> simp_all

theorem applyToLeft_one (operand : Outcome m Float) :
    applyToLeft token [operand] left =
      if token.text = "!" ∨ token.text = "~" then throw (arityFailure token.text 2)
      else operand >>= fun right => Outcome.ofExcept (binary token left right) := by
  have value : ∀ right : Float, (match token.kind with
      | .relational => return flag (relational token.text left right)
      | .boolean => return flag (boolean token.text left right)
      | _ =>
        match arithmetic? token.text left right with
        | some value => return value
        | none => throw (.misplaced token.text)) =
      (Outcome.ofExcept (binary token left right) : Outcome m Float) := by
    intro right
    unfold binary
    cases token.kind <;> first | rfl | cases arithmetic? token.text left right <;> rfl
  by_cases alone : token.text = "!" ∨ token.text = "~"
  · rw [if_pos alone]
    cases alone with
    | inl factorial => simp [applyToLeft, factorial]
    | inr negation => simp [applyToLeft, negation]
  · rw [if_neg alone]
    rw [not_or] at alone
    unfold applyToLeft
    split
    case h_4 same _ _ =>
      obtain rfl := List.singleton_inj.mp same
      exact congrArg _ (funext value)
    all_goals simp_all

theorem applyToLeft_more {operands : List (Outcome m Float)} (several : 1 < operands.length) :
    applyToLeft token operands left =
      throw (arityFailure token.text (1 + operands.length)) := by
  unfold applyToLeft
  split <;> simp_all

end Operation

namespace Evaluation

variable {m : Type → Type} [Monad m] (env : Environment m) (level : Nat)

theorem walk_spine {token : Token} (operation : token.kind.isOperation = true)
    (waiting : List (Waiting m)) (left : Node) (right : List Node) :
    walk env level waiting ⟨token, [left], right⟩ =
      walk env level (⟨token, operandsOf env (level + 1) right⟩ :: waiting) left := by
  rw [walk, if_pos operation]

theorem literal?_eq_none {name : String} (free : name ∉ ["true", "false"]) :
    literal? name = none := by
  unfold literal?
  split <;> simp_all

theorem identifier_asked (text : String) (operands : List (Outcome m Float)) :
    identifier env level text false operands = (do
      let arguments ← operands.mapM id
      match ← env.resolve (Text.normalName text) arguments level with
      | some value => return value
      | none => throw (.unresolved (Text.normalName text))) := by
  unfold identifier
  generalize Text.normalName text = name
  rfl

def answer (name : String) (arguments : List Float) : Outcome m Float := do
  match ← env.resolve name arguments level with
  | some value => return value
  | none => throw (.unresolved name)

theorem identifier_answer (text : String) (operands : List (Outcome m Float)) :
    identifier env level text false operands =
      operands.mapM id >>= answer env level (Text.normalName text) :=
  identifier_asked env level text operands

theorem identifier_literal {text : String} {value : Float}
    (literal : literal? (Text.normalName text) = some value) (operands : List (Outcome m Float)) :
    identifier env level text true operands = pure value := by
  unfold identifier
  simp only [literal]

theorem identifier_free {text : String} (free : literal? (Text.normalName text) = none)
    (operands : List (Outcome m Float)) :
    identifier env level text true operands = identifier env level text false operands := by
  unfold identifier
  simp only [free]

theorem walk_head {token : Token} {left : List Node}
    (last : token.kind.isOperation = false ∨ left.length ≠ 1) (waiting : List (Waiting m))
    (right : List Node) :
    walk env level waiting ⟨token, left, right⟩ =
      head env level token left.length (operandsOf env (level + 1) right) >>=
        applyWaiting waiting := by
  match left with
  | [] => rw [walk, List.length_nil]
  | [left] =>
    cases last with
    | inl other => rw [walk, if_neg (by rw [other]; decide), List.length_singleton]
    | inr several => exact absurd rfl several
  | _ :: _ :: more => rw [walk, List.length_cons, List.length_cons]

@[simp] theorem applyWaiting_nil : applyWaiting ([] : List (Waiting m)) = pure := by
  funext value
  rw [applyWaiting, List.foldlM_nil]

@[simp] theorem applyWaiting_cons (first : Waiting m) (waiting : List (Waiting m)) :
    applyWaiting (first :: waiting) = fun value =>
      Operation.applyToLeft first.token first.operands value >>= applyWaiting waiting := by
  funext value
  rw [applyWaiting, List.foldlM_cons]
  rfl

variable [LawfulMonad m]

theorem walk_eq (waiting : List (Waiting m)) (node : Node) :
    walk env level waiting node = evaluate env level node >>= applyWaiting waiting := by
  match node with
  | ⟨token, left, right⟩ =>
    by_cases spine : token.kind.isOperation = true ∧ left.length = 1
    · obtain ⟨operation, single⟩ := spine
      obtain ⟨left, rfl⟩ := List.length_eq_one_iff.mp single
      have below := walk_eq (⟨token, operandsOf env (level + 1) right⟩ :: waiting) left
      have alone := walk_eq [⟨token, operandsOf env (level + 1) right⟩] left
      rw [evaluate, walk_spine env level operation, walk_spine env level operation, below, alone]
      simp only [applyWaiting_cons, applyWaiting_nil, bind_pure, bind_assoc]
    · have last : token.kind.isOperation = false ∨ left.length ≠ 1 := by
        rwa [Classical.not_and_iff_not_or_not, Bool.not_eq_true] at spine
      rw [evaluate, walk_head env level last, walk_head env level last, applyWaiting_nil, bind_pure]

theorem evaluate_spine {token : Token} (operation : token.kind.isOperation = true) (left : Node)
    (right : List Node) :
    evaluate env level ⟨token, [left], right⟩ =
      evaluate env level left >>=
        Operation.applyToLeft token (right.map (evaluate env (level + 1))) := by
  rw [evaluate, walk_spine env level operation, walk_eq, operandsOf_eq_map]
  simp only [applyWaiting_cons, applyWaiting_nil, bind_pure]

theorem evaluate_head {token : Token} {left : List Node}
    (last : token.kind.isOperation = false ∨ left.length ≠ 1) (right : List Node) :
    evaluate env level ⟨token, left, right⟩ =
      head env level token left.length (right.map (evaluate env (level + 1))) := by
  rw [evaluate, walk_head env level last, operandsOf_eq_map, applyWaiting_nil, bind_pure]

end Evaluation

end Reckon
