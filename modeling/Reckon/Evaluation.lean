import Reckon.Operation
import Reckon.Text.Name
import Reckon.Tree.Node

/-!
The value of an expression tree. Names are answered by a resolver, which is told the values of
the arguments and the level of the node. The evaluator walks down the left spine of a tree,
keeping the operations that wait for their left operand, takes the value of the node at its end,
and then applies the waiting operations from the innermost outward. A right operand and an
argument are one level below the node they belong to.
-/

namespace Reckon

/-- Answers a name applied to arguments at a level; `none` says that the name is not known. -/
abbrev Resolver (m : Type → Type) :=
  String → List Float → Nat → Outcome m (Option Float)

structure Environment (m : Type → Type) where
  resolve : Resolver m
  previous : Float

namespace Evaluation

variable {m : Type → Type} [Monad m]

def literal? (name : String) : Option Float :=
  match name with
  | "true" => some 1
  | "false" => some 0
  | _ => none

/-- An identifier's arguments are computed left to right before the resolver is asked. -/
def identifier (env : Environment m) (level : Nat) (text : String) (isLeaf : Bool)
    (operands : List (Outcome m Float)) : Outcome m Float :=
  let name := Text.normalName text
  match isLeaf, literal? name with
  | true, some value => return value
  | _, _ => do
    let arguments ← operands.mapM id
    match ← env.resolve name arguments level with
    | some value => return value
    | none => throw (.unresolved name)

def head (env : Environment m) (level : Nat) (token : Token) (leftCount : Nat)
    (operands : List (Outcome m Float)) : Outcome m Float :=
  match token.kind with
  | .previous => return env.previous
  | .number =>
    match Decimal.read? token.text with
    | some value => return value
    | none => throw (.misplaced token.text)
  | .identifier => identifier env level token.text (leftCount = 0 && operands.isEmpty) operands
  | .operator => Operation.applyPrefixed token leftCount operands
  | .relational | .boolean =>
    throw (Operation.arityFailure token.text (leftCount + operands.length))
  | .opening | .closing | .delimiter | .invalid => throw (.misplaced token.text)

/-- An operation of the left spine, with its right operands still to be computed. -/
structure Waiting (m : Type → Type) where
  token : Token
  operands : List (Outcome m Float)

def applyWaiting (waiting : List (Waiting m)) (value : Float) : Outcome m Float :=
  waiting.foldlM (fun left w => Operation.applyToLeft w.token w.operands left) value

mutual

/-- Walks down the left spine below the operations in `waiting`, innermost first. -/
def walk (env : Environment m) (level : Nat) (waiting : List (Waiting m)) :
    Node → Outcome m Float
  | ⟨token, [left], right⟩ =>
    let operands := operandsOf env (level + 1) right
    if token.kind.isOperation then walk env level (⟨token, operands⟩ :: waiting) left
    else head env level token 1 operands >>= applyWaiting waiting
  | ⟨token, [], right⟩ =>
    head env level token 0 (operandsOf env (level + 1) right) >>= applyWaiting waiting
  | ⟨token, _ :: _ :: more, right⟩ =>
    head env level token (more.length + 2) (operandsOf env (level + 1) right) >>=
      applyWaiting waiting

def operandsOf (env : Environment m) (level : Nat) : List Node → List (Outcome m Float)
  | [] => []
  | node :: nodes => walk env level [] node :: operandsOf env level nodes

end

def evaluate (env : Environment m) (level : Nat) (node : Node) : Outcome m Float :=
  walk env level [] node

theorem operandsOf_eq_map (env : Environment m) (level : Nat) (nodes : List Node) :
    operandsOf env level nodes = nodes.map (evaluate env level) := by
  induction nodes with
  | nil => rfl
  | cons node nodes ih => rw [operandsOf, ih, List.map_cons, evaluate]

end Evaluation

end Reckon
