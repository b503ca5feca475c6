import Reckon.Failure
import Reckon.Token
import Reckon.Number.WholePart

/-!
Operations on doubles, by the text of their token. Truth values are the numbers 1 and 0: an
operand of a boolean operation is true when it equals 1, and `flag` writes a truth value. An
operation applied to its left operand has that operand computed already, and computes the right
one only when its number of operands is right.
-/

namespace Reckon.Operation

variable {m : Type → Type} [Monad m]

def flag (truth : Bool) : Float :=
  if truth then 1 else 0

def arithmetic? (operator : String) (left right : Float) : Option Float :=
  match operator with
  | "+" => some (left + right)
  | "-" => some (left - right)
  | "*" => some (left * right)
  | "/" => some (left / right)
  | "^" => some (left.pow right)
  | "%" => some (WholePart.remainder left right)
  | _ => none

def relational (operator : String) (left right : Float) : Bool :=
  match operator with
  | "<" => left < right
  | ">" => right < left
  | "<=" => left ≤ right
  | ">=" => right ≤ left
  | "<>" => left != right
  | _ => left == right

def boolean (operator : String) (left right : Float) : Bool :=
  match operator with
  | "&" => left == 1 && right == 1
  | "|" => left == 1 || right == 1
  | _ => (left == 1) != (right == 1)

/-- The product `1 · 2 · 3 ⋯ n`, computed in this order; it is infinite beyond 170. -/
def factorial (x : Float) : Except Failure Float :=
  if x < 0 || WholePart.fraction x != 0 || x.isNaN then .error (.operand "!" x)
  else if 170 < x then .ok Double.infinity
  else .ok ((List.range (WholePart.size x)).foldl (fun product k => product * Float.ofNat (k + 1)) 1)

def arityFailure (operator : String) (found : Nat) : Failure :=
  let expected := match operator with
    | "!" => .leftOperand
    | "~" => .rightOperand
    | "-" => .rightOrBothOperands
    | _ => .bothOperands
  .arity operator expected found

def applyPrefixed (token : Token) (leftCount : Nat) (operands : List (Outcome m Float)) :
    Outcome m Float :=
  match token.text, leftCount, operands with
  | "-", 0, [operand] => return -(← operand)
  | "~", 0, [operand] => return flag (WholePart.truncate (← operand) != 1)
  | _, _, _ => throw (arityFailure token.text (leftCount + operands.length))

def applyToLeft (token : Token) (operands : List (Outcome m Float)) (left : Float) :
    Outcome m Float :=
  match token.text, operands with
  | "!", [] => Outcome.ofExcept (factorial left)
  | "!", _ | "~", _ => throw (arityFailure token.text (1 + operands.length))
  | operator, [operand] => do
    let right ← operand
    match token.kind with
    | .relational => return flag (relational operator left right)
    | .boolean => return flag (boolean operator left right)
    | _ =>
      match arithmetic? operator left right with
      | some value => return value
      | none => throw (.misplaced operator)
  | operator, _ => throw (arityFailure operator (1 + operands.length))

end Reckon.Operation
