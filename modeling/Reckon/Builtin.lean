import Reckon.Operation

/-!
The built-in functions. A name that is none of them is not an error, so that a scope can answer
it; a known name with a wrong number of arguments is. All of them are functions of their
arguments except `random`, whose number in `[0, 1)` the host draws.
-/

namespace Reckon.Builtin

def sign (x : Float) : Float :=
  if 0 < x then 1 else if x < 0 then -1 else x

def unary? (name : String) : Option (Float → Float) :=
  match name with
  | "abs" => some Float.abs
  | "frac" => some WholePart.fraction
  | "sqrt" => some Float.sqrt
  | "sin" => some Float.sin
  | "cos" => some Float.cos
  | "tan" => some Float.tan
  | "atan" => some Float.atan
  | "log" => some Float.log
  | "exp" => some Float.exp
  | "trunc" => some WholePart.truncate
  | "sign" => some sign
  | _ => none

/-- `result · base ^ exponent` by squaring, one multiplication for each binary digit that is 1. -/
def powerFrom (result base : Float) (exponent : Nat) : Float :=
  let result := if exponent % 2 = 1 then result * base else result
  if exponent / 2 = 0 then result else powerFrom result (base * base) (exponent / 2)
termination_by exponent

def powerOfTen (exponent : Int) : Float :=
  let power := powerFrom 1 10 exponent.natAbs
  if exponent < 0 then 1 / power else power

/-- Rounds to `digits` decimal places, halves away from zero; negative places are tens. -/
def roundTo (x digits : Float) : Float :=
  let factor := powerOfTen (WholePart.clamped Int32.minValue.toInt Int32.maxValue.toInt digits)
  WholePart.roundHalfAway (x * factor) / factor

/-- A number that is not NaN is larger than NaN. -/
def larger (x y : Float) : Float :=
  if x.isNaN || x < y then y else x

def smaller (x y : Float) : Float :=
  if x.isNaN || y < x then y else x

/-- Functions of one argument or more. The sum of nothing would be -0, the zero that changes no
number it is added to. -/
def variadic? (name : String) : Option (Float → List Float → Float) :=
  match name with
  | "max" => some fun first rest => rest.foldl larger first
  | "min" => some fun first rest => rest.foldl smaller first
  | "sum" => some fun first rest => (first :: rest).foldl (· + ·) (-0.0)
  | "and" => some fun first rest => Operation.flag ((first :: rest).all (· != 0))
  | "or" => some fun first rest => Operation.flag ((first :: rest).any (· != 0))
  | _ => none

def apply (name : String) (arguments : List Float) : Except Failure (Option Float) :=
  let fail := fun expected => .error (.arity name expected arguments.length)
  match unary? name, variadic? name with
  | some f, _ =>
    match arguments with
    | [x] => .ok (some (f x))
    | _ => fail .oneArgument
  | none, some f =>
    match arguments with
    | first :: rest => .ok (some (f first rest))
    | [] => fail .someArguments
  | none, none =>
    match name with
    | "mod" =>
      match arguments with
      | [x, y] => .ok (some (WholePart.remainder x y))
      | _ => fail .twoArguments
    | "if" =>
      match arguments with
      | [condition, yes, no] => .ok (some (if condition != 0 then yes else no))
      | _ => fail .threeArguments
    | "round" =>
      match arguments with
      | [x] => .ok (some (roundTo x 2))
      | [x, digits] => .ok (some (roundTo x digits))
      | _ => fail .oneOrTwoArguments
    | _ => .ok none

variable {m : Type → Type} [Monad m]

def call (random : m Float) (name : String) (arguments : List Float) :
    Outcome m (Option Float) :=
  if name = "random" then
    match arguments with
    | [] => ExceptT.mk (do return .ok (some (← random)))
    | _ => throw (.arity name .noArguments arguments.length)
  else Outcome.ofExcept (apply name arguments)

end Reckon.Builtin
