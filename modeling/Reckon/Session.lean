import Reckon.Scope
import Reckon.Statement

/-!
A session holds statements and everything they may refer to. A pass runs the statements in order:
it starts from the host's bindings and the previous value 0, keeps what the statements assign
until its end, and results in the value of the last statement, or 0 without one. Nothing of a
pass remains but, when it succeeds, the last value.
-/

namespace Reckon

structure Session (m : Type → Type) where
  statements : List String
  bindings : VariableTable
  functions : FunctionTable
  host : Host m
  order : Order
  maxDepth : Nat
  lastValue : Float

namespace Session

variable {m : Type → Type}

def start (random : m Float) : Session m where
  statements := []
  bindings := .empty
  functions := .empty
  host := ⟨[], random⟩
  order := .internalFirst
  maxDepth := Tree.defaultMaxDepth
  lastValue := 0

/-- The failure of a malformed entry comes with the session that keeps the entries before it. -/
def addVariables (session : Session m) (entries : Entries) : Session m × Option Failure :=
  let (bindings, failure) := session.bindings.load entries.toList
  ({ session with bindings }, failure)

def setVariables (session : Session m) (bindings : List (String × Float)) : Session m :=
  { session with bindings := session.bindings.setAll bindings }

def setVariable (session : Session m) (name : String) (value : Float) : Session m :=
  { session with bindings := session.bindings.set name value }

def clearVariables (session : Session m) : Session m :=
  { session with bindings := .empty }

def addFunctions (session : Session m) (entries : Entries) : Session m :=
  { session with functions := session.functions.add entries }

def clearFunctions (session : Session m) : Session m :=
  { session with functions := .empty }

def addCallback (session : Session m) (callback : Callback m) : Session m :=
  { session with
    host := { session.host with callbacks := session.host.callbacks ++ [callback] } }

def clearCallbacks (session : Session m) : Session m :=
  { session with host := { session.host with callbacks := [] } }

def setOrder (session : Session m) (order : Order) : Session m :=
  { session with order }

def setMaxDepth (session : Session m) (maxDepth : Nat) : Session m :=
  { session with maxDepth }

def setText (session : Session m) (entries : Entries) : Session m :=
  { session with statements := entries.toList }

def text (session : Session m) : String :=
  Text.join Entries.separator session.statements

structure Progress where
  values : VariableTable
  previous : Float

def scope (session : Session m) (progress : Progress) : Scope m where
  values := progress.values
  functions := session.functions
  host := session.host
  order := session.order
  previous := progress.previous
  maxDepth := session.maxDepth

variable [Monad m]

def step (session : Session m) (progress : Progress) (statement : String) :
    Outcome m Progress :=
  if Statement.isBlank statement then return progress
  else do
    let (target, formula) ← Outcome.ofExcept (Statement.read statement)
    match Tree.read session.maxDepth 0 formula with
    | .error error => throw (.read error)
    | .ok tree =>
      let scope := session.scope progress
      let value ← Evaluation.evaluate ⟨scope.resolve, progress.previous⟩ 0 tree
      match target with
      | some name => return ⟨progress.values.set name value, value⟩
      | none => return ⟨progress.values, value⟩

def pass (session : Session m) : Outcome m Float := do
  let progress ← session.statements.foldlM session.step ⟨session.bindings, 0⟩
  return progress.previous

def value (session : Session m) : m (Except Failure Float × Session m) := do
  match ← ExceptT.run session.pass with
  | .ok value => return (.ok value, { session with lastValue := value })
  | .error failure => return (.error failure, session)

def evaluate (session : Session m) (text : String) : m (Except Failure Float × Session m) :=
  (session.setText (.text text)).value

def truth (value : Float) : Bool :=
  value != 0

/-- The whole part, at most the largest and at least the smallest 64-bit integer; NaN is 0. -/
def integer (value : Float) : Int :=
  WholePart.clamped Int64.minValue.toInt Int64.maxValue.toInt value

/-- Whole numbers below `10 ^ 15` in size are written as integers, where -0 is 0. -/
def describe (value : Float) : String :=
  if WholePart.fraction value == 0 && value.abs < 1000000000000000 then
    toString (integer value)
  else Layout.plain value

def asBool (session : Session m) : m (Except Failure Bool × Session m) := do
  let (outcome, session) ← session.value
  return (outcome.map truth, session)

def asInt (session : Session m) : m (Except Failure Int × Session m) := do
  let (outcome, session) ← session.value
  return (outcome.map integer, session)

def asText (session : Session m) : m (Except Failure String × Session m) := do
  let (outcome, session) ← session.value
  return (outcome.map describe, session)

end Session

end Reckon
