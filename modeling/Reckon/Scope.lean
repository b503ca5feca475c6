import Reckon.Builtin
import Reckon.FunctionTable
import Reckon.VariableTable

/-!
The scope of a pass: who answers a name. Variables come before functions, and the built-in
functions come last; the host's callbacks are asked either behind the functions or in front of
the variables. The body of a function is evaluated in the same scope, below its own parameters.

`answer` is one step of this: it takes the scope that called bodies ask as an argument. `resolver`
closes the loop for a number of calls one inside the other, and `resolve` for as many as the
nesting limit leaves room for, each call costing `callCost` levels of it.
-/

namespace Reckon

inductive Order where
  | internalFirst
  | hostFirst
  deriving DecidableEq, Repr

/-- A host's answer to a name applied to arguments; `none` passes the question on. -/
abbrev Callback (m : Type → Type) :=
  String → List Float → m (Option Float)

structure Host (m : Type → Type) where
  callbacks : List (Callback m)
  random : m Float

structure Scope (m : Type → Type) where
  values : VariableTable
  functions : FunctionTable
  host : Host m
  order : Order
  previous : Float
  maxDepth : Nat

variable {m : Type → Type} [Monad m]

def Host.ask (callbacks : List (Callback m)) (name : String) (arguments : List Float) :
    m (Option Float) :=
  match callbacks with
  | [] => pure none
  | callback :: callbacks => do
    match ← callback name arguments with
    | some value => return some value
    | none => Host.ask callbacks name arguments

namespace Scope

def askHost (scope : Scope m) : Resolver m := fun name arguments _ =>
  ExceptT.lift (Host.ask scope.host.callbacks name arguments)

def askInternal (scope : Scope m) (parent : Resolver m) : Resolver m :=
  fun name arguments level =>
    match scope.values.get? name with
    | some value => return some value
    | none => do
      match ← Outcome.ofExcept (scope.functions.find? name) with
      | some declaration =>
        return some (← declaration.call arguments parent ⟨scope.previous, scope.maxDepth, level⟩)
      | none => return none

def askBuiltin (scope : Scope m) : Resolver m := fun name arguments _ =>
  Builtin.call scope.host.random name arguments

def firstOf (resolvers : List (Resolver m)) : Resolver m := fun name arguments level =>
  match resolvers with
  | [] => return none
  | resolver :: resolvers => do
    match ← resolver name arguments level with
    | some value => return some value
    | none => firstOf resolvers name arguments level

def answer (scope : Scope m) (parent : Resolver m) : Resolver m :=
  firstOf (match scope.order with
    | .internalFirst => [scope.askInternal parent, scope.askHost, scope.askBuiltin]
    | .hostFirst => [scope.askHost, scope.askInternal parent, scope.askBuiltin])

/-- Room for `calls` function bodies one inside the other; without room no name is known. -/
def resolver (scope : Scope m) (calls : Nat) : Resolver m := fun name arguments level =>
  match calls with
  | 0 => return none
  | calls + 1 => scope.answer (scope.resolver calls) name arguments level

def resolve (scope : Scope m) : Resolver m :=
  scope.resolver (scope.maxDepth / Declaration.callCost + 1)

end Scope

end Reckon
