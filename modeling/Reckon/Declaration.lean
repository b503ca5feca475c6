import Reckon.Evaluation
import Reckon.Text.Pieces
import Reckon.Tree.Build

/-!
Function declarations `name(p, q)=body`. The header in front of the first `=` is read token by
token through the states of `Header`, and the first token that does not fit decides the fault.
The body stays text: a call builds it anew, below the calling node by `callCost` levels, so that
recursion through calls is bounded by the same limit as nesting in one formula. In a body the
parameters hide every other name, and all other names are asked of the scope of the call.
-/

namespace Reckon

structure Declaration where
  name : String
  parameters : List String
  body : String
  source : String
  deriving DecidableEq, Repr

namespace Declaration

/-- How far a header has been read, and what it has declared. -/
inductive Header where
  | start
  | named (name : String)
  | opened (name : String)
  | separated (name : String) (parameters : List String)
  | listed (name : String) (parameters : List String)
  | closed (name : String) (parameters : List String)

namespace Header

def parameter (name : String) (parameters : List String) (token : Token) :
    Except DeclarationFault Header :=
  let parameter := Text.lowercase token.text
  if parameter ∈ parameters then .error (.duplicateParameter parameter)
  else .ok (.listed name (parameters ++ [parameter]))

def step (header : Header) (token : Token) : Except DeclarationFault Header :=
  match header, token.kind with
  | start, .identifier => .ok (named (Text.lowercase token.text))
  | start, _ => .error .missingName
  | named name, .opening => .ok (opened name)
  | named _, _ => .error .missingOpening
  | opened name, .closing => .ok (closed name [])
  | opened name, .identifier => parameter name [] token
  | opened _, _ => .error .parameterNotIdentifier
  | separated name parameters, .identifier => parameter name parameters token
  | separated _ _, _ => .error .parameterNotIdentifier
  | listed name parameters, .delimiter => .ok (separated name parameters)
  | listed name parameters, .closing => .ok (closed name parameters)
  | listed _ _, _ => .error .expectedDelimiter
  | closed _ _, _ => .error .trailingTokens

def finish : Header → Except DeclarationFault (String × List String)
  | start => .error .missingName
  | named _ => .error .missingOpening
  | opened _ | listed _ _ => .error .missingClosing
  | separated _ _ => .error .parameterNotIdentifier
  | closed name parameters => .ok (name, parameters)

def read (tokens : List Token) : Except DeclarationFault (String × List String) := do
  (← tokens.foldlM step start).finish

end Header

def read (source : String) : Except Failure Declaration :=
  let source := Text.trim source
  match Text.cutFirst '=' source with
  | none => .error (.declaration source .missingBody)
  | some (header, body) =>
    if Text.isBlankText body then .error (.declaration source .missingBody)
    else match Scanner.tokens header with
      | .error error => .error (.read error)
      | .ok tokens =>
        match Header.read tokens with
        | .error fault => .error (.declaration source fault)
        | .ok (name, parameters) => .ok ⟨name, parameters, Text.trim body, source⟩

/-- The tree levels between a calling node and the root of the called body. -/
def callCost : Nat :=
  4

/-- Where a function is called: the value of `_`, the nesting limit and the level of the node. -/
structure Site where
  previous : Float
  maxDepth : Nat
  level : Nat

variable {m : Type → Type} [Monad m]

/-- Answers the parameters with their values, however they are applied, and asks `parent` else. -/
def frame (declaration : Declaration) (arguments : List Float) (parent : Resolver m) :
    Resolver m := fun name applied level =>
  match (declaration.parameters.zip arguments).lookup name with
  | some value => return some value
  | none => parent name applied level

def call (declaration : Declaration) (arguments : List Float) (parent : Resolver m)
    (site : Site) : Outcome m Float :=
  if arguments.length ≠ declaration.parameters.length then
    throw (.arity declaration.name (.parameters declaration.parameters.length) arguments.length)
  else
    let level := site.level + callCost
    match Tree.read site.maxDepth level declaration.body with
    | .error error => throw (.read error)
    | .ok tree =>
      Evaluation.evaluate ⟨frame declaration arguments parent, site.previous⟩ level tree

end Declaration

end Reckon
