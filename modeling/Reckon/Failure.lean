import Reckon.Number.Layout
import Reckon.ReadError

/-!
Why a formula, a declaration, an entry or a settings text is refused. A failure is a cause with
what its message names; `message` is the only place where the wording lives, and `kind` sorts
failures into the classes that a host reacts to.
-/

namespace Reckon

inductive DeclarationFault where
  | missingBody
  | missingName
  | missingOpening
  | expectedDelimiter
  | parameterNotIdentifier
  | missingClosing
  | trailingTokens
  | duplicateParameter (parameter : String)
  deriving DecidableEq, Repr

def DeclarationFault.describe : DeclarationFault → String
  | missingBody => "'=' followed by a body expected"
  | missingName => "function name expected"
  | missingOpening => "'(' expected after the function name"
  | expectedDelimiter => "delimiter ',' expected between parameters"
  | parameterNotIdentifier => "parameter name expected"
  | missingClosing => "')' expected"
  | trailingTokens => "unexpected text after ')'"
  | duplicateParameter parameter => "parameter \"" ++ parameter ++ "\" declared twice"

inductive Arity where
  | leftOperand
  | rightOperand
  | rightOrBothOperands
  | bothOperands
  | parameters (count : Nat)
  | noArguments
  | oneArgument
  | oneOrTwoArguments
  | twoArguments
  | threeArguments
  | someArguments
  deriving DecidableEq, Repr

def Arity.describe : Arity → String
  | leftOperand => "1 left operand"
  | rightOperand => "1 right operand"
  | rightOrBothOperands => "1 right operand or 2 operands"
  | bothOperands => "2 operands"
  | parameters count => toString count ++ " arguments"
  | noArguments => "no arguments"
  | oneArgument => "1 argument"
  | oneOrTwoArguments => "1 or 2 arguments"
  | twoArguments => "2 arguments"
  | threeArguments => "3 arguments"
  | someArguments => "at least 1 argument"

inductive FailureKind where
  | lexical
  | structural
  | declaration
  | arity
  | unresolved
  | configuration
  deriving DecidableEq, Repr

inductive Failure where
  | read (error : ReadError)
  | declaration (source : String) (fault : DeclarationFault)
  | arity (token : String) (expected : Arity) (found : Nat)
  | operand (token : String) (value : Float)
  | unresolved (name : String)
  | misplaced (token : String)
  | target (statement : String)
  | entry (entry : String)
  | settings
  deriving DecidableEq

namespace Failure

def kind : Failure → FailureKind
  | read error => if error.fault.isLexical then .lexical else .structural
  | declaration .. => .declaration
  | arity .. | operand .. => .arity
  | unresolved _ => .unresolved
  | misplaced _ | target _ => .structural
  | entry _ | settings => .configuration

def message : Failure → String
  | read error => error.message
  | declaration source fault =>
    "function \"" ++ source ++ "\" is not valid: " ++ fault.describe
  | arity token expected found =>
    "invalid number of operands for \"" ++ token ++ "\": expected " ++ expected.describe ++
      ", got " ++ toString found
  | operand token value =>
    "invalid operand " ++ Layout.plain value ++ " for \"" ++ token ++ "\""
  | unresolved name => "undeclared identifier \"" ++ name ++ "\""
  | misplaced token => "token \"" ++ token ++ "\" can not be evaluated"
  | target statement => "\"" ++ statement ++ "\" does not assign to a single identifier"
  | entry text => "variable entry \"" ++ text ++ "\" is not of the form name=number"
  | settings => "invalid engine configuration"

end Failure

abbrev Outcome (m : Type → Type) (α : Type) :=
  ExceptT Failure m α

def Outcome.ofExcept {m : Type → Type} [Monad m] {α : Type} (outcome : Except Failure α) :
    Outcome m α :=
  ExceptT.mk (pure outcome)

end Reckon
