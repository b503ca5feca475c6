import Reckon.Bracket

/-!
Why a text cannot be read as an expression. A fault is one cause; the error adds the text it was
found in. Faults of single characters and numbers are lexical, all others are of structure.
-/

namespace Reckon

inductive ReadFault where
  | illegalCharacter (character : Char)
  | malformedNumber (text : String)
  | brackets (fault : Bracket.Fault)
  | emptyExpression
  | emptyArgument (function : String)
  | invalidCall
  | nestingTooDeep (limit : Nat)
  deriving DecidableEq, Repr

namespace ReadFault

def isLexical : ReadFault → Bool
  | illegalCharacter _ | malformedNumber _ => true
  | _ => false

def describe : ReadFault → String
  | illegalCharacter character => "illegal character '" ++ String.singleton character ++ "'"
  | malformedNumber text => "malformed number \"" ++ text ++ "\""
  | brackets .mismatch => "parenthesis mismatch"
  | brackets .unbalanced => "unbalanced brackets"
  | emptyExpression => "empty expression"
  | emptyArgument function => "empty argument in call to \"" ++ function ++ "\""
  | invalidCall => "syntax fault"
  | nestingTooDeep limit => "nesting deeper than " ++ toString limit ++ " levels"

end ReadFault

structure ReadError where
  fault : ReadFault
  expression : String
  deriving DecidableEq, Repr

def ReadError.message (error : ReadError) : String :=
  error.fault.describe ++ " in \"" ++ error.expression ++ "\""

end Reckon
