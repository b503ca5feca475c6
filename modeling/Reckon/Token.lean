import Reckon.Bracket

/-!
Tokens of the formula language. A token is its text with its kind, and the first character of
the text decides the kind. The text stays with the token because operations of one kind are told
apart by it, and because a token may be handed in that no text was read for.
-/

namespace Reckon

inductive TokenKind where
  | number
  | identifier
  | operator
  | relational
  | boolean
  | opening
  | closing
  | delimiter
  | previous
  | invalid
  deriving DecidableEq, Repr

namespace TokenKind

def ofChar (c : Char) : TokenKind :=
  if c = ',' then .delimiter
  else if c ∈ ['*', '/', '^', '%', '+', '-', '!', '~'] then .operator
  else if (Bracket.opens? c).isSome then .opening
  else if (Bracket.closes? c).isSome then .closing
  else if c ∈ ['<', '>', '='] then .relational
  else if c ∈ ['&', '|', '?'] then .boolean
  else if c.isDigit || c = '.' then .number
  else if c = '_' then .previous
  else if c.isAlpha then .identifier
  else .invalid

def isOperation (kind : TokenKind) : Bool :=
  kind = .operator || kind = .relational || kind = .boolean

/-- Whether `c` carries on a token of this kind: identifiers take digits too. -/
def continues (kind : TokenKind) (c : Char) : Bool :=
  ofChar c = kind || (kind = .identifier && c.isDigit)

def name : TokenKind → String
  | number => "number"
  | identifier => "identifier"
  | operator => "operator"
  | relational => "relational operator"
  | boolean => "boolean operator"
  | opening => "opening bracket"
  | closing => "closing bracket"
  | delimiter => "parameter delimiter"
  | previous => "previous value"
  | invalid => "invalid"

end TokenKind

structure Token where
  kind : TokenKind
  text : String
  deriving DecidableEq, Repr

end Reckon
