import Reckon.Number.Double

/-!
Decimal text of a number. A text is an optional sign and then `inf`, `infinity` or `nan` in any
letter case, or ASCII digits with at most one point among them and an optional exponent; the
digits may stand on either side of the point, but there is one. The value read is the double
nearest to what the text says, whatever its length.
-/

namespace Reckon.Decimal

/-- The double nearest to `digits · 10 ^ exponent`. Far exponents are settled without computing
the power: a nonzero `digits` is at least 1 and below `10 ^ (digits.log2 + 1)`. -/
def value (digits : Nat) (exponent : Int) : Float :=
  if digits = 0 ∨ exponent < -(400 + digits.log2 : Nat) then 0
  else if 400 < exponent then Double.infinity
  else if 0 ≤ exponent then Double.nearest (digits * Nat.pow 10 exponent.toNat) 1
  else Double.nearest digits (Nat.pow 10 (-exponent).toNat)

def digitsValue (cs : List Char) : Nat :=
  cs.foldl (fun n c => 10 * n + (c.toNat - '0'.toNat)) 0

def readExponent : List Char → Option Int
  | [] => some 0
  | e :: cs =>
    let (negative, digits) := match cs with
      | '-' :: cs => (true, cs)
      | '+' :: cs => (false, cs)
      | cs => (false, cs)
    if e.toLower = 'e' ∧ digits ≠ [] ∧ digits.all Char.isDigit then
      some (if negative then -(digitsValue digits : Int) else digitsValue digits)
    else none

def readDigits (cs : List Char) : Option Float :=
  let whole := cs.takeWhile Char.isDigit
  let (fraction, rest) := match cs.dropWhile Char.isDigit with
    | '.' :: cs => (cs.takeWhile Char.isDigit, cs.dropWhile Char.isDigit)
    | cs => ([], cs)
  if whole ++ fraction = [] then none
  else (readExponent rest).map fun exponent =>
    value (digitsValue (whole ++ fraction)) (exponent - fraction.length)

def readUnsigned (cs : List Char) : Option Float :=
  let lowered := cs.map Char.toLower
  if lowered = "inf".toList ∨ lowered = "infinity".toList then some Double.infinity
  else if lowered = "nan".toList then some Double.notANumber
  else readDigits cs

def read? (s : String) : Option Float :=
  match s.toList with
  | '-' :: cs => (readUnsigned cs).map (-·)
  | '+' :: cs => readUnsigned cs
  | cs => readUnsigned cs

end Reckon.Decimal
