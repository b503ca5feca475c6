import Reckon.Number.Layout

/-!
Numbers in a JSON text. A numeral is what the grammar lets stand there. Its value is computed the
quick way: digits are gathered into a significand below `2 ^ 64`, the digits that no longer fit
only count, and one multiplication or division by a power of ten finishes, which is not always
the nearest double. A number too large for a double is refused, one too small is zero. Written
numbers have the shortest digits: with at least one decimal place from `10 ^ -5` up to `10 ^ 16`,
and outside of these bounds with an exponent, which always has a sign.
-/

namespace Reckon.Json

structure Numeral where
  negative : Bool
  whole : List Char
  fraction : List Char
  exponent : Option Int
  deriving DecidableEq

namespace Numeral

def readDigits (cs : List Char) : Option (List Char × List Char) :=
  match cs.takeWhile Char.isDigit with
  | [] => none
  | digits => some (digits, cs.dropWhile Char.isDigit)

/-- A whole part has no zeros in front. -/
def readWhole (cs : List Char) : Option (List Char × List Char) := do
  let (digits, rest) ← readDigits cs
  match digits with
  | '0' :: _ :: _ => none
  | _ => return (digits, rest)

def readFraction : List Char → Option (List Char × List Char)
  | '.' :: cs => readDigits cs
  | cs => some ([], cs)

def readExponent : List Char → Option (Option Int × List Char)
  | [] => some (none, [])
  | c :: cs =>
    if c = 'e' ∨ c = 'E' then do
      let (negative, cs) := match cs with
        | '-' :: cs => (true, cs)
        | '+' :: cs => (false, cs)
        | cs => (false, cs)
      let (digits, rest) ← readDigits cs
      let size : Int := Decimal.digitsValue digits
      return (some (if negative then -size else size), rest)
    else some (none, c :: cs)

def read? (cs : List Char) : Option (Numeral × List Char) := do
  let (negative, cs) := match cs with
    | '-' :: cs => (true, cs)
    | cs => (false, cs)
  let (whole, cs) ← readWhole cs
  let (fraction, cs) ← readFraction cs
  let (exponent, cs) ← readExponent cs
  return (⟨negative, whole, fraction, exponent⟩, cs)

/-- Appends digits to a significand as long as it stays below `2 ^ 64`, and gives the rest. -/
def gather (significand : Nat) : List Char → Nat × List Char
  | [] => (significand, [])
  | c :: cs =>
    let next := 10 * significand + (c.toNat - '0'.toNat)
    if next < UInt64.size then gather next cs else (significand, c :: cs)

/-- `x · 10 ^ exponent`, or `none` beyond the largest double. Powers of ten above `10 ^ 308` are
no doubles, so a small exponent is taken in steps. -/
def scaleTen (x : Float) (exponent : Int) : Option Float :=
  if exponent.natAbs ≤ 308 then
    let power := Decimal.value 1 exponent.natAbs
    if exponent < 0 then some (x / power)
    else if (x * power).isInf then none
    else some (x * power)
  else if x == 0 then some x
  else if 0 ≤ exponent then none
  else scaleTen (x / Decimal.value 1 308) (exponent + 308)
termination_by (-exponent).toNat

def value? (n : Numeral) : Option Float :=
  let (whole, excess) := gather 0 n.whole
  let (significand, ignored) := gather whole n.fraction
  let places : Int := n.fraction.length - ignored.length
  let exponent := excess.length - places + n.exponent.getD 0
  (scaleTen (Double.nearest significand 1) exponent).map (Double.withSign n.negative)

def natural? (n : Numeral) : Option Nat :=
  match n.negative, n.fraction, n.exponent, gather 0 n.whole with
  | false, [], none, (value, []) => some value
  | _, _, _, _ => none

end Numeral

def writePositive (x : Float) : List Char :=
  let d := Shortest.ofPositive .even x
  let digits := Nat.toDigits 10 d.digits
  let point : Int := digits.length + d.exponent
  if -5 < point ∧ point ≤ 16 then
    let text := Layout.positional digits d.exponent
    if 0 ≤ d.exponent then text ++ ".0".toList else text
  else
    let mantissa := match digits with
      | first :: second :: more => first :: '.' :: second :: more
      | single => single
    let mark := if 0 < point then "e+" else "e"
    mantissa ++ mark.toList ++ (toString (point - 1)).toList

/-- JSON has no text for infinities and NaN. -/
def writeNumber (x : Float) : String :=
  if !x.isFinite then "null"
  else
    let text := if x == 0 then "0.0".toList else writePositive x.abs
    String.ofList (if Double.isNegative x then '-' :: text else text)

end Reckon.Json
