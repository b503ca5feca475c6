import Reckon.Number.Shortest

/-!
Layouts of a number's text. The plain layout writes every digit out: no exponent ever, and no
point in a whole number. The point is placed by the number of digits in front of it, which may be
negative or larger than the number of digits there are.
-/

namespace Reckon.Layout

def zeros (n : Nat) : List Char :=
  List.replicate n '0'

def positional (digits : List Char) (exponent : Int) : List Char :=
  if 0 ≤ exponent then digits ++ zeros exponent.toNat
  else
    let places := (-exponent).toNat
    let padded := zeros (places + 1 - digits.length) ++ digits
    padded.take (padded.length - places) ++ '.' :: padded.drop (padded.length - places)

def signed (finite : Float → List Char) (x : Float) : String :=
  if x.isNaN then "NaN"
  else
    let size := x.abs
    let text :=
      if size == Double.infinity then "inf".toList
      else if size == 0 then ['0']
      else finite size
    String.ofList (if Double.isNegative x then '-' :: text else text)

def plain (x : Float) : String :=
  signed (fun size =>
    let d := Shortest.ofPositive .up size
    positional (Nat.toDigits 10 d.digits) d.exponent) x

end Reckon.Layout
