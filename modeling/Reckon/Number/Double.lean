/-!
Doubles as exact numbers. The size of a finite double is `significand · 2 ^ scale` in units of
`2 ^ -1074`, all three natural numbers, so statements about sizes need no fractions. `nearest`
goes the other way: it rounds a quotient of natural numbers to the nearest double, a tie to the
even significand, and to infinity beyond the largest double.
-/

namespace Reckon.Double

def infinity : Float := Float.ofBits 0x7ff0000000000000

def notANumber : Float := Float.ofBits 0x7ff8000000000000

def isNegative (x : Float) : Bool :=
  0x8000000000000000 ≤ x.toBits.toNat

abbrev leadingBit : Nat :=
  0x10000000000000

def exponentField (x : Float) : Nat :=
  x.toBits.toNat / leadingBit % 0x800

def significand (x : Float) : Nat :=
  let fraction := x.toBits.toNat % leadingBit
  if exponentField x = 0 then fraction else leadingBit + fraction

/-- Subnormal doubles share the scale of the smallest normal ones. -/
def scale (x : Float) : Nat :=
  exponentField x - 1

/-- The size of a finite double in units of `2 ^ -1074`. -/
def magnitude (x : Float) : Nat :=
  significand x <<< scale x

def withSign (negative : Bool) (x : Float) : Float :=
  if negative then -x else x

def roundHalfEven (numerator denominator : Nat) : Nat :=
  let quotient := numerator / denominator
  match compare (2 * (numerator % denominator)) denominator with
  | .lt => quotient
  | .eq => quotient + quotient % 2
  | .gt => quotient + 1

/-- The bits of a double are its significand plus a leading bit for every step of its scale: the
leading bit of the significand itself counts as the first step, and a significand rounded up to
`2 ^ 53` as one more. -/
def nearest (numerator denominator : Nat) : Float :=
  let units := numerator <<< 1074
  let scale := (units / denominator).log2 - 52
  let bits := scale * leadingBit + roundHalfEven units (denominator <<< scale)
  Float.ofBits (UInt64.ofNat (min bits 0x7ff0000000000000))

theorem roundHalfEven_mul (k denominator : Nat) (h : 0 < denominator) :
    roundHalfEven (k * denominator) denominator = k := by
  have less : compare (2 * (k * denominator % denominator)) denominator = .lt := by
    rw [Nat.mul_mod_left]
    exact Nat.compare_eq_lt.mpr (by omega)
  simp only [roundHalfEven, less, Nat.mul_div_cancel k h]

end Reckon.Double
