import Reckon.Number.Decimal

/-!
The shortest digits of a double: the fewest decimal digits that read back as the same double, and
of the decimals with that many digits the one nearest to it. Where two are equally near, `Tie`
says which is taken. Digits are a natural number and the power of ten it is multiplied by.
-/

namespace Reckon.Shortest

inductive Tie where
  | up
  | even

structure Digits where
  digits : Nat
  exponent : Int

def Digits.value (d : Digits) : Float :=
  Decimal.value d.digits d.exponent

/-- The exact decimal of a finite double: one unit of its magnitude is `5 ^ 1074 · 10 ^ -1074`. -/
def exact (x : Float) : Digits :=
  ⟨Double.magnitude x * Nat.pow 5 1074, -1074⟩

/-- The decimals next to `d` once its last `dropped` digits are given up, the nearer one first. -/
def neighbours (tie : Tie) (d : Digits) (dropped : Nat) : List Digits :=
  let unit := Nat.pow 10 dropped
  let below : Digits := ⟨d.digits / unit, d.exponent + dropped⟩
  let above : Digits := ⟨d.digits / unit + 1, d.exponent + dropped⟩
  let upward := match compare (2 * (d.digits % unit)) unit with
    | .lt => false
    | .gt => true
    | .eq => match tie with
      | .up => true
      | .even => below.digits % 2 = 1
  if upward then [above, below] else [below, above]

def stripZeros (count : Nat) (d : Digits) : Digits :=
  match count with
  | 0 => d
  | count + 1 =>
    if d.digits % 10 = 0 then stripZeros count ⟨d.digits / 10, d.exponent + 1⟩ else d

def candidates (tie : Tie) (x : Float) : List Digits :=
  let all := exact x
  let count := (Nat.toDigits 10 all.digits).length
  (List.range 17).flatMap fun n =>
    (neighbours tie all (count - (n + 1))).map (stripZeros (n + 1))

def readsBack (x : Float) (d : Digits) : Bool :=
  d.value.toBits = x.toBits

/-- Seventeen digits always suffice for a double; the exact decimal stands behind them. -/
def ofPositive (tie : Tie) (x : Float) : Digits :=
  ((candidates tie x).find? (readsBack x)).getD (exact x)

theorem readsBack_or_exact (tie : Tie) (x : Float) :
    readsBack x (ofPositive tie x) = true ∨ ofPositive tie x = exact x := by
  unfold ofPositive
  cases found : (candidates tie x).find? (readsBack x) with
  | none => exact .inr rfl
  | some d => exact .inl (List.find?_some found)

end Reckon.Shortest
