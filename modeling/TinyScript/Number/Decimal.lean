import TinyScript.Number.Binary64

/-!
# Shortest decimals

A decimal is a natural number times a power of ten. The shortest decimal of a binary64 number has
the fewest digits among those that read back as the number, and of those the nearest one. Where two
are equally near, a rule of the output format decides.
-/

namespace TinyScript

/-- The number `digits * 10 ^ exponent`. -/
structure Decimal where
  digits : Nat
  exponent : Int
  deriving DecidableEq, Repr

/-- Which of two equally near decimals is taken. -/
inductive Tie where
  | upper
  | even
  deriving DecidableEq, Repr

/-- How many digits a natural number has. -/
def digitCount (value : Nat) : Nat :=
  (Nat.toDigits 10 value).length

/-- The same number with no zero at its end. -/
def Decimal.trim (decimal : Decimal) : Decimal :=
  if decimal.digits % 10 = 0 ∧ decimal.digits ≠ 0 then
    Decimal.trim ⟨decimal.digits / 10, decimal.exponent + 1⟩
  else decimal
termination_by decimal.digits
decreasing_by omega

namespace Binary64

/-- The power of ten next above the absolute value of a non-zero number: the value is at least a
    tenth of it and less than it. -/
def magnitude (x : Binary64) : Int :=
  if unitsInOne ≤ x.units then digitCount (x.units / unitsInOne)
  else
    let zeros := digitCount (unitsInOne / x.units)
    if unitsInOne ≤ x.units * Nat.pow 10 (zeros - 1) then 2 - zeros else 1 - zeros

/-- Whether a decimal reads back as the absolute value of the number. -/
def readBy (x : Binary64) (decimal : Decimal) : Bool :=
  ofDecimal? decimal.digits decimal.exponent = some (x.withSign false)

/-- The absolute value divided by a power of ten, as numerator and denominator. -/
def overPower (x : Binary64) : Int → Nat × Nat
  | .ofNat power => (x.units, unitsInOne * Nat.pow 10 power)
  | .negSucc power => (x.units * Nat.pow 10 (power + 1), unitsInOne)

/-- Of the two multiples of a power of ten around the absolute value, one that reads back: the
    nearer one where both do. -/
def shortestOn (tie : Tie) (x : Binary64) (exponent : Int) : Option Decimal :=
  let (numerator, denominator) := x.overPower exponent
  let below := numerator / denominator
  let lower : Decimal := ⟨below, exponent⟩
  let upper : Decimal := ⟨below + 1, exponent⟩
  let twice := 2 * (numerator % denominator)
  let takeLower := twice < denominator ||
    (twice = denominator && tie = .even && below % 2 = 0)
  match x.readBy lower, x.readBy upper with
  | true, true => some (if takeLower then lower else upper)
  | true, false => some lower
  | false, true => some upper
  | false, false => none

/-- The exact absolute value. -/
def exactDecimal (x : Binary64) : Decimal :=
  ⟨x.units * Nat.pow 5 1074, -1074⟩

/-- The shortest decimal of the absolute value. Seventeen digits always suffice; the exact value
    stands behind them as the last resort. -/
def shortest (tie : Tie) (x : Binary64) : Decimal :=
  if x.isZero then ⟨0, 0⟩
  else
    let hit := (List.range 17).findSome? fun (count : Nat) =>
      x.shortestOn tie (x.magnitude - (count + 1))
    (hit.getD x.exactDecimal).trim

end Binary64

end TinyScript
