import TinyScript.Number.Decimal

/-!
# Numerals

How a binary64 number is written: the digits of its shortest decimal, laid out positionally or with
an exponent. A format says which way ties between digits go, which numbers are written
positionally, and whether whole numbers keep a zero behind the point.
-/

namespace TinyScript

/-- The decisions of a format for numerals. -/
structure NumeralFormat where
  tie : Tie
  /-- Whether a number is written positionally, by the power of ten of its first digit. -/
  positional : Int → Bool
  pointZero : Bool

/-- Numerals of programs: never an exponent, no point in whole numbers, a tie goes up. -/
def NumeralFormat.plain : NumeralFormat where
  tie := .upper
  positional _ := true
  pointZero := false

/-- Numerals of JSON text: an exponent below `0.00001` and from `10 ^ 16` on, a point in all other
    numbers, a tie goes to the even digit. -/
def NumeralFormat.json : NumeralFormat where
  tie := .even
  positional power := -5 ≤ power && power ≤ 15
  pointZero := true

namespace Decimal

/-- The digits with the point where it belongs. -/
def positional (decimal : Decimal) (pointZero : Bool) : List Char :=
  let digits := Nat.toDigits 10 decimal.digits
  match decimal.exponent with
  | .ofNat zeros => digits ++ List.replicate zeros '0' ++ if pointZero then ['.', '0'] else []
  | .negSucc power =>
    let places := power + 1
    if places < digits.length then
      digits.take (digits.length - places) ++ '.' :: digits.drop (digits.length - places)
    else ['0', '.'] ++ List.replicate (places - digits.length) '0' ++ digits

/-- The power of ten of the first digit. -/
def leadingPower (decimal : Decimal) : Int :=
  digitCount decimal.digits - 1 + decimal.exponent

/-- The first digit, the others behind a point, and the exponent with its sign. -/
def scientific (decimal : Decimal) : List Char :=
  let power := decimal.leadingPower
  let exponent := 'e' :: (if power < 0 then '-' else '+') :: Nat.toDigits 10 power.natAbs
  match Nat.toDigits 10 decimal.digits with
  | [] => exponent
  | [digit] => digit :: exponent
  | digit :: digits => digit :: '.' :: digits ++ exponent

end Decimal

/-- The number as a numeral of the given format. -/
def Binary64.numeral (format : NumeralFormat) (x : Binary64) : String :=
  let decimal := x.shortest format.tie
  let digits :=
    if format.positional decimal.leadingPower then decimal.positional format.pointZero
    else decimal.scientific
  String.ofList (if x.negative then '-' :: digits else digits)

end TinyScript
