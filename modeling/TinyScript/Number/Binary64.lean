/-!
# Finite binary64 numbers

A finite binary64 number is held as its sign and its rank among the non-negative ones in ascending
order: rank zero is zero, rank one the least positive number `2 ^ (-1074)`. The rank is also the bit
pattern without the sign. Every such number is a whole multiple of the least positive one, so its
exact value is a natural number of these units, and rounding is arithmetic of natural numbers.
-/

namespace TinyScript

/-- The quotient of two numbers rounded to the nearest whole one, a half going to the even
    neighbour. -/
def roundHalfEven (numerator denominator : Nat) : Nat :=
  let quotient := numerator / denominator
  let twice := 2 * (numerator % denominator)
  if twice < denominator || (twice = denominator && quotient % 2 = 0) then quotient
  else quotient + 1

/-- A finite binary64 number. -/
structure Binary64 where
  negative : Bool
  rank : Nat
  rank_lt : rank < 2047 * Nat.pow 2 52
  deriving DecidableEq, Repr

namespace Binary64

/-- How many units make up one. -/
def unitsInOne : Nat := Nat.pow 2 1074

/-- The power of two, in units, that scales the significand of the number with a given rank. -/
def scaleOfRank (rank : Nat) : Nat :=
  rank / Nat.pow 2 52 - 1

/-- The value of the non-negative number with a given rank, in units. -/
def unitsOfRank (rank : Nat) : Nat :=
  (rank - scaleOfRank rank * Nat.pow 2 52) * Nat.pow 2 (scaleOfRank rank)

/-- The rank of the number nearest to a quotient of units, a tie going to the even significand. The
    result may lie beyond the finite numbers. -/
def nearestRank (numerator denominator : Nat) : Nat :=
  let scale := Nat.log2 (numerator / denominator) - 52
  scale * Nat.pow 2 52 + roundHalfEven numerator (denominator * Nat.pow 2 scale)

/-- The absolute value in units. -/
def units (x : Binary64) : Nat :=
  unitsOfRank x.rank

/-- Zero with a clear sign. -/
def zero : Binary64 := ⟨false, 0, by decide⟩

/-- Whether the number is a zero of either sign. -/
def isZero (x : Binary64) : Bool :=
  x.rank = 0

/-- The number with a given sign in place of its own. -/
def withSign (negative : Bool) (x : Binary64) : Binary64 :=
  { x with negative }

/-- The number nearest to a quotient of units, unless that lies beyond the finite numbers. -/
def ofUnits? (negative : Bool) (numerator denominator : Nat) : Option Binary64 :=
  if h : nearestRank numerator denominator < 2047 * Nat.pow 2 52 then
    some ⟨negative, nearestRank numerator denominator, h⟩
  else none

/-- The number nearest to `digits * 10 ^ exponent`, unless that lies beyond the finite numbers. -/
def ofDecimal? (digits : Nat) (exponent : Int) : Option Binary64 :=
  match exponent with
  | .ofNat power => ofUnits? false (digits * Nat.pow 10 power * unitsInOne) 1
  | .negSucc power => ofUnits? false (digits * unitsInOne) (Nat.pow 10 (power + 1))

/-- The number nearest to a natural number. -/
def ofNat? (value : Nat) : Option Binary64 :=
  ofDecimal? value 0

/-- The number nearest to the one that a row of decimal digits denotes. -/
def ofDigits? (digits : List Char) : Option Binary64 :=
  ofNat? (Nat.ofDigitChars 10 digits 0)

/-- The product, rounded; nothing beyond the finite numbers. -/
def mul? (x y : Binary64) : Option Binary64 :=
  ofUnits? (x.negative != y.negative) (x.units * y.units) unitsInOne

/-- The quotient, rounded; nothing beyond the finite numbers and for a zero divisor. -/
def div? (x y : Binary64) : Option Binary64 :=
  if y.isZero then none
  else ofUnits? (x.negative != y.negative) (x.units * unitsInOne) y.units

/-- Whether the number is whole. -/
def isIntegral (x : Binary64) : Bool :=
  x.units % unitsInOne = 0

end Binary64

end TinyScript
