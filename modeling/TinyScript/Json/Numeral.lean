import TinyScript.Json

/-!
# Reading JSON numerals

A numeral without point and exponent that fits 64 bits is read as a whole number. Any other numeral
is read from its leading digits alone: as many as fit 64 bits form a significand, which becomes a
binary64 number and is then scaled by a power of ten. Both steps round, so the result is not always
the nearest number.
-/

namespace TinyScript

/-- Why a text is no JSON: it ends too early, or something stands where it may not. -/
inductive JsonFault where
  | truncated
  | malformed
  deriving DecidableEq, Repr

/-- The parts of a numeral. No fraction means that there is no point. -/
structure JsonNumeral where
  negative : Bool
  whole : List Char
  fraction : List Char
  /-- The sign and the digits of the exponent. -/
  exponent : Option (Bool × List Char)
  deriving DecidableEq, Repr

namespace JsonNumeral

/-- The run of digits at the front of a text, which must not be empty. -/
def scanDigits (text : List Char) : Except JsonFault (List Char × List Char) :=
  match text.takeWhile Char.isDigit with
  | [] => .error (if text.isEmpty then .truncated else .malformed)
  | digits => .ok (digits, text.dropWhile Char.isDigit)

/-- A sign at the front of a text: whether it is a minus, and what follows. -/
def scanSign : List Char → Bool × List Char
  | '-' :: rest => (true, rest)
  | '+' :: rest => (false, rest)
  | rest => (false, rest)

/-- The digits before the point. Only zero itself starts with a zero. -/
def scanWhole (text : List Char) : Except JsonFault (List Char × List Char) := do
  let (digits, rest) ← scanDigits text
  if digits.head? = some '0' && digits.length ≠ 1 then .error .malformed
  else .ok (digits, rest)

/-- The digits behind a point, if there is one. -/
def scanFraction : List Char → Except JsonFault (List Char × List Char)
  | '.' :: rest => scanDigits rest
  | rest => .ok ([], rest)

/-- The exponent, if there is one. -/
def scanExponent : List Char → Except JsonFault (Option (Bool × List Char) × List Char)
  | char :: rest =>
    if char = 'e' || char = 'E' then do
      let (negative, rest) := scanSign rest
      let (digits, rest) ← scanDigits rest
      return (some (negative, digits), rest)
    else .ok (none, char :: rest)
  | [] => .ok (none, [])

/-- The numeral at the front of a text that starts with a digit or a minus. -/
def scan (text : List Char) : Except JsonFault (JsonNumeral × List Char) := do
  let (negative, text) := scanSign text
  let (whole, text) ← scanWhole text
  let (fraction, text) ← scanFraction text
  let (exponent, text) ← scanExponent text
  return (⟨negative, whole, fraction, exponent⟩, text)

/-- Appends digits to a significand as long as it fits 64 bits; the digits left over follow. -/
def gather (significand : Nat) : List Char → Nat × List Char
  | [] => (significand, [])
  | digit :: digits =>
    let next := 10 * significand + (digit.toNat - '0'.toNat)
    if next < Nat.pow 2 64 then gather next digits else (significand, digit :: digits)

/-- The number nearest to a power of ten. -/
def tenTo? (power : Nat) : Option Binary64 :=
  Binary64.ofNat? (Nat.pow 10 power)

/-- The greatest power of ten that is a finite number. -/
def greatestPower : Nat := 308

/-- Divides a number by a power of ten, in steps where the power itself is too great. -/
def scaleDown (value : Binary64) (power : Nat) : Option Binary64 :=
  if power ≤ greatestPower then do value.div? (← tenTo? power)
  else if value.isZero then some value
  else do scaleDown (← value.div? (← tenTo? greatestPower)) (power - greatestPower)
termination_by power
decreasing_by simp only [greatestPower] at *; omega

/-- Multiplies a number by a power of ten; nothing beyond the finite numbers. -/
def scaleUp (value : Binary64) (power : Nat) : Option Binary64 :=
  if power ≤ greatestPower then do value.mul? (← tenTo? power)
  else if value.isZero then some value
  else none

/-- The significand times a power of ten; nothing beyond the finite numbers. -/
def scaled (significand : Nat) (power : Int) : Option Binary64 := do
  let value ← Binary64.ofNat? significand
  match power with
  | .ofNat power => scaleUp value power
  | .negSucc power => scaleDown value (power + 1)

/-- The greatest exponent that is taken at its word. -/
def greatestExponent : Nat := 2147483647

/-- The absolute value of a significand with a power of ten and a written exponent. An exponent that
    is too great makes the number zero or puts it beyond the finite ones, whatever the rest. -/
def withExponent (significand : Nat) (power : Int) :
    Option (Bool × List Char) → Option Binary64
  | none => scaled significand power
  | some (negative, digits) =>
    let exponent := Nat.ofDigitChars 10 digits 0
    if exponent ≤ greatestExponent then
      scaled significand (if negative then power - exponent else power + exponent)
    else if negative || significand = 0 then some .zero
    else none

/-- Whether the numeral has neither point nor exponent. -/
def isWhole (numeral : JsonNumeral) : Bool :=
  numeral.fraction.isEmpty && numeral.exponent.isNone

/-- A whole number that fits 64 bits. A negative one that fits no signed 64 bits, and a negative
    zero, become binary64 numbers. -/
def wholeNumber (negative : Bool) (magnitude : Nat) : Option JsonNumber :=
  if !negative then some (.natural magnitude)
  else if 0 < magnitude && magnitude ≤ Nat.pow 2 63 then some (.negative magnitude)
  else (Binary64.ofNat? magnitude).map fun value => .real (value.withSign true)

/-- The number that a numeral denotes; nothing beyond the finite numbers. -/
def value? (numeral : JsonNumeral) : Option JsonNumber :=
  let (significand, dropped) := gather 0 numeral.whole
  if numeral.isWhole && dropped.isEmpty then wholeNumber numeral.negative significand
  else
    let (significand, unused) := gather significand numeral.fraction
    let power : Int := dropped.length + unused.length - numeral.fraction.length
    (withExponent significand power numeral.exponent).map fun value =>
      .real (value.withSign numeral.negative)

end JsonNumeral

end TinyScript
