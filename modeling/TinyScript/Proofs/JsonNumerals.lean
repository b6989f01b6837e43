import TinyScript.Json.Numeral
import TinyScript.Proofs.ShortestDecimals

/-!
# Numerals of JSON and what they are read as

The text of a JSON number is a sign, digits, a fraction and an exponent, and it is scanned into just
these parts, whatever follows that does not go on with a numeral. The parts then tell the number
that is read. A whole number is written from the digits of its shortest decimal. They always fit the
significand, so what is read is the rounded significand, scaled by a power of ten and rounded again:
this is not always the number that was written.
-/

namespace TinyScript

/-- Whether a text does not go on with a numeral. -/
def endsNumeral (text : List Char) : Bool :=
  text.head?.all fun char => !char.isDigit && char != '.' && char != 'e' && char != 'E'

namespace JsonNumeral

/-! ## Scanning the text of a numeral -/

/-- The text of an exponent with its sign, if there is one. -/
def exponentText (exponent : Option (Bool × List Char)) : List Char :=
  exponent.elim [] fun exponent => 'e' :: (if exponent.1 then '-' else '+') :: exponent.2

/-- The text of a numeral. -/
def text (numeral : JsonNumeral) : List Char :=
  (if numeral.negative then ['-'] else []) ++ numeral.whole ++
    (if numeral.fraction.isEmpty then [] else '.' :: numeral.fraction) ++
    exponentText numeral.exponent

/-- A row of digits that is not empty. -/
structure Digits (digits : List Char) : Prop where
  ne_nil : digits ≠ []
  isDigit : ∀ char ∈ digits, char.isDigit

/-- A numeral whose text is one of JSON. -/
structure Proper (numeral : JsonNumeral) : Prop where
  whole : Digits numeral.whole
  noZero : numeral.whole.head? = some '0' → numeral.whole.length = 1
  fraction : ∀ char ∈ numeral.fraction, char.isDigit
  exponent : ∀ exponent ∈ numeral.exponent, Digits exponent.2

theorem Digits.toDigits (value : Nat) : Digits (Nat.toDigits 10 value) :=
  ⟨Nat.toDigits_ne_nil, fun _ => Nat.isDigit_of_mem_toDigits (by decide) (by decide)⟩

variable {rest : List Char}

theorem scanDigits_append {digits : List Char} (h : Digits digits)
    (ends : rest.head?.all (!·.isDigit) = true) :
    scanDigits (digits ++ rest) = .ok (digits, rest) := by
  have taken : (digits ++ rest).takeWhile Char.isDigit = digits := by
    rw [List.takeWhile_append_of_pos h.isDigit]
    cases rest with
    | nil => simp
    | cons char rest =>
      have other : char.isDigit = false := by simpa using ends
      simp [other]
  have left : (digits ++ rest).dropWhile Char.isDigit = rest := by
    rw [List.dropWhile_append_of_pos h.isDigit]
    cases rest with
    | nil => rfl
    | cons char rest =>
      have other : char.isDigit = false := by simpa using ends
      simp [other]
  unfold scanDigits
  rw [taken, left]
  cases digits with
  | nil => exact absurd rfl h.ne_nil
  | cons => rfl

theorem scanExponent_append {exponent : Option (Bool × List Char)}
    (proper : ∀ e ∈ exponent, Digits e.2) (ends : endsNumeral rest = true) :
    scanExponent (exponentText exponent ++ rest) = .ok (exponent, rest) := by
  cases exponent with
  | none =>
    cases rest with
    | nil => rfl
    | cons char rest =>
      simp only [endsNumeral, List.head?_cons, Option.all_some, Bool.and_eq_true,
        bne_iff_ne] at ends
      simp [exponentText, scanExponent, ends]
  | some exponent =>
    obtain ⟨negative, digits⟩ := exponent
    have stops : rest.head?.all (!·.isDigit) = true := by
      cases rest with
      | nil => rfl
      | cons char rest => simp_all [endsNumeral]
    have digits := scanDigits_append (proper _ rfl) stops
    cases negative <;>
      simp_all [exponentText, scanExponent, scanSign, bind, Except.bind, pure, Except.pure]

theorem scanFraction_append {fraction : List Char} (digits : ∀ char ∈ fraction, char.isDigit)
    (ends : rest.head?.all (fun char => !char.isDigit && char != '.') = true) :
    scanFraction ((if fraction.isEmpty then [] else '.' :: fraction) ++ rest) =
      .ok (fraction, rest) := by
  cases fraction with
  | nil =>
    cases rest with
    | nil => rfl
    | cons char rest =>
      have other : char ≠ '.' := by
        simp only [List.head?_cons, Option.all_some, Bool.and_eq_true, bne_iff_ne] at ends
        exact ends.2
      simp [scanFraction, other]
  | cons digit fraction =>
    apply scanDigits_append ⟨by simp, digits⟩
    cases rest with
    | nil => rfl
    | cons char rest => simp_all

theorem scanWhole_append {whole : List Char} (digits : Digits whole)
    (noZero : whole.head? = some '0' → whole.length = 1)
    (ends : rest.head?.all (!·.isDigit) = true) :
    scanWhole (whole ++ rest) = .ok (whole, rest) := by
  have proper : ¬ (decide (whole.head? = some '0') && decide (whole.length ≠ 1)) = true := by
    simp only [Bool.and_eq_true, decide_eq_true_eq, not_and, Decidable.not_not]
    exact noZero
  unfold scanWhole
  rw [scanDigits_append digits ends]
  exact if_neg proper

theorem scanSign_append {whole : List Char} (negative : Bool) (digits : Digits whole) :
    scanSign ((if negative then ['-'] else []) ++ whole ++ rest) = (negative, whole ++ rest) := by
  cases negative with
  | true => rfl
  | false =>
    cases whole with
    | nil => exact absurd rfl digits.ne_nil
    | cons char whole =>
      have digit := digits.isDigit char (by simp)
      have minus : char ≠ '-' := by
        intro equal
        simp [equal] at digit
      have plus : char ≠ '+' := by
        intro equal
        simp [equal] at digit
      simp [scanSign, minus, plus]

/-- The text of a numeral is scanned into the parts of the numeral. -/
theorem scan_text {numeral : JsonNumeral} (proper : numeral.Proper)
    (ends : endsNumeral rest = true) : scan (numeral.text ++ rest) = .ok (numeral, rest) := by
  have exponent := scanExponent_append proper.exponent ends
  have behindFraction : (exponentText numeral.exponent ++ rest).head?.all
      (fun char => !char.isDigit && char != '.') = true := by
    cases numeral.exponent with
    | none =>
      cases rest with
      | nil => rfl
      | cons char rest => simp_all [endsNumeral, exponentText]
    | some => rfl
  have fraction := scanFraction_append proper.fraction behindFraction
  have behindWhole : (((if numeral.fraction.isEmpty then [] else '.' :: numeral.fraction) ++
      (exponentText numeral.exponent ++ rest)).head?.all (!·.isDigit)) = true := by
    cases numeral.fraction with
    | nil =>
      generalize exponentText numeral.exponent ++ rest = behind at behindFraction
      cases behind <;> simp_all
    | cons => rfl
  have whole := scanWhole_append proper.whole proper.noZero behindWhole
  unfold scan text
  simp only [List.append_assoc]
  rw [← List.append_assoc, scanSign_append numeral.negative proper.whole]
  simp only [bind, Except.bind, whole, fraction, exponent]
  rfl

end JsonNumeral

/-! ## The numerals of numbers -/

/-- The parts of the numeral that JSON text has for a decimal. -/
def Decimal.jsonNumeral (decimal : Decimal) (negative : Bool) : JsonNumeral :=
  let digits := Nat.toDigits 10 decimal.digits
  if NumeralFormat.json.positional decimal.leadingPower then
    match decimal.exponent with
    | .ofNat zeros => ⟨negative, digits ++ List.replicate zeros '0', ['0'], none⟩
    | .negSucc power =>
      let point := digits.length - (power + 1)
      if power + 1 < digits.length then ⟨negative, digits.take point, digits.drop point, none⟩
      else ⟨negative, ['0'], List.replicate (power + 1 - digits.length) '0' ++ digits, none⟩
  else
    let exponent := (decide (decimal.leadingPower < 0), Nat.toDigits 10 decimal.leadingPower.natAbs)
    ⟨negative, digits.take 1, digits.drop 1, some exponent⟩

/-- The parts of the numeral of a JSON number. -/
def JsonNumber.numeral : JsonNumber → JsonNumeral
  | natural value => ⟨false, Nat.toDigits 10 value, [], none⟩
  | negative magnitude => ⟨true, Nat.toDigits 10 magnitude, [], none⟩
  | real value => (value.shortest .even).jsonNumeral value.negative

/-- Only zero has a zero in front. -/
theorem eq_zero_of_head?_toDigits {value : Nat} (h : (Nat.toDigits 10 value).head? = some '0') :
    value = 0 := by
  induction value using Nat.strongRecOn with
  | ind value ih =>
    by_cases small : value < 10
    · have digits : ∀ digit < 10, Nat.digitChar digit = '0' → digit = 0 := by decide
      rw [Nat.toDigits_of_lt_base small] at h
      exact digits value small (by simpa using h)
    · rw [Nat.toDigits_of_base_le (by decide) (by omega)] at h
      cases digits : Nat.toDigits 10 (value / 10) with
      | nil => exact absurd digits Nat.toDigits_ne_nil
      | cons digit others =>
        rw [digits] at h
        have := ih (value / 10) (by omega) (by rw [digits]; simpa using h)
        omega

namespace JsonNumeral

theorem isDigit_of_mem_replicate {count : Nat} {char : Char}
    (h : char ∈ List.replicate count '0') : char.isDigit := by
  rw [(List.mem_replicate.mp h).2]
  rfl

/-- The point may stand behind all digits and the zeros that fill them up, unless these are zeros
    behind a zero. -/
theorem proper_behind (negative : Bool) {value zeros : Nat} (h : value = 0 → zeros = 0) :
    Proper ⟨negative, Nat.toDigits 10 value ++ List.replicate zeros '0', ['0'], none⟩ := by
  have digits := Digits.toDigits value
  refine ⟨⟨by simp [digits.ne_nil], ?_⟩, ?_, by simp, by simp⟩
  · intro char member
    rcases List.mem_append.mp member with member | member
    · exact digits.isDigit char member
    · exact isDigit_of_mem_replicate member
  · intro first
    have zero : value = 0 := by
      apply eq_zero_of_head?_toDigits
      rw [List.head?_append, List.head?_eq_some_head digits.ne_nil, Option.some_or] at first
      rw [List.head?_eq_some_head digits.ne_nil, first]
    rw [zero, h zero]
    rfl

/-- The point may stand between two digits. -/
theorem proper_inside (negative : Bool) {value places : Nat} (some_place : 0 < places)
    (inside : places < (Nat.toDigits 10 value).length) :
    Proper ⟨negative, (Nat.toDigits 10 value).take ((Nat.toDigits 10 value).length - places),
      (Nat.toDigits 10 value).drop ((Nat.toDigits 10 value).length - places), none⟩ := by
  have digits := Digits.toDigits value
  refine ⟨⟨?_, ?_⟩, ?_, ?_, by simp⟩
  · simp [digits.ne_nil]
    omega
  · intro char member
    exact digits.isDigit char (List.mem_of_mem_take member)
  · intro first
    rw [List.head?_take, if_neg (by omega)] at first
    rw [eq_zero_of_head?_toDigits first, Nat.toDigits_zero, List.length_singleton] at inside
    omega
  · intro char member
    exact digits.isDigit char (List.mem_of_mem_drop member)

/-- The point may stand before all digits, behind a zero. -/
theorem proper_before (negative : Bool) (value zeros : Nat) :
    Proper ⟨negative, ['0'], List.replicate zeros '0' ++ Nat.toDigits 10 value, none⟩ := by
  refine ⟨⟨by simp, by simp⟩, by simp, ?_, by simp⟩
  intro char member
  rcases List.mem_append.mp member with member | member
  · exact isDigit_of_mem_replicate member
  · exact (Digits.toDigits value).isDigit char member

theorem proper_scientific (negative : Bool) (value : Nat) (below : Bool) (power : Nat) :
    Proper ⟨negative, (Nat.toDigits 10 value).take 1, (Nat.toDigits 10 value).drop 1,
      some (below, Nat.toDigits 10 power)⟩ := by
  have digits := Digits.toDigits value
  refine ⟨⟨by simp [digits.ne_nil], ?_⟩, ?_, ?_, ?_⟩
  · intro char member
    exact digits.isDigit char (List.mem_of_mem_take member)
  · intro _
    have := List.length_pos_iff.mpr digits.ne_nil
    simp only [List.length_take]
    omega
  · intro char member
    exact digits.isDigit char (List.mem_of_mem_drop member)
  · intro exponent same
    cases same
    exact Digits.toDigits power

end JsonNumeral

namespace Decimal

variable {decimal : Decimal}

theorem jsonNumeral_proper (negative : Bool) (h : decimal.digits = 0 → decimal.exponent = 0) :
    (decimal.jsonNumeral negative).Proper := by
  unfold jsonNumeral
  by_cases positional : NumeralFormat.json.positional decimal.leadingPower = true
  · rw [if_pos positional]
    cases exponent : decimal.exponent with
    | ofNat zeros =>
      apply JsonNumeral.proper_behind negative
      intro zero
      have none := h zero
      rw [exponent] at none
      exact Int.ofNat_eq_zero.mp none
    | negSucc power =>
      dsimp only
      by_cases inside : power + 1 < (Nat.toDigits 10 decimal.digits).length
      · rw [if_pos inside]
        exact JsonNumeral.proper_inside negative (by omega) inside
      · rw [if_neg inside]
        exact JsonNumeral.proper_before negative _ _
  · rw [if_neg positional]
    exact JsonNumeral.proper_scientific negative _ _ _

theorem jsonNumeral_text (decimal : Decimal) (negative : Bool) :
    (decimal.jsonNumeral negative).text =
      (if negative then ['-'] else []) ++
        if NumeralFormat.json.positional decimal.leadingPower then decimal.positional true
        else decimal.scientific := by
  unfold jsonNumeral
  by_cases positional : NumeralFormat.json.positional decimal.leadingPower = true
  · rw [if_pos positional, if_pos positional]
    unfold Decimal.positional
    cases decimal.exponent with
    | ofNat zeros => simp [JsonNumeral.text, JsonNumeral.exponentText]
    | negSucc power =>
      dsimp only
      by_cases inside : power + 1 < (Nat.toDigits 10 decimal.digits).length
      · rw [if_pos inside, if_pos inside]
        have behind : (Nat.toDigits 10 decimal.digits).drop
            ((Nat.toDigits 10 decimal.digits).length - (power + 1)) ≠ [] := by
          simp only [ne_eq, List.drop_eq_nil_iff]
          omega
        simp [JsonNumeral.text, JsonNumeral.exponentText, behind]
      · rw [if_neg inside, if_neg inside]
        simp [JsonNumeral.text, JsonNumeral.exponentText, Nat.toDigits_ne_nil]
  · rw [if_neg positional, if_neg positional]
    unfold Decimal.scientific
    dsimp only
    cases digits : Nat.toDigits 10 decimal.digits with
    | nil => exact absurd digits Nat.toDigits_ne_nil
    | cons digit others =>
      cases others <;> simp [JsonNumeral.text, JsonNumeral.exponentText]

end Decimal

theorem Binary64.shortest_exponent_of_zero {x : Binary64} {tie : Tie}
    (h : (x.shortest tie).digits = 0) : (x.shortest tie).exponent = 0 := by
  by_cases zero : x.isZero = true
  · rw [shortest, if_pos zero]
  · exact absurd h (shortest_digits_ne_zero tie zero)

namespace JsonNumber

theorem numeral_proper (number : JsonNumber) : number.numeral.Proper := by
  have whole (negative : Bool) (value : Nat) :
      JsonNumeral.Proper ⟨negative, Nat.toDigits 10 value, [], none⟩ := by
    refine ⟨.toDigits value, ?_, by simp, by simp⟩
    intro first
    dsimp only
    rw [eq_zero_of_head?_toDigits first]
    rfl
  cases number with
  | natural value => exact whole false value
  | negative magnitude => exact whole true magnitude
  | real value => exact Decimal.jsonNumeral_proper _ Binary64.shortest_exponent_of_zero

theorem numeral_text (number : JsonNumber) : number.numeral.text = number.render.toList := by
  cases number with
  | natural value => simp [numeral, JsonNumeral.text, JsonNumeral.exponentText, render]
  | negative magnitude => simp [numeral, JsonNumeral.text, JsonNumeral.exponentText, render]
  | real value =>
    rw [numeral, Decimal.jsonNumeral_text, render, Binary64.numeral, String.toList_ofList]
    cases value.negative <;> rfl

theorem exists_render (number : JsonNumber) : ∃ char text,
    number.render.toList = char :: text ∧ (char = '-' ∨ char.isDigit = true) := by
  have digits := number.numeral_proper.whole
  rw [← number.numeral_text]
  unfold JsonNumeral.text
  cases number.numeral.negative with
  | true => exact ⟨'-', _, rfl, .inl rfl⟩
  | false =>
    cases whole : number.numeral.whole with
    | nil => exact absurd whole digits.ne_nil
    | cons digit others =>
      refine ⟨digit, _, rfl, .inr (digits.isDigit digit ?_)⟩
      rw [whole]
      exact List.mem_cons_self

end JsonNumber

/-! ## What numerals are read as -/

namespace JsonNumeral

theorem le_ofDigitChars (significand : Nat) (digits : List Char) :
    significand ≤ Nat.ofDigitChars 10 digits significand := by
  rw [Nat.ofDigitChars_eq_ofDigitChars_zero]
  have positive : 0 < 10 ^ digits.length := Nat.pow_pos (by decide)
  have grown := Nat.le_mul_of_pos_left significand positive
  omega

/-- Digits that fit the significand are all taken. -/
theorem gather_eq {significand : Nat} {digits : List Char}
    (fits : Nat.ofDigitChars 10 digits significand < 2 ^ 64) :
    gather significand digits = (Nat.ofDigitChars 10 digits significand, []) := by
  induction digits generalizing significand with
  | nil => rfl
  | cons digit digits ih =>
    rw [Nat.ofDigitChars_cons] at fits ⊢
    have next := Nat.lt_of_le_of_lt (le_ofDigitChars _ digits) fits
    rw [gather]
    exact (if_pos next).trans (ih fits)

/-- A numeral with a fraction or an exponent whose digits all fit the significand. -/
theorem value?_eq {numeral : JsonNumeral} {significand : Nat} (notWhole : numeral.isWhole = false)
    (value : Nat.ofDigitChars 10 (numeral.whole ++ numeral.fraction) 0 = significand)
    (fits : significand < 2 ^ 64) :
    numeral.value? = (withExponent significand (-(numeral.fraction.length : Int))
      numeral.exponent).map fun value => .real (value.withSign numeral.negative) := by
  rw [Nat.ofDigitChars_append] at value
  subst value
  have first := gather_eq (Nat.lt_of_le_of_lt (le_ofDigitChars _ _) fits)
  have second := gather_eq fits
  simp only [value?, first, second, notWhole, List.isEmpty_nil, List.length_nil]
  simp

/-- A numeral with a fraction or an exponent is read as a number that is not kept whole. -/
theorem exists_value? {numeral : JsonNumeral} (notWhole : numeral.isWhole = false) :
    ∃ value : Option Binary64, numeral.value? = value.map .real := by
  simp only [value?, notWhole, Bool.false_and, Bool.false_eq_true, if_false]
  exact ⟨(withExponent _ _ _).map (Binary64.withSign numeral.negative), by rw [Option.map_map]; rfl⟩

end JsonNumeral

theorem Decimal.jsonNumeral_isWhole (decimal : Decimal) (negative : Bool) :
    (decimal.jsonNumeral negative).isWhole = false := by
  unfold jsonNumeral
  by_cases positional : NumeralFormat.json.positional decimal.leadingPower = true
  · rw [if_pos positional]
    cases decimal.exponent with
    | ofNat zeros => rfl
    | negSucc power =>
      dsimp only
      by_cases inside : power + 1 < (Nat.toDigits 10 decimal.digits).length
      · rw [if_pos inside]
        simp [JsonNumeral.isWhole]
        omega
      · rw [if_neg inside]
        simp [JsonNumeral.isWhole, Nat.toDigits_ne_nil]
  · rw [if_neg positional]
    exact Bool.and_false _

/-- The number that the numeral of a JSON number is read as; nothing beyond the finite numbers. -/
def JsonNumber.reread (number : JsonNumber) : Option JsonNumber :=
  number.numeral.value?

namespace Binary64

/-- The digits of the shortest decimal as a significand, scaled by a power of ten: for a whole
    number, this is what JSON text keeps of it. Below `10 ^ 16` there is one zero behind the point,
    and it counts as a digit. -/
def rescaled (x : Binary64) : Option Binary64 :=
  let decimal := x.shortest .even
  let scaled :=
    if decimal.leadingPower ≤ 15 then
      JsonNumeral.scaled (decimal.digits * 10 ^ (decimal.exponent.toNat + 1)) (-1)
    else JsonNumeral.scaled decimal.digits decimal.exponent
  scaled.map (withSign x.negative)

section Whole

variable {x : Binary64} {digits power : Nat}

theorem leadingPower_eq (digits power : Nat) :
    Decimal.leadingPower ⟨digits, power⟩ = ((digitCount digits - 1 + power : Nat) : Int) := by
  have := digitCount_pos digits
  simp only [Decimal.leadingPower]
  omega

/-- A whole number below `10 ^ 16` is written with a zero behind the point. -/
theorem value?_of_positional (negative : Bool) (short : digitCount digits - 1 + power ≤ 15) :
    (Decimal.jsonNumeral ⟨digits, power⟩ negative).value? =
      (JsonNumeral.scaled (digits * 10 ^ (power + 1)) (-1)).map fun value =>
        .real (value.withSign negative) := by
  have positional :
      NumeralFormat.json.positional (Decimal.leadingPower ⟨digits, power⟩) = true := by
    rw [leadingPower_eq]
    simp only [NumeralFormat.json, Bool.and_eq_true, decide_eq_true_eq]
    omega
  have numeral : Decimal.jsonNumeral ⟨digits, power⟩ negative =
      ⟨negative, Nat.toDigits 10 digits ++ List.replicate power '0', ['0'], none⟩ := by
    unfold Decimal.jsonNumeral
    rw [if_pos positional]
  have fits : digits * 10 ^ (power + 1) < 2 ^ 64 := by
    have few : digits < 10 ^ (16 - power) := (digitCount_le_iff (by omega)).mp (by omega)
    calc
      digits * 10 ^ (power + 1) < 10 ^ (16 - power) * 10 ^ (power + 1) :=
        Nat.mul_lt_mul_of_pos_right few (Nat.pow_pos (by decide))
      _ = 10 ^ 17 := by rw [← Nat.pow_add, show 16 - power + (power + 1) = 17 by omega]
      _ < 2 ^ 64 := by decide
  rw [numeral]
  apply JsonNumeral.value?_eq rfl _ fits
  rw [List.append_assoc, show ['0'] = List.replicate 1 '0' from rfl,
    List.replicate_append_replicate, Nat.ofDigitChars_append, Nat.ofDigitChars_ten_toDigits,
    Nat.ofDigitChars_replicate_zero, Nat.mul_comm]

/-- A greater whole number is written with an exponent. -/
theorem value?_of_scientific (negative : Bool) (long : 15 < digitCount digits - 1 + power)
    (fits : digits < 2 ^ 64)
    (near : digitCount digits - 1 + power ≤ JsonNumeral.greatestExponent) :
    (Decimal.jsonNumeral ⟨digits, power⟩ negative).value? =
      (JsonNumeral.scaled digits power).map fun value => .real (value.withSign negative) := by
  have positional :
      ¬ NumeralFormat.json.positional (Decimal.leadingPower ⟨digits, power⟩) = true := by
    rw [leadingPower_eq]
    simp only [NumeralFormat.json, Bool.and_eq_true, decide_eq_true_eq]
    omega
  have numeral : Decimal.jsonNumeral ⟨digits, power⟩ negative =
      ⟨negative, (Nat.toDigits 10 digits).take 1, (Nat.toDigits 10 digits).drop 1,
        some (false, Nat.toDigits 10 (digitCount digits - 1 + power))⟩ := by
    unfold Decimal.jsonNumeral
    rw [if_neg positional, leadingPower_eq]
    rfl
  have value : Nat.ofDigitChars 10
      ((Nat.toDigits 10 digits).take 1 ++ (Nat.toDigits 10 digits).drop 1) 0 = digits := by
    rw [List.take_append_drop, Nat.ofDigitChars_ten_toDigits]
  have places : -(((Nat.toDigits 10 digits).drop 1).length : Int) +
      (digitCount digits - 1 + power : Nat) = power := by
    rw [List.length_drop]
    change -((digitCount digits - 1 : Nat) : Int) + _ = _
    omega
  rw [numeral]
  refine (JsonNumeral.value?_eq (by simp [JsonNumeral.isWhole]) value fits).trans ?_
  simp only [JsonNumeral.withExponent, Nat.ofDigitChars_ten_toDigits, if_pos near]
  rw [if_neg Bool.false_ne_true, places]

end Whole

/-- What a whole number is read as when it has been written as JSON. -/
theorem reread_of_isIntegral {x : Binary64} (whole : x.isIntegral = true) :
    (JsonNumber.real x).reread = x.rescaled.map .real := by
  have value : x.units = x.units / unitsInOne * unitsInOne :=
    (Nat.div_mul_cancel (Nat.dvd_of_mod_eq_zero (of_decide_eq_true whole))).symm
  obtain ⟨digits, power, shortest, reads⟩ := shortest_eq_withSign .even value
  have fits : digits ≤ 10 ^ 17 := by
    have seventeen := shortest_digits_le .even value
    rwa [shortest] at seventeen
  rw [JsonNumber.reread, JsonNumber.numeral, rescaled, shortest]
  dsimp only
  rw [leadingPower_eq]
  by_cases short : digitCount digits - 1 + power ≤ 15
  · rw [if_pos (by omega), value?_of_positional x.negative short, Option.map_map]
    rfl
  · have positive : digits ≠ 0 := by
      intro zero
      have none : (x.shortest .even).exponent = 0 :=
        shortest_exponent_of_zero (by rw [shortest, zero])
      rw [shortest] at none
      have : power = 0 := Int.ofNat_eq_zero.mp none
      have : digitCount digits = 1 := by
        rw [zero]
        rfl
      omega
    have near : digitCount digits - 1 + power ≤ JsonNumeral.greatestExponent := by
      have few := (digitCount_le_iff (by decide : 0 < 18)).mpr (Nat.lt_of_le_of_lt fits (by decide))
      have small := power_lt_of_ofNat? positive reads
      unfold JsonNumeral.greatestExponent
      omega
    rw [if_neg (by omega), value?_of_scientific x.negative (by omega) _ near, Option.map_map]
    · rfl
    · exact Nat.lt_of_le_of_lt fits (by decide)

end Binary64

end TinyScript
