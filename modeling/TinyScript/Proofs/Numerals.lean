import Mathlib.Algebra.Group.Nat.Defs
import TinyScript.Number.Numeral

/-!
# Whole numbers and their numerals

A row of digits is read as a whole number, and the numeral of a whole number is a row of digits that
is read back as the same number. The reading half rests on the grid of binary64 numbers: rounding a
number of units that is on the grid changes nothing, and rounding a multiple of one gives a multiple
of one. The writing half follows the search for the shortest decimal: it passes the power zero of
ten before any negative one, and there a whole number is read back exactly.
-/

namespace TinyScript

/-! ## Rounding to the grid -/

theorem roundHalfEven_mul (quotient : Nat) {denominator : Nat} (h : 0 < denominator) :
    roundHalfEven (quotient * denominator) denominator = quotient := by
  simp [roundHalfEven, h]

theorem roundHalfEven_bounds {numerator denominator low high : Nat} (h : 0 < denominator)
    (atLeast : low * denominator ≤ numerator) (below : numerator < high * denominator) :
    low ≤ roundHalfEven numerator denominator ∧ roundHalfEven numerator denominator ≤ high := by
  have lower : low ≤ numerator / denominator := (Nat.le_div_iff_mul_le h).mpr atLeast
  have upper : numerator / denominator < high := (Nat.div_lt_iff_lt_mul h).mpr below
  simp only [roundHalfEven]
  split <;> omega

namespace Binary64

theorem unitsInOne_eq : unitsInOne = 2 ^ 1074 := rfl

theorem scaleOfRank_eq (rank : Nat) : scaleOfRank rank = rank / 2 ^ 52 - 1 := rfl

theorem unitsOfRank_eq (rank : Nat) :
    unitsOfRank rank = (rank - scaleOfRank rank * 2 ^ 52) * 2 ^ scaleOfRank rank := rfl

theorem nearestRank_eq {numerator denominator : Nat} (scale : Nat)
    (h : Nat.log2 (numerator / denominator) - 52 = scale) :
    nearestRank numerator denominator =
      scale * 2 ^ 52 + roundHalfEven numerator (denominator * 2 ^ scale) := by
  subst h
  rfl

/-- The value of a number in terms of its significand, also where rounding has carried the
    significand up to the next power of two. -/
theorem unitsOfRank_significand {significand : Nat} (scale : Nat) (low : 2 ^ 52 ≤ significand)
    (high : significand ≤ 2 ^ 53) :
    unitsOfRank (scale * 2 ^ 52 + significand) = significand * 2 ^ scale := by
  rcases Nat.lt_or_eq_of_le high with less | carried
  · have scaleEq : scaleOfRank (scale * 2 ^ 52 + significand) = scale := by
      rw [scaleOfRank_eq]
      omega
    rw [unitsOfRank_eq, scaleEq, Nat.add_sub_cancel_left]
  · have scaleEq : scaleOfRank (scale * 2 ^ 52 + significand) = scale + 1 := by
      rw [scaleOfRank_eq]
      omega
    have rest : scale * 2 ^ 52 + significand - (scale + 1) * 2 ^ 52 = 2 ^ 52 := by omega
    rw [unitsOfRank_eq, scaleEq, rest, carried, ← Nat.pow_add, ← Nat.pow_add]
    congr 1
    omega

/-- A whole number of units with a normal significand is not rounded. -/
theorem nearestRank_significand {significand : Nat} (scale : Nat) (low : 2 ^ 52 ≤ significand)
    (high : significand < 2 ^ 53) :
    nearestRank (significand * 2 ^ scale) 1 = scale * 2 ^ 52 + significand := by
  have positive : 0 < 2 ^ scale := Nat.two_pow_pos scale
  have log : (significand * 2 ^ scale).log2 = 52 + scale := by
    rw [Nat.log2_eq_iff (Nat.mul_ne_zero (by omega) (by omega)), Nat.pow_add,
      show 52 + scale + 1 = 53 + scale by omega, Nat.pow_add]
    exact ⟨Nat.mul_le_mul_right _ low, Nat.mul_lt_mul_of_pos_right high positive⟩
  rw [nearestRank_eq scale (by rw [Nat.div_one, log, Nat.add_sub_cancel_left]), Nat.one_mul,
    roundHalfEven_mul _ positive]

/-- Few units are not rounded either. -/
theorem nearestRank_of_lt {rank : Nat} (h : rank < 2 ^ 53) : nearestRank rank 1 = rank := by
  have log : rank.log2 - 52 = 0 := by
    by_cases zero : rank = 0
    · rw [zero]
      rfl
    · have := (Nat.log2_lt zero).mpr h
      omega
  have round := roundHalfEven_mul rank Nat.one_pos
  rw [nearestRank_eq 0 (by rw [Nat.div_one, log]), Nat.zero_mul, Nat.zero_add, Nat.pow_zero]
  rwa [Nat.mul_one] at round

theorem unitsOfRank_of_lt {rank : Nat} (h : rank < 2 ^ 53) : unitsOfRank rank = rank := by
  have scale : scaleOfRank rank = 0 := by
    rw [scaleOfRank_eq]
    omega
  rw [unitsOfRank_eq, scale, Nat.zero_mul, Nat.sub_zero, Nat.pow_zero, Nat.mul_one]

/-- Numbers that are on the grid are not rounded. -/
theorem nearestRank_unitsOfRank (rank : Nat) : nearestRank (unitsOfRank rank) 1 = rank := by
  by_cases small : rank < 2 ^ 53
  · rw [unitsOfRank_of_lt small, nearestRank_of_lt small]
  · obtain ⟨scale, significand, rfl, low, high⟩ : ∃ scale significand,
        rank = scale * 2 ^ 52 + significand ∧ 2 ^ 52 ≤ significand ∧ significand < 2 ^ 53 :=
      ⟨rank / 2 ^ 52 - 1, rank - (rank / 2 ^ 52 - 1) * 2 ^ 52, by omega, by omega, by omega⟩
    rw [unitsOfRank_significand scale low (Nat.le_of_lt high),
      nearestRank_significand scale low high]

theorem unitsInOne_pos : 0 < unitsInOne := by
  rw [unitsInOne_eq]
  exact Nat.two_pow_pos 1074

/-- Rounding a whole number gives a whole number: either the grid is fine enough to hold it, or the
    grid has only whole numbers there. -/
theorem unitsInOne_dvd_nearest (value : Nat) :
    unitsInOne ∣ unitsOfRank (nearestRank (value * unitsInOne) 1) := by
  by_cases zero : value = 0
  · rw [zero, Nat.zero_mul, nearestRank_of_lt (by decide), unitsOfRank_of_lt (by decide)]
    exact Nat.dvd_zero _
  have nonzero : value * unitsInOne ≠ 0 := Nat.mul_ne_zero zero (Nat.ne_of_gt unitsInOne_pos)
  have log : 1074 ≤ (value * unitsInOne).log2 := by
    rw [Nat.le_log2 nonzero, ← unitsInOne_eq]
    exact Nat.le_mul_of_pos_left unitsInOne (Nat.pos_of_ne_zero zero)
  obtain ⟨scale, logEq⟩ : ∃ scale, (value * unitsInOne).log2 = 52 + scale :=
    ⟨(value * unitsInOne).log2 - 52, by omega⟩
  obtain ⟨low, high⟩ := (Nat.log2_eq_iff nonzero).mp logEq
  rw [show 52 + scale + 1 = 53 + scale by omega, Nat.pow_add] at high
  rw [Nat.pow_add] at low
  have bounds := roundHalfEven_bounds (Nat.two_pow_pos scale) low high
  have rank : nearestRank (value * unitsInOne) 1 =
      scale * 2 ^ 52 + roundHalfEven (value * unitsInOne) (2 ^ scale) := by
    rw [nearestRank_eq scale (by rw [Nat.div_one, logEq, Nat.add_sub_cancel_left]), Nat.one_mul]
  rw [rank, unitsOfRank_significand scale bounds.1 bounds.2]
  by_cases fine : scale < 1074
  · have exact : value * unitsInOne = value * 2 ^ (1074 - scale) * 2 ^ scale := by
      rw [unitsInOne_eq, Nat.mul_assoc, ← Nat.pow_add, Nat.sub_add_cancel (Nat.le_of_lt fine)]
    rw [exact, roundHalfEven_mul _ (Nat.two_pow_pos scale), ← exact]
    exact Nat.dvd_mul_left _ _
  · exact Nat.dvd_trans (Nat.pow_dvd_pow 2 (Nat.le_of_not_lt fine)) (Nat.dvd_mul_left _ _)

/-! ## Reading rows of digits -/

theorem ofUnits?_eq_some_iff {negative : Bool} {numerator denominator : Nat} {x : Binary64} :
    ofUnits? negative numerator denominator = some x ↔
      x.negative = negative ∧ x.rank = nearestRank numerator denominator := by
  obtain ⟨sign, rank, bound⟩ := x
  unfold ofUnits?
  split
  · simp only [Option.some.injEq, mk.injEq]
    exact ⟨fun h => ⟨h.1.symm, h.2.symm⟩, fun h => ⟨h.1.symm, h.2.symm⟩⟩
  · simp only [reduceCtorEq, false_iff, not_and]
    intro _ rankEq
    omega

theorem ofNat?_eq_ofUnits? (value : Nat) :
    ofNat? value = ofUnits? false (value * unitsInOne) 1 := by
  have unfolded : ofNat? value = ofUnits? false (value * Nat.pow 10 0 * unitsInOne) 1 := rfl
  rw [unfolded, Nat.pow_eq, Nat.pow_zero, Nat.mul_one]

theorem ofDecimal?_natCast (digits power : Nat) :
    ofDecimal? digits power = ofNat? (digits * 10 ^ power) := by
  rw [ofNat?_eq_ofUnits?]
  rfl

/-- A row of digits denotes a whole number with a clear sign, rounded or not. -/
theorem isIntegral_of_ofDigits? {digits : List Char} {x : Binary64}
    (h : ofDigits? digits = some x) : x.negative = false ∧ x.isIntegral = true := by
  rw [ofDigits?, ofNat?_eq_ofUnits?, ofUnits?_eq_some_iff] at h
  refine ⟨h.1, decide_eq_true (Nat.mod_eq_zero_of_dvd ?_)⟩
  rw [units, h.2]
  exact unitsInOne_dvd_nearest _

theorem isIntegral_zero : zero.isIntegral = true := by
  refine decide_eq_true ?_
  rw [units, zero, unitsOfRank_of_lt (by decide), Nat.zero_mod]

/-- A whole number is what its value is read as. -/
theorem ofNat?_of_units_eq {x : Binary64} {value : Nat} (sign : x.negative = false)
    (h : x.units = value * unitsInOne) : ofNat? value = some x := by
  rw [ofNat?_eq_ofUnits?, ofUnits?_eq_some_iff, ← h, units, nearestRank_unitsOfRank]
  exact ⟨sign, rfl⟩

theorem withSign_of_eq {x : Binary64} {negative : Bool} (sign : x.negative = negative) :
    x.withSign negative = x := by
  subst sign
  rfl

end Binary64

/-! ## Shortest decimals of whole numbers -/

/-- Trimming takes away as many zeros as there are. -/
theorem Decimal.trim_eq (decimal : Decimal) :
    ∃ zeros : Nat, decimal.digits = decimal.trim.digits * 10 ^ zeros ∧
      decimal.trim.exponent = decimal.exponent + zeros ∧
      (decimal.digits ≠ 0 → decimal.trim.digits % 10 ≠ 0) := by
  fun_induction Decimal.trim decimal with
  | case1 decimal h ih =>
    obtain ⟨zeros, digits, exponent, last⟩ := ih
    dsimp only at digits exponent last
    refine ⟨zeros + 1, ?_, ?_, fun _ => last (by omega)⟩
    · rw [Nat.pow_succ, ← Nat.mul_assoc, ← digits]
      omega
    · rw [exponent]
      omega
  | case2 decimal h => exact ⟨0, by simp, by simp, by omega⟩

/-- A whole number written with places behind the point loses all of them. -/
theorem Decimal.trim_places {value : Nat} (positive : value ≠ 0) (places : Nat) :
    ∃ digits power : Nat, Decimal.trim ⟨value * 10 ^ places, -places⟩ = ⟨digits, power⟩ ∧
      digits * 10 ^ power = value := by
  induction places with
  | zero =>
    obtain ⟨zeros, digits, exponent, _⟩ := Decimal.trim_eq ⟨value * 10 ^ 0, -(0 : Nat)⟩
    generalize Decimal.trim ⟨value * 10 ^ 0, -(0 : Nat)⟩ = trimmed at digits exponent ⊢
    obtain ⟨trimmedDigits, trimmedExponent⟩ := trimmed
    dsimp only at digits exponent
    refine ⟨trimmedDigits, zeros, by simp [exponent], ?_⟩
    rw [← digits, Nat.pow_zero, Nat.mul_one]
  | succ places ih =>
    have shorter : value * 10 ^ (places + 1) / 10 = value * 10 ^ places := by
      rw [Nat.pow_succ, ← Nat.mul_assoc, Nat.mul_div_cancel _ (by decide)]
    have zero : value * 10 ^ (places + 1) % 10 = 0 := by
      rw [Nat.pow_succ, ← Nat.mul_assoc, Nat.mul_mod_left]
    have nonzero : value * 10 ^ (places + 1) ≠ 0 :=
      Nat.mul_ne_zero positive (Nat.ne_of_gt (Nat.pow_pos (by decide)))
    rw [Decimal.trim, if_pos ⟨zero, nonzero⟩]
    dsimp only
    rw [shorter, show -((places + 1 : Nat) : Int) + 1 = -places by omega]
    exact ih

/-- A search along the natural numbers ends at the first hit. -/
theorem findSome?_range_eq_some {α : Type} {f : Nat → Option α} {bound : Nat} {a : α}
    (h : (List.range bound).findSome? f = some a) :
    ∃ first, f first = some a ∧ ∀ earlier < first, f earlier = none := by
  obtain ⟨before, first, behind, split, hit, missed⟩ := List.findSome?_eq_some_iff.mp h
  rw [List.range_eq_range', List.range'_eq_append_iff] at split
  obtain ⟨count, _, rfl, rest⟩ := split
  have firstEq : first = count := by
    have := (List.range'_eq_cons_iff.mp rest.symm).1
    omega
  refine ⟨first, hit, fun earlier less => missed earlier ?_⟩
  rw [List.mem_range'_1]
  omega

namespace Binary64

/-- What is found on the grid of a power of ten is on it and reads back. -/
theorem shortestOn_eq_some {tie : Tie} {x : Binary64} {exponent : Int} {decimal : Decimal}
    (h : x.shortestOn tie exponent = some decimal) :
    decimal.exponent = exponent ∧ x.readBy decimal = true := by
  simp only [shortestOn] at h
  split at h
  all_goals grind

theorem shortestOn_isSome (tie : Tie) {x : Binary64} {exponent : Int}
    (h : x.readBy ⟨(x.overPower exponent).1 / (x.overPower exponent).2, exponent⟩ = true) :
    (x.shortestOn tie exponent).isSome := by
  simp only [shortestOn, h]
  split <;> simp_all

theorem overPower_natCast (x : Binary64) (power : Nat) :
    x.overPower power = (x.units, unitsInOne * 10 ^ power) :=
  rfl

/-- A whole number reads back from its value, so the grid of the power zero has a hit. -/
theorem shortestOn_zero_isSome (tie : Tie) {x : Binary64} {value : Nat}
    (h : x.units = value * unitsInOne) : (x.shortestOn tie (0 : Nat)).isSome := by
  apply shortestOn_isSome
  rw [overPower_natCast, Nat.pow_zero, Nat.mul_one, h, Nat.mul_div_cancel _ unitsInOne_pos]
  exact decide_eq_true (ofNat?_of_units_eq (x := x.withSign false) rfl h)

theorem exactDecimal_eq {x : Binary64} {value : Nat} (h : x.units = value * unitsInOne) :
    x.exactDecimal = ⟨value * 10 ^ 1074, -(1074 : Nat)⟩ := by
  rw [exactDecimal, h, unitsInOne_eq, Nat.pow_eq, Nat.mul_assoc, ← Nat.mul_pow]
  rfl

theorem magnitude_eq {x : Binary64} {value : Nat} (h : x.units = value * unitsInOne)
    (positive : value ≠ 0) : x.magnitude = digitCount value := by
  have large : unitsInOne ≤ x.units := by
    rw [h]
    exact Nat.le_mul_of_pos_left unitsInOne (Nat.pos_of_ne_zero positive)
  rw [magnitude, if_pos large, h, Nat.mul_div_cancel _ unitsInOne_pos]

/-- The search for the shortest decimal of a whole number ends before it needs a place behind the
    point. -/
theorem natCast_of_hit {tie : Tie} {x : Binary64} {value : Nat} {decimal : Decimal}
    (h : x.units = value * unitsInOne) (positive : value ≠ 0)
    (hit : ((List.range 17).findSome? fun (count : Nat) =>
      x.shortestOn tie (x.magnitude - (count + 1))) = some decimal) :
    ∃ power : Nat, decimal.exponent = power ∧ x.readBy decimal = true := by
  obtain ⟨count, found, missed⟩ := findSome?_range_eq_some hit
  obtain ⟨exponent, reads⟩ := shortestOn_eq_some found
  rw [magnitude_eq h positive] at exponent missed
  have some_digit : 0 < digitCount value := List.length_pos_iff.mpr Nat.toDigits_ne_nil
  have early : count < digitCount value := by
    -- Were the hit later, the search would have passed the power zero without one.
    apply Nat.lt_of_not_le
    intro late
    have miss := missed (digitCount value - 1) (by omega)
    have last : (digitCount value : Int) - ((digitCount value - 1 : Nat) + 1) = (0 : Nat) := by
      omega
    rw [last] at miss
    have some := shortestOn_zero_isSome tie h
    rw [miss, Option.isSome_none] at some
    exact Bool.false_ne_true some
  exact ⟨digitCount value - (count + 1), by omega, reads⟩

/-- The shortest decimal of a whole number has no places behind the point, and it is read back as
    the absolute value. -/
theorem shortest_eq_withSign (tie : Tie) {x : Binary64} {value : Nat}
    (h : x.units = value * unitsInOne) :
    ∃ digits power : Nat, x.shortest tie = ⟨digits, power⟩ ∧
      ofNat? (digits * 10 ^ power) = some (x.withSign false) := by
  unfold shortest
  split
  case isTrue zero =>
    have rank : x.rank = 0 := of_decide_eq_true zero
    refine ⟨0, 0, rfl, ?_⟩
    rw [Nat.zero_mul]
    apply ofNat?_of_units_eq (x := x.withSign false) rfl
    rw [units, withSign, rank, unitsOfRank_of_lt (by decide), Nat.zero_mul]
  case isFalse nonzero =>
    have positive : value ≠ 0 := by
      rintro rfl
      apply nonzero
      have rank := nearestRank_unitsOfRank x.rank
      rw [← units, h, Nat.zero_mul, nearestRank_of_lt (by decide)] at rank
      exact decide_eq_true rank.symm
    dsimp only
    generalize found : List.findSome? _ _ = hit
    cases hit with
    | none =>
      -- All digits of the exact value are taken; those behind the point are zeros.
      obtain ⟨digits, power, trimmed, valueEq⟩ := Decimal.trim_places positive 1074
      refine ⟨digits, power, ?_, ?_⟩
      · rw [Option.getD_none, exactDecimal_eq h, trimmed]
      · rw [valueEq]
        exact ofNat?_of_units_eq (x := x.withSign false) rfl h
    | some decimal =>
      obtain ⟨power, exponent, reads⟩ := natCast_of_hit h positive found
      obtain ⟨zeros, digits, trimmedExponent, _⟩ := decimal.trim_eq
      refine ⟨decimal.trim.digits, power + zeros, ?_, ?_⟩
      · rw [Option.getD_some, Int.natCast_add, ← exponent, ← trimmedExponent]
      · rw [Nat.add_comm, Nat.pow_add, ← Nat.mul_assoc, ← digits, ← ofDecimal?_natCast, ← exponent,
          of_decide_eq_true reads]

theorem shortest_eq (tie : Tie) {x : Binary64} {value : Nat} (sign : x.negative = false)
    (h : x.units = value * unitsInOne) :
    ∃ digits power : Nat, x.shortest tie = ⟨digits, power⟩ ∧
      ofNat? (digits * 10 ^ power) = some x := by
  obtain ⟨digits, power, shortest, reads⟩ := shortest_eq_withSign tie h
  rw [withSign_of_eq sign] at reads
  exact ⟨digits, power, shortest, reads⟩

theorem toList_numeral {x : Binary64} (sign : x.negative = false) {digits power : Nat}
    (shortest : x.shortest .upper = ⟨digits, power⟩) :
    (x.numeral .plain).toList = Nat.toDigits 10 digits ++ List.replicate power '0' := by
  have unfolded : x.numeral .plain =
      String.ofList (if x.negative then '-' :: (x.shortest .upper).positional false
        else (x.shortest .upper).positional false) := rfl
  rw [unfolded, sign, shortest, String.toList_ofList]
  exact List.append_nil _

/-- The numeral of a whole number is a row of digits that is read as the number. -/
theorem ofDigits?_numeral {x : Binary64} (sign : x.negative = false) (whole : x.isIntegral = true) :
    (x.numeral .plain).toList ≠ [] ∧ (∀ c ∈ (x.numeral .plain).toList, c.isDigit) ∧
      ofDigits? (x.numeral .plain).toList = some x := by
  have h : x.units = x.units / unitsInOne * unitsInOne :=
    (Nat.div_mul_cancel (Nat.dvd_of_mod_eq_zero (of_decide_eq_true whole))).symm
  obtain ⟨digits, power, shortest, reads⟩ := shortest_eq .upper sign h
  rw [toList_numeral sign shortest]
  refine ⟨by simp [Nat.toDigits_ne_nil], ?_, ?_⟩
  · intro c member
    rcases List.mem_append.mp member with digit | zero
    · exact Nat.isDigit_of_mem_toDigits (by decide) (by decide) digit
    · rw [(List.mem_replicate.mp zero).2]
      rfl
  · rw [ofDigits?, Nat.ofDigitChars_append, Nat.ofDigitChars_ten_toDigits,
      Nat.ofDigitChars_replicate_zero, Nat.mul_comm, reads]

end Binary64

end TinyScript
