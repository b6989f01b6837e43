import TinyScript.Proofs.Numerals

/-!
# Lengths of shortest decimals

Seventeen digits tell every whole number from all others: one of the decimals of seventeen digits
around a number is off by no more than a `2 * 10 ^ 16`th part, and whatever is off by less than a
`2 ^ 54`th part is rounded to the number. So the search for the shortest decimal of a whole number
never has to fall back on its exact value.
-/

namespace TinyScript

/-! ## Numbers around a number of the grid -/

theorem roundHalfEven_of_near {numerator denominator quotient : Nat}
    (below : 2 * quotient * denominator < 2 * numerator + denominator)
    (above : 2 * numerator < (2 * quotient + 1) * denominator) :
    roundHalfEven numerator denominator = quotient := by
  rw [Nat.mul_assoc] at below
  rw [Nat.add_mul, Nat.mul_assoc, Nat.one_mul] at above
  simp only [roundHalfEven]
  by_cases reached : quotient * denominator ≤ numerator
  · have floor : numerator / denominator = quotient :=
      Nat.div_eq_of_lt_le reached (by rw [Nat.add_mul, Nat.one_mul]; omega)
    have rest := Nat.div_add_mod numerator denominator
    rw [floor, Nat.mul_comm] at rest
    rw [floor, if_pos (by simp only [Bool.or_eq_true, decide_eq_true_eq]; omega)]
  · obtain ⟨floor, rfl⟩ : ∃ floor, quotient = floor + 1 := by
      refine ⟨quotient - 1, ?_⟩
      by_cases zero : quotient = 0
      · rw [zero, Nat.zero_mul] at reached
        omega
      · omega
    rw [Nat.add_mul, Nat.one_mul] at reached below above
    have floorEq : numerator / denominator = floor :=
      Nat.div_eq_of_lt_le (by omega) (by rw [Nat.add_mul, Nat.one_mul]; omega)
    have rest := Nat.div_add_mod numerator denominator
    rw [floorEq, Nat.mul_comm] at rest
    rw [floorEq, if_neg]
    simp only [Bool.or_eq_true, Bool.and_eq_true, decide_eq_true_eq]
    omega

theorem log2_div_eq {numerator denominator power : Nat} (low : 2 ^ power * denominator ≤ numerator)
    (high : numerator < 2 ^ (power + 1) * denominator) :
    Nat.log2 (numerator / denominator) = power := by
  have positive : 0 < denominator := by
    apply Nat.pos_of_ne_zero
    intro zero
    rw [zero, Nat.mul_zero] at high
    omega
  have reached : 2 ^ power ≤ numerator / denominator := (Nat.le_div_iff_mul_le positive).mpr low
  have nonzero : numerator / denominator ≠ 0 := by
    have := Nat.two_pow_pos power
    omega
  exact (Nat.log2_eq_iff nonzero).mpr ⟨reached, (Nat.div_lt_iff_lt_mul positive).mpr high⟩

namespace Binary64

/-- A quotient between two powers of two is rounded to the multiple of the grid's step there that
    is less than half a step away. -/
theorem nearestRank_of_step {numerator denominator scale quotient : Nat}
    (low : 2 ^ 52 * (denominator * 2 ^ scale) ≤ numerator)
    (high : numerator < 2 ^ 53 * (denominator * 2 ^ scale))
    (below : 2 * quotient * (denominator * 2 ^ scale) < 2 * numerator + denominator * 2 ^ scale)
    (above : 2 * numerator < (2 * quotient + 1) * (denominator * 2 ^ scale)) :
    nearestRank numerator denominator = scale * 2 ^ 52 + quotient := by
  have log : Nat.log2 (numerator / denominator) = 52 + scale := by
    apply log2_div_eq
    · rw [Nat.pow_add, Nat.mul_assoc, Nat.mul_comm (2 ^ scale)]
      exact low
    · rw [show 52 + scale + 1 = 53 + scale by omega, Nat.pow_add, Nat.mul_assoc,
        Nat.mul_comm (2 ^ scale)]
      exact high
  rw [nearestRank_eq scale (by omega), roundHalfEven_of_near below above]

/-- What is off a normal number by less than a `2 ^ 54`th part is rounded to it. At a power of two
    the grid is twice as fine below the number as it is above. -/
theorem nearestRank_of_near {numerator denominator scale significand : Nat}
    (low : 2 ^ 52 ≤ significand) (high : significand < 2 ^ 53)
    (below : (2 ^ 54 - 1) * (significand * 2 ^ scale * denominator) < 2 ^ 54 * numerator)
    (above : 2 ^ 54 * numerator < (2 ^ 54 + 1) * (significand * 2 ^ scale * denominator)) :
    nearestRank numerator denominator = scale * 2 ^ 52 + significand := by
  rw [Nat.mul_assoc significand, Nat.mul_comm (2 ^ scale)] at below above
  have lowest := Nat.mul_le_mul_right (denominator * 2 ^ scale) low
  have highest := Nat.mul_le_mul_right (denominator * 2 ^ scale) (Nat.succ_le_of_lt high)
  rw [Nat.succ_mul] at highest
  by_cases reached : 2 ^ 52 * (denominator * 2 ^ scale) ≤ numerator
  · apply nearestRank_of_step reached
    · omega
    · rw [Nat.mul_assoc]
      omega
    · rw [Nat.add_mul, Nat.mul_assoc]
      omega
  · have least : significand = 2 ^ 52 := by
      apply Nat.le_antisymm _ low
      apply Nat.le_of_not_lt
      intro greater
      have next := Nat.mul_le_mul_right (denominator * 2 ^ scale) (Nat.succ_le_of_lt greater)
      rw [Nat.succ_mul] at next
      omega
    subst least
    cases scale with
    | zero =>
      rw [Nat.pow_zero, Nat.mul_one] at below above reached
      have positive : 0 < denominator := by omega
      have small : numerator / denominator < 2 ^ 52 :=
        (Nat.div_lt_iff_lt_mul positive).mpr (by omega)
      have log : Nat.log2 (numerator / denominator) - 52 = 0 := by
        by_cases zero : numerator / denominator = 0
        · rw [zero]
          rfl
        · have := (Nat.log2_lt zero).mpr small
          omega
      rw [nearestRank_eq 0 log, Nat.pow_zero, Nat.mul_one, roundHalfEven_of_near] <;> omega
    | succ scale =>
      have double : denominator * 2 ^ (scale + 1) = 2 * (denominator * 2 ^ scale) := by
        rw [Nat.pow_succ]
        ac_rfl
      rw [double] at below above reached
      have rounded : nearestRank numerator denominator = scale * 2 ^ 52 + 2 ^ 53 :=
        nearestRank_of_step (by omega) (by omega) (by omega) (by omega)
      rw [rounded]
      omega

end Binary64

/-! ## Seventeen digits -/

theorem digitCount_le_iff {value count : Nat} (positive : 0 < count) :
    digitCount value ≤ count ↔ value < 10 ^ count :=
  Nat.length_toDigits_le_iff (by decide) positive

theorem digitCount_pos (value : Nat) : 0 < digitCount value :=
  Nat.length_toDigits_pos

theorem Decimal.trim_digits_le (decimal : Decimal) : decimal.trim.digits ≤ decimal.digits := by
  obtain ⟨zeros, digits, _, _⟩ := decimal.trim_eq
  rw [digits]
  exact Nat.le_mul_of_pos_right _ (Nat.pow_pos (by decide))

theorem Decimal.trim_digits_ne_zero {decimal : Decimal} (h : decimal.digits ≠ 0) :
    decimal.trim.digits ≠ 0 := by
  obtain ⟨zeros, digits, _, _⟩ := decimal.trim_eq
  intro zero
  rw [zero, Nat.zero_mul] at digits
  exact h digits

namespace Binary64

variable {x : Binary64} {value : Nat}

theorem nearestRank_zero (denominator : Nat) : nearestRank 0 denominator = 0 := by
  have round (step : Nat) : roundHalfEven 0 step = 0 := by
    simp only [roundHalfEven, Nat.zero_div, Nat.zero_mod]
    by_cases zero : step = 0
    · simp [zero]
    · simp [Nat.pos_of_ne_zero zero]
  rw [nearestRank_eq 0 (by rw [Nat.zero_div]; rfl), round, Nat.zero_mul]

theorem units_ne_zero (nonzero : ¬ x.isZero = true) : x.units ≠ 0 := by
  intro none
  apply nonzero
  have rank := nearestRank_unitsOfRank x.rank
  rw [← units, none, nearestRank_zero] at rank
  exact decide_eq_true rank.symm

theorem value_ne_zero (whole : x.units = value * unitsInOne) (nonzero : ¬ x.isZero = true) :
    value ≠ 0 := by
  intro zero
  apply units_ne_zero nonzero
  rw [whole, zero, Nat.zero_mul]

theorem two_pow_le_unitsInOne {power : Nat} (h : power ≤ 1074) : 2 ^ power ≤ unitsInOne := by
  obtain ⟨rest, split⟩ := Nat.exists_eq_add_of_le h
  rw [unitsInOne_eq, split, Nat.pow_add]
  exact Nat.le_mul_of_pos_right _ (Nat.two_pow_pos rest)

/-- A whole number other than zero has a normal significand. -/
theorem exists_significand (whole : x.units = value * unitsInOne) (positive : value ≠ 0) :
    ∃ scale significand, 2 ^ 52 ≤ significand ∧ significand < 2 ^ 53 ∧
      x.units = significand * 2 ^ scale ∧ x.rank = scale * 2 ^ 52 + significand := by
  have large : 2 ^ 52 ≤ x.rank := by
    apply Nat.le_of_not_lt
    intro small
    have few : x.units < 2 ^ 52 := by
      rw [units, unitsOfRank_of_lt (by omega)]
      exact small
    have many : 2 ^ 52 ≤ unitsInOne := two_pow_le_unitsInOne (by decide)
    have one : unitsInOne ≤ x.units := by
      rw [whole]
      exact Nat.le_mul_of_pos_left _ (Nat.pos_of_ne_zero positive)
    omega
  obtain ⟨scale, significand, rankEq, low, high⟩ : ∃ scale significand,
      x.rank = scale * 2 ^ 52 + significand ∧ 2 ^ 52 ≤ significand ∧ significand < 2 ^ 53 :=
    ⟨x.rank / 2 ^ 52 - 1, x.rank - (x.rank / 2 ^ 52 - 1) * 2 ^ 52, by omega, by omega, by omega⟩
  refine ⟨scale, significand, low, high, ?_, rankEq⟩
  rw [units, rankEq, unitsOfRank_significand scale low (Nat.le_of_lt high)]

/-- A multiple of a power of ten that is off a whole number by less than a `2 ^ 54`th part reads
    back as the number. -/
theorem readBy_of_near (whole : x.units = value * unitsInOne) (positive : value ≠ 0)
    {digits power : Nat} (below : (2 ^ 54 - 1) * value < 2 ^ 54 * (digits * 10 ^ power))
    (above : 2 ^ 54 * (digits * 10 ^ power) < (2 ^ 54 + 1) * value) :
    x.readBy ⟨digits, power⟩ = true := by
  refine decide_eq_true ?_
  dsimp only
  rw [ofDecimal?_natCast, ofNat?_eq_ofUnits?, ofUnits?_eq_some_iff]
  refine ⟨rfl, ?_⟩
  obtain ⟨scale, significand, low, high, unitsEq, rankEq⟩ := exists_significand whole positive
  refine rankEq.trans (nearestRank_of_near low high ?_ ?_).symm
  · rw [← unitsEq, whole, Nat.mul_one, ← Nat.mul_assoc (2 ^ 54 - 1), ← Nat.mul_assoc (2 ^ 54)]
    exact Nat.mul_lt_mul_of_pos_right below unitsInOne_pos
  · rw [← unitsEq, whole, Nat.mul_one, ← Nat.mul_assoc (2 ^ 54 + 1), ← Nat.mul_assoc (2 ^ 54)]
    exact Nat.mul_lt_mul_of_pos_right above unitsInOne_pos

theorem shortestOn_isSome_of_upper (tie : Tie) {exponent : Int}
    (h : x.readBy ⟨(x.overPower exponent).1 / (x.overPower exponent).2 + 1, exponent⟩ = true) :
    (x.shortestOn tie exponent).isSome := by
  simp only [shortestOn, h]
  split <;> simp_all

theorem overPower_floor (whole : x.units = value * unitsInOne) (power : Nat) :
    (x.overPower power).1 / (x.overPower power).2 = value / 10 ^ power := by
  rw [overPower_natCast, whole, Nat.mul_comm unitsInOne]
  exact Nat.mul_div_mul_right _ _ unitsInOne_pos

/-- Of the two multiples of a power of ten around a whole number, the nearer one reads back if the
    power is no more than a `10 ^ 16`th part of the number. -/
theorem shortestOn_isSome_of_le (tie : Tie) (whole : x.units = value * unitsInOne) {power : Nat}
    (fine : 10 ^ power * 10 ^ 16 ≤ value) : (x.shortestOn tie power).isSome := by
  have step : 0 < 10 ^ power := Nat.pow_pos (by decide)
  have positive : value ≠ 0 := by omega
  have around := Nat.div_add_mod value (10 ^ power)
  have rest := Nat.mod_lt value step
  rw [Nat.mul_comm] at around
  by_cases lower : 2 * (value % 10 ^ power) ≤ 10 ^ power
  · apply shortestOn_isSome
    rw [overPower_floor whole]
    exact readBy_of_near whole positive (by omega) (by omega)
  · apply shortestOn_isSome_of_upper
    rw [overPower_floor whole]
    apply readBy_of_near whole positive
    · rw [Nat.add_mul, Nat.one_mul]
      omega
    · rw [Nat.add_mul, Nat.one_mul]
      omega

/-- Seventeen digits suffice for a whole number. -/
theorem exists_hit (tie : Tie) (whole : x.units = value * unitsInOne) (positive : value ≠ 0) :
    ((List.range 17).findSome? fun (count : Nat) =>
      x.shortestOn tie (x.magnitude - (count + 1))).isSome := by
  rw [List.findSome?_isSome_iff, magnitude_eq whole positive]
  have some_digit := digitCount_pos value
  by_cases short : digitCount value ≤ 17
  · refine ⟨digitCount value - 1, List.mem_range.mpr (by omega), ?_⟩
    rw [show (digitCount value : Int) - ((digitCount value - 1 : Nat) + 1) = (0 : Nat) by omega]
    exact shortestOn_zero_isSome tie whole
  · refine ⟨16, List.mem_range.mpr (by decide), ?_⟩
    rw [show (digitCount value : Int) - ((16 : Nat) + 1) = (digitCount value - 17 : Nat) by omega]
    apply shortestOn_isSome_of_le tie whole
    rw [← Nat.pow_add, ← Nat.not_lt, ← digitCount_le_iff (by omega)]
    omega

theorem digits_le_of_shortestOn {tie : Tie} {exponent : Int} {decimal : Decimal}
    (h : x.shortestOn tie exponent = some decimal) :
    decimal.digits ≤ (x.overPower exponent).1 / (x.overPower exponent).2 + 1 := by
  simp only [shortestOn] at h
  split at h
  all_goals grind

/-- The search for the shortest decimal of a whole number ends with at most seventeen digits, or
    with the power of ten next to the greatest number of seventeen digits. -/
theorem digits_le_of_hit {tie : Tie} {decimal : Decimal} (whole : x.units = value * unitsInOne)
    (positive : value ≠ 0)
    (hit : ((List.range 17).findSome? fun (count : Nat) =>
      x.shortestOn tie (x.magnitude - (count + 1))) = some decimal) :
    decimal.digits ≤ 10 ^ 17 := by
  obtain ⟨power, exponent, _⟩ := natCast_of_hit whole positive hit
  obtain ⟨count, early, found⟩ := List.exists_of_findSome?_eq_some hit
  have onGrid := (shortestOn_eq_some found).1
  rw [magnitude_eq whole positive] at onGrid
  have next := digits_le_of_shortestOn found
  rw [magnitude_eq whole positive, ← onGrid, exponent, overPower_floor whole] at next
  have fits : value / 10 ^ power < 10 ^ (count + 1) := by
    rw [Nat.div_lt_iff_lt_mul (Nat.pow_pos (by decide)), ← Nat.pow_add,
      ← digitCount_le_iff (by omega)]
    omega
  have longest : 10 ^ (count + 1) ≤ 10 ^ 17 :=
    Nat.pow_le_pow_right (by decide) (List.mem_range.mp early)
  omega

theorem shortest_of_hit {tie : Tie} {decimal : Decimal} (nonzero : ¬ x.isZero = true)
    (hit : ((List.range 17).findSome? fun (count : Nat) =>
      x.shortestOn tie (x.magnitude - (count + 1))) = some decimal) :
    x.shortest tie = decimal.trim := by
  unfold shortest
  rw [if_neg nonzero]
  dsimp only
  rw [hit, Option.getD_some]

theorem shortest_digits_le (tie : Tie) (whole : x.units = value * unitsInOne) :
    (x.shortest tie).digits ≤ 10 ^ 17 := by
  by_cases zero : x.isZero = true
  · unfold shortest
    rw [if_pos zero]
    exact Nat.zero_le _
  · have positive := value_ne_zero whole zero
    obtain ⟨decimal, hit⟩ := Option.isSome_iff_exists.mp (exists_hit tie whole positive)
    rw [shortest_of_hit zero hit]
    exact Nat.le_trans decimal.trim_digits_le (digits_le_of_hit whole positive hit)

/-! ## Decimals of zero and of great numbers -/

theorem rank_of_ofDecimal?_zero {exponent : Int} (h : ofDecimal? 0 exponent = some x) :
    x.rank = 0 := by
  cases exponent with
  | ofNat power =>
    rw [ofDecimal?, Nat.zero_mul, Nat.zero_mul, ofUnits?_eq_some_iff, nearestRank_zero] at h
    exact h.2
  | negSucc power =>
    rw [ofDecimal?, Nat.zero_mul, ofUnits?_eq_some_iff, nearestRank_zero] at h
    exact h.2

theorem exactDecimal_digits_ne_zero (nonzero : ¬ x.isZero = true) : x.exactDecimal.digits ≠ 0 :=
  Nat.mul_ne_zero (units_ne_zero nonzero) (Nat.ne_of_gt (Nat.pow_pos (by decide)))

/-- The shortest decimal of a number other than zero has a digit other than zero. -/
theorem shortest_digits_ne_zero (tie : Tie) (nonzero : ¬ x.isZero = true) :
    (x.shortest tie).digits ≠ 0 := by
  cases hit : (List.range 17).findSome? fun (count : Nat) =>
      x.shortestOn tie (x.magnitude - (count + 1)) with
  | none =>
    have exact : x.shortest tie = x.exactDecimal.trim := by
      unfold shortest
      rw [if_neg nonzero]
      dsimp only
      rw [hit, Option.getD_none]
    rw [exact]
    exact Decimal.trim_digits_ne_zero (exactDecimal_digits_ne_zero nonzero)
  | some decimal =>
    rw [shortest_of_hit nonzero hit]
    apply Decimal.trim_digits_ne_zero
    intro zero
    obtain ⟨count, _, found⟩ := List.exists_of_findSome?_eq_some hit
    have reads := of_decide_eq_true (shortestOn_eq_some found).2
    rw [zero] at reads
    have rank : (x.withSign false).rank = 0 := rank_of_ofDecimal?_zero reads
    exact nonzero (decide_eq_true rank)

/-- The rank of a number tells the power of two it has reached. -/
theorem le_nearestRank {units power : Nat} (reached : 2 ^ (52 + power) ≤ units) :
    (power + 1) * 2 ^ 52 ≤ nearestRank units 1 := by
  have nonzero : units ≠ 0 := by
    have := Nat.two_pow_pos (52 + power)
    omega
  have least := (Nat.le_log2 nonzero).mpr reached
  obtain ⟨scale, log⟩ := Nat.exists_eq_add_of_le (Nat.le_trans (Nat.le_add_right 52 power) least)
  obtain ⟨low, high⟩ := (Nat.log2_eq_iff nonzero).mp log
  rw [Nat.pow_add] at low
  rw [show 52 + scale + 1 = 53 + scale by omega, Nat.pow_add] at high
  have rounded := (roundHalfEven_bounds (Nat.two_pow_pos scale) low high).1
  rw [nearestRank_eq scale (by rw [Nat.div_one, log, Nat.add_sub_cancel_left]), Nat.one_mul]
  omega

/-- A natural number that is rounded to a finite one has at most 1024 binary digits. -/
theorem log2_lt_of_ofNat? (h : ofNat? value = some x) : Nat.log2 value < 1024 := by
  rw [ofNat?_eq_ofUnits?, ofUnits?_eq_some_iff] at h
  by_cases zero : value = 0
  · rw [zero]
    decide
  have reached : 2 ^ (52 + (Nat.log2 value + 1022)) ≤ value * unitsInOne := by
    rw [show 52 + (Nat.log2 value + 1022) = Nat.log2 value + 1074 by omega, Nat.pow_add,
      ← unitsInOne_eq]
    exact Nat.mul_le_mul_right unitsInOne (Nat.log2_self_le zero)
  have rank := le_nearestRank reached
  rw [← h.2] at rank
  have finite := x.rank_lt
  rw [Nat.pow_eq] at finite
  omega

/-- A decimal that reads as a finite number has no great power of ten. -/
theorem power_lt_of_ofNat? {digits power : Nat} (positive : digits ≠ 0)
    (h : ofNat? (digits * 10 ^ power) = some x) : 3 * power < 1024 := by
  have eight : 2 ^ (3 * power) ≤ 10 ^ power := by
    rw [Nat.pow_mul]
    exact Nat.pow_le_pow_left (by decide) power
  have reached : 2 ^ (3 * power) ≤ digits * 10 ^ power :=
    Nat.le_trans eight (Nat.le_mul_of_pos_left _ (Nat.pos_of_ne_zero positive))
  have nonzero : digits * 10 ^ power ≠ 0 := by
    have := Nat.two_pow_pos (3 * power)
    omega
  exact Nat.lt_of_le_of_lt ((Nat.le_log2 nonzero).mpr reached) (log2_lt_of_ofNat? h)

end Binary64

end TinyScript
