import Mathlib.Data.Nat.Dist
import TinyScript.Proofs.KeptNumbers

/-!
# The numbers that whole numbers are written as

Many natural numbers are read as the same binary64 number, and one of them is written for it. It is
told by arithmetic alone: of the numbers that are read alike it has the most zeros at its end, and
of those with as many zeros it is the nearest to the binary64 number, the greater one of two equally
near. Rounding is monotone, so the numbers that are read alike have no gap, and the multiples of a
power of ten next to the binary64 number decide about all others.
-/

namespace TinyScript

/-! ## Rounding is monotone -/

theorem roundHalfEven_mono {numerator numerator' : Nat} (denominator : Nat)
    (h : numerator ≤ numerator') :
    roundHalfEven numerator denominator ≤ roundHalfEven numerator' denominator := by
  have floors : numerator / denominator ≤ numerator' / denominator := Nat.div_le_div_right h
  rcases Nat.lt_or_eq_of_le floors with less | same
  · simp only [roundHalfEven]
    split <;> split <;> omega
  · have rest := Nat.div_add_mod numerator denominator
    have rest' := Nat.div_add_mod numerator' denominator
    rw [← same] at rest'
    simp only [roundHalfEven, ← same, Bool.or_eq_true, Bool.and_eq_true, decide_eq_true_eq]
    split <;> split <;> omega

namespace Binary64

theorem nearestRank_mono {few many : Nat} (h : few ≤ many) :
    nearestRank few 1 ≤ nearestRank many 1 := by
  by_cases zero : few = 0
  · rw [zero, nearestRank_zero]
    exact Nat.zero_le _
  have nonzero : many ≠ 0 := by omega
  have logs : few.log2 ≤ many.log2 :=
    (Nat.le_log2 nonzero).mpr (Nat.le_trans (Nat.log2_self_le zero) h)
  by_cases same : few.log2 - 52 = many.log2 - 52
  · rw [nearestRank_eq (many.log2 - 52) (by rw [Nat.div_one, same]),
      nearestRank_eq (many.log2 - 52) (by rw [Nat.div_one])]
    exact Nat.add_le_add_left (roundHalfEven_mono _ h) _
  · -- The power of two between the two numbers separates their ranks.
    have below : few < 2 ^ (53 + (few.log2 - 52)) :=
      Nat.lt_of_lt_of_le Nat.lt_log2_self (Nat.pow_le_pow_right (by decide) (by omega))
    have reached : 2 ^ (52 + (many.log2 - 52)) ≤ many := by
      rw [Nat.add_sub_cancel' (by omega)]
      exact Nat.log2_self_le nonzero
    have least := nearestRank_le below
    have most := le_nearestRank reached
    omega

variable {x : Binary64} {value : Nat}

/-- The natural numbers that are read as one binary64 number have no gap. -/
theorem ofNat?_of_between {low number high : Nat} (lower : ofNat? low = some x)
    (upper : ofNat? high = some x) (atLeast : low ≤ number) (atMost : number ≤ high) :
    ofNat? number = some x := by
  rw [ofNat?_eq_ofUnits?, ofUnits?_eq_some_iff] at lower upper ⊢
  refine ⟨lower.1, Nat.le_antisymm ?_ ?_⟩
  · rw [lower.2]
    exact nearestRank_mono (Nat.mul_le_mul_right unitsInOne atLeast)
  · rw [upper.2]
    exact nearestRank_mono (Nat.mul_le_mul_right unitsInOne atMost)

/-- What is read as a whole number is off by no more than a `2 ^ 53`th part. -/
theorem near_of_ofNat? (whole : x.units = value * unitsInOne) {number : Nat}
    (h : ofNat? number = some x) :
    (2 ^ 53 - 1) * value ≤ 2 ^ 53 * number ∧ 2 ^ 53 * number ≤ (2 ^ 53 + 1) * value := by
  rw [ofNat?_eq_ofUnits?, ofUnits?_eq_some_iff] at h
  by_cases zero : number = 0
  · have none : value * unitsInOne = 0 := by
      rw [← whole, units, h.2, zero, Nat.zero_mul, nearestRank_zero, unitsOfRank_of_lt (by decide)]
    have := (Nat.mul_eq_zero.mp none).resolve_right (Nat.ne_of_gt unitsInOne_pos)
    omega
  have nonzero : number * unitsInOne ≠ 0 := Nat.mul_ne_zero zero (Nat.ne_of_gt unitsInOne_pos)
  have least : 52 ≤ (number * unitsInOne).log2 := by
    rw [Nat.le_log2 nonzero]
    exact Nat.le_trans (two_pow_le_unitsInOne (by decide))
      (Nat.le_mul_of_pos_left unitsInOne (Nat.pos_of_ne_zero zero))
  obtain ⟨scale, log⟩ := Nat.exists_eq_add_of_le least
  obtain ⟨low, high⟩ := (Nat.log2_eq_iff nonzero).mp log
  rw [show 52 + scale + 1 = 53 + scale by omega, Nat.pow_add] at high
  rw [Nat.pow_add] at low
  have bounds := roundHalfEven_bounds (Nat.two_pow_pos scale) low high
  have rank : x.rank = scale * 2 ^ 52 + roundHalfEven (number * unitsInOne) (2 ^ scale) := by
    rw [h.2, nearestRank_eq scale (by rw [Nat.div_one, log, Nat.add_sub_cancel_left]), Nat.one_mul]
  have rounded : value * unitsInOne =
      roundHalfEven (number * unitsInOne) (2 ^ scale) * 2 ^ scale := by
    rw [← whole, units, rank, unitsOfRank_significand scale bounds.1 bounds.2]
  have near := roundHalfEven_near (number * unitsInOne) (Nat.two_pow_pos scale)
  have step : 2 ^ 52 * 2 ^ scale ≤ value * unitsInOne := by
    rw [rounded]
    exact Nat.mul_le_mul_right _ bounds.1
  rw [← rounded] at near
  constructor
  · apply Nat.le_of_mul_le_mul_right _ unitsInOne_pos
    rw [Nat.mul_assoc, Nat.mul_assoc]
    omega
  · apply Nat.le_of_mul_le_mul_right _ unitsInOne_pos
    rw [Nat.mul_assoc, Nat.mul_assoc]
    omega

/-- Two numbers that are read alike are less than a ninth part apart. -/
theorem spread_of_ofNat? (whole : x.units = value * unitsInOne) (positive : value ≠ 0)
    {number number' : Nat} (h : ofNat? number = some x) (h' : ofNat? number' = some x) :
    9 * number' < 10 * number := by
  have near := near_of_ofNat? whole h
  have near' := near_of_ofNat? whole h'
  omega

/-! ## Multiples of powers of ten -/

/-- Whether one number is nearer to a target than another: where both are equally near, the greater
    one counts as nearer. -/
def Nearer (target number other : Nat) : Prop :=
  Nat.dist number target < Nat.dist other target ∨
    Nat.dist number target = Nat.dist other target ∧ other ≤ number

theorem readBy_iff (sign : x.negative = false) (digits power : Nat) :
    x.readBy ⟨digits, power⟩ = true ↔ ofNat? (digits * 10 ^ power) = some x := by
  rw [readBy, decide_eq_true_eq, withSign_of_eq sign, ofDecimal?_natCast]

/-- If a multiple of a step is read as a whole number, so is the next multiple to the number on the
    same side. -/
theorem reads_neighbour (sign : x.negative = false) (whole : x.units = value * unitsInOne)
    {step other : Nat} (positive : 0 < step) (h : ofNat? other = some x) (multiple : step ∣ other) :
    other ≤ value / step * step ∧ ofNat? (value / step * step) = some x ∨
      (value / step + 1) * step ≤ other ∧ ofNat? ((value / step + 1) * step) = some x := by
  have exact := ofNat?_of_units_eq sign whole
  have below : value / step * step ≤ value := Nat.div_mul_le_self value step
  have above : value < (value / step + 1) * step := by
    rw [Nat.succ_mul]
    exact Nat.lt_div_mul_add positive
  obtain ⟨factor, rfl⟩ := multiple
  rw [Nat.mul_comm] at h ⊢
  by_cases less : factor ≤ value / step
  · have next := Nat.mul_le_mul_right step less
    exact .inl ⟨next, ofNat?_of_between h exact next below⟩
  · have next := Nat.mul_le_mul_right step (Nat.lt_of_not_le less)
    exact .inr ⟨next, ofNat?_of_between exact h (Nat.le_of_lt above) next⟩

/-- Where nothing is found on the grid of a power of ten, none of its multiples is read as the
    number. -/
theorem not_dvd_of_shortestOn {tie : Tie} (sign : x.negative = false)
    (whole : x.units = value * unitsInOne) {power other : Nat}
    (missed : x.shortestOn tie power = none) (h : ofNat? other = some x) :
    ¬ 10 ^ power ∣ other := by
  intro multiple
  have found : (x.shortestOn tie power).isSome := by
    rcases reads_neighbour sign whole (Nat.pow_pos (by decide)) h multiple with lower | upper
    · apply shortestOn_isSome
      rw [overPower_floor whole, readBy_iff sign]
      exact lower.2
    · apply shortestOn_isSome_of_upper
      rw [overPower_floor whole, readBy_iff sign]
      exact upper.2
  rw [missed] at found
  cases found

/-- What is found on the grid of a power of ten is one of the two multiples around the number, and
    where the other one is read as the number too, it is the nearer one. -/
theorem shortestOn_upper_eq_some {exponent : Int} {decimal : Decimal}
    (found : x.shortestOn .upper exponent = some decimal) :
    decimal.digits = (x.overPower exponent).1 / (x.overPower exponent).2 ∧
        (x.readBy ⟨(x.overPower exponent).1 / (x.overPower exponent).2 + 1, exponent⟩ = true →
          2 * ((x.overPower exponent).1 % (x.overPower exponent).2) < (x.overPower exponent).2) ∨
      decimal.digits = (x.overPower exponent).1 / (x.overPower exponent).2 + 1 ∧
        (x.readBy ⟨(x.overPower exponent).1 / (x.overPower exponent).2, exponent⟩ = true →
          ¬ 2 * ((x.overPower exponent).1 % (x.overPower exponent).2) <
            (x.overPower exponent).2) := by
  simp only [shortestOn] at found
  split at found
  all_goals grind

theorem overPower_nearer_iff (whole : x.units = value * unitsInOne) (power : Nat) :
    2 * ((x.overPower power).1 % (x.overPower power).2) < (x.overPower power).2 ↔
      2 * (value % 10 ^ power) < 10 ^ power := by
  rw [overPower_natCast, whole, Nat.mul_comm unitsInOne]
  dsimp only
  rw [Nat.mul_mod_mul_right, ← Nat.mul_assoc]
  exact Nat.mul_lt_mul_right unitsInOne_pos

/-- Of the multiples of a power of ten that are read as the number, the nearest is found. -/
theorem nearer_of_shortestOn (sign : x.negative = false) (whole : x.units = value * unitsInOne)
    {power : Nat} {decimal : Decimal} (found : x.shortestOn .upper power = some decimal)
    {other : Nat} (h : ofNat? other = some x) (multiple : 10 ^ power ∣ other) :
    Nearer value (decimal.digits * 10 ^ power) other := by
  have positive : 0 < 10 ^ power := Nat.pow_pos (by decide)
  have split := Nat.div_add_mod value (10 ^ power)
  have rest := Nat.mod_lt value positive
  rw [Nat.mul_comm] at split
  have chosen := shortestOn_upper_eq_some found
  rw [overPower_nearer_iff whole, overPower_floor whole, readBy_iff sign, readBy_iff sign,
    Nat.succ_mul] at chosen
  have side := reads_neighbour sign whole positive h multiple
  rw [Nat.succ_mul] at side
  simp only [Nearer, Nat.dist]
  rcases chosen with ⟨digits, lower⟩ | ⟨digits, upper⟩
  · rw [digits]
    rcases side with ⟨below, -⟩ | ⟨above, reads⟩
    · omega
    · have := lower reads
      omega
  · rw [digits, Nat.succ_mul]
    rcases side with ⟨below, reads⟩ | ⟨above, -⟩
    · have := upper reads
      omega
    · omega

/-! ## The roundest number -/

/-- The one of the natural numbers that are read as a binary64 number that has the most zeros at its
    end and, of those with as many zeros, is the nearest. -/
structure IsRoundest (x : Binary64) (number : Nat) : Prop where
  reads : ofNat? number = some x
  zeros : ∀ other power, ofNat? other = some x → 10 ^ power ∣ other → 10 ^ power ∣ number
  nearest : ∀ other, ofNat? other = some x → (∀ power, 10 ^ power ∣ number → 10 ^ power ∣ other) →
    Nearer (x.units / unitsInOne) number other

theorem IsRoundest.unique {number number' : Nat} (h : x.IsRoundest number)
    (h' : x.IsRoundest number') : number = number' := by
  have nearer := h.nearest number' h'.reads fun power => h'.zeros number power h.reads
  have nearer' := h'.nearest number h.reads fun power => h.zeros number' power h'.reads
  simp only [Nearer] at nearer nearer'
  omega

theorem isRoundest_zero (sign : x.negative = false) (zero : x.isZero = true) :
    x.IsRoundest 0 := by
  have whole : x.units = 0 * unitsInOne := by
    rw [units, of_decide_eq_true zero, unitsOfRank_of_lt (by decide), Nat.zero_mul]
  refine ⟨ofNat?_of_units_eq sign whole, fun _ power _ _ => Nat.dvd_zero _, ?_⟩
  intro other h _
  have near := near_of_ofNat? whole h
  obtain rfl : other = 0 := by omega
  exact .inr ⟨rfl, Nat.le_refl 0⟩

/-- On the coarsest grid that is searched, a multiple of the next power of ten can only be that
    power itself, and then it is found. -/
theorem eq_of_dvd_of_coarsest (sign : x.negative = false) (whole : x.units = value * unitsInOne)
    (positive : value ≠ 0) {power : Nat} (coarsest : digitCount value = power + 1)
    {decimal : Decimal} (found : x.shortestOn .upper power = some decimal)
    (reads : ofNat? (decimal.digits * 10 ^ power) = some x) {other : Nat}
    (h : ofNat? other = some x) (multiple : 10 ^ (power + 1) ∣ other) :
    decimal.digits * 10 ^ power = other := by
  have below : value < 10 ^ (power + 1) := by
    rw [← coarsest, ← digitCount_le_iff (digitCount_pos value)]
  have nearer := nearer_of_shortestOn sign whole found h
    (Nat.dvd_trans (Nat.pow_dvd_pow 10 (Nat.le_succ power)) multiple)
  have exact := ofNat?_of_units_eq sign whole
  have atLeast : 9 * value < 10 * other := spread_of_ofNat? whole positive h exact
  have atMost : 9 * other < 10 * value := spread_of_ofNat? whole positive exact h
  have close := spread_of_ofNat? whole positive reads h
  obtain ⟨factor, rfl⟩ := multiple
  have factorPos : factor ≠ 0 := by
    rintro rfl
    omega
  have one : factor = 1 := by
    apply Nat.le_antisymm _ (Nat.pos_of_ne_zero factorPos)
    apply Nat.le_of_not_lt
    intro greater
    have := Nat.mul_le_mul_left (10 ^ (power + 1)) greater
    omega
  subst one
  rw [Nat.mul_one] at nearer close ⊢
  have least : 10 ^ (power + 1) ≤ decimal.digits * 10 ^ power := by
    rw [Nat.pow_succ, Nat.mul_comm (10 ^ power)] at close ⊢
    apply Nat.mul_le_mul_right
    have : 9 * 10 < 10 * decimal.digits := by
      apply Nat.lt_of_mul_lt_mul_right (a := 10 ^ power)
      rw [Nat.mul_assoc, Nat.mul_assoc]
      exact close
    omega
  simp only [Nearer, Nat.dist] at nearer
  omega

/-- The search for the shortest decimal ends at the roundest number. -/
theorem isRoundest_of_hit (sign : x.negative = false) (whole : x.units = value * unitsInOne)
    (positive : value ≠ 0) {decimal : Decimal}
    (hit : ((List.range 17).findSome? fun (count : Nat) =>
      x.shortestOn .upper (x.magnitude - (count + 1))) = some decimal) :
    ∃ power : Nat, decimal.exponent = power ∧ x.IsRoundest (decimal.digits * 10 ^ power) := by
  obtain ⟨power, exponent, reads⟩ := natCast_of_hit whole positive hit
  obtain ⟨count, found, missed⟩ := findSome?_range_eq_some hit
  have onGrid := (shortestOn_eq_some found).1
  rw [exponent] at onGrid
  rw [← onGrid] at found
  rw [magnitude_eq whole positive] at onGrid missed
  have read : ofNat? (decimal.digits * 10 ^ power) = some x := by
    rw [← readBy_iff sign, ← exponent]
    exact reads
  refine ⟨power, exponent, read, ?_, ?_⟩
  · intro other zeros h multiple
    by_cases few : zeros ≤ power
    · exact Nat.dvd_trans (Nat.pow_dvd_pow 10 few) (Nat.dvd_mul_left _ _)
    have coarser : 10 ^ (power + 1) ∣ other :=
      Nat.dvd_trans (Nat.pow_dvd_pow 10 (Nat.lt_of_not_le few)) multiple
    cases count with
    | zero =>
      rw [eq_of_dvd_of_coarsest sign whole positive (by omega) found read h coarser]
      exact multiple
    | succ count =>
      -- The search has passed the next power of ten without a hit.
      have miss := missed count (Nat.lt_succ_self count)
      rw [show (digitCount value : Int) - (count + 1) = (power + 1 : Nat) by omega] at miss
      exact absurd coarser (not_dvd_of_shortestOn sign whole miss h)
  · intro other h as
    rw [whole, Nat.mul_div_cancel _ unitsInOne_pos]
    exact nearer_of_shortestOn sign whole found h (as power (Nat.dvd_mul_left _ _))

/-- The shortest decimal of a whole number is the roundest number. -/
theorem isRoundest_shortest (sign : x.negative = false) (whole : x.units = value * unitsInOne)
    {digits power : Nat} (shortest : x.shortest .upper = ⟨digits, power⟩) :
    x.IsRoundest (digits * 10 ^ power) := by
  by_cases zero : x.isZero = true
  · rw [Binary64.shortest, if_pos zero] at shortest
    cases shortest
    exact isRoundest_zero sign zero
  have positive := value_ne_zero whole zero
  obtain ⟨decimal, hit⟩ := Option.isSome_iff_exists.mp (exists_hit .upper whole positive)
  obtain ⟨exponent, exponentEq, roundest⟩ := isRoundest_of_hit sign whole positive hit
  obtain ⟨zeros, digitsEq, trimmed, -⟩ := decimal.trim_eq
  rw [shortest_of_hit zero hit] at shortest
  rw [shortest] at digitsEq trimmed
  have powerEq : power = exponent + zeros := by
    rw [exponentEq] at trimmed
    exact Int.ofNat_inj.mp trimmed
  rw [powerEq, Nat.add_comm, Nat.pow_add, ← Nat.mul_assoc, ← digitsEq]
  exact roundest

/-- A whole number below `2 ^ 54` is the roundest for itself. -/
theorem isRoundest_of_lt (sign : x.negative = false) (whole : x.units = value * unitsInOne)
    (small : value < 2 ^ 54) : x.IsRoundest value := by
  obtain ⟨digits, power, shortest, exact⟩ := shortest_exact .upper whole small
  rw [← exact]
  exact isRoundest_shortest sign whole shortest

/-- A natural number up to `2 ^ 53` is the roundest for what it is read as. -/
theorem isRoundest_of_le {number : Nat} (read : ofNat? number = some x)
    (small : number ≤ 2 ^ 53) : x.IsRoundest number := by
  obtain ⟨y, again, sign, whole⟩ :
      ∃ y, ofNat? number = some y ∧ y.negative = false ∧ y.units = number * unitsInOne := by
    rcases Nat.lt_or_eq_of_le small with less | rfl
    · exact exists_ofNat?_of_lt less
    · have even : roundHalfEven (2 ^ 53) (2 ^ 1) * 2 ^ 1 = 2 ^ 53 := by decide
      have binade := exists_ofNat?_of_binade (2 ^ 53) 1 (by decide) (by decide) (by decide)
      rwa [even] at binade
  rw [read] at again
  cases again
  exact isRoundest_of_lt sign whole (by omega)

/-! ## Numerals -/

theorem toDigits_mul_pow {digits : Nat} (positive : digits ≠ 0) (zeros : Nat) :
    Nat.toDigits 10 (digits * 10 ^ zeros) =
      Nat.toDigits 10 digits ++ List.replicate zeros '0' := by
  induction zeros with
  | zero => simp
  | succ zeros ih =>
    have product : 0 < digits * 10 ^ zeros :=
      Nat.mul_pos (Nat.pos_of_ne_zero positive) (Nat.pow_pos (by decide))
    have last := Nat.toDigits_append_toDigits (by decide) product (by decide : 0 < 10)
    rw [Nat.pow_succ, ← Nat.mul_assoc, Nat.mul_comm _ 10, ← Nat.add_zero (10 * _), ← last, ih,
      List.append_assoc, List.replicate_succ']
    rfl

/-- A whole number is written as the digits of the roundest number. -/
theorem exists_numeral_eq (sign : x.negative = false) (whole : x.isIntegral = true) :
    ∃ number, x.IsRoundest number ∧ x.numeral .plain = toString number := by
  have h : x.units = x.units / unitsInOne * unitsInOne :=
    (Nat.div_mul_cancel (Nat.dvd_of_mod_eq_zero (of_decide_eq_true whole))).symm
  obtain ⟨digits, power, shortest, -⟩ := shortest_eq .upper sign h
  refine ⟨digits * 10 ^ power, isRoundest_shortest sign h shortest, ?_⟩
  apply String.toList_inj.mp
  rw [toList_numeral sign shortest, Nat.toString_eq_repr, Nat.repr_eq_ofList_toDigits,
    String.toList_ofList]
  by_cases positive : digits = 0
  · have exponent : (x.shortest .upper).exponent = 0 :=
      shortest_exponent_of_zero (by rw [shortest, positive])
    rw [shortest] at exponent
    have none : power = 0 := Int.ofNat_eq_zero.mp exponent
    rw [positive, none]
    rfl
  · exact (toDigits_mul_pow positive power).symm

end Binary64

end TinyScript
