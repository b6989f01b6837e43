import TinyScript.Proofs.JsonNumerals

/-!
# Whole numbers that JSON text keeps

A whole number below `10 ^ 16` is written with a zero behind the point and read as ten times its
value divided by ten. Both steps round. Ten times the value is off by no more than half a step of
the grid there, and a tenth of this is less than half a step of the grid at the value itself except
in three intervals, each the part of a binade of the value where ten times the value has entered its
next binade already. There the number is kept or not according to its last binary digits.
-/

namespace TinyScript

/-! ## Rounding -/

theorem roundHalfEven_mul_right (numerator denominator : Nat) {factor : Nat} (h : 0 < factor) :
    roundHalfEven (numerator * factor) (denominator * factor) =
      roundHalfEven numerator denominator := by
  have less : 2 * (numerator % denominator * factor) < denominator * factor ↔
      2 * (numerator % denominator) < denominator := by
    rw [← Nat.mul_assoc]
    exact Nat.mul_lt_mul_right h
  have equal : 2 * (numerator % denominator * factor) = denominator * factor ↔
      2 * (numerator % denominator) = denominator := by
    rw [← Nat.mul_assoc]
    exact Nat.mul_left_inj (Nat.ne_of_gt h)
  simp only [roundHalfEven, Nat.mul_div_mul_right _ _ h, Nat.mul_mod_mul_right, less, equal]

/-- A rounded quotient is off by no more than a half. -/
theorem roundHalfEven_near (numerator : Nat) {denominator : Nat} (h : 0 < denominator) :
    2 * (roundHalfEven numerator denominator * denominator) ≤ 2 * numerator + denominator ∧
      2 * numerator ≤ 2 * (roundHalfEven numerator denominator * denominator) + denominator := by
  have floor := Nat.div_add_mod numerator denominator
  have rest := Nat.mod_lt numerator h
  rw [Nat.mul_comm] at floor
  simp only [roundHalfEven]
  split
  case isTrue near =>
    simp only [Bool.or_eq_true, Bool.and_eq_true, decide_eq_true_eq] at near
    omega
  case isFalse near =>
    simp only [Bool.or_eq_true, Bool.and_eq_true, decide_eq_true_eq] at near
    rw [Nat.add_mul, Nat.one_mul]
    omega

namespace Binary64

theorem nearestRank_mul_right (numerator denominator : Nat) {factor : Nat} (h : 0 < factor) :
    nearestRank (numerator * factor) (denominator * factor) =
      nearestRank numerator denominator := by
  rw [nearestRank_eq _ rfl, nearestRank_eq _ rfl, Nat.mul_div_mul_right _ _ h,
    Nat.mul_right_comm, roundHalfEven_mul_right _ _ h]

/-- A number of at most 53 binary digits is not rounded. -/
theorem unitsOfRank_nearestRank {significand scale : Nat} (short : significand < 2 ^ 53)
    (fine : 52 ≤ scale) :
    unitsOfRank (nearestRank (significand * 2 ^ scale) 1) = significand * 2 ^ scale := by
  by_cases zero : significand = 0
  · rw [zero, Nat.zero_mul, nearestRank_zero, unitsOfRank_of_lt (by decide)]
  obtain ⟨low, high⟩ := (Nat.log2_eq_iff zero).mp rfl
  have log : Nat.log2 significand ≤ 52 := by
    have := (Nat.log2_lt zero).mpr short
    omega
  have shifted : significand * 2 ^ scale =
      significand * 2 ^ (52 - significand.log2) * 2 ^ (scale - (52 - significand.log2)) := by
    rw [Nat.mul_assoc, ← Nat.pow_add]
    congr 2
    omega
  have normal : 2 ^ 52 ≤ significand * 2 ^ (52 - significand.log2) := by
    calc
      2 ^ 52 = 2 ^ significand.log2 * 2 ^ (52 - significand.log2) := by
        rw [← Nat.pow_add]
        congr 1
        omega
      _ ≤ significand * 2 ^ (52 - significand.log2) := Nat.mul_le_mul_right _ low
  have bounded : significand * 2 ^ (52 - significand.log2) < 2 ^ 53 := by
    calc
      significand * 2 ^ (52 - significand.log2) <
          2 ^ (significand.log2 + 1) * 2 ^ (52 - significand.log2) :=
        Nat.mul_lt_mul_of_pos_right high (Nat.two_pow_pos _)
      _ = 2 ^ 53 := by
        rw [← Nat.pow_add]
        congr 1
        omega
  rw [shifted, nearestRank_significand _ normal bounded,
    unitsOfRank_significand _ normal (Nat.le_of_lt bounded)]

theorem nearestRank_le {units power : Nat} (h : units < 2 ^ (53 + power)) :
    nearestRank units 1 ≤ (power + 2) * 2 ^ 52 := by
  by_cases small : units < 2 ^ 53
  · rw [nearestRank_of_lt small]
    omega
  have nonzero : units ≠ 0 := by omega
  have least := (Nat.le_log2 nonzero).mpr (Nat.le_of_not_lt small)
  have most := (Nat.log2_lt nonzero).mpr h
  obtain ⟨scale, log⟩ := Nat.exists_eq_add_of_le (Nat.le_trans (by decide : 52 ≤ 53) least)
  obtain ⟨low, high⟩ := (Nat.log2_eq_iff nonzero).mp log
  rw [Nat.pow_add] at low
  rw [show 52 + scale + 1 = 53 + scale by omega, Nat.pow_add] at high
  have rounded := (roundHalfEven_bounds (Nat.two_pow_pos scale) low high).2
  rw [nearestRank_eq scale (by rw [Nat.div_one, log, Nat.add_sub_cancel_left]), Nat.one_mul]
  omega

/-- Numbers far below the greatest one stay finite when they are rounded. -/
theorem exists_ofNat? {value power : Nat} (h : value < 2 ^ (53 + power)) (finite : power < 900) :
    ∃ y, ofNat? value = some y ∧ y.negative = false ∧
      y.units = unitsOfRank (nearestRank (value * unitsInOne) 1) := by
  have below : value * unitsInOne < 2 ^ (53 + (power + 1074)) := by
    rw [← Nat.add_assoc, Nat.pow_add, ← unitsInOne_eq]
    exact Nat.mul_lt_mul_of_pos_right h unitsInOne_pos
  have rank := nearestRank_le below
  have bound : nearestRank (value * unitsInOne) 1 < 2047 * Nat.pow 2 52 := by
    rw [Nat.pow_eq]
    omega
  rw [ofNat?_eq_ofUnits?]
  exact ⟨_, dif_pos bound, rfl, rfl⟩

/-- Natural numbers of at most 53 binary digits are not rounded. -/
theorem exists_ofNat?_of_lt {value : Nat} (short : value < 2 ^ 53) :
    ∃ y, ofNat? value = some y ∧ y.negative = false ∧ y.units = value * unitsInOne := by
  have bounded : value < 2 ^ (53 + 0) := short
  obtain ⟨y, read, sign, units⟩ := exists_ofNat? bounded (by decide)
  refine ⟨y, read, sign, units.trans ?_⟩
  rw [unitsInOne_eq]
  exact unitsOfRank_nearestRank short (by decide)

/-- A natural number in a binade is rounded to a multiple of the grid's step there. -/
theorem exists_ofNat?_of_binade (value power : Nat) (low : 2 ^ (52 + power) ≤ value)
    (high : value < 2 ^ (53 + power)) (finite : power < 900) :
    ∃ y, ofNat? value = some y ∧ y.negative = false ∧
      y.units = roundHalfEven value (2 ^ power) * 2 ^ power * unitsInOne := by
  obtain ⟨y, read, sign, units⟩ := exists_ofNat? high finite
  refine ⟨y, read, sign, units.trans ?_⟩
  have log : Nat.log2 (value * unitsInOne / 1) = 52 + (power + 1074) := by
    apply log2_div_eq
    · rw [Nat.mul_one, ← Nat.add_assoc, Nat.pow_add, ← unitsInOne_eq]
      exact Nat.mul_le_mul_right unitsInOne low
    · rw [Nat.mul_one, show 52 + (power + 1074) + 1 = 53 + power + 1074 by omega, Nat.pow_add,
        ← unitsInOne_eq]
      exact Nat.mul_lt_mul_of_pos_right high unitsInOne_pos
  have rounded : roundHalfEven (value * unitsInOne) (1 * 2 ^ (power + 1074)) =
      roundHalfEven value (2 ^ power) := by
    rw [Nat.one_mul, Nat.pow_add, ← unitsInOne_eq]
    exact roundHalfEven_mul_right value (2 ^ power) unitsInOne_pos
  rw [Nat.pow_add] at low high
  have bounds := roundHalfEven_bounds (Nat.two_pow_pos power) low high
  rw [nearestRank_eq (power + 1074) (by rw [log, Nat.add_sub_cancel_left]), rounded,
    unitsOfRank_significand _ bounds.1 bounds.2, Nat.pow_add, ← unitsInOne_eq, Nat.mul_assoc]

/-! ## Shortest decimals below `10 ^ 16` -/

variable {x : Binary64} {value : Nat}

theorem shortestOn_of_exact (tie : Tie) {exponent : Int}
    (reads : x.readBy ⟨(x.overPower exponent).1 / (x.overPower exponent).2, exponent⟩ = true)
    (positive : 0 < (x.overPower exponent).2)
    (exact : (x.overPower exponent).1 % (x.overPower exponent).2 = 0) :
    x.shortestOn tie exponent =
      some ⟨(x.overPower exponent).1 / (x.overPower exponent).2, exponent⟩ := by
  simp only [shortestOn, reads, exact, Nat.mul_zero, positive, decide_true, Bool.true_or, if_true]
  split <;> simp_all

/-- On the grid of the power zero of ten, a whole number is its own decimal. -/
theorem shortestOn_zero (tie : Tie) (whole : x.units = value * unitsInOne) :
    x.shortestOn tie (0 : Nat) = some ⟨value, (0 : Nat)⟩ := by
  have floor : (x.overPower (0 : Nat)).1 / (x.overPower (0 : Nat)).2 = value := by
    rw [overPower_floor whole, Nat.pow_zero, Nat.div_one]
  rw [shortestOn_of_exact]
  · rw [floor]
  · rw [floor]
    exact decide_eq_true (ofNat?_of_units_eq (x := x.withSign false) rfl whole)
  · rw [overPower_natCast, Nat.pow_zero, Nat.mul_one]
    dsimp only
    exact unitsInOne_pos
  · rw [overPower_natCast, Nat.pow_zero, Nat.mul_one, whole]
    dsimp only
    exact Nat.mul_mod_left value unitsInOne

/-- An even number that is rounded to a number below `2 ^ 54` is not rounded at all. -/
theorem eq_of_even (whole : x.units = value * unitsInOne) (small : value < 2 ^ 54)
    (positive : value ≠ 0) {half : Nat} (h : ofNat? (half * 2) = some (x.withSign false)) :
    half * 2 = value := by
  rw [ofNat?_eq_ofUnits?, ofUnits?_eq_some_iff] at h
  have rank : x.rank = nearestRank (half * 2 * unitsInOne) 1 := h.2
  have short : half < 2 ^ 53 := by
    apply Nat.lt_of_not_le
    intro great
    have reached : 2 ^ (52 + 1076) ≤ half * 2 * unitsInOne := by
      rw [show 52 + 1076 = 54 + 1074 by rfl, Nat.pow_add, ← unitsInOne_eq]
      exact Nat.mul_le_mul_right unitsInOne (by omega)
    have above := le_nearestRank reached
    obtain ⟨scale, significand, low, high, units, rankEq⟩ := exists_significand whole positive
    have binade : 2 ^ (52 + scale) < 2 ^ (54 + 1074) := by
      calc
        2 ^ (52 + scale) ≤ significand * 2 ^ scale := by
          rw [Nat.pow_add]
          exact Nat.mul_le_mul_right _ low
        _ = value * unitsInOne := units.symm.trans whole
        _ < 2 ^ 54 * unitsInOne := Nat.mul_lt_mul_of_pos_right small unitsInOne_pos
        _ = 2 ^ (54 + 1074) := by rw [Nat.pow_add, ← unitsInOne_eq]
    have := (Nat.pow_lt_pow_iff_right (by decide)).mp binade
    omega
  have double : half * 2 * unitsInOne = half * 2 ^ (1074 + 1) := by
    rw [Nat.pow_succ, ← unitsInOne_eq, Nat.mul_assoc, Nat.mul_comm 2]
  have exact := unitsOfRank_nearestRank short (by decide : 52 ≤ 1074 + 1)
  rw [← double, ← rank] at exact
  exact Nat.eq_of_mul_eq_mul_right unitsInOne_pos (exact.symm.trans whole)

/-- The shortest decimal of a whole number below `2 ^ 54` is exact: it has no places behind the
    point, and with a zero at its end it is even. -/
theorem shortest_exact (tie : Tie) (whole : x.units = value * unitsInOne) (small : value < 2 ^ 54) :
    ∃ digits power : Nat, x.shortest tie = ⟨digits, power⟩ ∧ digits * 10 ^ power = value := by
  by_cases zero : x.isZero = true
  · have none : value = 0 := by
      have rank : x.rank = 0 := of_decide_eq_true zero
      rw [units, rank, unitsOfRank_of_lt (by decide)] at whole
      exact (Nat.mul_eq_zero.mp whole.symm).resolve_right (Nat.ne_of_gt unitsInOne_pos)
    refine ⟨0, 0, ?_, ?_⟩
    · rw [shortest, if_pos zero]
      rfl
    · rw [none, Nat.zero_mul]
  have positive := value_ne_zero whole zero
  obtain ⟨decimal, hit⟩ := Option.isSome_iff_exists.mp (exists_hit tie whole positive)
  obtain ⟨power, exponent, reads⟩ := natCast_of_hit whole positive hit
  obtain ⟨zeros, digits, trimmed, _⟩ := decimal.trim_eq
  have exact : decimal.digits * 10 ^ power = value := by
    cases power with
    | zero =>
      obtain ⟨count, _, found⟩ := List.exists_of_findSome?_eq_some hit
      have onGrid := (shortestOn_eq_some found).1
      rw [← onGrid, exponent, shortestOn_zero tie whole] at found
      cases found
      rw [Nat.pow_zero, Nat.mul_one]
    | succ power =>
      have even : decimal.digits * 10 ^ (power + 1) = decimal.digits * 10 ^ power * 5 * 2 := by
        rw [Nat.pow_succ, ← Nat.mul_assoc]
        omega
      have read := of_decide_eq_true reads
      rw [exponent, ofDecimal?_natCast, even] at read
      rw [even]
      exact eq_of_even whole small positive read
  refine ⟨decimal.trim.digits, power + zeros, ?_, ?_⟩
  · rw [shortest_of_hit zero hit, Int.natCast_add, ← exponent, ← trimmed]
  · rw [Nat.add_comm, Nat.pow_add, ← Nat.mul_assoc, ← digits, exact]

/-! ## A tenth of ten times a number -/

theorem ofUnits?_mul_right (negative : Bool) (numerator denominator : Nat) {factor : Nat}
    (h : 0 < factor) :
    ofUnits? negative (numerator * factor) (denominator * factor) =
      ofUnits? negative numerator denominator := by
  apply Option.ext
  intro z
  rw [ofUnits?_eq_some_iff, ofUnits?_eq_some_iff, nearestRank_mul_right _ _ h]

theorem scaled_negSucc {significand : Nat} {y : Binary64} (read : ofNat? significand = some y)
    (power : Nat) :
    JsonNumeral.scaled significand (.negSucc power) = JsonNumeral.scaleDown y (power + 1) := by
  rw [JsonNumeral.scaled, read]
  exact Option.bind_some y _

/-- A significand with one place behind the point is rounded and then divided by ten. -/
theorem scaled_tenth {significand multiple : Nat} {y : Binary64}
    (read : ofNat? significand = some y) (sign : y.negative = false)
    (h : y.units = multiple * unitsInOne) :
    JsonNumeral.scaled significand (-1) = ofUnits? false (multiple * unitsInOne) 10 := by
  obtain ⟨ten, readTen, tenSign, tenUnits⟩ := exists_ofNat?_of_lt (by decide : 10 < 2 ^ 53)
  have nonzero : ¬ ten.isZero = true := by
    intro zero
    have rank : ten.rank = 0 := of_decide_eq_true zero
    rw [units, rank, unitsOfRank_of_lt (by decide)] at tenUnits
    have := unitsInOne_pos
    omega
  have divided : JsonNumeral.scaleDown y (0 + 1) = y.div? ten := by
    have tenTo : JsonNumeral.tenTo? (0 + 1) = some ten := readTen
    rw [JsonNumeral.scaleDown, if_pos (by decide), tenTo]
    exact Option.bind_some ten _
  rw [show (-1 : Int) = Int.negSucc 0 from rfl, scaled_negSucc read, divided, div?,
    if_neg nonzero, sign, tenSign, h, tenUnits, bne_self_eq_false]
  exact ofUnits?_mul_right false (multiple * unitsInOne) 10 unitsInOne_pos

theorem pow_digitCount_le {digits : Nat} (positive : digits ≠ 0) :
    10 ^ (digitCount digits - 1) ≤ digits := by
  by_cases one : digitCount digits - 1 = 0
  · rw [one]
    exact Nat.pos_of_ne_zero positive
  · apply Nat.le_of_not_lt
    rw [← digitCount_le_iff (Nat.pos_of_ne_zero one)]
    omega

/-- What a whole number below `10 ^ 16` is read as. -/
theorem rescaled_of_lt (whole : x.units = value * unitsInOne) (small : value < 10 ^ 16) :
    x.rescaled = (JsonNumeral.scaled (10 * value) (-1)).map (withSign x.negative) := by
  obtain ⟨digits, power, shortest, exact⟩ := shortest_exact .even whole
    (Nat.lt_trans small (by decide))
  have short : digitCount digits - 1 + power ≤ 15 := by
    by_cases positive : digits = 0
    · have none : (x.shortest .even).exponent = 0 :=
        shortest_exponent_of_zero (by rw [shortest, positive])
      rw [shortest] at none
      have : power = 0 := Int.ofNat_eq_zero.mp none
      have : digitCount digits = 1 := by
        rw [positive]
        rfl
      omega
    · have less : 10 ^ (digitCount digits - 1 + power) < 10 ^ 16 := by
        calc
          10 ^ (digitCount digits - 1 + power) ≤ digits * 10 ^ power := by
            rw [Nat.pow_add]
            exact Nat.mul_le_mul_right _ (pow_digitCount_le positive)
          _ < 10 ^ 16 := by
            rw [exact]
            exact small
      exact Nat.le_of_lt_succ ((Nat.pow_lt_pow_iff_right (by decide)).mp less)
  have product : digits * 10 ^ (power + 1) = 10 * value := by
    rw [Nat.pow_succ, ← Nat.mul_assoc, exact, Nat.mul_comm]
  rw [rescaled, shortest]
  dsimp only
  rw [leadingPower_eq, if_pos (by omega), Int.toNat_natCast, product]

/-- Whether a whole number below `10 ^ 16` is kept when ten times the number is rounded, and then a
    tenth of that. -/
def survives (value : Nat) : Bool :=
  if 2 ^ 54 ≤ 10 * value ∧ value < 2 ^ 51 then value % 2 = 0
  else if 2 ^ 55 ≤ 10 * value ∧ value < 2 ^ 52 then value % 4 ≠ 2
  else if 2 ^ 56 ≤ 10 * value ∧ value < 2 ^ 53 then value % 8 ∉ [1, 4, 7]
  else true

section Kept

variable {multiple : Nat} {y : Binary64} (whole : x.units = value * unitsInOne)
  (small : value < 10 ^ 16) (read : ofNat? (10 * value) = some y) (sign : y.negative = false)
include whole small read sign

/-- A number is kept if a tenth of the rounded multiple is rounded to it. -/
theorem rescaled_eq_self_iff (h : y.units = multiple * unitsInOne) :
    x.rescaled = some x ↔ nearestRank (multiple * unitsInOne) 10 = x.rank := by
  rw [rescaled_of_lt whole small, scaled_tenth read sign h, Option.map_eq_some_iff]
  constructor
  · intro kept
    obtain ⟨z, read, same⟩ := kept
    rw [← same]
    exact (ofUnits?_eq_some_iff.mp read).2.symm
  · intro rank
    exact ⟨x.withSign false, ofUnits?_eq_some_iff.mpr ⟨rfl, rank.symm⟩, rfl⟩

/-- A number whose multiple is not rounded is kept. -/
theorem rescaled_of_exact (h : y.units = 10 * value * unitsInOne) : x.rescaled = some x := by
  have same : 10 * value * unitsInOne = x.units * 10 := by
    rw [whole, Nat.mul_comm _ 10, Nat.mul_assoc]
  have scaled := nearestRank_mul_right x.units 1 (by decide : 0 < 10)
  rw [Nat.one_mul] at scaled
  rw [rescaled_eq_self_iff whole small read sign h, same, scaled]
  exact nearestRank_unitsOfRank x.rank

/-- In units of the grid's step at the number, a tenth of the rounded multiple is nearest to the
    number or to one of its neighbours. -/
theorem rescaled_eq_self_iff_of_step (h : y.units = multiple * unitsInOne)
    {scale significand steps : Nat} (low : 2 ^ 52 ≤ significand) (high : significand < 2 ^ 53)
    (splitValue : value * unitsInOne = significand * 2 ^ scale)
    (splitMultiple : multiple * unitsInOne = steps * 2 ^ scale)
    (atLeast : 2 ^ 52 * 10 ≤ steps) (below : steps < 2 ^ 53 * 10)
    (close : 2 * steps < 20 * significand + 30 ∧ 20 * significand < 2 * steps + 30)
    (noTie : 2 * steps + 10 ≠ 20 * significand ∧ 2 * steps ≠ 20 * significand + 10) :
    x.rescaled = some x ↔
      2 * steps < 20 * significand + 10 ∧ 20 * significand < 2 * steps + 10 := by
  have rank : x.rank = scale * 2 ^ 52 + significand := by
    have exact := nearestRank_unitsOfRank x.rank
    rw [← units, whole, splitValue, nearestRank_significand scale low high] at exact
    exact exact.symm
  have tenth {quotient : Nat} (under : 20 * quotient < 2 * steps + 10)
      (above : 2 * steps < 20 * quotient + 10) :
      nearestRank (steps * 2 ^ scale) 10 = scale * 2 ^ 52 + quotient := by
    have positive := Nat.two_pow_pos scale
    have scaledUnder := Nat.mul_lt_mul_of_pos_right under positive
    have scaledAbove := Nat.mul_lt_mul_of_pos_right above positive
    have product : 2 * quotient * (10 * 2 ^ scale) = 2 * 10 * (quotient * 2 ^ scale) :=
      Nat.mul_mul_mul_comm 2 quotient 10 (2 ^ scale)
    rw [Nat.add_mul, Nat.mul_assoc, Nat.mul_assoc] at scaledUnder scaledAbove
    apply nearestRank_of_step
    · rw [← Nat.mul_assoc]
      exact Nat.mul_le_mul_right _ atLeast
    · rw [← Nat.mul_assoc]
      exact Nat.mul_lt_mul_of_pos_right below positive
    · rw [product]
      omega
    · rw [Nat.add_mul, product]
      omega
  rw [rescaled_eq_self_iff whole small read sign h, splitMultiple, rank]
  by_cases near : 2 * steps < 20 * significand + 10 ∧ 20 * significand < 2 * steps + 10
  · rw [tenth near.2 near.1]
    simp [near]
  · by_cases less : 2 * steps < 20 * significand
    · have other : nearestRank (steps * 2 ^ scale) 10 = scale * 2 ^ 52 + (significand - 1) :=
        tenth (by omega) (by omega)
      rw [other]
      omega
    · have other : nearestRank (steps * 2 ^ scale) 10 = scale * 2 ^ 52 + (significand + 1) :=
        tenth (by omega) (by omega)
      rw [other]
      omega

end Kept

theorem unitsInOne_split {shift : Nat} (h : shift ≤ 1074) :
    unitsInOne = 2 ^ shift * 2 ^ (1074 - shift) := by
  rw [unitsInOne_eq, ← Nat.pow_add, Nat.add_sub_cancel' h]

/-- The multiple is rounded to some steps of its grid; measured in the finer steps at the number,
    this decides whether the number is kept. -/
theorem exists_rounded (whole : x.units = value * unitsInOne) (small : value < 10 ^ 16)
    (power shift : Nat) (low : 2 ^ (52 + power) ≤ 10 * value) (high : 10 * value < 2 ^ (53 + power))
    (finite : power < 900) (fine : shift ≤ 1074) (normal : 2 ^ 52 ≤ value * 2 ^ shift)
    (bounded : value * 2 ^ shift < 2 ^ 53) : ∃ rounded,
    2 * (rounded * 2 ^ power) ≤ 20 * value + 2 ^ power ∧
    20 * value ≤ 2 * (rounded * 2 ^ power) + 2 ^ power ∧
    ∀ steps significand, steps = rounded * 2 ^ power * 2 ^ shift →
      significand = value * 2 ^ shift → 2 ^ 52 * 10 ≤ steps → steps < 2 ^ 53 * 10 →
      2 * steps < 20 * significand + 30 ∧ 20 * significand < 2 * steps + 30 →
      2 * steps + 10 ≠ 20 * significand ∧ 2 * steps ≠ 20 * significand + 10 →
      (x.rescaled = some x ↔
        2 * steps < 20 * significand + 10 ∧ 20 * significand < 2 * steps + 10) := by
  obtain ⟨y, read, sign, units⟩ := exists_ofNat?_of_binade (10 * value) power low high finite
  obtain ⟨under, above⟩ := roundHalfEven_near (10 * value) (Nat.two_pow_pos power)
  refine ⟨roundHalfEven (10 * value) (2 ^ power), by omega, by omega, ?_⟩
  intro steps significand stepsEq significandEq atLeast below close noTie
  have split (number : Nat) : number * unitsInOne = number * 2 ^ shift * 2 ^ (1074 - shift) := by
    rw [unitsInOne_split fine, Nat.mul_assoc]
  subst stepsEq significandEq
  exact rescaled_eq_self_iff_of_step whole small read sign units normal bounded (split value)
    (split _) atLeast below close noTie

theorem mul_two_mul_unitsInOne (number : Nat) :
    number * 2 * unitsInOne = number * 2 ^ (1074 + 1) := by
  have double (scale : Nat) : number * 2 * 2 ^ scale = number * 2 ^ (scale + 1) := by
    rw [Nat.pow_succ, Nat.mul_comm (2 ^ scale), Nat.mul_assoc]
  rw [unitsInOne_eq]
  exact double 1074

/-- Whole numbers from `2 ^ 53` to `2 ^ 54` are even. -/
theorem exists_half (whole : x.units = value * unitsInOne) (low : 2 ^ 53 ≤ value)
    (high : value < 2 ^ 54) : ∃ half, value = half * 2 := by
  obtain ⟨scale, significand, least, most, unitsEq, _⟩ := exists_significand whole (by omega)
  have above : 2 ^ (53 + 1074) ≤ x.units := by
    rw [whole, Nat.pow_add, ← unitsInOne_eq]
    exact Nat.mul_le_mul_right unitsInOne low
  have below : x.units < 2 ^ (54 + 1074) := by
    rw [whole, Nat.pow_add, ← unitsInOne_eq]
    exact Nat.mul_lt_mul_of_pos_right high unitsInOne_pos
  have atLeast : 2 ^ (52 + scale) ≤ x.units := by
    rw [unitsEq, Nat.pow_add]
    exact Nat.mul_le_mul_right _ least
  have atMost : x.units < 2 ^ (53 + scale) := by
    rw [unitsEq, Nat.pow_add]
    exact Nat.mul_lt_mul_of_pos_right most (Nat.two_pow_pos scale)
  have lower := (Nat.pow_lt_pow_iff_right (by decide)).mp (Nat.lt_of_le_of_lt above atMost)
  have upper := (Nat.pow_lt_pow_iff_right (by decide)).mp (Nat.lt_of_le_of_lt atLeast below)
  obtain rfl : scale = 1074 + 1 := by omega
  refine ⟨significand, Nat.eq_of_mul_eq_mul_right unitsInOne_pos ?_⟩
  rw [mul_two_mul_unitsInOne, ← whole]
  exact unitsEq

section Intervals

variable (whole : x.units = value * unitsInOne) (small : value < 10 ^ 16)
include whole small

theorem rescaled_of_lt_two_pow_54 (short : 10 * value < 2 ^ 54) : x.rescaled = some x := by
  by_cases exact : 10 * value < 2 ^ 53
  · obtain ⟨y, read, sign, multiple⟩ := exists_ofNat?_of_lt exact
    exact rescaled_of_exact whole small read sign multiple
  · obtain ⟨y, read, sign, multiple⟩ :=
      exists_ofNat?_of_binade (10 * value) 1 (by omega) short (by decide)
    have near := roundHalfEven_near (10 * value) (Nat.two_pow_pos 1)
    have even : roundHalfEven (10 * value) (2 ^ 1) * 2 ^ 1 = 10 * value := by omega
    rw [even] at multiple
    exact rescaled_of_exact whole small read sign multiple

theorem rescaled_iff_mod_two (low : 2 ^ 54 ≤ 10 * value) (high : value < 2 ^ 51) :
    x.rescaled = some x ↔ value % 2 = 0 := by
  obtain ⟨rounded, under, above, kept⟩ := exists_rounded whole small 2 2 (by omega) (by omega)
    (by decide) (by decide) (by omega) (by omega)
  rw [kept (16 * rounded) (4 * value) (by omega) (by omega) (by omega) (by omega) (by omega)
    (by omega)]
  omega

theorem rescaled_of_two_pow_51_le (low : 2 ^ 51 ≤ value) (high : 10 * value < 2 ^ 55) :
    x.rescaled = some x := by
  obtain ⟨rounded, under, above, kept⟩ := exists_rounded whole small 2 1 (by omega) (by omega)
    (by decide) (by decide) (by omega) (by omega)
  rw [kept (8 * rounded) (2 * value) (by omega) (by omega) (by omega) (by omega) (by omega)
    (by omega)]
  omega

theorem rescaled_iff_mod_four (low : 2 ^ 55 ≤ 10 * value) (high : value < 2 ^ 52) :
    x.rescaled = some x ↔ value % 4 ≠ 2 := by
  obtain ⟨rounded, under, above, kept⟩ := exists_rounded whole small 3 1 (by omega) (by omega)
    (by decide) (by decide) (by omega) (by omega)
  rw [kept (16 * rounded) (2 * value) (by omega) (by omega) (by omega) (by omega) (by omega)
    (by omega)]
  omega

theorem rescaled_of_two_pow_52_le (low : 2 ^ 52 ≤ value) (high : 10 * value < 2 ^ 56) :
    x.rescaled = some x := by
  obtain ⟨rounded, under, above, kept⟩ := exists_rounded whole small 3 0 (by omega) (by omega)
    (by decide) (by decide) (by omega) (by omega)
  rw [kept (8 * rounded) value (by omega) (by omega) (by omega) (by omega) (by omega) (by omega)]
  omega

theorem rescaled_iff_mod_eight (low : 2 ^ 56 ≤ 10 * value) (high : value < 2 ^ 53) :
    x.rescaled = some x ↔ value % 8 ∉ [1, 4, 7] := by
  obtain ⟨rounded, under, above, kept⟩ := exists_rounded whole small 4 0 (by omega) (by omega)
    (by decide) (by decide) (by omega) (by omega)
  rw [kept (16 * rounded) value (by omega) (by omega) (by omega) (by omega) (by omega) (by omega)]
  simp only [List.mem_cons, List.not_mem_nil, or_false, not_or]
  have residues : value % 8 = 0 ∨ value % 8 = 1 ∨ value % 8 = 2 ∨ value % 8 = 3 ∨
      value % 8 = 4 ∨ value % 8 = 5 ∨ value % 8 = 6 ∨ value % 8 = 7 := by omega
  omega

theorem rescaled_of_two_pow_53_le (low : 2 ^ 53 ≤ value) : x.rescaled = some x := by
  obtain ⟨half, valueEq⟩ := exists_half whole low (by omega)
  obtain ⟨y, read, sign, multiple⟩ :=
    exists_ofNat?_of_binade (10 * value) 4 (by omega) (by omega) (by decide)
  have near := roundHalfEven_near (10 * value) (Nat.two_pow_pos 4)
  generalize roundHalfEven (10 * value) (2 ^ 4) = rounded at multiple near
  have stepsEq : rounded * 2 ^ 4 = 8 * rounded * 2 := by omega
  rw [stepsEq] at multiple
  obtain ⟨scale, doubled⟩ : ∃ scale, ∀ number, number * 2 * unitsInOne = number * 2 ^ scale :=
    ⟨1074 + 1, mul_two_mul_unitsInOne⟩
  have splitValue : value * unitsInOne = half * 2 ^ scale := by
    rw [valueEq]
    exact doubled half
  rw [rescaled_eq_self_iff_of_step whole small read sign multiple (by omega) (by omega)
    splitValue (doubled (8 * rounded)) (by omega) (by omega) (by omega) (by omega)]
  omega

/-- Which whole numbers below `10 ^ 16` are kept. -/
theorem rescaled_eq_self_iff_survives : x.rescaled = some x ↔ survives value = true := by
  simp only [survives]
  split
  case isTrue inside => rw [rescaled_iff_mod_two whole small inside.1 inside.2, decide_eq_true_eq]
  split
  case isTrue inside => rw [rescaled_iff_mod_four whole small inside.1 inside.2, decide_eq_true_eq]
  split
  case isTrue inside => rw [rescaled_iff_mod_eight whole small inside.1 inside.2, decide_eq_true_eq]
  -- Between the three intervals a tenth of the rounding is too little to matter.
  simp only [iff_true]
  by_cases first : 10 * value < 2 ^ 54
  · exact rescaled_of_lt_two_pow_54 whole small first
  by_cases second : 10 * value < 2 ^ 55
  · exact rescaled_of_two_pow_51_le whole small (by omega) second
  by_cases third : 10 * value < 2 ^ 56
  · exact rescaled_of_two_pow_52_le whole small (by omega) third
  · exact rescaled_of_two_pow_53_le whole small (by omega)

end Intervals

/-- Whether a whole number is kept: decided by its last binary digits below `10 ^ 16`, and by
    rounding from there on. -/
def kept (x : Binary64) : Bool :=
  if x.units / unitsInOne < 10 ^ 16 then survives (x.units / unitsInOne)
  else x.rescaled = some x

theorem rescaled_eq_self_iff_kept (whole : x.isIntegral = true) :
    x.rescaled = some x ↔ x.kept = true := by
  unfold kept
  split
  case isTrue small =>
    have value : x.units = x.units / unitsInOne * unitsInOne :=
      (Nat.div_mul_cancel (Nat.dvd_of_mod_eq_zero (of_decide_eq_true whole))).symm
    exact rescaled_eq_self_iff_survives value small
  case isFalse => rw [decide_eq_true_eq]

theorem kept_of_units (whole : x.units = value * unitsInOne) (small : value < 10 ^ 16) :
    x.kept = survives value := by
  rw [kept, whole, Nat.mul_div_cancel _ unitsInOne_pos, if_pos small]

end Binary64

end TinyScript
