import EdmQuery.Proofs.BinaryRounding

set_option autoImplicit false

namespace EdmQuery

namespace DecimalDigits

/-- The number that digits at a place denote. -/
def toRat (number : DecimalDigits) : Rat := number.digits * 10 ^ number.exponent

theorem cast_pow_toNat (base : Nat) {exponent : Int} (natural : 0 ≤ exponent) :
    ((Nat.pow base exponent.toNat : Nat) : Rat) = (base : Rat) ^ exponent := by
  show ((base ^ exponent.toNat : Nat) : Rat) = _
  rw [Nat.cast_pow, ← zpow_natCast, Int.toNat_of_nonneg natural]

theorem ratio_pos (value : Nat) (twos tens : Int) : 0 < (ratio value twos tens).2 := by
  rw [ratio]
  refine Nat.mul_pos ?_ ?_
  · split
    · exact one_pos
    · exact Nat.two_pow_pos _
  · split
    · exact one_pos
    · exact Nat.pow_pos (by decide)

theorem ratio_eq (value : Nat) (twos tens : Int) :
    ((ratio value twos tens).1 : Rat) / (ratio value twos tens).2 =
      value * 2 ^ twos / 10 ^ tens := by
  have two : ((if 0 ≤ twos then Nat.pow 2 twos.toNat else 1 : Nat) : Rat) /
      (if 0 ≤ twos then 1 else Nat.pow 2 (-twos).toNat : Nat) = 2 ^ twos := by
    split
    · next natural => rw [cast_pow_toNat 2 natural, Nat.cast_one, div_one, Nat.cast_ofNat]
    · rw [cast_pow_toNat 2 (by omega), Nat.cast_one, zpow_neg, one_div, inv_inv, Nat.cast_ofNat]
  have ten : ((if tens < 0 then Nat.pow 10 (-tens).toNat else 1 : Nat) : Rat) /
      (if tens < 0 then 1 else Nat.pow 10 tens.toNat : Nat) = (10 ^ tens)⁻¹ := by
    split
    · rw [cast_pow_toNat 10 (by omega), Nat.cast_one, div_one, zpow_neg, Nat.cast_ofNat]
    · rw [cast_pow_toNat 10 (by omega), Nat.cast_one, one_div, Nat.cast_ofNat]
  rw [ratio]
  simp only [Nat.cast_mul]
  rw [mul_assoc, mul_div_assoc, mul_div_mul_comm, two, ten, ← mul_assoc, ← div_eq_mul_inv]

/-- The distance of two points at a place, in units of `2 ^ twos`. -/
def spacing (twos place : Int) : Rat := 10 ^ place / 2 ^ twos

theorem spacing_pos (twos place : Int) : 0 < spacing twos place :=
  div_pos (zpow_pos (by norm_num) _) (zpow_pos two_pos _)

variable {interval : RoundingInterval} {twos place : Int} {point : Nat}

theorem contains_point : interval.contains (point * (ratio 1 (-twos) (-place)).1)
    (ratio 1 (-twos) (-place)).2 = true ↔ interval.Holds (point * spacing twos place) := by
  rw [interval.contains_iff _ (ratio_pos ..), Nat.cast_mul, mul_div_assoc, ratio_eq, Nat.cast_one,
    one_mul, zpow_neg, zpow_neg, div_inv_eq_mul, inv_mul_eq_div, spacing]

/-- The last point of the grid that is not behind the center of an interval. -/
def floorPoint (interval : RoundingInterval) (twos place : Int) : Nat :=
  (ratio interval.center twos place).1 / (ratio interval.center twos place).2

/-- The neighbours of the center, the nearer one first, are the points that are tried. -/
theorem onGrid_cases (interval : RoundingInterval) (twos place : Int) :
    ∃ nearer farther, (nearer = floorPoint interval twos place ∧ farther = nearer + 1 ∨
        nearer = farther + 1 ∧ farther = floorPoint interval twos place) ∧
      onGrid interval twos place =
        if interval.contains (nearer * (ratio 1 (-twos) (-place)).1) (ratio 1 (-twos) (-place)).2
        then some nearer
        else if interval.contains (farther * (ratio 1 (-twos) (-place)).1)
          (ratio 1 (-twos) (-place)).2
        then some farther
        else none := by
  rw [floorPoint]
  rcases center : ratio interval.center twos place with ⟨num, den⟩
  have apart : ¬ num / den + 1 = num / den := by omega
  by_cases down : (decide (2 * (num % den) < den) ||
      2 * (num % den) == den && num / den % 2 == 0) = true
  · refine ⟨num / den, num / den + 1, .inl ⟨rfl, rfl⟩, ?_⟩
    simp only [onGrid, center, if_pos down, if_true]
  · refine ⟨num / den + 1, num / den, .inr ⟨rfl, rfl⟩, ?_⟩
    simp only [onGrid, center, if_neg down, if_neg apart]

theorem holds_of_onGrid (found : onGrid interval twos place = some point) :
    interval.Holds (point * spacing twos place) := by
  obtain ⟨nearer, farther, -, tried⟩ := onGrid_cases interval twos place
  rw [tried] at found
  rw [← contains_point]
  split at found
  · next inside =>
    cases found
    exact inside
  · split at found
    · next inside =>
      cases found
      exact inside
    · cases found

theorem onGrid_isSome (neighbour : point = floorPoint interval twos place ∨
      point = floorPoint interval twos place + 1)
    (holds : interval.Holds (point * spacing twos place)) :
    ∃ found, onGrid interval twos place = some found := by
  obtain ⟨nearer, farther, neighbours, tried⟩ := onGrid_cases interval twos place
  have tries : point = nearer ∨ point = farther := by omega
  have inside := contains_point.2 holds
  rw [tried]
  split
  · exact ⟨nearer, rfl⟩
  · next missed =>
    rcases tries with rfl | rfl
    · exact absurd inside missed
    · exact ⟨point, if_pos inside⟩

/-- The center lies between two neighbouring points. -/
theorem center_between (interval : RoundingInterval) (twos place : Int) :
    floorPoint interval twos place * spacing twos place ≤ interval.center ∧
      (interval.center : Rat) < (floorPoint interval twos place + 1) * spacing twos place := by
  have positive := spacing_pos twos place
  have center : (interval.center : Rat) =
      (ratio interval.center twos place).1 / (ratio interval.center twos place).2 *
        spacing twos place := by
    rw [ratio_eq, spacing]
    field_simp
  have bottom := ratio_pos interval.center twos place
  rw [floorPoint]
  generalize (ratio interval.center twos place).1 = num,
    (ratio interval.center twos place).2 = den at center bottom
  rw [center, mul_le_mul_iff_left₀ positive, mul_lt_mul_iff_left₀ positive]
  constructor
  · rw [le_div_iff₀ (Nat.cast_pos.2 bottom)]
    exact_mod_cast Nat.div_mul_le_self num den
  · rw [div_lt_iff₀ (Nat.cast_pos.2 bottom), mul_comm]
    exact_mod_cast Nat.lt_mul_div_succ num bottom

theorem RoundingInterval.low_le_of_holds {number : Rat} (holds : interval.Holds number) :
    interval.low ≤ number ∧ number ≤ interval.high := by
  rw [Holds] at holds
  split at holds
  · exact holds
  · exact ⟨holds.1.le, holds.2.le⟩

/-- In an interval narrower than the grid there is one point at most. -/
theorem point_unique (narrow : (interval.high - interval.low : Rat) < spacing twos place)
    {other : Nat} (holds : interval.Holds (point * spacing twos place))
    (otherHolds : interval.Holds (other * spacing twos place)) : point = other := by
  have positive := spacing_pos twos place
  obtain ⟨low, high⟩ := RoundingInterval.low_le_of_holds holds
  obtain ⟨otherLow, otherHigh⟩ := RoundingInterval.low_le_of_holds otherHolds
  have above : (point : Rat) < other + 1 := by
    refine (mul_lt_mul_iff_left₀ positive).1 ?_
    rw [add_mul, one_mul]
    linarith
  have below : (other : Rat) < point + 1 := by
    refine (mul_lt_mul_iff_left₀ positive).1 ?_
    rw [add_mul, one_mul]
    linarith
  have first : point < other + 1 := by exact_mod_cast above
  have last : other < point + 1 := by exact_mod_cast below
  omega

/-- The one point of the grid in an interval is found. -/
theorem onGrid_of_holds (narrow : (interval.high - interval.low : Rat) < spacing twos place)
    (around : interval.low ≤ interval.center ∧ interval.center ≤ interval.high)
    (holds : interval.Holds (point * spacing twos place)) :
    onGrid interval twos place = some point := by
  have positive := spacing_pos twos place
  obtain ⟨below, above⟩ := center_between interval twos place
  have lowEnd : (interval.low : Rat) ≤ interval.center := by exact_mod_cast around.1
  have highEnd : (interval.center : Rat) ≤ interval.high := by exact_mod_cast around.2
  obtain ⟨low, high⟩ := RoundingInterval.low_le_of_holds holds
  -- The point is less than one step away from the center.
  have neighbour : point = floorPoint interval twos place ∨
      point = floorPoint interval twos place + 1 := by
    generalize floorPoint interval twos place = floor at below above
    have least : (floor : Rat) < (point + 1 : Nat) := by
      refine (mul_lt_mul_iff_left₀ positive).1 ?_
      rw [Nat.cast_succ, add_mul, one_mul]
      linarith
    have most : (point : Rat) < (floor + 2 : Nat) := by
      refine (mul_lt_mul_iff_left₀ positive).1 ?_
      rw [Nat.cast_add, Nat.cast_ofNat, add_mul]
      linarith
    have first : floor < point + 1 := by exact_mod_cast least
    have last : point < floor + 2 := by exact_mod_cast most
    omega
  obtain ⟨found, same⟩ := onGrid_isSome neighbour holds
  rw [same, point_unique narrow (holds_of_onGrid same) holds]

variable {start : Int} {fuel count : Nat}

/-- If there is something to find, the search stops there or before at a point of the interval,
which it leaves without zeros at its end. -/
theorem search_found (hit : onGrid interval twos place = some point) (first : place ≤ start - count)
    (last : start - count - fuel < place) :
    ∃ (stop : Int) (found : Nat), place ≤ stop ∧ interval.Holds (found * spacing twos stop) ∧
      search interval twos start fuel count =
        ⟨(stripTens 25 found).1, stop + (stripTens 25 found).2⟩ := by
  induction fuel generalizing count with
  | zero => omega
  | succ fuel ih =>
    rw [search]
    split
    · next found same => exact ⟨start - count, found, first, holds_of_onGrid same, rfl⟩
    · next missing =>
      have later : place ≠ start - count := by
        rintro rfl
        rw [hit] at missing
        cases missing
      exact ih (by push_cast; omega) (by push_cast; omega)

theorem toRat_stripTens (limit point : Nat) (place : Int) :
    toRat ⟨(stripTens limit point).1, place + (stripTens limit point).2⟩ = point * 10 ^ place := by
  have whole : ((stripTens limit point).1 * 10 ^ (stripTens limit point).2 : Rat) = point := by
    exact_mod_cast stripTens_mul limit point
  rw [toRat, zpow_add₀ (by norm_num), zpow_natCast, mul_comm (10 ^ place), ← mul_assoc, whole]

/-- The search finds a point of the interval on the grid of a place within its reach, if the
interval is narrower than this grid. -/
theorem toRat_search (narrow : (interval.high - interval.low : Rat) < spacing twos place)
    (around : interval.low ≤ interval.center ∧ interval.center ≤ interval.high)
    (holds : interval.Holds (point * spacing twos place)) (first : place ≤ start - count)
    (last : start - count - fuel < place) :
    (search interval twos start fuel count).toRat = point * 10 ^ place := by
  induction fuel generalizing count with
  | zero => omega
  | succ fuel ih =>
    rw [search]
    split
    · next coarse found =>
      rw [toRat_stripTens]
      -- A point of a coarser grid is one of this grid, too.
      obtain ⟨shift, same⟩ : ∃ shift : Nat, start - count = place + shift :=
        ⟨(start - count - place).toNat, by omega⟩
      have finer : (coarse : Rat) * 10 ^ (start - count : Int) =
          (coarse * 10 ^ shift : Nat) * 10 ^ place := by
        rw [same, zpow_add₀ (by norm_num), zpow_natCast]
        push_cast
        ring
      have coarseHolds := holds_of_onGrid found
      rw [spacing, ← mul_div_assoc, finer, mul_div_assoc] at coarseHolds
      rw [finer, point_unique narrow coarseHolds holds]
    · next missing =>
      refine ih (Int.le_of_lt_add_one (lt_of_le_of_ne ?_ ?_)) ?_
      · omega
      · intro same
        have there : place = start - count := by push_cast at same; omega
        rw [← there, onGrid_of_holds narrow around holds] at missing
        cases missing
      · push_cast
        omega

/-- Five decimals of the logarithm of two tell the powers of ten around a power of two, as far as
the format reaches. -/
theorem ten_pow_of_two_pow : ∀ bits : Fin 1101,
    (10 ^ (bits.val * 30103 / 100000) ≤ 2 ^ bits.val ∧
      2 ^ bits.val < 10 ^ (bits.val * 30103 / 100000 + 1)) ∧
    2 ^ bits.val ≤ 10 ^ ((bits.val * 30103 + 99999) / 100000) ∧
      10 ^ ((bits.val * 30103 + 99999) / 100000) < 10 * 2 ^ bits.val := by
  decide +kernel

theorem ten_zpow_of_two_zpow {bits : Int} (least : -1100 ≤ bits) (most : bits ≤ 1100) :
    (10 : Rat) ^ (bits * 30103 / 100000) ≤ 2 ^ bits ∧
      (2 : Rat) ^ bits < 10 ^ (bits * 30103 / 100000 + 1) := by
  rcases Int.le_total 0 bits with natural | negative
  · obtain ⟨bits, rfl⟩ := Int.eq_ofNat_of_zero_le natural
    have digits : (bits : Int) * 30103 / 100000 = (bits * 30103 / 100000 : Nat) := by push_cast; rfl
    obtain ⟨low, high⟩ := (ten_pow_of_two_pow ⟨bits, by omega⟩).1
    rw [digits, ← Nat.cast_succ, zpow_natCast, zpow_natCast, zpow_natCast]
    exact ⟨by exact_mod_cast low, by exact_mod_cast high⟩
  · obtain ⟨bits, rfl⟩ := Int.exists_eq_neg_ofNat negative
    have digits : -(bits : Int) * 30103 / 100000 = -((bits * 30103 + 99999) / 100000 : Nat) := by
      omega
    obtain ⟨low, high⟩ := (ten_pow_of_two_pow ⟨bits, by omega⟩).2
    have lowRat : (2 : Rat) ^ bits ≤ 10 ^ ((bits * 30103 + 99999) / 100000) := by exact_mod_cast low
    have highRat : (10 : Rat) ^ ((bits * 30103 + 99999) / 100000) < 10 * 2 ^ bits := by
      exact_mod_cast high
    have power : (0 : Rat) < 2 ^ bits := pow_pos two_pos _
    have ten : (0 : Rat) < 10 ^ ((bits * 30103 + 99999) / 100000) := pow_pos (by norm_num) _
    rw [digits, zpow_add₀ (by norm_num), zpow_neg, zpow_neg, zpow_natCast, zpow_natCast, zpow_one]
    constructor
    · exact inv_anti₀ power lowRat
    · rw [inv_mul_eq_div, lt_div_iff₀ ten, inv_mul_lt_iff₀ power, mul_comm (2 ^ bits)]
      exact highRat

variable {num den : Nat}

theorem decimalPoint_bounds (above : 0 < num) (below : 0 < den)
    (least : -1100 ≤ (Nat.log2 num : Int) - Nat.log2 den)
    (most : (Nat.log2 num : Int) - Nat.log2 den ≤ 1100) :
    (10 : Rat) ^ (decimalPoint num den - 1) ≤ num / den ∧
      (num / den : Rat) < 10 ^ decimalPoint num den := by
  have bottom : (0 : Rat) < den := Nat.cast_pos.2 below
  obtain ⟨bits, same⟩ : ∃ bits, (Nat.log2 num : Int) - Nat.log2 den = bits := ⟨_, rfl⟩
  obtain ⟨low, high⟩ := BinaryFormat.quotient_bounds above below
  rw [same] at low high least most
  obtain ⟨atLeast, atMost⟩ := ten_zpow_of_two_zpow least most
  have reaches (place : Int) : (if 0 ≤ place then decide (den * Nat.pow 10 place.toNat ≤ num)
      else decide (den ≤ num * Nat.pow 10 (-place).toNat)) = true ↔
        (10 : Rat) ^ place ≤ num / den := by
    rw [le_div_iff₀ bottom]
    split
    · next natural =>
      rw [decide_eq_true_eq, ← @Nat.cast_le Rat, Nat.cast_mul, cast_pow_toNat 10 natural,
        Nat.cast_ofNat, mul_comm]
    · rw [decide_eq_true_eq, ← @Nat.cast_le Rat, Nat.cast_mul, cast_pow_toNat 10 (by omega),
        Nat.cast_ofNat, zpow_neg, ← div_eq_mul_inv, le_div_iff₀ (zpow_pos (by norm_num) _),
        mul_comm]
  have next (place : Int) : (10 : Rat) ^ (place + 1) = 10 * 10 ^ place := by
    rw [zpow_add_one₀ (by norm_num), mul_comm]
  have step := zpow_add_one₀ (two_ne_zero : (2 : Rat) ≠ 0) bits
  have back : (2 : Rat) ^ bits = 2 * 2 ^ (bits - 1) := by
    rw [mul_comm, ← zpow_add_one₀ two_ne_zero, sub_add_cancel]
  have power : (0 : Rat) < 2 ^ bits := zpow_pos two_pos _
  simp only [decimalPoint, same, reaches]
  generalize bits * 30103 / 100000 = guess at atLeast atMost
  have before := next (guess - 1)
  have after := next (guess + 1)
  rw [sub_add_cancel] at before
  rw [add_assoc] at after
  have lowest : (10 : Rat) ^ (guess - 1) ≤ num / den := by linarith
  rw [if_pos lowest]
  split
  · next reached =>
    have highest : (num / den : Rat) < 10 ^ (guess + (1 + 1)) :=
      calc (num / den : Rat) < 2 ^ bits * 2 := step ▸ high
        _ ≤ 10 * 10 ^ (guess + 1) := by linarith
        _ = 10 ^ (guess + (1 + 1)) := after.symm
    have place : guess + 2 - 1 = guess + 1 := by omega
    exact ⟨by rwa [place], highest⟩
  · next missed =>
    split
    · next reached => exact ⟨by rwa [add_sub_cancel_right], not_le.1 missed⟩
    · next missed => exact ⟨lowest, not_le.1 missed⟩

variable {significand : Nat} {exponent : Int}

/-- The search starts at the first digit of the number. -/
theorem shortest_eq (positive : 0 < significand) (fits : significand < 2 ^ 53)
    (least : -1074 ≤ exponent) (most : exponent ≤ 971) :
    ∃ start, shortest significand exponent =
        search (roundingInterval significand exponent) (exponent - 2) start 18 1 ∧
      (10 : Rat) ^ (start - 1) ≤ significand * 2 ^ exponent ∧
      (significand * 2 ^ exponent : Rat) < 10 ^ start := by
  have center : (roundingInterval significand exponent).center = 4 * significand := rfl
  have value : ((ratio (4 * significand) (exponent - 2) 0).1 : Rat) /
      (ratio (4 * significand) (exponent - 2) 0).2 = significand * 2 ^ exponent := by
    rw [ratio_eq, zpow_zero, div_one, zpow_sub₀ two_ne_zero, Nat.cast_mul]
    field_simp
    norm_num
  have below := ratio_pos (4 * significand) (exponent - 2) 0
  have whole : shortest significand exponent =
      search (roundingInterval significand exponent) (exponent - 2)
        (decimalPoint (ratio (4 * significand) (exponent - 2) 0).1
          (ratio (4 * significand) (exponent - 2) 0).2) 18 1 := rfl
  generalize (ratio (4 * significand) (exponent - 2) 0).1 = num,
    (ratio (4 * significand) (exponent - 2) 0).2 = den at value below whole
  have one : (1 : Rat) ≤ significand := by exact_mod_cast positive
  have top : (significand : Rat) < 2 ^ (53 : Int) := by exact_mod_cast fits
  have power : (0 : Rat) < 2 ^ exponent := zpow_pos two_pos _
  have above : 0 < num := by
    refine Nat.pos_of_ne_zero fun none => ?_
    rw [none, Nat.cast_zero, zero_div] at value
    exact absurd value (mul_pos (by linarith) power).ne
  obtain ⟨low, high⟩ := BinaryFormat.quotient_bounds above below
  rw [value] at low high
  have first : (Nat.log2 num : Int) - Nat.log2 den - 1 < 53 + exponent := by
    refine (zpow_lt_zpow_iff_right₀ (one_lt_two : (1 : Rat) < 2)).1 (low.trans ?_)
    rw [zpow_add₀ two_ne_zero]
    exact mul_lt_mul_of_pos_right top power
  have last : exponent < (Nat.log2 num : Int) - Nat.log2 den + 1 := by
    refine (zpow_lt_zpow_iff_right₀ (one_lt_two : (1 : Rat) < 2)).1 (lt_of_le_of_lt ?_ high)
    exact le_mul_of_one_le_left power.le one
  rw [← value]
  exact ⟨_, whole, decimalPoint_bounds above below (by omega) (by omega)⟩

/-- Zeros at the end are removed, unless there are more than the limit. -/
theorem not_dvd_stripTens {limit number : Nat} (positive : number ≠ 0)
    (short : number < 10 ^ limit) : ¬ 10 ∣ (stripTens limit number).1 := by
  induction limit generalizing number with
  | zero =>
    rw [Nat.pow_zero] at short
    omega
  | succ limit ih =>
    rw [stripTens]
    split
    · next zero =>
      rw [Nat.pow_succ] at short
      exact ih (by omega) (by omega)
    · next digit => exact fun divides => digit (Nat.mod_eq_zero_of_dvd divides)

theorem stripTens_le (limit number : Nat) : (stripTens limit number).1 ≤ number :=
  calc (stripTens limit number).1
      ≤ (stripTens limit number).1 * Nat.pow 10 (stripTens limit number).2 :=
        Nat.le_mul_of_pos_right _ (Nat.pow_pos (by decide))
    _ = number := stripTens_mul limit number

/-- The interval reaches over less than one unit of the last place. -/
theorem roundingInterval_narrow (significand : Nat) (exponent : Int) :
    (((roundingInterval significand exponent).high : Rat) -
      (roundingInterval significand exponent).low) ≤ 4 ∧
    (roundingInterval significand exponent).low ≤ (roundingInterval significand exponent).center ∧
      (roundingInterval significand exponent).center ≤
        (roundingInterval significand exponent).high := by
  have gap := lowGap_le significand exponent
  rw [roundingInterval_eq]
  refine ⟨?_, by simp only; omega, by simp only; omega⟩
  rw [sub_le_iff_le_add']
  exact_mod_cast (by omega : 4 * significand + 2 ≤
    4 * significand - lowGap significand exponent + 4)

/-- One of the neighbours with seventeen digits is in the interval, less than half of a step from
the center. -/
theorem onGrid_seventeen (positive : 0 < significand) (fits : significand < 2 ^ 53) {start : Int}
    (low : (10 : Rat) ^ (start - 1) ≤ significand * 2 ^ exponent) :
    ∃ point, onGrid (roundingInterval significand exponent) (exponent - 2) (start - 17) =
      some point := by
  have power : (0 : Rat) < 2 ^ exponent := zpow_pos two_pos _
  have step : spacing (exponent - 2) (start - 17) * 10 ^ 16 ≤ 4 * significand := by
    have places : (10 : Rat) ^ (start - 17) * 10 ^ 16 = 10 ^ (start - 1) := by
      rw [← zpow_natCast, ← zpow_add₀ (by norm_num)]
      exact congrArg _ (by omega)
    rw [spacing, BinaryFormat.div_two_zpow_sub_two, mul_assoc, div_mul_eq_mul_div, places]
    exact mul_le_mul_of_nonneg_left ((div_le_iff₀ power).2 low) (by norm_num)
  have stepPositive := spacing_pos (exponent - 2) (start - 17)
  obtain ⟨below, above⟩ := center_between (roundingInterval significand exponent) (exponent - 2)
    (start - 17)
  have center : ((roundingInterval significand exponent).center : Rat) = 4 * significand := by
    rw [roundingInterval_eq]
    push_cast
    rfl
  have top : (significand : Rat) < 2 ^ 53 := by exact_mod_cast fits
  have gap : spacing (exponent - 2) (start - 17) < 2 * lowGap significand exponent := by
    rw [lowGap]
    split
    · next single =>
      rw [single.1] at step
      norm_num at step ⊢
      linarith
    · norm_num
      linarith
  have gapLe : (lowGap significand exponent : Rat) ≤ 2 := by
    exact_mod_cast lowGap_le significand exponent
  rw [center] at below above
  generalize floor : floorPoint (roundingInterval significand exponent) (exponent - 2)
    (start - 17) = point at below above
  by_cases half : 4 * significand - point * spacing (exponent - 2) (start - 17) ≤
      spacing (exponent - 2) (start - 17) / 2
  · have inside : 4 * significand - lowGap significand exponent <
          point * spacing (exponent - 2) (start - 17) ∧
        point * spacing (exponent - 2) (start - 17) < 4 * significand + 2 :=
      ⟨by linarith, by linarith⟩
    exact onGrid_isSome (.inl floor.symm)
      (roundingInterval_holds positive ⟨inside.1.le, inside.2.le⟩ fun _ => inside)
  · have inside : 4 * significand - lowGap significand exponent <
          (point + 1 : Nat) * spacing (exponent - 2) (start - 17) ∧
        (point + 1 : Nat) * spacing (exponent - 2) (start - 17) < 4 * significand + 2 := by
      rw [Nat.cast_succ, add_mul, one_mul]
      exact ⟨by linarith, by linarith⟩
    exact onGrid_isSome (.inr (congrArg (· + 1) floor.symm))
      (roundingInterval_holds positive ⟨inside.1.le, inside.2.le⟩ fun _ => inside)

/-- The shortest digits are a number in the rounding interval, without a zero at the end and with
eighteen digits at most. -/
theorem shortest_spec (positive : 0 < significand) (fits : significand < 2 ^ 53)
    (least : -1074 ≤ exponent) (most : exponent ≤ 971) :
    ¬ 10 ∣ (shortest significand exponent).digits ∧
      (shortest significand exponent).digits < 10 ^ 18 ∧
      (roundingInterval significand exponent).Holds
        ((shortest significand exponent).toRat / 2 ^ (exponent - 2)) := by
  obtain ⟨start, whole, low, high⟩ := shortest_eq positive fits least most
  obtain ⟨hit, same⟩ := onGrid_seventeen positive fits low
  obtain ⟨place, point, near, holds, stripped⟩ := search_found same (by push_cast; omega)
    (by push_cast; omega : start - (1 : Nat) - (18 : Nat) < start - 17)
  rw [whole, stripped, toRat_stripTens, mul_div_assoc]
  obtain ⟨bottom, top⟩ := bounds_of_holds holds
  have one : (1 : Rat) ≤ significand := by exact_mod_cast positive
  have given : point ≠ 0 := by
    rintro rfl
    rw [Nat.cast_zero, zero_mul] at bottom
    linarith
  have power : (0 : Rat) < 2 ^ exponent := zpow_pos two_pos _
  have ten : (0 : Rat) < 10 ^ place := zpow_pos (by norm_num) _
  -- The point is at most half as large again as the number, which has no further digits before.
  have bound : (point : Rat) * 10 ^ place < 10 ^ 18 * 10 ^ place := by
    rw [spacing, ← mul_div_assoc, BinaryFormat.div_two_zpow_sub_two, ← le_div_iff₀' (by norm_num),
      div_le_iff₀ power] at top
    have longer : (10 : Rat) ^ start ≤ 10 ^ (17 + place) :=
      zpow_le_zpow_right₀ (by norm_num) (by omega)
    have split : (10 : Rat) ^ (17 + place) = 10 ^ 17 * 10 ^ place := by
      rw [zpow_add₀ (by norm_num)]
      rfl
    have last : (2 : Rat) ^ exponent ≤ significand * 2 ^ exponent :=
      le_mul_of_one_le_left power.le one
    linarith
  have small : point < 10 ^ 18 := by
    have cast := (mul_lt_mul_iff_left₀ ten).1 bound
    exact_mod_cast cast
  exact ⟨not_dvd_stripTens given (small.trans (by norm_num)),
    (stripTens_le 25 point).trans_lt small, holds⟩

/-- A number of at most fifteen digits is what the binary number that it is rounded to is written
as. -/
theorem toRat_shortest {digits : Nat} {place : Int} (few : digits < 10 ^ 15)
    (nearest : BinaryFormat.IsNearest (digits * 10 ^ place) significand exponent) :
    (shortest significand exponent).toRat = digits * 10 ^ place := by
  have full : (2 : Rat) ^ 52 ≤ significand := by exact_mod_cast nearest.full
  have digitsBound : (digits : Rat) < 10 ^ 15 := by exact_mod_cast few
  obtain ⟨start, whole, low, high⟩ := shortest_eq (by have := nearest.full; omega) nearest.fits
    nearest.low.le nearest.high
  obtain ⟨narrow, around⟩ := roundingInterval_narrow significand exponent
  obtain ⟨below, above⟩ := nearest.bounds
  have power (n : Int) : (0 : Rat) < 2 ^ n := zpow_pos two_pos n
  have ten (n : Int) : (0 : Rat) < 10 ^ n := zpow_pos (by norm_num) n
  have last := mul_le_mul_of_nonneg_right full (power exponent).le
  have few := mul_lt_mul_of_pos_right digitsBound (ten place)
  have before : (10 : Rat) ^ start = 10 * 10 ^ (start - 1) := by
    rw [mul_comm, ← zpow_add_one₀ (by norm_num), sub_add_cancel]
  -- One unit of the last place is less than one of the last digit, and than one of the first.
  have fine : (2 : Rat) ^ exponent < 10 ^ place := by linarith
  have coarse : (2 : Rat) ^ exponent < 10 ^ (start - 1) := by linarith
  have reach : start - 1 < 16 + place := by
    refine (zpow_lt_zpow_iff_right₀ (by norm_num : (1 : Rat) < 10)).1 (low.trans_lt ?_)
    have power : (10 : Rat) ^ (16 + place) = 10 ^ 16 * 10 ^ place := by
      rw [zpow_add₀ (by norm_num)]
      rfl
    rw [power]
    linarith [ten place]
  obtain ⟨target, least⟩ : ∃ target, min place (start - 1) = target := ⟨_, rfl⟩
  obtain ⟨shift, moved⟩ : ∃ shift : Nat, place = target + shift :=
    ⟨(place - target).toNat, by omega⟩
  have point : (digits * 10 ^ place : Rat) = (digits * 10 ^ shift : Nat) * 10 ^ target := by
    rw [moved, zpow_add₀ (by norm_num), zpow_natCast]
    push_cast
    ring
  have holds := nearest.holds
  rw [point, mul_div_assoc] at holds
  rw [whole, point]
  refine toRat_search (narrow.trans_lt ?_) around holds (by push_cast; omega) (by push_cast; omega)
  have unit : (2 : Rat) ^ exponent < 10 ^ target := by
    rcases min_choice place (start - 1) with same | same
    · rwa [← least, same]
    · rwa [← least, same]
  rw [spacing, BinaryFormat.div_two_zpow_sub_two]
  have more := (one_lt_div₀ (power exponent)).2 unit
  linarith

end DecimalDigits

end EdmQuery
