import Mathlib.Data.Nat.Cast.Order.Field
import EdmQuery.Proofs.BinaryRounding

set_option autoImplicit false

namespace EdmQuery

namespace Binary64

open BinaryFormat (double)

/-- An unsigned finite number up to a power of two. -/
def AtMost (bits : Int) (x : Binary64) : Prop :=
  ∃ significand exponent, x = .finite false significand exponent ∧ x.toRat ≤ 2 ^ bits

variable {bits : Int}

theorem atMost_zero (bits : Int) : AtMost bits (.finite false 0 (-1074)) := by
  refine ⟨0, -1074, rfl, ?_⟩
  rw [toRat_unsigned, Nat.cast_zero, zero_mul]
  exact (zpow_pos two_pos _).le

theorem atMost_round {num den : Nat} (below : 0 < den) (least : -1000 ≤ bits) (most : bits ≤ 900)
    (small : (num / den : Rat) < 2 ^ bits) : AtMost bits (double.round false num den) := by
  by_cases none : num = 0
  · rw [BinaryFormat.round, if_pos none]
    exact atMost_zero bits
  · have above := Nat.pos_of_ne_zero none
    obtain ⟨low, -⟩ := BinaryFormat.leadingExponent_bounds above below
    have leading : BinaryFormat.leadingExponent num den < bits :=
      (zpow_lt_zpow_iff_right₀ (one_lt_two : (1 : Rat) < 2)).1 (low.trans_lt small)
    obtain ⟨rounded, exponent, place, fits, -, -, given⟩ :=
      BinaryFormat.round_spec false above below
    -- The bits of the significand end at the leading bit of the quotient, or one place above it.
    have power : (2 : Rat) ^ 53 * 2 ^ exponent ≤ 2 ^ bits := by
      rw [← zpow_natCast, ← zpow_add₀ two_ne_zero]
      exact zpow_le_zpow_right₀ one_le_two (by push_cast; omega)
    have value : (rounded * 2 ^ exponent : Rat) ≤ 2 ^ bits := by
      refine le_trans (mul_le_mul_of_nonneg_right ?_ (zpow_pos two_pos _).le) power
      exact_mod_cast fits
    rw [given]
    split
    · rw [BinaryFormat.bounded_of_le _ _ (by omega)]
      refine ⟨_, _, rfl, le_trans (le_of_eq ?_) power⟩
      rw [toRat_unsigned, zpow_add_one₀ two_ne_zero]
      push_cast
      ring
    · rw [BinaryFormat.bounded_of_le _ _ (by omega)]
      exact ⟨_, _, rfl, value⟩

variable {number : Rat} {x y : Binary64}

theorem RoundOf.atMost (result : RoundOf number x) (least : -1000 ≤ bits) (most : bits ≤ 900)
    (small : number < 2 ^ bits) : AtMost bits x := by
  obtain ⟨num, den, below, rfl, rfl⟩ := result
  exact atMost_round below least most small

theorem atMost_ofNat {n : Nat} (least : -1000 ≤ bits) (most : bits ≤ 900)
    (small : (n : Rat) < 2 ^ bits) : AtMost bits (ofNat n) :=
  (roundOf_ofNat n).atMost least most small

theorem AtMost.mono {more : Int} (atMost : AtMost bits x) (larger : bits ≤ more) :
    AtMost more x := by
  obtain ⟨significand, exponent, same, small⟩ := atMost
  exact ⟨significand, exponent, same, small.trans (zpow_le_zpow_right₀ one_le_two larger)⟩

theorem AtMost.nonneg (atMost : AtMost bits x) : 0 ≤ x.toRat := by
  obtain ⟨significand, exponent, rfl, -⟩ := atMost
  rw [toRat_unsigned]
  exact mul_nonneg (Nat.cast_nonneg _) (zpow_pos two_pos _).le

/-- A sum of two numbers has one bit more, and another one where it is rounded. -/
theorem AtMost.add (first : AtMost bits x) (second : AtMost bits y) (least : -1000 ≤ bits)
    (most : bits ≤ 800) : AtMost (bits + 2) (x.add y) := by
  have nonneg := add_nonneg first.nonneg second.nonneg
  have power : (0 : Rat) < 2 ^ bits := zpow_pos two_pos _
  obtain ⟨firstDigits, firstPlace, rfl, firstSmall⟩ := first
  obtain ⟨secondDigits, secondPlace, rfl, secondSmall⟩ := second
  rcases nonneg.eq_or_lt with zero | positive
  · obtain ⟨sum, value, added⟩ := add_unsigned firstDigits secondDigits firstPlace secondPlace
    have none : sum = 0 := by
      rw [value] at zero
      exact_mod_cast (mul_eq_zero.1 zero.symm).resolve_right (zpow_pos two_pos _).ne'
    rw [added, if_pos none]
    exact atMost_zero _
  · refine (roundOf_add positive).atMost (by omega) (by omega) ?_
    rw [zpow_add₀ two_ne_zero]
    norm_num
    linarith

theorem AtMost.mul {more : Int} (first : AtMost bits x) (second : AtMost more y)
    (least : -1000 ≤ bits + more) (most : bits + more ≤ 800) :
    AtMost (bits + more + 1) (x.mul y) := by
  have firstNonneg := first.nonneg
  have secondNonneg := second.nonneg
  have power (n : Int) : (0 : Rat) < 2 ^ n := zpow_pos two_pos _
  obtain ⟨firstDigits, firstPlace, rfl, firstSmall⟩ := first
  obtain ⟨secondDigits, secondPlace, rfl, secondSmall⟩ := second
  refine roundOf_mul.atMost (by omega) (by omega) ?_
  have product := mul_le_mul firstSmall secondSmall secondNonneg (power bits).le
  rw [← zpow_add₀ two_ne_zero] at product
  exact product.trans_lt (zpow_lt_zpow_right₀ one_lt_two (by omega))

/-- A quotient has no more bits than the dividend, up to those by which the divisor is below one. -/
theorem AtMost.div {less : Int} (first : AtMost bits x) {significand : Nat} {exponent : Int}
    (large : (2 : Rat) ^ less ≤ (finite false significand exponent).toRat)
    (least : -1000 ≤ bits - less) (most : bits - less ≤ 800) :
    AtMost (bits - less + 1) (x.div (finite false significand exponent)) := by
  have power (n : Int) : (0 : Rat) < 2 ^ n := zpow_pos two_pos _
  have positive := (power less).trans_le large
  have divisible : significand ≠ 0 := by
    rintro rfl
    rw [toRat_unsigned, Nat.cast_zero, zero_mul] at positive
    exact absurd positive (lt_irrefl _)
  obtain ⟨digits, place, rfl, small⟩ := first
  refine (roundOf_div divisible).atMost (by omega) (by omega) ?_
  rw [div_lt_iff₀ positive]
  calc (finite false digits place).toRat ≤ 2 ^ bits := small
    _ < 2 ^ (bits + 1) := zpow_lt_zpow_right₀ one_lt_two (by omega)
    _ = 2 ^ (bits - less + 1) * 2 ^ less := by
        rw [← zpow_add₀ two_ne_zero]
        exact congrArg _ (by omega)
    _ ≤ 2 ^ (bits - less + 1) * (finite false significand exponent).toRat :=
        mul_le_mul_of_nonneg_left large (power _).le

/-- Rounding to an integer adds one at most. -/
theorem AtMost.round (bounded : AtMost bits x) (least : 0 ≤ bits) (most : bits ≤ 800) :
    AtMost (bits + 2) x.round := by
  obtain ⟨significand, exponent, rfl, small⟩ := bounded
  have grow : (2 : Rat) ^ (bits + 2) = 4 * 2 ^ bits := by
    rw [zpow_add₀ two_ne_zero, mul_comm]
    norm_num
  have one : (1 : Rat) ≤ 2 ^ bits := one_le_zpow₀ one_le_two least
  rw [Binary64.round, toWhole]
  split
  · exact ⟨significand, exponent, rfl, by linarith⟩
  · next fraction =>
    refine atMost_round one_pos (by omega) (by omega) ?_
    have unit : 0 < 1 <<< (-exponent).toNat := by
      rw [Nat.one_shiftLeft]
      exact Nat.two_pow_pos _
    have value : (significand : Rat) / (1 <<< (-exponent).toNat : Nat) =
        (finite false significand exponent).toRat := by
      rw [cast_shiftLeft (by omega), Nat.cast_one, one_mul, zpow_neg, div_inv_eq_mul,
        toRat_unsigned]
    have near : (divNearestUp significand (1 <<< (-exponent).toNat) : Rat) ≤
        (finite false significand exponent).toRat + 1 := by
      rw [← value]
      have up : divNearestUp significand (1 <<< (-exponent).toNat) ≤
          significand / (1 <<< (-exponent).toNat) + 1 := by
        rw [divNearestUp]
        split
        · exact le_refl _
        · exact Nat.le_succ _
      have cast : (divNearestUp significand (1 <<< (-exponent).toNat) : Rat) ≤
          (significand / (1 <<< (-exponent).toNat) : Nat) + 1 := by exact_mod_cast up
      exact cast.trans (add_le_add_left Nat.cast_div_le 1)
    rw [Nat.cast_one, div_one]
    exact near.trans_lt (by linarith)

end Binary64

end EdmQuery
