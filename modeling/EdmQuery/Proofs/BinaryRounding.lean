import Mathlib.Data.Rat.Floor
import Mathlib.Tactic.FieldSimp
import Mathlib.Tactic.Linarith
import Mathlib.Tactic.NormNum
import Mathlib.Tactic.Ring
import EdmQuery.Number.Shortest
import EdmQuery.Proofs.MixedKeys

set_option autoImplicit false

namespace EdmQuery

section

variable {num den : Nat}

/-- A tie is never rounded to an odd number. -/
theorem divNearestEven_near_of_odd (positive : 0 < den) (odd : divNearestEven num den % 2 = 1) :
    2 * (divNearestEven num den * den) < 2 * num + den ∧
      2 * num < 2 * (divNearestEven num den * den) + den := by
  have split := Nat.div_add_mod' num den
  have below := Nat.mod_lt num positive
  unfold divNearestEven at odd ⊢
  simp only [Bool.or_eq_true, decide_eq_true_eq, Bool.and_eq_true, beq_iff_eq] at odd ⊢
  split
  · next up =>
    rw [if_pos up] at odd
    have step := Nat.succ_mul (num / den) den
    rw [Nat.succ_eq_add_one] at step
    omega
  · next down =>
    rw [if_neg down] at odd
    omega

/-- A rounded quotient is off by at most a half, and by less if it is odd. -/
theorem divNearestEven_bounds (num : Nat) {den : Nat} (positive : 0 < den) :
    (divNearestEven num den - 1 / 2 ≤ (num / den : Rat) ∧
      (num / den : Rat) ≤ divNearestEven num den + 1 / 2) ∧
    (divNearestEven num den % 2 = 1 → divNearestEven num den - 1 / 2 < (num / den : Rat) ∧
      (num / den : Rat) < divNearestEven num den + 1 / 2) := by
  have bottom : (0 : Rat) < den := Nat.cast_pos.2 positive
  rw [le_div_iff₀ bottom, div_le_iff₀ bottom, lt_div_iff₀ bottom, div_lt_iff₀ bottom]
  constructor
  · obtain ⟨above, below⟩ := divNearestEven_near num den positive
    have high : 2 * (divNearestEven num den * den : Rat) ≤ 2 * num + den := by exact_mod_cast above
    have low : 2 * (num : Rat) ≤ 2 * (divNearestEven num den * den) + den := by exact_mod_cast below
    constructor
    · linarith
    · linarith
  · intro odd
    obtain ⟨above, below⟩ := divNearestEven_near_of_odd positive odd
    have high : 2 * (divNearestEven num den * den : Rat) < 2 * num + den := by exact_mod_cast above
    have low : 2 * (num : Rat) < 2 * (divNearestEven num den * den) + den := by exact_mod_cast below
    constructor
    · linarith
    · linarith

theorem divNearestEven_le (positive : 0 < den) {bound : Nat} (below : (num / den : Rat) < bound) :
    divNearestEven num den ≤ bound := by
  have near := (divNearestEven_bounds num positive).1.1
  have almost : (divNearestEven num den : Rat) < (bound + 1 : Nat) := by
    rw [Nat.cast_succ]
    linarith
  exact Nat.lt_succ_iff.1 (by exact_mod_cast almost)

theorem floor_add_half (num : Nat) (positive : 0 < den) :
    ⌊(num / den + 1 / 2 : Rat)⌋ = (divNearestUp num den : Int) := by
  obtain ⟨below, above⟩ := divNearestUp_near num den positive
  have bottom : (0 : Rat) < den := Nat.cast_pos.2 positive
  have low : 2 * (divNearestUp num den * den : Rat) ≤ 2 * num + den := by exact_mod_cast below
  have high : 2 * (num : Rat) < 2 * (divNearestUp num den * den) + den := by exact_mod_cast above
  have least : (divNearestUp num den - 1 / 2 : Rat) ≤ num / den := by
    rw [le_div_iff₀ bottom]
    linarith
  have most : (num / den : Rat) < divNearestUp num den + 1 / 2 := by
    rw [div_lt_iff₀ bottom]
    linarith
  rw [Int.floor_eq_iff, Int.cast_natCast]
  constructor
  · linarith
  · linarith

theorem divNearestUp_eq (positive : 0 < den) {whole : Nat}
    (below : whole - 1 / 2 < (num / den : Rat)) (above : (num / den : Rat) < whole + 1 / 2) :
    divNearestUp num den = whole := by
  have same : ⌊(num / den + 1 / 2 : Rat)⌋ = whole := by
    rw [Int.floor_eq_iff, Int.cast_natCast]
    constructor
    · linarith
    · linarith
  exact Int.natCast_inj.1 ((floor_add_half num positive).symm.trans same)

end

theorem cast_shiftLeft {exponent : Int} (natural : 0 ≤ exponent) (number : Nat) :
    ((number <<< exponent.toNat : Nat) : Rat) = number * 2 ^ exponent := by
  rw [Nat.shiftLeft_eq, Nat.cast_mul, Nat.cast_pow, Nat.cast_ofNat, ← zpow_natCast,
    Int.toNat_of_nonneg natural]

theorem two_zpow_log2_le {number : Nat} (positive : 0 < number) :
    (2 : Rat) ^ (Nat.log2 number : Int) ≤ number := by
  rw [zpow_natCast]
  exact_mod_cast Nat.log2_self_le positive.ne'

theorem lt_two_zpow_log2 (number : Nat) : (number : Rat) < 2 ^ (Nat.log2 number + 1 : Int) := by
  rw [← Nat.cast_succ, zpow_natCast]
  exact_mod_cast Nat.lt_log2_self

namespace BinaryFormat

variable {num den : Nat}

/-- The leading bit of a quotient is at the difference of the leading bits, or one place below. -/
theorem quotient_bounds (above : 0 < num) (below : 0 < den) :
    (2 : Rat) ^ ((Nat.log2 num : Int) - Nat.log2 den - 1) < num / den ∧
      (num / den : Rat) < 2 ^ ((Nat.log2 num : Int) - Nat.log2 den + 1) := by
  have bottom : (0 : Rat) < den := Nat.cast_pos.2 below
  have power (n : Int) : (0 : Rat) < 2 ^ n := zpow_pos two_pos n
  constructor
  · rw [lt_div_iff₀ bottom]
    calc (2 : Rat) ^ ((Nat.log2 num : Int) - Nat.log2 den - 1) * den
        < 2 ^ ((Nat.log2 num : Int) - Nat.log2 den - 1) * 2 ^ (Nat.log2 den + 1 : Int) :=
          mul_lt_mul_of_pos_left (lt_two_zpow_log2 den) (power _)
      _ = 2 ^ (Nat.log2 num : Int) := by
          rw [← zpow_add₀ two_ne_zero]
          congr 1
          omega
      _ ≤ num := two_zpow_log2_le above
  · rw [div_lt_iff₀ bottom]
    calc (num : Rat) < 2 ^ (Nat.log2 num + 1 : Int) := lt_two_zpow_log2 num
      _ = 2 ^ ((Nat.log2 num : Int) - Nat.log2 den + 1) * 2 ^ (Nat.log2 den : Int) := by
          rw [← zpow_add₀ two_ne_zero]
          congr 1
          omega
      _ ≤ 2 ^ ((Nat.log2 num : Int) - Nat.log2 den + 1) * den :=
          mul_le_mul_of_nonneg_left (two_zpow_log2_le below) (power _).le

/-- The leading bit of a quotient. -/
theorem leadingExponent_bounds (above : 0 < num) (below : 0 < den) :
    (2 : Rat) ^ leadingExponent num den ≤ num / den ∧
      (num / den : Rat) < 2 ^ (leadingExponent num den + 1) := by
  have bottom : (0 : Rat) < den := Nat.cast_pos.2 below
  obtain ⟨low, high⟩ := quotient_bounds above below
  have reached : (if 0 ≤ (Nat.log2 num : Int) - Nat.log2 den then
        den <<< ((Nat.log2 num : Int) - Nat.log2 den).toNat ≤ num
      else den ≤ num <<< (-((Nat.log2 num : Int) - Nat.log2 den)).toNat) ↔
      (2 : Rat) ^ ((Nat.log2 num : Int) - Nat.log2 den) ≤ num / den := by
    rw [le_div_iff₀ bottom]
    split
    · next natural => rw [← @Nat.cast_le Rat, cast_shiftLeft natural, mul_comm]
    · next negative =>
      have power : (2 : Rat) ^ (-((Nat.log2 num : Int) - Nat.log2 den)) *
          2 ^ ((Nat.log2 num : Int) - Nat.log2 den) = 1 := by
        rw [← zpow_add₀ two_ne_zero, neg_add_cancel, zpow_zero]
      rw [← @Nat.cast_le Rat, cast_shiftLeft (by omega), ← mul_le_mul_iff_left₀ (zpow_pos two_pos
        ((Nat.log2 num : Int) - Nat.log2 den)), mul_assoc, power, mul_one, mul_comm]
  simp only [leadingExponent, reached]
  split
  · next top => exact ⟨top, high⟩
  · next under =>
    rw [sub_add_cancel]
    exact ⟨low.le, not_le.1 under⟩

end BinaryFormat

namespace DecimalDigits

/-- A number in the units of an interval lies in it. -/
def RoundingInterval.Holds (interval : RoundingInterval) (number : Rat) : Prop :=
  if interval.closed then interval.low ≤ number ∧ number ≤ interval.high
  else interval.low < number ∧ number < interval.high

theorem RoundingInterval.contains_iff (interval : RoundingInterval) (num : Nat) {den : Nat}
    (positive : 0 < den) : interval.contains num den = true ↔ interval.Holds (num / den) := by
  have bottom : (0 : Rat) < den := Nat.cast_pos.2 positive
  rw [contains, Holds, le_div_iff₀ bottom, div_le_iff₀ bottom, lt_div_iff₀ bottom,
    div_lt_iff₀ bottom]
  split
  · rw [Bool.and_eq_true, decide_eq_true_eq, decide_eq_true_eq]
    exact_mod_cast Iff.rfl
  · rw [Bool.and_eq_true, decide_eq_true_eq, decide_eq_true_eq]
    exact_mod_cast Iff.rfl

variable {significand : Nat} {exponent : Int} {number : Rat}

/-- How far the interval reaches below the center. -/
def lowGap (significand : Nat) (exponent : Int) : Nat :=
  if significand = 2 ^ 52 ∧ BinaryFormat.double.minExponent < exponent then 1 else 2

theorem roundingInterval_eq (significand : Nat) (exponent : Int) :
    roundingInterval significand exponent = ⟨4 * significand - lowGap significand exponent,
      4 * significand, 4 * significand + 2, significand % 2 = 0⟩ := by
  have gap : (if significand = Nat.pow 2 52 && decide (BinaryFormat.double.minExponent < exponent)
      then 1 else 2) = lowGap significand exponent := by
    simp only [lowGap, Bool.and_eq_true, decide_eq_true_eq]
    rfl
  rw [roundingInterval]
  simp only [gap]

theorem lowGap_le (significand : Nat) (exponent : Int) : lowGap significand exponent ≤ 2 := by
  rw [lowGap]
  split
  · decide
  · decide

/-- A number lies in an interval that reaches around it, and not at an end if these are left out. -/
theorem roundingInterval_holds (positive : 0 < significand)
    (within : 4 * significand - lowGap significand exponent ≤ number ∧
      number ≤ 4 * significand + 2)
    (inside : significand % 2 = 1 → 4 * significand - lowGap significand exponent < number ∧
      number < 4 * significand + 2) :
    (roundingInterval significand exponent).Holds number := by
  have gap := lowGap_le significand exponent
  have low : ((4 * significand - lowGap significand exponent : Nat) : Rat) =
      4 * significand - lowGap significand exponent := by
    rw [Nat.cast_sub (by omega)]
    push_cast
    rfl
  have high : ((4 * significand + 2 : Nat) : Rat) = 4 * significand + 2 := by push_cast; rfl
  rw [roundingInterval_eq]
  simp only [RoundingInterval.Holds, low, high, decide_eq_true_eq]
  split
  · exact within
  · next odd => exact inside (by omega)

/-- A number in a rounding interval is off by at most half of the last bit. -/
theorem bounds_of_holds (holds : (roundingInterval significand exponent).Holds number) :
    4 * significand - 2 ≤ number ∧ number ≤ 4 * significand + 2 := by
  have gap := lowGap_le significand exponent
  have low : (4 * significand - 2 : Rat) ≤
      (4 * significand - lowGap significand exponent : Nat) := by
    rw [sub_le_iff_le_add]
    exact_mod_cast (by omega : 4 * significand ≤
      4 * significand - lowGap significand exponent + 2)
  have high : ((4 * significand + 2 : Nat) : Rat) = 4 * significand + 2 := by push_cast; rfl
  rw [roundingInterval_eq] at holds
  simp only [RoundingInterval.Holds, high] at holds
  split at holds
  · exact ⟨low.trans holds.1, holds.2⟩
  · exact ⟨low.trans holds.1.le, holds.2.le⟩

/-- A number from the first with as many bits on is in the interval of the significand that it is
rounded to. -/
theorem holds_of_near (full : 2 ^ 52 ≤ significand) (least : 2 ^ 52 ≤ number)
    (near : significand - 1 / 2 ≤ number ∧ number ≤ significand + 1 / 2)
    (untied : significand % 2 = 1 → significand - 1 / 2 < number ∧ number < significand + 1 / 2) :
    (roundingInterval significand exponent).Holds (4 * number) := by
  by_cases half : lowGap significand exponent = 2
  · refine roundingInterval_holds (by omega) ?_ fun odd => ?_
    · rw [half]
      push_cast
      constructor
      · linarith
      · linarith
    · obtain ⟨below, above⟩ := untied odd
      rw [half]
      push_cast
      constructor
      · linarith
      · linarith
  · -- The interval is narrower below a single bit, where nothing is rounded up to it.
    obtain ⟨quarter, single⟩ : lowGap significand exponent = 1 ∧ significand = 2 ^ 52 := by
      rw [lowGap] at half ⊢
      split at half
      · next both => exact ⟨if_pos both, both.1⟩
      · exact absurd rfl half
    refine roundingInterval_holds (by omega) ?_ fun odd => by omega
    rw [quarter]
    rw [single] at near ⊢
    push_cast at near ⊢
    constructor
    · linarith
    · linarith

end DecimalDigits

namespace BinaryFormat

open DecimalDigits

/-- A quotient rounds to a number whose significand has all of its bits. -/
structure IsNearest (quotient : Rat) (significand : Nat) (exponent : Int) : Prop where
  full : 2 ^ 52 ≤ significand
  fits : significand < 2 ^ 53
  low : double.minExponent < exponent
  high : exponent ≤ double.maxExponent
  holds : (roundingInterval significand exponent).Holds (quotient / 2 ^ (exponent - 2))

variable {num den : Nat}

/-- A number at a place of the format, or an infinity beyond it. -/
def bounded (negative : Bool) (significand : Nat) (exponent : Int) : Binary64 :=
  if double.maxExponent < exponent then .infinity negative
  else .finite negative significand exponent

theorem bounded_of_le (negative : Bool) (significand : Nat) {exponent : Int}
    (inside : exponent ≤ 971) :
    bounded negative significand exponent = .finite negative significand exponent :=
  if_neg (Int.not_lt.2 inside)

/-- The significand before a carry is the quotient in units of its last place, rounded. -/
theorem roundedSignificand (below : 0 < den) (exponent : Int) : ∃ top bottom : Nat, 0 < bottom ∧
    (top / bottom : Rat) = num / den / 2 ^ exponent ∧
    (if 0 ≤ exponent then divNearestEven num (den <<< exponent.toNat)
      else divNearestEven (num <<< (-exponent).toNat) den) = divNearestEven top bottom := by
  by_cases natural : 0 ≤ exponent
  · refine ⟨num, den <<< exponent.toNat, ?_, ?_, if_pos natural⟩
    · rw [Nat.shiftLeft_eq]
      exact Nat.mul_pos below (Nat.two_pow_pos _)
    · rw [cast_shiftLeft natural, div_div]
  · refine ⟨num <<< (-exponent).toNat, den, below, ?_, if_neg natural⟩
    rw [cast_shiftLeft (by omega), zpow_neg, ← div_eq_mul_inv, div_right_comm]

/-- A quotient is rounded in units of the place of its last bit, and a carry leaves a single bit one
place further up. -/
theorem round_spec (negative : Bool) (above : 0 < num) (below : 0 < den) :
    ∃ (rounded : Nat) (exponent : Int),
      max (-1074) (leadingExponent num den - 52) = exponent ∧ rounded ≤ 2 ^ 53 ∧
      (rounded - 1 / 2 ≤ (num / den / 2 ^ exponent : Rat) ∧
        (num / den / 2 ^ exponent : Rat) ≤ rounded + 1 / 2) ∧
      (rounded % 2 = 1 → rounded - 1 / 2 < (num / den / 2 ^ exponent : Rat) ∧
        (num / den / 2 ^ exponent : Rat) < rounded + 1 / 2) ∧
      double.round negative num den =
        if rounded = 2 ^ 53 then bounded negative (2 ^ 52) (exponent + 1)
        else bounded negative rounded exponent := by
  obtain ⟨exponent, place⟩ : ∃ exponent, max (-1074) (leadingExponent num den - 52) = exponent :=
    ⟨_, rfl⟩
  have last : max double.minExponent (leadingExponent num den - (double.precision - 1 : Nat)) =
      exponent := place
  obtain ⟨top, bottom, positive, scaled, significand⟩ := @roundedSignificand num den below exponent
  obtain ⟨near, untied⟩ := divNearestEven_bounds top positive
  have most : (top / bottom : Rat) < 2 ^ 53 := by
    rw [scaled, div_lt_iff₀ (zpow_pos two_pos _), ← zpow_natCast, ← zpow_add₀ two_ne_zero]
    have high := (leadingExponent_bounds above below).2
    exact high.trans_le (zpow_le_zpow_right₀ one_le_two (by push_cast; omega))
  rw [scaled] at near untied
  refine ⟨_, exponent, place, divNearestEven_le positive (by exact_mod_cast most), near, untied, ?_⟩
  rw [round, if_neg above.ne']
  simp only [last, significand]
  by_cases carry : divNearestEven top bottom = Nat.pow 2 double.precision
  · rw [if_pos carry]
    exact (if_pos carry).symm
  · rw [if_neg carry]
    exact (if_neg carry).symm

/-- Four units of a rounding interval are one unit of the last place. -/
theorem div_two_zpow_sub_two (number : Rat) (exponent : Int) :
    number / 2 ^ (exponent - 2) = 4 * (number / 2 ^ exponent) := by
  rw [zpow_sub₀ two_ne_zero]
  field_simp
  norm_num

/-- A number far from the ends of the format. -/
def IsModerate (number : Rat) : Prop := 2 ^ (-200 : Int) ≤ number ∧ number < 2 ^ (200 : Int)

/-- A quotient within the format rounds to a number whose rounding interval holds it. -/
theorem round_isNearest (negative : Bool) (below : 0 < den) (moderate : IsModerate (num / den)) :
    ∃ significand exponent, double.round negative num den = .finite negative significand exponent ∧
      IsNearest (num / den) significand exponent := by
  obtain ⟨large, small⟩ := moderate
  have above : 0 < num := Nat.pos_of_ne_zero fun none => by
    rw [none, Nat.cast_zero, zero_div] at large
    exact absurd large (not_le.2 (zpow_pos two_pos _))
  obtain ⟨low, high⟩ := leadingExponent_bounds above below
  have one : (1 : Rat) < 2 := one_lt_two
  have first : -200 < leadingExponent num den + 1 :=
    (zpow_lt_zpow_iff_right₀ one).1 (large.trans_lt high)
  have last : leadingExponent num den < 200 := (zpow_lt_zpow_iff_right₀ one).1 (low.trans_lt small)
  obtain ⟨rounded, exponent, place, fits, near, untied, given⟩ := round_spec negative above below
  have least : (2 : Rat) ^ 52 ≤ num / den / 2 ^ exponent := by
    rw [le_div_iff₀ (zpow_pos two_pos _), ← zpow_natCast, ← zpow_add₀ two_ne_zero]
    exact (le_of_eq (congrArg _ (by push_cast; omega))).trans low
  have full : 2 ^ 52 ≤ rounded := by
    have almost : ((2 ^ 52 : Nat) : Rat) < (rounded + 1 : Nat) := by
      push_cast
      linarith
    exact Nat.lt_succ_iff.1 (by exact_mod_cast almost)
  have normal {e : Int} (bound : exponent ≤ e) : double.minExponent < e := by
    show (-1074 : Int) < e
    omega
  have inside {e : Int} (bound : e ≤ exponent + 1) : e ≤ double.maxExponent := by
    show e ≤ (971 : Int)
    omega
  rw [given]
  by_cases carry : rounded = 2 ^ 53
  · rw [if_pos carry, bounded_of_le _ _ (by omega)]
    refine ⟨2 ^ 52, exponent + 1, rfl, le_refl _, by norm_num, normal (by omega),
      inside (le_refl _), ?_⟩
    have gap : lowGap (2 ^ 52) (exponent + 1) = 1 := if_pos ⟨rfl, normal (by omega)⟩
    rw [carry] at near
    rw [div_two_zpow_sub_two, zpow_add_one₀ two_ne_zero, ← div_div]
    refine roundingInterval_holds (by norm_num) ?_ (by norm_num)
    rw [gap]
    push_cast at near ⊢
    constructor
    · linarith
    · linarith
  · rw [if_neg carry, bounded_of_le _ _ (by omega)]
    refine ⟨rounded, exponent, rfl, full, by omega, normal (le_refl _), inside (by omega), ?_⟩
    rw [div_two_zpow_sub_two]
    exact holds_of_near full least near untied

/-- What is rounded is off by at most half of the last bit of the significand. -/
theorem IsNearest.bounds {quotient : Rat} {significand : Nat} {exponent : Int}
    (nearest : IsNearest quotient significand exponent) :
    (significand - 1 / 2) * 2 ^ exponent ≤ quotient ∧
      quotient ≤ (significand + 1 / 2) * 2 ^ exponent := by
  have power : (0 : Rat) < 2 ^ exponent := zpow_pos two_pos _
  obtain ⟨low, high⟩ := bounds_of_holds nearest.holds
  rw [div_two_zpow_sub_two] at low high
  rw [← le_div_iff₀ power, ← div_le_iff₀ power]
  constructor
  · linarith
  · linarith

end BinaryFormat

namespace Binary64

open BinaryFormat (double IsModerate IsNearest)

/-- A number is the rounding of another one, with all bits of the significand in use. -/
def Rounds (negative : Bool) (number : Rat) (x : Binary64) : Prop :=
  ∃ significand exponent, x = .finite negative significand exponent ∧
    IsNearest number significand exponent

theorem toRat_unsigned (significand : Nat) (exponent : Int) :
    (finite false significand exponent).toRat = significand * 2 ^ exponent := rfl

/-- The relative error of a rounding. -/
def unitRoundoff : Rat := 1 / 2 ^ 53

variable {number : Rat} {x y : Binary64}

theorem Rounds.bounds (rounds : Rounds false number x) :
    x.toRat * (1 - unitRoundoff) ≤ number ∧ number ≤ x.toRat * (1 + unitRoundoff) := by
  obtain ⟨significand, exponent, rfl, nearest⟩ := rounds
  have power : (0 : Rat) < 2 ^ exponent := zpow_pos two_pos _
  obtain ⟨low, high⟩ := nearest.bounds
  have full : (2 : Rat) ^ 52 ≤ significand := by exact_mod_cast nearest.full
  have last : (1 / 2 : Rat) ≤ significand * unitRoundoff := by
    rw [unitRoundoff]
    linarith
  rw [toRat_unsigned]
  constructor
  · refine le_trans ?_ low
    rw [mul_right_comm]
    exact mul_le_mul_of_nonneg_right (by linarith) power.le
  · refine high.trans ?_
    rw [mul_right_comm]
    exact mul_le_mul_of_nonneg_right (by linarith) power.le

/-- A number of up to 52 bits, moved by a power of two, is rounded to itself. -/
theorem Rounds.toRat_eq {bits : Nat} {place : Int} (small : bits < 2 ^ 52)
    (rounds : Rounds false (bits * 2 ^ place) x) : x.toRat = bits * 2 ^ place := by
  obtain ⟨significand, exponent, rfl, nearest⟩ := rounds
  obtain ⟨low, high⟩ := nearest.bounds
  have power (n : Int) : (0 : Rat) < 2 ^ n := zpow_pos two_pos n
  have full : (2 : Rat) ^ 52 ≤ significand := by exact_mod_cast nearest.full
  have fits : (bits : Rat) < 2 ^ 52 := by exact_mod_cast small
  -- The last bit of the significand is not above the last bit of the number.
  have below : exponent ≤ place := by
    have scaled : (2 : Rat) ^ (51 + exponent) < 2 ^ (52 + place) := by
      rw [zpow_add₀ two_ne_zero, zpow_add₀ two_ne_zero]
      calc (2 : Rat) ^ (51 : Int) * 2 ^ exponent
          ≤ (significand - 1 / 2) * 2 ^ exponent :=
            mul_le_mul_of_nonneg_right (by norm_num; linarith) (power _).le
        _ ≤ bits * 2 ^ place := low
        _ < 2 ^ (52 : Int) * 2 ^ place := mul_lt_mul_of_pos_right (by exact_mod_cast fits) (power _)
    have places := (zpow_lt_zpow_iff_right₀ (one_lt_two : (1 : Rat) < 2)).1 scaled
    omega
  obtain ⟨shift, rfl⟩ : ∃ shift : Nat, place = exponent + shift :=
    ⟨(place - exponent).toNat, by omega⟩
  have moved : (bits : Rat) * 2 ^ (exponent + shift) =
      (bits * 2 ^ shift : Nat) * 2 ^ exponent := by
    rw [zpow_add₀ two_ne_zero, zpow_natCast]
    push_cast
    ring
  rw [moved] at low high
  rw [toRat_unsigned, moved]
  have least := (mul_le_mul_iff_left₀ (power _)).1 low
  have most := (mul_le_mul_iff_left₀ (power _)).1 high
  have above : significand < bits * 2 ^ shift + 1 := by
    have near : (significand : Rat) < (bits * 2 ^ shift + 1 : Nat) := by
      rw [Nat.cast_succ]
      linarith
    exact_mod_cast near
  have under : bits * 2 ^ shift < significand + 1 := by
    have near : ((bits * 2 ^ shift : Nat) : Rat) < (significand + 1 : Nat) := by
      rw [Nat.cast_succ]
      linarith
    exact_mod_cast near
  have same : significand = bits * 2 ^ shift := by omega
  rw [same]

/-- The exact result of an operation, rounded once. -/
def RoundOf (number : Rat) (x : Binary64) : Prop :=
  ∃ num den : Nat, 0 < den ∧ (num / den : Rat) = number ∧ x = double.round false num den

theorem RoundOf.rounds (result : RoundOf number x) (moderate : IsModerate number) :
    Rounds false number x := by
  obtain ⟨num, den, below, rfl, rfl⟩ := result
  exact BinaryFormat.round_isNearest false below moderate

theorem roundOf_ofNat (n : Nat) : RoundOf n (ofNat n) :=
  ⟨n, 1, one_pos, by rw [Nat.cast_one, div_one], rfl⟩

variable {m n : Nat} {e f : Int}

theorem roundOf_roundScaled (significand : Nat) (exponent : Int) :
    RoundOf (significand * 2 ^ exponent) (double.roundScaled false significand exponent) := by
  rw [BinaryFormat.roundScaled]
  split
  · next natural =>
    exact ⟨_, 1, one_pos, by rw [cast_shiftLeft natural, Nat.cast_one, div_one], rfl⟩
  · refine ⟨significand, _, ?_, ?_, rfl⟩
    · rw [Nat.one_shiftLeft]
      exact Nat.two_pow_pos _
    · rw [cast_shiftLeft (by omega), Nat.cast_one, one_mul, zpow_neg, div_inv_eq_mul]

theorem roundOf_mul : RoundOf ((finite false m e).toRat * (finite false n f).toRat)
    ((finite false m e).mul (finite false n f)) := by
  have value : (finite false m e).toRat * (finite false n f).toRat =
      (m * n : Nat) * 2 ^ (e + f) := by
    rw [toRat_unsigned, toRat_unsigned, zpow_add₀ two_ne_zero, Nat.cast_mul]
    ring
  rw [value]
  exact roundOf_roundScaled (m * n) (e + f)

theorem roundOf_div (divisible : n ≠ 0) :
    RoundOf ((finite false m e).toRat / (finite false n f).toRat)
      ((finite false m e).div (finite false n f)) := by
  refine ⟨_, _, ?_, ?_, if_neg divisible⟩
  · rw [Nat.shiftLeft_eq]
    exact Nat.mul_pos (Nat.pos_of_ne_zero divisible) (Nat.two_pow_pos _)
  · have unit : (2 : Rat) ^ min e f ≠ 0 := (zpow_pos two_pos _).ne'
    rw [cast_shiftLeft (by omega), cast_shiftLeft (by omega), zpow_sub₀ two_ne_zero,
      zpow_sub₀ two_ne_zero, toRat_unsigned, toRat_unsigned, ← mul_div_assoc, ← mul_div_assoc,
      div_div_div_cancel_right₀ unit]

/-- Numbers without a sign are added in the smaller of their units, and only zeros without a
rounding. -/
theorem add_unsigned (m n : Nat) (e f : Int) : ∃ sum : Nat,
    (finite false m e).toRat + (finite false n f).toRat = sum * 2 ^ min e f ∧
    (finite false m e).add (finite false n f) =
      if sum = 0 then .finite false 0 (-1074) else double.roundScaled false sum (min e f) := by
  obtain ⟨sum, same⟩ : ∃ sum : Nat, (sum : Int) = scaledTo (min e f) false m e +
      scaledTo (min e f) false n f := ⟨m <<< (e - min e f).toNat + n <<< (f - min e f).toNat, rfl⟩
  have unsigned : decide ((sum : Int) < 0) = false := decide_eq_false (by omega)
  refine ⟨sum, ?_, ?_⟩
  · have scaled : (sum : Rat) = ((finite false m e).toRat + (finite false n f).toRat) *
        2 ^ (-min e f) := by
      rw [add_mul, ← scaledTo_eq (min_le_left e f), ← scaledTo_eq (min_le_right e f)]
      exact_mod_cast congrArg (Int.cast : Int → Rat) same
    rw [scaled, mul_assoc, ← zpow_add₀ two_ne_zero, neg_add_cancel, zpow_zero, mul_one]
  · simp only [add, ← same, unsigned, Int.natAbs_natCast, Int.natCast_eq_zero]
    rfl

theorem roundOf_add (positive : 0 < (finite false m e).toRat + (finite false n f).toRat) :
    RoundOf ((finite false m e).toRat + (finite false n f).toRat)
      ((finite false m e).add (finite false n f)) := by
  obtain ⟨sum, value, added⟩ := add_unsigned m n e f
  have given : sum ≠ 0 := by
    rintro rfl
    rw [value, Nat.cast_zero, zero_mul] at positive
    exact absurd positive (lt_irrefl _)
  rw [added, value, if_neg given]
  exact roundOf_roundScaled sum (min e f)

/-- A number within a half of a natural number is rounded to this one. -/
theorem round_eq_ofNat (fraction : e < 0) {whole : Nat}
    (below : whole - 1 / 2 < (finite false m e).toRat)
    (above : (finite false m e).toRat < whole + 1 / 2) :
    (finite false m e).round = ofNat whole := by
  have value : ((m : Nat) : Rat) / (1 <<< (-e).toNat : Nat) = (finite false m e).toRat := by
    rw [cast_shiftLeft (by omega), Nat.cast_one, one_mul, zpow_neg, div_inv_eq_mul, toRat_unsigned]
  have positive : 0 < 1 <<< (-e).toNat := by
    rw [Nat.one_shiftLeft]
    exact Nat.two_pow_pos _
  rw [← value] at below above
  rw [round, toWhole, if_neg (by omega)]
  simp only [divNearestUp_eq positive below above]
  rfl

/-- A finite number has a significand and an exponent of the format. -/
def InFormat : Binary64 → Prop
  | .finite _ significand exponent => significand < 2 ^ 53 ∧ -1074 ≤ exponent ∧ exponent ≤ 971
  | _ => True

end Binary64

namespace BinaryFormat

theorem inFormat_bounded (negative : Bool) {significand : Nat} {exponent : Int}
    (fits : significand < 2 ^ 53) (least : -1074 ≤ exponent) :
    (bounded negative significand exponent).InFormat := by
  rw [bounded]
  split
  · trivial
  · next inside => exact ⟨fits, least, Int.not_lt.1 inside⟩

theorem inFormat_round (negative : Bool) (num : Nat) {den : Nat} (below : 0 < den) :
    (double.round negative num den).InFormat := by
  by_cases none : num = 0
  · rw [round, if_pos none]
    exact ⟨by decide, by decide, by decide⟩
  · obtain ⟨rounded, exponent, place, fits, -, -, given⟩ :=
      round_spec negative (Nat.pos_of_ne_zero none) below
    rw [given]
    split
    · exact inFormat_bounded negative (by decide) (by omega)
    · exact inFormat_bounded negative (by omega) (by omega)

end BinaryFormat

end EdmQuery
