import Mathlib.Data.Nat.Cast.Field
import EdmQuery.Proofs.BinaryBounds

set_option autoImplicit false

namespace EdmQuery

open BinaryFormat (IsModerate)

namespace Binary64

theorem isModerate_of_digits {number : Rat} (least : 1 / 10 ^ 40 ≤ number)
    (most : number ≤ 10 ^ 40) : IsModerate number := by
  constructor
  · exact le_trans (by norm_num) least
  · exact most.trans_lt (by norm_num)

/-- Natural numbers of up to 53 bits are binary numbers themselves. -/
theorem ofNat_eq {n : Nat} (small : n < 2 ^ 53) :
    ∃ significand exponent, ofNat n = finite false significand exponent ∧ (ofNat n).toRat = n := by
  have same : ofNat n = ofInt n := rfl
  refine (Nat.eq_zero_or_pos n).elim (fun zero => ?_) fun positive => ?_
  · subst zero
    exact ⟨0, -1074, rfl, zero_mul _⟩
  · exact ⟨_, _, BinaryFormat.round_one false positive.ne' small,
      (same ▸ toRat_ofInt (n := n) small).2⟩

/-- A power of ten is a binary number itself while its factors of five have no more than 52 bits. -/
theorem ofNat_pow_ten {places : Nat} (few : places ≤ 22) : ∃ significand exponent,
    ofNat (Nat.pow 10 places) = finite false significand exponent ∧ significand ≠ 0 ∧
      (ofNat (Nat.pow 10 places)).toRat = 10 ^ places := by
  have power : ((Nat.pow 10 places : Nat) : Rat) = 10 ^ places := by
    rw [Nat.pow_eq, Nat.cast_pow, Nat.cast_ofNat]
  have split : (10 : Rat) ^ places = (5 ^ places : Nat) * 2 ^ (places : Int) := by
    rw [zpow_natCast, Nat.cast_pow, Nat.cast_ofNat, ← mul_pow]
    norm_num
  have small : 5 ^ places < 2 ^ 52 :=
    (Nat.pow_le_pow_right (by decide) few).trans_lt (by norm_num)
  have moderate : IsModerate (Nat.pow 10 places : Nat) := by
    rw [power]
    refine isModerate_of_digits (le_trans (by norm_num) (one_le_pow₀ (by norm_num))) ?_
    exact pow_le_pow_right₀ (by norm_num) (by omega)
  have rounds := (roundOf_ofNat _).rounds moderate
  rw [power, split] at rounds
  have exact := rounds.toRat_eq small
  obtain ⟨significand, exponent, same, nearest⟩ := rounds
  have full := nearest.full
  exact ⟨significand, exponent, same, by omega, exact.trans split.symm⟩

theorem within_factor_two {number rounded : Rat} (positive : 0 < number)
    (bounds : rounded * (1 - unitRoundoff) ≤ number ∧ number ≤ rounded * (1 + unitRoundoff)) :
    number / 2 ≤ rounded ∧ rounded ≤ 2 * number := by
  obtain ⟨low, high⟩ := bounds
  rw [unitRoundoff] at low high
  constructor
  · linarith
  · linarith

end Binary64

namespace Decimal

/-- Powers of ten by repeated squaring are exact as far as they are binary numbers. -/
theorem binaryPower_eq : ∀ places : Fin 23,
    binaryPower 8 places (Binary64.ofNat 10) (Binary64.ofNat 1) =
      Binary64.ofNat (Nat.pow 10 places) := by
  decide

/-- What three roundings leave of a sum of parts, moved by a unit. -/
theorem three_roundings {whole part fraction sum product unit : Rat} (nonneg : 0 ≤ whole)
    (positive : 0 < unit)
    (first : fraction * (1 - Binary64.unitRoundoff) ≤ part ∧
      part ≤ fraction * (1 + Binary64.unitRoundoff))
    (second : sum * (1 - Binary64.unitRoundoff) ≤ whole + fraction ∧
      whole + fraction ≤ sum * (1 + Binary64.unitRoundoff))
    (third : product * (1 - Binary64.unitRoundoff) ≤ sum * unit ∧
      sum * unit ≤ product * (1 + Binary64.unitRoundoff)) :
    product * (1 - Binary64.unitRoundoff) ^ 3 ≤ (whole + part) * unit ∧
      (whole + part) * unit ≤ product * (1 + Binary64.unitRoundoff) ^ 3 := by
  have small : (0 : Rat) < Binary64.unitRoundoff := by norm_num [Binary64.unitRoundoff]
  have less : (0 : Rat) < 1 - Binary64.unitRoundoff := by norm_num [Binary64.unitRoundoff]
  generalize Binary64.unitRoundoff = error at *
  have more : (0 : Rat) < 1 + error := by linarith
  constructor
  · calc product * (1 - error) ^ 3 = product * (1 - error) * (1 - error) ^ 2 := by ring
      _ ≤ sum * unit * (1 - error) ^ 2 := mul_le_mul_of_nonneg_right third.1 (by positivity)
      _ = sum * (1 - error) * (unit * (1 - error)) := by ring
      _ ≤ (whole + fraction) * (unit * (1 - error)) :=
          mul_le_mul_of_nonneg_right second.1 (by positivity)
      _ = (whole * (1 - error) + fraction * (1 - error)) * unit := by ring
      _ ≤ (whole + part) * unit := by
          refine mul_le_mul_of_nonneg_right (add_le_add ?_ first.1) positive.le
          exact mul_le_of_le_one_right nonneg (by linarith)
  · calc (whole + part) * unit ≤ (whole * (1 + error) + fraction * (1 + error)) * unit := by
          refine mul_le_mul_of_nonneg_right (add_le_add ?_ first.2) positive.le
          exact le_mul_of_one_le_right nonneg (by linarith)
      _ = (whole + fraction) * (unit * (1 + error)) := by ring
      _ ≤ sum * (1 + error) * (unit * (1 + error)) :=
          mul_le_mul_of_nonneg_right second.2 (by positivity)
      _ = sum * unit * (1 + error) ^ 2 := by ring
      _ ≤ product * (1 + error) * (1 + error) ^ 2 :=
          mul_le_mul_of_nonneg_right third.2 (by positivity)
      _ = product * (1 + error) ^ 3 := by ring

/-- Two parts of a number, the second as a fraction, are put together and moved by a unit with three
roundings of numbers far from the ends of the format. -/
theorem exists_product {whole part places : Nat} (wholeFew : whole < 10 ^ 15)
    (partFew : part < 10 ^ 15) (few : places ≤ 22) (some : part ≠ 0) :
    ((Binary64.ofNat part).div (Binary64.ofNat (Nat.pow 10 places))).isZero = false ∧
      ∃ digits place,
        ((Binary64.ofNat whole).add
          ((Binary64.ofNat part).div (Binary64.ofNat (Nat.pow 10 places)))).mul
            (Binary64.ofNat (Nat.pow 10 places)) = .finite false digits place ∧ 2 ^ 52 ≤ digits ∧
        (Binary64.finite false digits place).toRat * (1 - Binary64.unitRoundoff) ^ 3 ≤
          whole * 10 ^ places + part ∧
        whole * 10 ^ places + part ≤
          (Binary64.finite false digits place).toRat * (1 + Binary64.unitRoundoff) ^ 3 := by
  obtain ⟨unitDigits, unitPlace, unitSame, unitGiven, unitValue⟩ := Binary64.ofNat_pow_ten few
  obtain ⟨wholeDigits, wholePlace, wholeSame, wholeValue⟩ := @Binary64.ofNat_eq whole (by omega)
  obtain ⟨partDigits, partPlace, partSame, partValue⟩ := @Binary64.ofNat_eq part (by omega)
  have unitLeast : (1 : Rat) ≤ 10 ^ places := one_le_pow₀ (by norm_num)
  have unitMost : (10 : Rat) ^ places ≤ 10 ^ 22 := pow_le_pow_right₀ (by norm_num) few
  have unitPositive : (0 : Rat) < 10 ^ places := by linarith
  have partLeast : (1 : Rat) ≤ part := by exact_mod_cast Nat.pos_of_ne_zero some
  have partMost : (part : Rat) < 10 ^ 15 := by exact_mod_cast partFew
  have wholeMost : (whole : Rat) < 10 ^ 15 := by exact_mod_cast wholeFew
  have wholeLeast : (0 : Rat) ≤ whole := Nat.cast_nonneg _
  have quotientLeast : (1 / 10 ^ 22 : Rat) ≤ part / 10 ^ places := by
    rw [div_le_div_iff₀ (by norm_num) unitPositive]
    exact mul_le_mul partLeast unitMost unitPositive.le (by linarith)
  have quotientMost : (part / 10 ^ places : Rat) < 10 ^ 15 := by
    rw [div_lt_iff₀ unitPositive]
    exact partMost.trans_le (le_mul_of_one_le_right (by norm_num) unitLeast)
  rw [unitSame] at unitValue ⊢
  rw [wholeSame] at wholeValue ⊢
  rw [partSame] at partValue ⊢
  -- One operation after the other, each with what it may be off by.
  have first := (@Binary64.roundOf_div partDigits unitDigits partPlace unitPlace unitGiven).rounds
    (by
      rw [partValue, unitValue]
      exact Binary64.isModerate_of_digits (by linarith) (by linarith))
  have firstBounds := first.bounds
  rw [partValue, unitValue] at firstBounds
  obtain ⟨fractionDigits, fractionPlace, fractionSame, fractionNearest⟩ := first
  rw [fractionSame] at firstBounds ⊢
  obtain ⟨fractionLeast, fractionMost⟩ := Binary64.within_factor_two (by linarith) firstBounds
  have second := (@Binary64.roundOf_add wholeDigits fractionDigits wholePlace fractionPlace (by
    rw [wholeValue]
    linarith)).rounds (by
      rw [wholeValue]
      exact Binary64.isModerate_of_digits (by linarith) (by linarith))
  have secondBounds := second.bounds
  rw [wholeValue] at secondBounds
  obtain ⟨sumDigits, sumPlace, sumSame, -⟩ := second
  rw [sumSame] at secondBounds ⊢
  obtain ⟨sumLeast, sumMost⟩ := Binary64.within_factor_two (by linarith) secondBounds
  have third := (@Binary64.roundOf_mul sumDigits unitDigits sumPlace unitPlace).rounds (by
    rw [unitValue]
    refine Binary64.isModerate_of_digits ?_ ?_
    · have least : 1 / 10 ^ 40 ≤ (Binary64.finite false sumDigits sumPlace).toRat := by linarith
      exact least.trans (le_mul_of_one_le_right (by linarith) unitLeast)
    · have most : (Binary64.finite false sumDigits sumPlace).toRat ≤ 10 ^ 17 := by linarith
      exact (mul_le_mul most unitMost unitPositive.le (by norm_num)).trans (by norm_num))
  have thirdBounds := third.bounds
  rw [unitValue] at thirdBounds
  obtain ⟨digits, place, same, nearest⟩ := third
  rw [same] at thirdBounds ⊢
  have roundings := three_roundings wholeLeast unitPositive firstBounds secondBounds thirdBounds
  rw [add_mul, div_mul_cancel₀ _ unitPositive.ne'] at roundings
  have full := fractionNearest.full
  exact ⟨beq_eq_false_iff_ne.2 (by omega), digits, place, rfl, nearest.full, roundings⟩

/-- An unsigned number between one and the largest with up to a hundred bits before the point. -/
def isMedium : Binary64 → Bool
  | .finite false significand exponent =>
    2 ^ 52 ≤ significand && significand < 2 ^ 53 && -52 ≤ exponent && exponent ≤ 47
  | _ => false

theorem isMedium_pow_ten : ∀ places : Fin 29, isMedium (Binary64.ofNat (Nat.pow 10 places)) = true ∧
    isMedium (binaryPower 8 places (Binary64.ofNat 10) (Binary64.ofNat 1)) = true := by
  decide

theorem bounds_of_isMedium {unit : Binary64} (medium : isMedium unit = true) :
    ∃ significand exponent, unit = .finite false significand exponent ∧
      (2 : Rat) ^ (0 : Int) ≤ (Binary64.finite false significand exponent).toRat ∧
        (Binary64.finite false significand exponent).toRat ≤ 2 ^ (100 : Int) := by
  rw [isMedium.eq_def] at medium
  split at medium
  · next significand exponent =>
    simp only [Bool.and_eq_true, decide_eq_true_eq] at medium
    obtain ⟨⟨⟨full, fits⟩, least⟩, most⟩ := medium
    have low : (2 : Rat) ^ 52 ≤ significand := by exact_mod_cast full
    have high : (significand : Rat) ≤ 2 ^ 53 := by exact_mod_cast fits.le
    refine ⟨significand, exponent, rfl, ?_, ?_⟩
    · calc (2 : Rat) ^ (0 : Int) = 2 ^ 52 * 2 ^ (-52 : Int) := by norm_num
        _ ≤ significand * 2 ^ exponent :=
            mul_le_mul low (zpow_le_zpow_right₀ one_le_two least) (zpow_pos two_pos _).le
              (Nat.cast_nonneg _)
    · calc (significand : Rat) * 2 ^ exponent ≤ 2 ^ 53 * 2 ^ (47 : Int) :=
            mul_le_mul high (zpow_le_zpow_right₀ one_le_two most) (zpow_pos two_pos _).le
              (by norm_num)
        _ = 2 ^ (100 : Int) := by norm_num
  · cases medium

section

variable (x : Decimal)

/-- The binary numbers of the parts before and behind the point, the latter as a fraction. -/
def wholePart : Binary64 := Binary64.ofNat (x.mantissa / Nat.pow 10 x.scale)

def fractionPart : Binary64 :=
  (Binary64.ofNat (x.mantissa % Nat.pow 10 x.scale)).div (Binary64.ofNat (Nat.pow 10 x.scale))

/-- The unit of the last place as it is computed to round with. -/
def placeUnit : Binary64 := binaryPower 8 x.scale (Binary64.ofNat 10) (Binary64.ofNat 1)

/-- The binary number without its sign. -/
def magnitude : Binary64 :=
  if x.fractionPart.isZero then x.wholePart
  else (((x.wholePart.add x.fractionPart).mul x.placeUnit).round).div x.placeUnit

theorem toBinary64_eq (point : x.scale ≠ 0) :
    x.toBinary64 = if x.negative then x.magnitude.neg else x.magnitude := if_neg point

theorem placeUnit_eq (places : x.scale ≤ 22) :
    x.placeUnit = Binary64.ofNat (Nat.pow 10 x.scale) := binaryPower_eq ⟨x.scale, by omega⟩

theorem magnitude_of_whole (whole : x.mantissa % Nat.pow 10 x.scale = 0) :
    x.magnitude = x.wholePart := by
  refine if_pos ?_
  obtain ⟨significand, exponent, unit, least, -⟩ :=
    bounds_of_isMedium (isMedium_pow_ten ⟨x.scale, Nat.lt_succ_of_le x.scale_le⟩).1
  have given : significand ≠ 0 := by
    rintro rfl
    rw [Binary64.toRat_unsigned, Nat.cast_zero, zero_mul] at least
    exact absurd least (by norm_num)
  rw [fractionPart, whole]
  show ((Binary64.finite false 0 (-1074)).div (Binary64.ofNat (Nat.pow 10 x.scale))).isZero = true
  rw [unit, Binary64.div, if_neg given]
  simp only [Nat.zero_shiftLeft]
  rfl

/-- The parts before and behind the point, rounded and put together again in units of the last
place, are the mantissa when they are rounded to an integer. -/
theorem magnitude_of_fraction (few : x.mantissa < 10 ^ 15) (places : x.scale ≤ 22)
    (fraction : x.mantissa % Nat.pow 10 x.scale ≠ 0) :
    x.magnitude = (Binary64.ofNat x.mantissa).div x.placeUnit := by
  have split := Nat.div_add_mod' x.mantissa (Nat.pow 10 x.scale)
  have wholeLe := Nat.div_le_self x.mantissa (Nat.pow 10 x.scale)
  have partLe := Nat.mod_le x.mantissa (Nat.pow 10 x.scale)
  rw [magnitude, wholePart, fractionPart, x.placeUnit_eq places]
  generalize x.mantissa / Nat.pow 10 x.scale = whole at *
  generalize x.mantissa % Nat.pow 10 x.scale = part at *
  obtain ⟨given, digits, place, product, full, low, high⟩ :=
    exists_product (wholeLe.trans_lt few) (partLe.trans_lt few) places fraction
  have exact : (whole * 10 ^ x.scale + part : Rat) = x.mantissa := by
    exact_mod_cast congrArg (Nat.cast : Nat → Rat) split
  have mantissaMost : (x.mantissa : Rat) < 10 ^ 15 := by exact_mod_cast few
  have mantissaLeast : (0 : Rat) ≤ x.mantissa := Nat.cast_nonneg _
  rw [exact, Binary64.unitRoundoff] at low high
  have below : x.mantissa - 1 / 2 < (Binary64.finite false digits place).toRat := by linarith
  have above : (Binary64.finite false digits place).toRat < x.mantissa + 1 / 2 := by linarith
  -- The significand has all of its bits, so the product is too small for an integer with zeros.
  have fractional : place < 0 := by
    by_contra natural
    have bits : (2 : Rat) ^ 52 ≤ digits := by exact_mod_cast full
    have power : (1 : Rat) ≤ 2 ^ place := one_le_zpow₀ one_le_two (by omega)
    have more : (digits : Rat) ≤ digits * 2 ^ place :=
      le_mul_of_one_le_right (Nat.cast_nonneg _) power
    rw [Binary64.toRat_unsigned] at above
    linarith
  rw [given, if_neg Bool.false_ne_true, product, Binary64.round_eq_ofNat fractional below above]

/-- A decimal of at most fifteen digits, no more than 22 of them places, is promoted to the nearest
binary number. -/
theorem rounds_magnitude (few : x.mantissa < 10 ^ 15) (places : x.scale ≤ 22)
    (some : x.mantissa ≠ 0) :
    Binary64.Rounds false (x.mantissa / 10 ^ x.scale) x.magnitude := by
  have unitPositive : (0 : Rat) < 10 ^ x.scale := pow_pos (by norm_num) _
  have unitMost : (10 : Rat) ^ x.scale ≤ 10 ^ 22 := pow_le_pow_right₀ (by norm_num) places
  have mantissaMost : (x.mantissa : Rat) < 10 ^ 15 := by exact_mod_cast few
  have mantissaLeast : (1 : Rat) ≤ x.mantissa := by exact_mod_cast Nat.pos_of_ne_zero some
  have unitLeast : (1 : Rat) ≤ 10 ^ x.scale := one_le_pow₀ (by norm_num)
  have moderate : IsModerate (x.mantissa / 10 ^ x.scale) := by
    refine Binary64.isModerate_of_digits ?_ ?_
    · rw [le_div_iff₀ unitPositive]
      linarith
    · rw [div_le_iff₀ unitPositive]
      have most : (x.mantissa : Rat) ≤ 10 ^ 40 := by linarith
      exact most.trans (le_mul_of_one_le_right (by norm_num) unitLeast)
  by_cases whole : x.mantissa % Nat.pow 10 x.scale = 0
  · have cast : ((Nat.pow 10 x.scale : Nat) : Rat) = 10 ^ x.scale := by
      rw [Nat.pow_eq, Nat.cast_pow, Nat.cast_ofNat]
    have value : (x.mantissa / 10 ^ x.scale : Rat) = (x.mantissa / Nat.pow 10 x.scale : Nat) := by
      rw [Nat.cast_div (Nat.dvd_of_mod_eq_zero whole) (cast ▸ unitPositive.ne'), cast]
    rw [x.magnitude_of_whole whole, wholePart]
    rw [value] at moderate ⊢
    exact (Binary64.roundOf_ofNat _).rounds moderate
  · obtain ⟨digits, place, same, value⟩ := @Binary64.ofNat_eq x.mantissa (by omega)
    obtain ⟨unitDigits, unitPlace, unitSame, unitGiven, unitValue⟩ := Binary64.ofNat_pow_ten places
    rw [x.magnitude_of_fraction few places whole, x.placeUnit_eq places]
    rw [unitSame] at unitValue ⊢
    rw [same] at value ⊢
    rw [← unitValue, ← value] at moderate ⊢
    exact (Binary64.roundOf_div unitGiven).rounds moderate

theorem atMost_magnitude : Binary64.AtMost 204 x.magnitude := by
  have medium := isMedium_pow_ten ⟨x.scale, Nat.lt_succ_of_le x.scale_le⟩
  have small {n : Nat} (fits : n < Nat.pow 2 96) : (n : Rat) < 2 ^ (96 : Int) := by
    exact_mod_cast fits
  have whole : Binary64.AtMost 96 x.wholePart := by
    refine Binary64.atMost_ofNat (by decide) (by decide) (small ?_)
    exact (Nat.div_le_self ..).trans_lt x.mantissa_lt
  have fraction : Binary64.AtMost 98 x.fractionPart := by
    have part : Binary64.AtMost 96 (Binary64.ofNat (x.mantissa % Nat.pow 10 x.scale)) := by
      refine Binary64.atMost_ofNat (by decide) (by decide) (small ?_)
      exact (Nat.mod_le ..).trans_lt x.mantissa_lt
    obtain ⟨significand, exponent, unit, least, -⟩ := bounds_of_isMedium medium.1
    rw [fractionPart]
    exact unit ▸ (part.div least (by decide) (by decide)).mono (by decide)
  obtain ⟨significand, exponent, unit, least, most⟩ := @bounds_of_isMedium x.placeUnit medium.2
  have product := ((whole.mono (by decide)).add fraction (by decide) (by decide)).mul
    (⟨significand, exponent, unit, unit ▸ most⟩ : Binary64.AtMost 100 x.placeUnit)
      (by decide) (by decide)
  rw [magnitude]
  split
  · exact whole.mono (by decide)
  · rw [unit] at product ⊢
    exact (product.round (by decide) (by decide)).div least (by decide) (by decide)

/-- Every decimal is promoted to a finite number. -/
theorem isFinite_toBinary64 : x.toBinary64.isFinite = true := by
  by_cases point : x.scale = 0
  · have size : (if x.negative then -(x.mantissa : Int) else x.mantissa).natAbs = x.mantissa := by
      split
      · rw [Int.natAbs_neg, Int.natAbs_natCast]
      · rw [Int.natAbs_natCast]
    rw [toBinary64, if_pos point, Binary64.ofInt, size]
    by_cases none : x.mantissa = 0
    · rw [none]
      rfl
    · have least : (1 : Rat) ≤ x.mantissa := by exact_mod_cast Nat.pos_of_ne_zero none
      have most : (x.mantissa : Rat) < 2 ^ (96 : Nat) := by exact_mod_cast x.mantissa_lt
      obtain ⟨significand, exponent, same, -⟩ := BinaryFormat.round_isNearest
        (decide ((if x.negative then -(x.mantissa : Int) else x.mantissa) < 0)) one_pos
        (by
          rw [Nat.cast_one, div_one]
          exact Binary64.isModerate_of_digits (by linarith) (by linarith) :
            IsModerate (x.mantissa / (1 : Nat)))
      rw [same]
      rfl
  · obtain ⟨significand, exponent, same, -⟩ := x.atMost_magnitude
    rw [x.toBinary64_eq point, same]
    split
    · rfl
    · rfl

end

end Decimal

end EdmQuery
