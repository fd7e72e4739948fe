import Mathlib.Tactic.Positivity
import EdmQuery.Proofs.DecimalText
import EdmQuery.Proofs.ShortestDigits
import EdmQuery.Proofs.Words

set_option autoImplicit false

namespace EdmQuery

namespace Decimal

/-- The factor of a sign. -/
def signFactor (negative : Bool) : Rat := if negative then -1 else 1

theorem toRat_eq (x : Decimal) :
    x.toRat = signFactor x.negative * (x.mantissa / 10 ^ x.scale) := by
  have unit : ((Nat.pow 10 x.scale : Nat) : Rat) = 10 ^ x.scale := by
    rw [Nat.pow_eq, Nat.cast_pow, Nat.cast_ofNat]
  rw [toRat, Rat.mkRat_eq_div, unit, signed, signFactor]
  split
  · rw [Int.cast_neg, Int.cast_natCast, neg_div, neg_one_mul]
  · rw [Int.cast_natCast, one_mul]

theorem toRat_eq_zpow (x : Decimal) :
    x.toRat = signFactor x.negative * (x.mantissa * 10 ^ (-x.scale : Int)) := by
  rw [toRat_eq, zpow_neg, zpow_natCast, div_eq_mul_inv]

theorem toRat_mul_zpow (x : Decimal) (exponent : Int) :
    x.toRat * 10 ^ exponent =
      signFactor x.negative * (x.mantissa * 10 ^ (exponent - x.scale)) := by
  rw [toRat_eq_zpow, mul_assoc, mul_assoc, ← zpow_add₀ (by norm_num), neg_add_eq_sub]

theorem abs_signFactor (negative : Bool) : |signFactor negative| = 1 := by
  cases negative
  · exact abs_one
  · exact (abs_neg 1).trans abs_one

theorem abs_toRat (x : Decimal) : |x.toRat| = x.mantissa / 10 ^ x.scale := by
  rw [toRat_eq, abs_mul, abs_signFactor, one_mul, abs_of_nonneg]
  positivity

theorem toRat_ofParts? (negative : Bool) {mantissa scale : Nat} (fits : mantissa < mantissaLimit)
    (places : scale ≤ maxScale) : ∃ x, ofParts? negative mantissa scale = some x ∧
      x.toRat = signFactor negative * (mantissa / 10 ^ scale) := by
  refine ⟨⟨negative && mantissa != 0, mantissa, scale, fits, places⟩, dif_pos ⟨fits, places⟩, ?_⟩
  rw [toRat_eq]
  by_cases zero : mantissa = 0
  · simp only [zero, Nat.cast_zero, zero_div, mul_zero]
  · have sign : (negative && mantissa != 0) = negative := by
      rw [bne_iff_ne.2 zero, Bool.and_true]
    simp only [sign]

/-- The nearest number with 28 places; a half goes away from zero. -/
def nearest (number : Rat) : Rat :=
  signFactor (decide (number < 0)) * (⌊|number| * 10 ^ maxScale + 1 / 2⌋ / 10 ^ maxScale)

section

variable (negative : Bool)

theorem nearest_signFactor {size : Rat} (nonneg : 0 ≤ size) :
    nearest (signFactor negative * size) =
      signFactor negative * (⌊size * 10 ^ maxScale + 1 / 2⌋ / 10 ^ maxScale) := by
  rw [nearest, abs_mul, abs_signFactor, one_mul, abs_of_nonneg nonneg]
  rcases nonneg.eq_or_lt with zero | positive
  · have half : ⌊(1 / 2 : Rat)⌋ = 0 := by norm_num
    rw [← zero, zero_mul, zero_add, half, Int.cast_zero, zero_div, mul_zero, mul_zero]
  · have sign : decide (signFactor negative * size < 0) = negative := by
      cases negative with
      | false => exact decide_eq_false (by rw [signFactor]; simpa using nonneg)
      | true => exact decide_eq_true (by rw [signFactor]; simpa using positive)
    rw [sign]

/-- A number with no more than 28 places stays as it is. -/
theorem nearest_of_le (digits : Nat) {exponent : Int} (few : -28 ≤ exponent) :
    nearest (signFactor negative * (digits * 10 ^ exponent)) =
      signFactor negative * (digits * 10 ^ exponent) := by
  obtain ⟨zeros, same⟩ : ∃ zeros : Nat, exponent = zeros - 28 := ⟨(exponent + 28).toNat, by omega⟩
  have units : (digits * 10 ^ exponent * 10 ^ maxScale : Rat) = (digits * 10 ^ zeros : Nat) := by
    have power : (10 : Rat) ^ exponent * 10 ^ (28 : Int) = 10 ^ zeros := by
      rw [← zpow_add₀ (by norm_num), same, sub_add_cancel, zpow_natCast]
    rw [mul_assoc, Nat.cast_mul, Nat.cast_pow, Nat.cast_ofNat, ← power]
    rfl
  have back : (digits * 10 ^ exponent : Rat) = (digits * 10 ^ zeros : Nat) / 10 ^ maxScale := by
    rw [← units, mul_div_cancel_right₀ _ (pow_pos (by norm_num) _).ne']
  have half : ⌊(1 / 2 : Rat)⌋ = 0 := by norm_num
  rw [nearest_signFactor negative (by positivity), units, Int.floor_natCast_add, half, add_zero,
    Int.cast_natCast, ← back]

/-- The digits behind the 28th place are rounded away. -/
theorem nearest_of_lt (digits extra : Nat) :
    nearest (signFactor negative * (digits * 10 ^ (-(28 + extra) : Int))) =
      signFactor negative * (divNearestUp digits (Nat.pow 10 extra) * 10 ^ (-28 : Int)) := by
  have units : (digits * 10 ^ (-(28 + extra) : Int) * 10 ^ maxScale : Rat) =
      digits / (Nat.pow 10 extra : Nat) := by
    have power : (10 : Rat) ^ (-(28 + extra) : Int) * 10 ^ (28 : Int) = (10 ^ extra)⁻¹ := by
      rw [← zpow_add₀ (by norm_num), neg_add_rev, neg_add_cancel_right, zpow_neg, zpow_natCast]
    rw [mul_assoc, Nat.pow_eq, Nat.cast_pow, Nat.cast_ofNat, div_eq_mul_inv, ← power]
    rfl
  have place : (10 : Rat) ^ (-28 : Int) = (10 ^ maxScale)⁻¹ := rfl
  have unit : 0 < Nat.pow 10 extra := Nat.pow_pos (by decide)
  rw [nearest_signFactor negative (by positivity), units, floor_add_half _ unit, Int.cast_natCast,
    place, div_eq_mul_inv]

end

theorem nearest_toRat (x : Decimal) : nearest x.toRat = x.toRat := by
  have places := x.scale_le
  rw [toRat_eq_zpow]
  exact nearest_of_le _ _ (by omega)

theorem whole_lt {x : Decimal} {negative : Bool} {mantissa : Nat}
    (same : x.toRat = signFactor negative * mantissa) : mantissa < mantissaLimit := by
  have size := x.abs_toRat
  rw [same, abs_mul, abs_signFactor, one_mul, abs_of_nonneg (Nat.cast_nonneg _),
    eq_div_iff (by positivity)] at size
  have whole : mantissa * 10 ^ x.scale = x.mantissa := by exact_mod_cast size
  calc mantissa ≤ mantissa * 10 ^ x.scale :=
        Nat.le_mul_of_pos_right _ (Nat.pow_pos (by decide))
    _ = x.mantissa := whole
    _ < mantissaLimit := x.mantissa_lt

/-- What is read is the number rounded to 28 places. If that is a decimal, then something is read,
numbers that are not zero but smaller than the last place apart. -/
structure Reads (number : Rat) (result : Option Decimal) : Prop where
  rounded : ∀ x, result = some x → x.toRat = nearest number
  complete : number = 0 ∨ 1 / 10 ^ maxScale ≤ |number| →
    (∃ x : Decimal, x.toRat = nearest number) → ∃ x, result = some x

theorem reads_some {number : Rat} {x : Decimal} (same : x.toRat = nearest number) :
    Reads number (some x) :=
  ⟨fun _ found => Option.some.inj found ▸ same, fun _ _ => ⟨x, rfl⟩⟩

theorem reads_none {number : Rat}
    (other : number = 0 ∨ 1 / 10 ^ maxScale ≤ |number| → ∀ x : Decimal, x.toRat ≠ nearest number) :
    Reads number none :=
  ⟨nofun, fun visible ⟨x, same⟩ => absurd same (other visible x)⟩

theorem reads_ofParts? (negative : Bool) {mantissa scale : Nat} (fits : mantissa < mantissaLimit)
    (places : scale ≤ maxScale) :
    Reads (signFactor negative * (mantissa / 10 ^ scale)) (ofParts? negative mantissa scale) := by
  obtain ⟨x, given, same⟩ := toRat_ofParts? negative fits places
  rw [given, ← same]
  exact reads_some x.nearest_toRat.symm

/-- The number that is rounded before its point is moved to the left is the moved number rounded. -/
theorem toRat_roundTo (x : Decimal) {count : Nat} (within : count ≤ 28)
    (fits : (x.roundTo (28 - count)).scale + count ≤ 28) :
    toRat { x.roundTo (28 - count) with
        scale := (x.roundTo (28 - count)).scale + count, scale_le := fits } =
      nearest (x.toRat * 10 ^ (-count : Int)) := by
  rw [toRat_mul_zpow, toRat_eq_zpow]
  by_cases few : x.scale ≤ 28 - count
  · simp only [roundTo, dif_pos few]
    have place : (-count - x.scale : Int) = -(x.scale + count : Nat) := by omega
    rw [place]
    exact (nearest_of_le _ _ (by omega)).symm
  · simp only [roundTo, dif_neg few]
    have place : (-count - x.scale : Int) = -(28 + (x.scale - (28 - count) : Nat)) := by omega
    have last : (-(28 - count + count : Nat) : Int) = -28 := by omega
    rw [place, last]
    exact (nearest_of_lt _ _ _).symm

section

variable (x : Decimal) {exponent : Int}

theorem reads_shift?_left (below : x.mantissa < 10 ^ (x.scale + 1)) (some : x.mantissa ≠ 0)
    (left : exponent < 0) : Reads (x.toRat * 10 ^ exponent) (x.shift? exponent) := by
  rw [shift?, if_pos left]
  by_cases within : (-exponent).toNat ≤ 28
  · have same : exponent = -((-exponent).toNat : Int) := by omega
    simp only [dif_pos within]
    refine reads_some ((x.toRat_roundTo within _).trans ?_)
    rw [← same]
  · simp only [dif_neg within]
    refine reads_none fun visible => ?_
    have size : |x.toRat * 10 ^ exponent| = x.mantissa * 10 ^ (exponent - x.scale) := by
      rw [toRat_mul_zpow, abs_mul, abs_signFactor, one_mul, abs_of_nonneg (by positivity)]
    have small : |x.toRat * 10 ^ exponent| < 1 / 10 ^ maxScale := by
      have digits : (x.mantissa : Rat) < 10 ^ (x.scale + 1) := by exact_mod_cast below
      calc |x.toRat * 10 ^ exponent| = x.mantissa * 10 ^ (exponent - x.scale) := size
        _ < 10 ^ (x.scale + 1) * 10 ^ (exponent - x.scale) :=
            mul_lt_mul_of_pos_right digits (zpow_pos (by norm_num) _)
        _ = 10 ^ (exponent + 1) := by
            rw [← zpow_natCast, ← zpow_add₀ (by norm_num)]
            congr 1
            push_cast
            omega
        _ ≤ 10 ^ (-28 : Int) := zpow_le_zpow_right₀ (by norm_num) (by omega)
        _ = 1 / 10 ^ maxScale := by rw [one_div]; rfl
    rcases visible with zero | large
    · have positive : (0 : Rat) < x.mantissa := Nat.cast_pos.2 (Nat.pos_of_ne_zero some)
      rw [zero, abs_zero] at size
      exact absurd size (mul_pos positive (zpow_pos (by norm_num) _)).ne
    · exact absurd small large.not_gt

theorem reads_shift?_right (first : 10 ^ x.scale ≤ x.mantissa) (right : 0 ≤ exponent) :
    Reads (x.toRat * 10 ^ exponent) (x.shift? exponent) := by
  rw [shift?, if_neg right.not_gt, toRat_mul_zpow]
  split
  · next few =>
    have place : exponent - x.scale = -(x.scale - exponent.toNat : Nat) := by omega
    have places := x.scale_le
    refine reads_some ?_
    rw [nearest_of_le _ _ (by omega), place]
    exact toRat_eq_zpow _
  · next more =>
    have whole : (x.mantissa * 10 ^ (exponent - x.scale) : Rat) =
        (x.mantissa * Nat.pow 10 (exponent.toNat - x.scale) : Nat) := by
      obtain ⟨zeros, same⟩ : ∃ zeros : Nat, exponent = x.scale + zeros :=
        ⟨(exponent - x.scale).toNat, by omega⟩
      have count : exponent.toNat - x.scale = zeros := by omega
      rw [count, same, add_sub_cancel_left, zpow_natCast, Nat.pow_eq]
      push_cast
      rfl
    have exact : nearest (signFactor x.negative * (x.mantissa * 10 ^ (exponent - x.scale))) =
        signFactor x.negative * (x.mantissa * Nat.pow 10 (exponent.toNat - x.scale) : Nat) := by
      rw [nearest_of_le _ _ (by omega), whole]
    split
    · next far =>
      refine reads_none fun _ y same => ?_
      have long : maxScale < exponent.toNat := by omega
      have zeros : 10 ^ x.scale * 10 ^ (exponent.toNat - x.scale) = 10 ^ exponent.toNat := by
        rw [← Nat.pow_add, Nat.add_sub_cancel' (by omega)]
      have large : mantissaLimit < 10 ^ exponent.toNat :=
        (by decide : mantissaLimit < 10 ^ (maxScale + 1)).trans_le
          (Nat.pow_le_pow_right (by decide) long)
      have small := (Nat.mul_le_mul_right _ first).trans_lt (whole_lt (same.trans exact))
      rw [Nat.pow_eq, zeros] at small
      exact absurd small large.asymm
    · by_cases fits : x.mantissa * Nat.pow 10 (exponent.toNat - x.scale) < mantissaLimit
      · have reads := reads_ofParts? x.negative fits (Nat.zero_le _)
        rwa [pow_zero, div_one, ← whole] at reads
      · have none : ofParts? x.negative (x.mantissa * Nat.pow 10 (exponent.toNat - x.scale)) 0 =
            none := dif_neg fun both => fits both.1
        rw [none]
        exact reads_none fun _ y same => fits (whole_lt (same.trans exact))

/-- Moving the point of a number with one digit before it loses only what the places cannot hold. -/
theorem reads_shift? (first : 10 ^ x.scale ≤ x.mantissa) (last : x.mantissa < 10 ^ (x.scale + 1))
    (exponent : Int) : Reads (x.toRat * 10 ^ exponent) (x.shift? exponent) := by
  rcases lt_or_ge exponent 0 with left | right
  · have some : x.mantissa ≠ 0 := ((Nat.pow_pos (by decide)).trans_le first).ne'
    exact x.reads_shift?_left last some left
  · exact x.reads_shift?_right first right

end

section

variable {whole places : List Char} (negative : Bool)

/-- The characters of a sign. -/
def signText : List Char := if negative then ['-'] else []

theorem read?_signText {char : Char} (digit : isAsciiDigit char = true) (rest : List Char) :
    read? (signText negative ++ char :: rest) =
      readUnsigned? ⟨negative, false, false, 0, 0⟩ (char :: rest) := by
  cases negative
  · exact read?_unsigned digit rest
  · rfl

/-- Digits around a point are the number that they denote. -/
theorem read?_signText_places (some : whole ≠ []) (digit : ∀ char ∈ whole, isAsciiDigit char = true)
    (place : ∀ char ∈ places, isAsciiDigit char = true)
    (fits : digitsValue (whole ++ places) < mantissaLimit) (short : places.length ≤ maxScale) :
    read? (signText negative ++ (whole ++ '.' :: places)) =
      ofParts? negative (digitsValue (whole ++ places)) places.length := by
  have gathered := readUnsigned?_point negative some digit place fits short []
  obtain ⟨char, rest, rfl⟩ := List.exists_cons_of_ne_nil some
  rw [List.append_nil] at gathered
  rw [List.cons_append, read?_signText negative (digit char List.mem_cons_self),
    ← List.cons_append, gathered]
  rfl

theorem read?_signText_digits (some : whole ≠ []) (digit : ∀ char ∈ whole, isAsciiDigit char = true)
    (fits : digitsValue whole < mantissaLimit) :
    read? (signText negative ++ whole) = ofParts? negative (digitsValue whole) 0 := by
  have gathered := readUnsigned?_whole negative false 0 digit fits []
  obtain ⟨char, rest, rfl⟩ := List.exists_cons_of_ne_nil some
  rw [List.append_nil] at gathered
  rw [read?_signText negative (digit char List.mem_cons_self), gathered]
  rfl

end

end Decimal

namespace DecimalDigits

variable (number : DecimalDigits)

/-- Digits around a point that denote a number. -/
structure IsWritten (text : List Char) (whole places : List Char) : Prop where
  text_eq : text = whole ++ '.' :: places
  some : whole ≠ []
  whole_digit : ∀ char ∈ whole, isAsciiDigit char = true
  place_digit : ∀ char ∈ places, isAsciiDigit char = true
  fits : digitsValue (whole ++ places) < Decimal.mantissaLimit
  short : places.length ≤ Decimal.maxScale
  value : (digitsValue (whole ++ places) / 10 ^ places.length : Rat) = number.toRat

theorem digitsValue_append_zeros (digits : List Char) (count : Nat) :
    digitsValue (digits ++ List.replicate count '0') = digitsValue digits * 10 ^ count := by
  induction count with
  | zero => rw [List.replicate_zero, List.append_nil, Nat.pow_zero, Nat.mul_one]
  | succ count ih =>
    have last (start : Nat) : digitsValueFrom start ['0'] = start * 10 := rfl
    have split : digitsValue (digits ++ List.replicate count '0' ++ ['0']) =
        digitsValueFrom (digitsValue (digits ++ List.replicate count '0')) ['0'] :=
      digitsValueFrom_append 0 _ _
    rw [List.replicate_succ', ← List.append_assoc, split, last, ih, Nat.pow_succ, Nat.mul_assoc]

theorem size_eq : number.size = (Nat.toDigits 10 number.digits).length := by
  rw [size, ← toString_toList, String.length_toList]

theorem size_pos : 0 < number.size := by
  rw [size_eq]
  exact List.length_pos_iff.2 Nat.toDigits_ne_nil

theorem digits_lt : number.digits < 10 ^ number.size :=
  (Nat.length_toDigits_le_iff (by decide) number.size_pos).1 number.size_eq.ge

theorem size_le {limit : Nat} (positive : 0 < limit) (few : number.digits < 10 ^ limit) :
    number.size ≤ limit := by
  rw [size_eq]
  exact (Nat.length_toDigits_le_iff (by decide) positive).2 few

theorem isAsciiDigit_of_mem_zeros {count : Nat} {char : Char}
    (inside : char ∈ List.replicate count '0') : isAsciiDigit char = true := by
  rw [(List.mem_replicate.1 inside).2]
  rfl

/-- Positional text without a fraction gets a point and a zero. -/
theorem isWritten_whole (natural : 0 ≤ number.exponent) (short : number.scientificExponent ≤ 15) :
    number.IsWritten (number.positional ++ ".0").toList
      (Nat.toDigits 10 number.digits ++ List.replicate number.exponent.toNat '0') ['0'] := by
  have zero : ".0".toList = ['.', '0'] := by decide
  have zeros : Nat.toDigits 10 number.digits ++ List.replicate number.exponent.toNat '0' ++ ['0'] =
      Nat.toDigits 10 number.digits ++ List.replicate (number.exponent.toNat + 1) '0' := by
    rw [List.replicate_succ', List.append_assoc]
  have length : number.exponent + number.size - 1 ≤ 15 := short
  refine ⟨?_, ?_, ?_, ?_, ?_, by decide, ?_⟩
  · rw [positional, if_pos natural, String.toList_append, toList_pushn, toString_toList, zero]
  · exact fun none => Nat.toDigits_ne_nil (List.append_eq_nil_iff.1 none).1
  · intro char inside
    rcases List.mem_append.1 inside with digit | zero
    · exact isAsciiDigit_of_mem_toDigits digit
    · exact isAsciiDigit_of_mem_zeros zero
  · exact fun _ => @isAsciiDigit_of_mem_zeros 1 _
  · rw [zeros, digitsValue_append_zeros, digitsValue_toDigits]
    calc number.digits * 10 ^ (number.exponent.toNat + 1)
        < 10 ^ number.size * 10 ^ (number.exponent.toNat + 1) :=
          Nat.mul_lt_mul_of_pos_right number.digits_lt (Nat.pow_pos (by decide))
      _ = 10 ^ (number.size + (number.exponent.toNat + 1)) := (Nat.pow_add ..).symm
      _ ≤ 10 ^ 17 := Nat.pow_le_pow_right (by decide) (by omega)
      _ ≤ Decimal.mantissaLimit := by decide
  · rw [zeros, digitsValue_append_zeros, digitsValue_toDigits, toRat]
    have power : (10 : Rat) ^ number.exponent = 10 ^ number.exponent.toNat := by
      rw [← zpow_natCast, Int.toNat_of_nonneg natural]
    rw [power, Nat.cast_mul, Nat.cast_pow, Nat.cast_ofNat, List.length_singleton, pow_succ, pow_one,
      ← mul_assoc, mul_div_cancel_right₀ _ (by norm_num)]

section

variable {number} {places : Nat} (fraction : number.exponent = -places)

include fraction

theorem toRat_of_fraction : (number.digits / 10 ^ places : Rat) = number.toRat := by
  rw [toRat, fraction, zpow_neg, zpow_natCast, div_eq_mul_inv]

/-- Positional text with fewer places than digits has its point among them. -/
theorem isWritten_among (positive : 0 < places) (short : places ≤ Decimal.maxScale)
    (fits : number.digits < Decimal.mantissaLimit) (inside : places < number.size) :
    number.IsWritten number.positional.toList
      ((Nat.toDigits 10 number.digits).take (number.size - places))
      ((Nat.toDigits 10 number.digits).drop (number.size - places)) := by
  have count : (-number.exponent).toNat = places := by omega
  have digits : (toString number.digits).length = number.size := rfl
  have point : ".".toList = ['.'] := by decide
  have whole : (Nat.toDigits 10 number.digits).take (number.size - places) ++
      (Nat.toDigits 10 number.digits).drop (number.size - places) =
        Nat.toDigits 10 number.digits := List.take_append_drop ..
  have length : ((Nat.toDigits 10 number.digits).drop (number.size - places)).length = places := by
    rw [List.length_drop, ← size_eq]
    omega
  refine ⟨?_, ?_, ?_, ?_, ?_, length.trans_le short, ?_⟩
  · rw [positional, if_neg (by omega)]
    simp only [count, digits, if_pos inside]
    rw [String.toList_append, String.toList_append, point, String.toList_ofList,
      String.toList_ofList, toString_toList, List.append_assoc, List.singleton_append]
  · intro none
    have taken := congrArg List.length none
    rw [List.length_take, ← size_eq, List.length_nil] at taken
    omega
  · exact fun char member => isAsciiDigit_of_mem_toDigits (List.mem_of_mem_take member)
  · exact fun char member => isAsciiDigit_of_mem_toDigits (List.mem_of_mem_drop member)
  · rwa [whole, digitsValue_toDigits]
  · rw [whole, digitsValue_toDigits, length, toRat_of_fraction fraction]

/-- Positional text with no fewer places than digits has its point behind a zero. -/
theorem isWritten_behind (positive : 0 < places) (short : places ≤ Decimal.maxScale)
    (fits : number.digits < Decimal.mantissaLimit) (outside : number.size ≤ places) :
    number.IsWritten number.positional.toList ['0']
      (List.replicate (places - number.size) '0' ++ Nat.toDigits 10 number.digits) := by
  have count : (-number.exponent).toNat = places := by omega
  have digits : (toString number.digits).length = number.size := rfl
  have point : "0.".toList = ['0', '.'] := by decide
  have whole : digitsValue (['0'] ++ (List.replicate (places - number.size) '0' ++
      Nat.toDigits 10 number.digits)) = number.digits := by
    have zeros : ['0'] ++ (List.replicate (places - number.size) '0' ++
        Nat.toDigits 10 number.digits) =
          List.replicate (places - number.size + 1) '0' ++ Nat.toDigits 10 number.digits := rfl
    rw [zeros, digitsValue_zeros, digitsValue_toDigits]
  have length : (List.replicate (places - number.size) '0' ++
      Nat.toDigits 10 number.digits).length = places := by
    rw [List.length_append, List.length_replicate, ← size_eq]
    omega
  refine ⟨?_, by decide, fun _ => @isAsciiDigit_of_mem_zeros 1 _, ?_, ?_, length.trans_le short, ?_⟩
  · rw [positional, if_neg (by omega)]
    simp only [count, digits, if_neg (Nat.not_lt.2 outside)]
    rw [String.toList_append, String.toList_append, toList_pushn, toString_toList, point,
      List.append_assoc]
    rfl
  · intro char member
    rcases List.mem_append.1 member with zero | digit
    · exact isAsciiDigit_of_mem_zeros zero
    · exact isAsciiDigit_of_mem_toDigits digit
  · rwa [whole]
  · rw [whole, length, toRat_of_fraction fraction]

end

/-- Positional text with a fraction has its point among the digits or behind a zero. -/
theorem isWritten_places (fraction : number.exponent < 0) (few : number.digits < 10 ^ 18)
    (near : -5 ≤ number.scientificExponent) :
    ∃ whole places, number.IsWritten number.positional.toList whole places := by
  have size := number.size_le (by decide) few
  have length : -5 ≤ number.exponent + number.size - 1 := near
  have fits : number.digits < Decimal.mantissaLimit := few.trans (by decide)
  obtain ⟨places, same⟩ : ∃ places : Nat, number.exponent = -places :=
    ⟨(-number.exponent).toNat, by omega⟩
  have short : places ≤ Decimal.maxScale := by
    show places ≤ 28
    omega
  rcases Nat.lt_or_ge places number.size with inside | outside
  · exact ⟨_, _, isWritten_among same (by omega) short fits inside⟩
  · exact ⟨_, _, isWritten_behind same (by omega) short fits outside⟩

/-- One digit before the point, and no point without digits behind it. -/
def pointText (first : Char) (rest : List Char) : List Char :=
  first :: (if rest = [] then [] else '.' :: rest)

/-- Scientific text has one digit before the point. -/
theorem toList_scientific {first : Char} {rest : List Char}
    (digits : Nat.toDigits 10 number.digits = first :: rest) :
    number.scientific.toList = pointText first rest ++
      'e' :: (if number.scientificExponent < 0 then '-' else '+') ::
        Nat.toDigits 10 number.scientificExponent.natAbs := by
  have point : ".".toList = ['.'] := by decide
  have mark : (if number.scientificExponent < 0 then "e-" else "e+").toList =
      ['e', if number.scientificExponent < 0 then '-' else '+'] := by
    split
    · decide
    · decide
  have single : first.toString.toList = [first] := by
    rw [Char.toString_eq_singleton, String.toList_singleton]
  rw [scientific, toString_toList, digits, pointText]
  simp only [String.toList_append, mark, toString_toList]
  cases rest with
  | nil =>
    simp only [single]
    rfl
  | cons second others =>
    simp only [String.toList_append, single, point, String.toList_ofList]
    rw [if_neg (List.cons_ne_nil _ _), List.append_assoc, List.append_assoc, List.append_assoc]
    rfl

end DecimalDigits

theorem readNat?_digits {digits : List Char} (some : digits ≠ [])
    (digit : ∀ char ∈ digits, isAsciiDigit char = true) :
    readNat? digits = Option.some (digitsValue digits) ∧
      readNat? ('+' :: digits) = Option.some (digitsValue digits) := by
  have all : digits ≠ [] ∧ digits.all isAsciiDigit = true := ⟨some, List.all_eq_true.2 digit⟩
  refine ⟨?_, if_pos all⟩
  rw [readNat?]
  · exact if_pos all
  · rintro rest rfl
    cases digit '+' List.mem_cons_self

namespace Decimal

open Parsing (StopsAt stopsAt_cons)

/-- A mark ends a plain number. -/
theorem readUnsigned?_mark {state : Reading} (short : state.scale < maxScale) (rest : List Char) :
    readUnsigned? state ('e' :: rest) = none := by
  have free : decide (maxScale ≤ state.scale) = false := decide_eq_false (by omega)
  have other : digitValue? 'e' = none := by decide
  rw [readUnsigned?]
  simp only [free, other, Bool.and_false, Bool.false_eq_true, if_false]
  rfl

/-- The point is not moved by thousands of millions of places. -/
theorem shift?_eq_none (x : Decimal) {exponent : Int} (far : 2 ^ 32 ≤ exponent.natAbs) :
    x.shift? exponent = none := by
  have places := x.scale_le
  rw [shift?]
  split
  · simp only [dif_neg (show ¬ (-exponent).toNat ≤ 28 by omega)]
  · rw [if_neg (by omega), if_pos (by show (28 : Int) < exponent; omega)]

/-- A number with an exponent is the plain number before the mark with its point moved. -/
theorem readScientific?_eq {base : List Char}
    (plain : ∀ char ∈ base, char ≠ 'e' ∧ char ≠ 'E') (exponent : Int) :
    readScientific? (base ++ 'e' :: (if exponent < 0 then '-' else '+') ::
        Nat.toDigits 10 exponent.natAbs) =
      (read? base).bind fun number => number.shift? exponent := by
  have ends : StopsAt (fun char => !(decide (char = 'e') || decide (char = 'E')))
      ('e' :: (if exponent < 0 then '-' else '+') :: Nat.toDigits 10 exponent.natAbs) :=
    stopsAt_cons (by decide)
  have inside : ∀ char ∈ base, (!(decide (char = 'e') || decide (char = 'E'))) = true := by
    intro char member
    obtain ⟨small, large⟩ := plain char member
    simp [small, large]
  obtain ⟨digits, signed⟩ := readNat?_digits (@Nat.toDigits_ne_nil exponent.natAbs 10)
    fun _ => isAsciiDigit_of_mem_toDigits
  rw [digitsValue_toDigits] at digits signed
  have bounded (number : Decimal) : (if Nat.pow 2 32 ≤ exponent.natAbs then none
      else number.shift? exponent) = number.shift? exponent := by
    split
    · next far => exact (number.shift?_eq_none far).symm
    · rfl
  rw [readScientific?]
  simp only [ends.takeWhile_append inside, ends.dropWhile_append inside]
  by_cases negative : exponent < 0
  · have value : -(exponent.natAbs : Int) = exponent := by omega
    simp only [if_pos negative, digits, Option.bind_some, if_true, value, bounded]
  · have value : (exponent.natAbs : Int) = exponent := by omega
    simp only [if_neg negative]
    show ((read? base).bind fun number =>
      (readNat? ('+' :: Nat.toDigits 10 exponent.natAbs)).bind fun magnitude =>
        if Nat.pow 2 32 ≤ magnitude then none else number.shift? magnitude) = _
    simp only [signed, Option.bind_some, value, bounded]

section

variable {number : DecimalDigits} (negative : Bool)

theorem ofText?_of_read? {text : List Char} {x : Decimal} (read : read? text = some x) :
    ofText? text = some x := by
  rw [ofText?, read]
  rfl

/-- Positional text is read as the number. -/
theorem reads_places {text whole places : List Char}
    (written : number.IsWritten text whole places) :
    Reads (signFactor negative * number.toRat) (ofText? (signText negative ++ text)) := by
  have parts := read?_signText_places negative written.some written.whole_digit
    written.place_digit written.fits written.short
  have given : ofParts? negative (digitsValue (whole ++ places)) places.length = some _ :=
    dif_pos ⟨written.fits, written.short⟩
  have reads := reads_ofParts? negative written.fits written.short
  rw [written.value, given] at reads
  rw [written.text_eq, ofText?_of_read? (parts.trans given)]
  exact reads

section

variable {first : Char} {rest : List Char}
  (digit : ∀ char ∈ first :: rest, isAsciiDigit char = true)

include digit

/-- A text of digits has no mark of an exponent in it. -/
theorem unmarked_pointText : ∀ char ∈ signText negative ++ DecimalDigits.pointText first rest,
    char ≠ 'e' ∧ char ≠ 'E' := by
  have unmarked {char : Char} (member : char ∈ first :: rest) : char ≠ 'e' ∧ char ≠ 'E' := by
    have given := digit char member
    constructor
    · rintro rfl
      cases given
    · rintro rfl
      cases given
  intro char inside
  rcases List.mem_append.1 inside with sign | others
  · rw [signText] at sign
    split at sign
    · cases List.mem_singleton.1 sign
      decide
    · cases sign
  · rcases List.mem_cons.1 others with rfl | others
    · exact unmarked List.mem_cons_self
    · split at others
      · cases others
      · rcases List.mem_cons.1 others with rfl | others
        · decide
        · exact unmarked (List.mem_cons_of_mem first others)

variable (fits : digitsValue (first :: rest) < mantissaLimit) (short : rest.length < maxScale)

include fits short

theorem read?_pointText : read? (signText negative ++ DecimalDigits.pointText first rest) =
    ofParts? negative (digitsValue (first :: rest)) rest.length := by
  have head : ∀ char ∈ [first], isAsciiDigit char = true :=
    fun char inside => digit char (List.mem_append_left rest inside)
  have tail : ∀ char ∈ rest, isAsciiDigit char = true :=
    fun char inside => digit char (List.mem_cons_of_mem first inside)
  rw [DecimalDigits.pointText]
  split
  · next none =>
    subst none
    exact read?_signText_digits negative (List.cons_ne_nil _ _) head fits
  · exact read?_signText_places negative (List.cons_ne_nil _ _) head tail fits short.le

/-- With a mark behind it, the text is no plain number. -/
theorem read?_pointText_mark (after : List Char) :
    read? (signText negative ++ (DecimalDigits.pointText first rest ++ 'e' :: after)) = none := by
  have head : ∀ char ∈ [first], isAsciiDigit char = true :=
    fun char inside => digit char (List.mem_append_left rest inside)
  have tail : ∀ char ∈ rest, isAsciiDigit char = true :=
    fun char inside => digit char (List.mem_cons_of_mem first inside)
  rw [DecimalDigits.pointText, List.cons_append,
    read?_signText negative (digit first List.mem_cons_self), ← List.cons_append]
  split
  · next none =>
    subst none
    exact (readUnsigned?_whole negative false 0 head fits _).trans
      (readUnsigned?_mark (by decide : 0 < maxScale) _)
  · exact (readUnsigned?_point negative (List.cons_ne_nil _ _) head tail fits short.le _).trans
      (readUnsigned?_mark short _)

end

/-- Scientific text is read as the number. -/
theorem reads_scientific (given : number.digits ≠ 0) (few : number.digits < 10 ^ 18) :
    Reads (signFactor negative * number.toRat)
      (ofText? (signText negative ++ number.scientific.toList)) := by
  obtain ⟨first, rest, digits⟩ := List.exists_cons_of_ne_nil (@Nat.toDigits_ne_nil number.digits 10)
  have digit : ∀ char ∈ first :: rest, isAsciiDigit char = true :=
    digits ▸ fun _ => isAsciiDigit_of_mem_toDigits
  have value : digitsValue (first :: rest) = number.digits := digits ▸ digitsValue_toDigits _
  have size : number.size = rest.length + 1 := by rw [number.size_eq, digits, List.length_cons]
  have short : rest.length < maxScale := by
    have length := number.size_le (by decide) few
    show rest.length < 28
    omega
  have fits : number.digits < mantissaLimit := few.trans (by decide)
  have plain := read?_pointText negative digit (value ▸ fits) short
  have marked := read?_pointText_mark negative digit (value ▸ fits) short
  rw [value] at plain
  -- The number before the mark has one digit before the point.
  obtain ⟨x, same⟩ : ∃ x : Decimal, x = ⟨negative && number.digits != 0, number.digits, rest.length,
      fits, short.le⟩ := ⟨_, rfl⟩
  have parts : ofParts? negative number.digits rest.length = some x := by
    rw [same]
    exact dif_pos ⟨fits, short.le⟩
  have leading : 10 ^ rest.length ≤ number.digits := by
    rcases Nat.eq_zero_or_pos rest.length with none | positive
    · rw [none, Nat.pow_zero]
      exact Nat.pos_of_ne_zero given
    · refine Nat.le_of_not_lt fun less => ?_
      have shorter := number.size_le positive less
      omega
  have moved : x.toRat * 10 ^ number.scientificExponent = signFactor negative * number.toRat := by
    have sign : (negative && number.digits != 0) = negative := by
      rw [bne_iff_ne.2 given, Bool.and_true]
    have place : number.scientificExponent = number.exponent + rest.length := by
      rw [DecimalDigits.scientificExponent, size]
      push_cast
      omega
    rw [toRat_eq, same, DecimalDigits.toRat, place, zpow_add₀ (by norm_num), zpow_natCast]
    simp only [sign]
    field_simp
  have scientific := readScientific?_eq (unmarked_pointText negative digit)
    number.scientificExponent
  have last : number.digits < 10 ^ (rest.length + 1) := size ▸ number.digits_lt
  have reads := x.reads_shift? (same ▸ leading) (same ▸ last) number.scientificExponent
  rw [plain, parts, Option.bind_some] at scientific
  rw [moved] at reads
  rw [ofText?, number.toList_scientific digits, marked, Option.none_or, ← List.append_assoc,
    scientific]
  exact reads

/-- Digits are read from any of the texts for them. -/
theorem reads_text (given : number.digits ≠ 0) (few : number.digits < 10 ^ 18) :
    Reads (signFactor negative * number.toRat) (ofText? (signText negative ++
      (if number.scientificExponent < -5 || 15 < number.scientificExponent then number.scientific
        else if 0 ≤ number.exponent then number.positional ++ ".0"
        else number.positional).toList)) := by
  by_cases far : (decide (number.scientificExponent < -5) ||
      decide (15 < number.scientificExponent)) = true
  · rw [if_pos far]
    exact reads_scientific negative given few
  · rw [if_neg far]
    rw [Bool.or_eq_true, decide_eq_true_eq, decide_eq_true_eq, not_or] at far
    split
    · next natural => exact reads_places negative (number.isWritten_whole natural (by omega))
    · obtain ⟨whole, places, written⟩ := number.isWritten_places (by omega) few (by omega)
      exact reads_places negative written

end

end Decimal

/-- The number that the JSON text of a finite number denotes. -/
def Binary64.written (x : Binary64) : Rat :=
  Decimal.signFactor x.isNegative * ((x.shortest?.map DecimalDigits.toRat).getD 0)

/-- The JSON text of a binary number is read as the number that is written, rounded to 28 places. -/
theorem Decimal.reads_jsonText {x : Binary64} (inFormat : x.InFormat) :
    Reads x.written (ofText? x.jsonText.toList) := by
  have sign : (if x.isNegative then "-" else "").toList = signText x.isNegative := by
    rw [signText]
    split
    · decide
    · rfl
  have zero : DecimalDigits.IsWritten ⟨0, 0⟩ "0.0".toList ['0'] ['0'] :=
    ⟨by decide, by decide, fun _ => @DecimalDigits.isAsciiDigit_of_mem_zeros 1 _,
      fun _ => @DecimalDigits.isAsciiDigit_of_mem_zeros 1 _, by decide, by decide,
      by decide +kernel⟩
  have none : DecimalDigits.toRat ⟨0, 0⟩ = 0 := zero_mul _
  have reads := none ▸ reads_places x.isNegative zero
  rw [Binary64.jsonText, String.toList_append, sign, Binary64.written]
  cases x with
  | nan negative => exact reads
  | infinity negative => exact reads
  | finite negative significand exponent =>
    rw [Binary64.shortest?]
    by_cases empty : significand = 0
    · rw [if_pos empty]
      exact reads
    · rw [if_neg empty]
      obtain ⟨least, few, -⟩ := DecimalDigits.shortest_spec (Nat.pos_of_ne_zero empty) inFormat.1
        inFormat.2.1 inFormat.2.2
      exact reads_text negative (fun none => least (none ▸ Nat.dvd_zero 10)) few

end EdmQuery
