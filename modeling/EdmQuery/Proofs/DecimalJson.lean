import EdmQuery.Primitive.Coercion
import EdmQuery.Proofs.DecimalPromotion
import EdmQuery.Proofs.NumberText

set_option autoImplicit false

/- Decimals in JSON and back. A decimal is written as an integer or as the binary number that it is
promoted to, and read from the text of what is written. Reading rounds at the last place alone, so a
decimal comes back exactly if the shortest digits of its binary number, rounded there, are its own:
always with few digits and places, and never with many digits. -/
namespace EdmQuery

namespace Binary64

theorem inFormat_neg {x : Binary64} (inFormat : x.InFormat) : x.neg.InFormat := by
  cases x with
  | finite negative significand exponent => exact inFormat
  | _ => trivial

theorem inFormat_div (x y : Binary64) : (x.div y).InFormat := by
  cases x with
  | nan => trivial
  | infinity =>
    cases y with
    | _ => trivial
  | finite firstSign firstSignificand firstExponent =>
    cases y with
    | finite secondSign secondSignificand secondExponent =>
      rw [div]
      split
      · split
        · trivial
        · trivial
      · next divisible =>
        refine BinaryFormat.inFormat_round _ _ ?_
        rw [Nat.shiftLeft_eq]
        exact Nat.mul_pos (Nat.pos_of_ne_zero divisible) (Nat.two_pow_pos _)
    | nan => trivial
    | infinity => exact ⟨by decide, by decide, by decide⟩

end Binary64

namespace Decimal

theorem inFormat_toBinary64 (x : Decimal) : x.toBinary64.InFormat := by
  by_cases point : x.scale = 0
  · rw [toBinary64, if_pos point]
    exact BinaryFormat.inFormat_round _ _ one_pos
  · have inFormat : x.magnitude.InFormat := by
      rw [magnitude]
      split
      · exact BinaryFormat.inFormat_round _ _ one_pos
      · exact Binary64.inFormat_div _ _
    rw [x.toBinary64_eq point]
    split
    · exact Binary64.inFormat_neg inFormat
    · exact inFormat

/-- The text of an integer is read as this integer. -/
theorem ofText?_int {value : Int} (inside : IntegerType.int64.contains value = true) :
    ∃ x, ofText? (Json.scalarText (.int value)).toList = some x ∧ x.toRat = value := by
  have bounds : -9223372036854775808 ≤ value ∧ value ≤ 9223372036854775807 :=
    (IntegerType.contains_iff _ _).1 inside
  have fits : value.natAbs < mantissaLimit := by
    show value.natAbs < 79228162514264337593543950336
    omega
  have text : (Json.scalarText (.int value)).toList =
      signText (decide (value < 0)) ++ Nat.toDigits 10 value.natAbs := by
    have minus : "-".toList = ['-'] := by decide
    cases value with
    | ofNat number =>
      have natural : decide (Int.ofNat number < 0) = false :=
        decide_eq_false (Int.not_lt.2 (Int.natCast_nonneg number))
      rw [natural]
      exact toString_toList number
    | negSucc number =>
      have negative : decide (Int.negSucc number < 0) = true :=
        decide_eq_true (Int.negSucc_lt_zero number)
      rw [negative]
      show ("-" ++ toString (number + 1)).toList = _
      rw [String.toList_append, minus, toString_toList]
      rfl
  have read := read?_signText_digits (decide (value < 0)) (@Nat.toDigits_ne_nil value.natAbs 10)
    (fun _ => isAsciiDigit_of_mem_toDigits) (by rwa [digitsValue_toDigits])
  rw [digitsValue_toDigits] at read
  obtain ⟨x, given, number⟩ := toRat_ofParts? (decide (value < 0)) fits (Nat.zero_le _)
  refine ⟨x, text ▸ ofText?_of_read? (read.trans given), ?_⟩
  rw [number, pow_zero, div_one]
  simp only [signFactor, decide_eq_true_eq]
  split
  · rw [neg_one_mul]
    exact_mod_cast (by omega : -(value.natAbs : Int) = value)
  · rw [one_mul]
    have whole : (value.natAbs : Int) = value := by omega
    exact (Int.cast_natCast _).symm.trans (congrArg Int.cast whole)

/-- What is read from the JSON of a decimal is the same number. -/
def Survives (x : Decimal) : Prop :=
  ∃ value, PrimitiveType.decimal.instance? (Primitive.decimal x).toJson = .ok (some value) ∧
    value.same (.decimal x) = true

variable {x : Decimal}

theorem same_decimal_iff {y : Decimal} :
    (Primitive.decimal y).same (.decimal x) = true ↔ y.toRat = x.toRat := by
  rw [Primitive.same, Bool.and_eq_true, beq_iff_eq, beq_iff_eq]
  show _ ∧ some (y.compare x) = some .eq ↔ _
  rw [compare_eq, Option.some_inj, compare_eq_iff_eq]
  exact and_iff_right rfl

theorem toRat_of_toInt? {value : Int} (whole : x.toInt? = some value) : x.toRat = value := by
  rw [toInt?] at whole
  split at whole
  · next none =>
    cases whole
    rw [toRat_eq, none, pow_zero, div_one, signFactor]
    split
    · rw [neg_one_mul, Int.cast_neg, Int.cast_natCast]
    · rw [one_mul, Int.cast_natCast]
  · cases whole

/-- Whether a decimal is written as an integer. -/
def IsInt64 (x : Decimal) : Prop :=
  ∃ value, x.toInt? = some value ∧ IntegerType.int64.contains value = true

theorem isInt64_of_few (few : x.mantissa < 10 ^ 15) (point : x.scale = 0) : x.IsInt64 := by
  refine ⟨if x.negative then -(x.mantissa : Int) else x.mantissa, if_pos point, ?_⟩
  refine (IntegerType.contains_iff _ _).2 ?_
  show (-9223372036854775808 : Int) ≤ _ ∧ _ ≤ (9223372036854775807 : Int)
  split
  · omega
  · omega

theorem toJson_of_isInt64 (whole : x.IsInt64) :
    ∃ value, (Primitive.decimal x).toJson = .int value ∧ x.toRat = value ∧
      IntegerType.int64.contains value = true := by
  obtain ⟨value, same, inside⟩ := whole
  refine ⟨value, ?_, toRat_of_toInt? same, inside⟩
  rw [Primitive.toJson, same]
  exact if_pos inside

theorem toJson_of_not_isInt64 (other : ¬ x.IsInt64) :
    (Primitive.decimal x).toJson = .double x.toBinary64 := by
  rw [Primitive.toJson]
  cases same : x.toInt? with
  | some value => exact if_neg fun inside => other ⟨value, same, inside⟩
  | none => rfl

theorem instance?_decimal {raw : Json} (given : raw.isNull = false) (value : Primitive) :
    PrimitiveType.decimal.instance? raw = .ok (some value) ↔
      ∃ y, Coercion.decimal? raw = some y ∧ value = .decimal y := by
  have converted : PrimitiveType.decimal.convert? raw =
      (Coercion.decimal? raw).map Primitive.decimal := rfl
  rw [PrimitiveType.instance?, given, if_neg Bool.false_ne_true, converted]
  cases Coercion.decimal? raw with
  | none => simp
  | some y => simp [eq_comm]

theorem survives_of_isInt64 (whole : x.IsInt64) : x.Survives := by
  obtain ⟨value, written, same, inside⟩ := toJson_of_isInt64 whole
  obtain ⟨y, read, exact⟩ := ofText?_int inside
  refine ⟨.decimal y, ?_, same_decimal_iff.2 (exact.trans same.symm)⟩
  rw [written, instance?_decimal rfl]
  exact ⟨y, read, rfl⟩

theorem magnitude_of_zero (none : x.mantissa = 0) : x.magnitude = .finite false 0 (-1074) := by
  have whole : x.mantissa % Nat.pow 10 x.scale = 0 := by rw [none, Nat.zero_mod]
  rw [x.magnitude_of_whole whole, wholePart, none, Nat.zero_div]
  rfl

theorem written_of_zero (none : x.mantissa = 0) (point : x.scale ≠ 0) :
    x.toBinary64.written = 0 := by
  rw [x.toBinary64_eq point, magnitude_of_zero none]
  split
  · exact mul_zero _
  · exact mul_zero _

/-- Few digits and places are the shortest ones of the binary number. -/
theorem written_of_few (few : x.mantissa < 10 ^ 15) (places : x.scale ≤ 22) (point : x.scale ≠ 0) :
    x.toBinary64.written = x.toRat := by
  by_cases none : x.mantissa = 0
  · rw [written_of_zero none point, toRat_eq, none, Nat.cast_zero, zero_div, mul_zero]
  · obtain ⟨significand, exponent, same, nearest⟩ := x.rounds_magnitude few places none
    have full := nearest.full
    have value : (x.mantissa / 10 ^ x.scale : Rat) = x.mantissa * 10 ^ (-x.scale : Int) := by
      rw [zpow_neg, zpow_natCast, div_eq_mul_inv]
    rw [value] at nearest
    have digits : ((Binary64.finite false significand exponent).shortest?.map
        DecimalDigits.toRat).getD 0 = x.mantissa * 10 ^ (-x.scale : Int) := by
      rw [Binary64.shortest?, if_neg (by omega)]
      exact DecimalDigits.toRat_shortest few nearest
    rw [toRat_eq_zpow, x.toBinary64_eq point, same, ← digits]
    cases x.negative
    · rfl
    · rfl

/-- The number that is written has eighteen digits at most, before and after it is rounded. -/
theorem abs_nearest_written {x : Binary64} (inFormat : x.InFormat) :
    ∃ (digits : Nat) (exponent : Int), digits < 10 ^ 18 ∧
      |nearest x.written| = digits * 10 ^ exponent := by
  obtain ⟨digits, exponent, few, same⟩ : ∃ (digits : Nat) (exponent : Int), digits < 10 ^ 18 ∧
      (x.shortest?.map DecimalDigits.toRat).getD 0 = digits * 10 ^ exponent := by
    cases found : x.shortest? with
    | none => exact ⟨0, 0, by decide, by rw [Nat.cast_zero, zero_mul]; rfl⟩
    | some number =>
      refine ⟨number.digits, number.exponent, ?_, rfl⟩
      cases x with
      | finite negative significand exponent =>
        rw [Binary64.shortest?] at found
        split at found
        · cases found
        · next given =>
          cases found
          exact (DecimalDigits.shortest_spec (Nat.pos_of_ne_zero given) inFormat.1 inFormat.2.1
            inFormat.2.2).2.1
      | _ => cases found
  rw [Binary64.written, same]
  by_cases inside : -28 ≤ exponent
  · refine ⟨digits, exponent, few, ?_⟩
    rw [nearest_of_le _ _ inside, abs_mul, abs_signFactor, one_mul, abs_of_nonneg (by positivity)]
  · obtain ⟨extra, rfl⟩ : ∃ extra : Nat, exponent = -(28 + extra) :=
      ⟨(-exponent - 28).toNat, by omega⟩
    have shorter : divNearestUp digits (Nat.pow 10 extra) ≤ digits :=
      divNearestUp_le (two_le_pow_ten (by omega)) digits
    refine ⟨_, -28, shorter.trans_lt few, ?_⟩
    rw [nearest_of_lt, abs_mul, abs_signFactor, one_mul, abs_of_nonneg (by positivity)]

/-- The smallest decimal is promoted to a number that is a little larger. -/
theorem smallest_le_written : ∀ negative,
    1 / 10 ^ maxScale ≤
      |(⟨negative, 1, 28, by decide, by decide⟩ : Decimal).toBinary64.written| := by
  decide +kernel

/-- No decimal but zero is promoted to a number that is too small to be read. -/
theorem written_visible (other : ¬ x.IsInt64) (same : nearest x.toBinary64.written = x.toRat) :
    x.toBinary64.written = 0 ∨ 1 / 10 ^ maxScale ≤ |x.toBinary64.written| := by
  have unit : (0 : Rat) < 10 ^ maxScale := pow_pos (by norm_num) _
  -- Both numbers are counted in units of the last place.
  obtain ⟨units, count⟩ : ∃ units, units = x.mantissa * 10 ^ (28 - x.scale) := ⟨_, rfl⟩
  have size : |x.toRat| * 10 ^ maxScale = units := by
    have places : (10 : Rat) ^ maxScale = 10 ^ x.scale * 10 ^ (28 - x.scale) := by
      rw [← pow_add, Nat.add_sub_cancel' x.scale_le]
      rfl
    rw [abs_toRat, places, ← mul_assoc, div_mul_cancel₀ _ (pow_pos (by norm_num) _).ne', count]
    push_cast
    rfl
  have floor : ⌊|x.toBinary64.written| * 10 ^ maxScale + 1 / 2⌋ = (units : Int) := by
    have nonneg : (0 : Rat) ≤ ⌊|x.toBinary64.written| * 10 ^ maxScale + 1 / 2⌋ := by
      exact_mod_cast Int.floor_nonneg.2 (by positivity)
    rw [← same, nearest, abs_mul, abs_signFactor, one_mul,
      abs_of_nonneg (div_nonneg nonneg unit.le), div_mul_cancel₀ _ unit.ne'] at size
    exact_mod_cast size
  obtain ⟨least, -⟩ := Int.floor_eq_iff.1 floor
  by_cases none : x.mantissa = 0
  · have point : x.scale ≠ 0 := fun whole => other (isInt64_of_few (none ▸ by decide) whole)
    exact .inl (written_of_zero none point)
  · refine .inr ?_
    by_cases one : units = 1
    · have product := count.symm.trans one
      have mantissa := Nat.eq_one_of_mul_eq_one_right product
      have power := Nat.eq_one_of_mul_eq_one_left product
      have last : x.scale = 28 := by
        have places := x.scale_le
        have := Nat.pow_eq_one.1 power
        omega
      obtain ⟨negative, digits, scale, fits, places⟩ := x
      obtain rfl : digits = 1 := mantissa
      obtain rfl : scale = 28 := last
      exact smallest_le_written negative
    · have more : 2 ≤ units := by
        have positive : 0 < units := by
          rw [count]
          exact Nat.mul_pos (Nat.pos_of_ne_zero none) (Nat.pow_pos (by decide))
        omega
      have large : (2 : Rat) ≤ (units : Int) := by exact_mod_cast more
      rw [div_le_iff₀ unit]
      linarith

theorem survives_iff_written (other : ¬ x.IsInt64) :
    x.Survives ↔ nearest x.toBinary64.written = x.toRat := by
  have reads := reads_jsonText x.inFormat_toBinary64
  rw [Survives, toJson_of_not_isInt64 other]
  constructor
  · rintro ⟨value, read, same⟩
    obtain ⟨y, text, rfl⟩ := (instance?_decimal rfl value).1 read
    exact (reads.rounded y text).symm.trans (same_decimal_iff.1 same)
  · intro written
    obtain ⟨y, text⟩ := reads.complete (written_visible other written) ⟨x, written.symm⟩
    refine ⟨.decimal y, (instance?_decimal rfl _).2 ⟨y, text, rfl⟩, ?_⟩
    exact same_decimal_iff.2 ((reads.rounded y text).trans written)

/-- A decimal comes back if it is written as an integer, and otherwise exactly if the number that is
written for its binary number, which is finite, is the decimal when it is rounded to 28 places.
Fifteen digits with no more than 22 places come back, and more than eighteen digits do not. Whatever
is read is the number that was written, rounded to 28 places. -/
theorem survives_iff (x : Decimal) :
    (x.Survives ↔ x.IsInt64 ∨ nearest x.toBinary64.written = x.toRat) ∧
      x.toBinary64.isFinite = true ∧
      (x.mantissa < 10 ^ 15 → x.scale ≤ 22 → x.Survives) ∧
      (x.Survives → x.IsInt64 ∨ ∃ (digits : Nat) (exponent : Int),
        digits < 10 ^ 18 ∧ |x.toRat| = digits * 10 ^ exponent) ∧
      ∀ y, PrimitiveType.decimal.instance? (Primitive.decimal x).toJson = .ok (some (.decimal y)) →
        ¬ x.IsInt64 → y.toRat = nearest x.toBinary64.written := by
  have exactly : x.Survives ↔ x.IsInt64 ∨ nearest x.toBinary64.written = x.toRat := by
    by_cases whole : x.IsInt64
    · exact ⟨fun _ => .inl whole, fun _ => survives_of_isInt64 whole⟩
    · rw [survives_iff_written whole]
      exact (or_iff_right whole).symm
  refine ⟨exactly, x.isFinite_toBinary64, fun few places => ?_, fun survives => ?_, ?_⟩
  · by_cases point : x.scale = 0
    · exact survives_of_isInt64 (isInt64_of_few few point)
    · rw [exactly, written_of_few few places point, nearest_toRat]
      exact .inr rfl
  · rcases exactly.1 survives with whole | written
    · exact .inl whole
    · exact .inr (written ▸ abs_nearest_written x.inFormat_toBinary64)
  · intro y read other
    rw [toJson_of_not_isInt64 other, instance?_decimal rfl] at read
    obtain ⟨z, text, same⟩ := read
    cases same
    exact (reads_jsonText x.inFormat_toBinary64).rounded y text

/-- A number of fifteen digits with 22 places, and a single digit at the 23rd place, whose binary
number is written with more places than a decimal has. -/
theorem survives_iff_fifteen :
    Survives ⟨true, 123456789012345, 22, by decide, by decide⟩ ∧
      (∃ (digits : Nat) (exponent : Int), digits < 10 ^ 18 ∧
        |(⟨true, 123456789012345, 22, by decide, by decide⟩ : Decimal).toRat| =
          digits * 10 ^ exponent) ∧
      Survives ⟨false, 1, 23, by decide, by decide⟩ := by
  obtain ⟨-, -, few, digits, -⟩ := survives_iff ⟨true, 123456789012345, 22, by decide, by decide⟩
  have survives := few (by decide) (by decide)
  refine ⟨survives, (digits survives).resolve_left ?_, ?_⟩
  · rintro ⟨value, whole, -⟩
    cases whole
  · exact (survives_iff _).1.2 (.inr (by decide +kernel))

/-- The largest decimal is refused, and the last three of twenty digits are lost. -/
theorem not_survives_many :
    ¬ Survives ⟨false, 79228162514264337593543950335, 0, by decide, by decide⟩ ∧
      ¬ Survives ⟨false, 12345678901234567890, 20, by decide, by decide⟩ := by
  constructor
  · rintro ⟨value, read, same⟩
    have refused : PrimitiveType.decimal.instance?
        (Primitive.decimal ⟨false, 79228162514264337593543950335, 0, by decide, by decide⟩).toJson =
          .error (.invalidValue "Edm.Decimal" "7.922816251426434e+28") := by
      decide +kernel
    rw [refused] at read
    cases read
  · rintro ⟨value, read, same⟩
    have changed : PrimitiveType.decimal.instance?
        (Primitive.decimal ⟨false, 12345678901234567890, 20, by decide, by decide⟩).toJson =
          .ok (some (.decimal ⟨false, 12345678901234568, 17, by decide, by decide⟩)) := by
      decide +kernel
    rw [changed] at read
    cases read
    exact absurd same (by decide)

end Decimal

end EdmQuery
