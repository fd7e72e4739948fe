import EdmQuery.Evaluation.Arithmetic
import Mathlib.Algebra.Order.Ring.Int
import Mathlib.Tactic.Linarith

set_option autoImplicit false

namespace EdmQuery

namespace Arithmetic

/-- A dividend is a multiple of the divisor and a remainder, which is smaller than the divisor and
has the sign of the dividend. So the quotient is cut off toward zero. -/
structure Division (x y quotient remainder : Int) : Prop where
  parts : x = quotient * y + remainder
  smaller : remainder.natAbs < y.natAbs
  sign : 0 ≤ remainder * x

namespace Division

variable {x y quotient remainder other rest : Int}

theorem divisor_ne_zero (division : Division x y quotient remainder) : y ≠ 0 := by
  rintro rfl
  exact absurd division.smaller (Nat.not_lt_zero _)

/-- Every division by another number than zero has such parts. -/
theorem of_ne_zero (x : Int) (nonzero : y ≠ 0) : Division x y (x.tdiv y) (x.tmod y) where
  parts := (Int.tdiv_mul_add_tmod x y).symm
  smaller := by
    rw [Int.natAbs_tmod]
    exact Nat.mod_lt _ (Int.natAbs_pos.2 nonzero)
  sign := by
    rcases Int.le_total 0 x with natural | negative
    · exact mul_nonneg (Int.tmod_nonneg y natural) natural
    · have opposite := Int.tmod_nonneg y (Int.neg_nonneg_of_nonpos negative)
      rw [Int.neg_tmod] at opposite
      exact mul_nonneg_of_nonpos_of_nonpos (by omega) negative

/-- A remainder is a multiple of the divisor away from the dividend. -/
theorem dvd_sub (division : Division x y quotient remainder) : y ∣ x - remainder :=
  Dvd.intro_left quotient (by have := division.parts; omega)

/-- Remainders of one division lie on the side of the dividend, so less than the divisor apart, and
a multiple of it apart. -/
theorem remainder_unique (first : Division x y quotient remainder)
    (second : Division x y other rest) : remainder = rest := by
  have whole : y ∣ remainder - rest := by
    have apart := Int.dvd_sub second.dvd_sub first.dvd_sub
    rwa [sub_sub_sub_cancel_left] at apart
  have firstSmaller := first.smaller
  have secondSmaller := second.smaller
  have closer : (remainder - rest).natAbs < y.natAbs := by
    rcases Int.lt_trichotomy x 0 with negative | zero | positive
    · have := nonpos_of_mul_nonneg_left first.sign negative
      have := nonpos_of_mul_nonneg_left second.sign negative
      omega
    · have nothing {q r : Int} (division : Division x y q r) : r = 0 := by
        have multiple := division.dvd_sub
        rw [zero, Int.zero_sub, Int.dvd_neg] at multiple
        exact Int.eq_zero_of_dvd_of_natAbs_lt_natAbs multiple division.smaller
      rw [nothing first, nothing second]
      omega
    · have := nonneg_of_mul_nonneg_left first.sign positive
      have := nonneg_of_mul_nonneg_left second.sign positive
      omega
  have := Int.eq_zero_of_dvd_of_natAbs_lt_natAbs whole closer
  omega

theorem quotient_unique (first : Division x y quotient remainder)
    (second : Division x y other rest) : quotient = other := by
  have same : quotient * y = other * y := by
    have := first.parts
    have := second.parts
    have := first.remainder_unique second
    omega
  exact Int.eq_of_mul_eq_mul_right first.divisor_ne_zero same

end Division

/-- The number that an operator should give for two integers, if there is one. -/
inductive IsExact (x y : Int) : BinaryOperator → Int → Prop
  | add : IsExact x y .add (x + y)
  | subtract : IsExact x y .subtract (x - y)
  | multiply : IsExact x y .multiply (x * y)
  | divide {quotient remainder : Int} (division : Division x y quotient remainder) :
    IsExact x y .divide quotient
  | modulo {quotient remainder : Int} (division : Division x y quotient remainder) :
    IsExact x y .modulo remainder

/-- The operators that keep to integers. -/
def integral : List BinaryOperator := [.add, .subtract, .multiply, .divide, .modulo]

/-- An operator gives the exact number where there is one that fits, and says otherwise what is
wrong. -/
structure IsExactOrError (operator : BinaryOperator) (left right : Primitive) (x y : Int) :
    Prop where
  exact : ∀ result, IsExact x y operator result → IntegerType.int64.contains result = true →
    ∃ value, ofPrimitives operator left right = .ok value ∧
      value.type = .integer .int64 ∧ value.int? = some result
  divisionByZero : ofPrimitives operator left right = .error .divisionByZero ↔
    (operator = .divide ∨ operator = .modulo) ∧ y = 0
  overflow : ofPrimitives operator left right = .error (.overflow operator.keyword) ↔
    ∃ result, IsExact x y operator result ∧ ¬ IntegerType.int64.contains result = true

section

variable {operator : BinaryOperator} {x y : Int}

/-- There is an exact number for every pair of integers but for a divisor of zero. -/
theorem isExact_iff (handled : operator ∈ integral) (result : Int) :
    IsExact x y operator result ↔
      (isDivision operator && y == 0) = false ∧ resultOf? operator x y = some result := by
  have division := Division.of_ne_zero (y := y) x
  constructor
  · rintro (_ | _ | _ | parts | parts)
    · exact ⟨rfl, rfl⟩
    · exact ⟨rfl, rfl⟩
    · exact ⟨rfl, rfl⟩
    · have nonzero := parts.divisor_ne_zero
      exact ⟨beq_false_of_ne nonzero, congrArg some ((division nonzero).quotient_unique parts)⟩
    · have nonzero := parts.divisor_ne_zero
      exact ⟨beq_false_of_ne nonzero, congrArg some ((division nonzero).remainder_unique parts)⟩
  · rintro ⟨divides, given⟩
    simp only [integral, List.mem_cons, List.not_mem_nil, or_false] at handled
    rcases handled with rfl | rfl | rfl | rfl | rfl <;> cases given
    · exact .add
    · exact .subtract
    · exact .multiply
    · exact .divide (division (ne_of_beq_false divides))
    · exact .modulo (division (ne_of_beq_false divides))

/-- Operands of any integral types are the integers that they hold. -/
theorem ofPrimitives_eq (handled : operator ∈ integral) {left right : Primitive}
    (first : left.int? = some x) (second : right.int? = some y) :
    ofPrimitives operator left right = ofIntegers operator x y := by
  have whole : operator ≠ .divideBy := by
    rintro rfl
    exact absurd handled (by decide)
  cases left with
  | integer left =>
    cases right with
    | integer right =>
      cases first
      cases second
      exact if_neg whole
    | _ => cases second
  | _ => cases first

theorem ofIntegers_of_zero (divides : (isDivision operator && y == 0) = true) :
    ofIntegers operator x y = .error .divisionByZero := by
  rw [ofIntegers, if_pos divides]

/-- The exact number is given where it fits and was not taken for an overflow. -/
theorem ofIntegers_of_exact (handled : operator ∈ integral) {result : Int}
    (exact : IsExact x y operator result) :
    ofIntegers operator x y =
      if h : IntegerType.int64.contains result = true ∧ isOverflowing operator x y = false then
        .ok (.integer ⟨.int64, result, h.1⟩)
      else .error (.overflow operator.keyword) := by
  obtain ⟨divides, given⟩ := (isExact_iff handled result).1 exact
  simp only [ofIntegers, divides, given, Bool.false_eq_true, if_false]
  cases isOverflowing operator x y with
  | true => rw [if_pos rfl, dif_neg fun both => Bool.noConfusion both.2]
  | false =>
    rw [if_neg Bool.false_ne_true, Primitive.int64?, Primitive.ofInt?, TypedInteger.of?]
    by_cases inside : IntegerType.int64.contains result = true
    · rw [dif_pos inside, dif_pos ⟨inside, rfl⟩]
      rfl
    · rw [dif_neg inside, dif_neg fun both => inside both.1]
      rfl

/-- An overflow is seen only where the least integer is divided by minus one. Its quotient does not
fit, but its remainder does. -/
theorem isOverflowing_iff (handled : operator ∈ integral) {result : Int}
    (exact : IsExact x y operator result) (inside : IntegerType.int64.contains result = true) :
    isOverflowing operator x y = true ↔
      operator = .modulo ∧ x = IntegerType.int64.minValue ∧ y = -1 := by
  simp only [isOverflowing, Bool.and_eq_true, beq_iff_eq]
  constructor
  · rintro ⟨⟨divides, rfl⟩, rfl⟩
    cases exact with
    | divide division =>
      have quotient := division.quotient_unique (Division.of_ne_zero _ division.divisor_ne_zero)
      rw [quotient] at inside
      exact absurd inside (by decide)
    | modulo => exact ⟨rfl, rfl, rfl⟩
    | _ => cases divides
  · rintro ⟨rfl, rfl, rfl⟩
    exact ⟨⟨rfl, rfl⟩, rfl⟩

end

section

variable {operator : BinaryOperator} {left right : Primitive} {x y : Int}

/-- A divisor of zero leaves nothing that could be exact. -/
theorem isExactOrError_of_zero (handled : operator ∈ integral) (first : left.int? = some x)
    (second : right.int? = some y) (divides : (isDivision operator && y == 0) = true) :
    IsExactOrError operator left right x y := by
  have answer := (ofPrimitives_eq handled first second).trans (ofIntegers_of_zero divides)
  have none (result : Int) : ¬ IsExact x y operator result := fun exact =>
    Bool.noConfusion (divides.symm.trans ((isExact_iff handled result).1 exact).1)
  obtain ⟨division, zero⟩ := Bool.and_eq_true_iff.1 divides
  refine ⟨fun result exact => absurd exact (none result),
    iff_of_true answer ⟨?_, beq_iff_eq.1 zero⟩,
    iff_of_false (answer ▸ nofun) fun ⟨result, exact, _⟩ => none result exact⟩
  simp only [integral, List.mem_cons, List.not_mem_nil, or_false] at handled
  rcases handled with rfl | rfl | rfl | rfl | rfl
  · cases division
  · cases division
  · cases division
  · exact .inl rfl
  · exact .inr rfl

theorem exists_isExact (handled : operator ∈ integral)
    (divides : (isDivision operator && y == 0) = false) :
    ∃ result, IsExact x y operator result := by
  simp only [isExact_iff handled, divides, true_and]
  simp only [integral, List.mem_cons, List.not_mem_nil, or_false] at handled
  rcases handled with rfl | rfl | rfl | rfl | rfl <;> exact ⟨_, rfl⟩

/-- An exact number that is not taken for an overflow is given or overflows indeed. -/
theorem isExactOrError_of_exact (handled : operator ∈ integral) (first : left.int? = some x)
    (second : right.int? = some y) {result : Int} (exact : IsExact x y operator result)
    (seen : IntegerType.int64.contains result = true → isOverflowing operator x y = false) :
    IsExactOrError operator left right x y := by
  have answer := (ofPrimitives_eq handled first second).trans (ofIntegers_of_exact handled exact)
  obtain ⟨divides, given⟩ := (isExact_iff handled result).1 exact
  have only {other : Int} (again : IsExact x y operator other) : other = result :=
    Option.some.inj (((isExact_iff handled other).1 again).2.symm.trans given)
  have nonzero : ¬ ((operator = .divide ∨ operator = .modulo) ∧ y = 0) := by
    rintro ⟨rfl | rfl, rfl⟩ <;> cases divides
  by_cases inside : IntegerType.int64.contains result = true
  · rw [dif_pos ⟨inside, seen inside⟩] at answer
    refine ⟨fun other again _ => ⟨_, answer, rfl, congrArg some (only again).symm⟩,
      iff_of_false (answer ▸ nofun) nonzero, iff_of_false (answer ▸ nofun) ?_⟩
    rintro ⟨other, again, outside⟩
    exact outside (only again ▸ inside)
  · rw [dif_neg fun both => inside both.1] at answer
    exact ⟨fun other again fits => absurd (only again ▸ fits) inside,
      iff_of_false (answer ▸ nofun) nonzero, iff_of_true answer ⟨result, exact, inside⟩⟩

/-- The operators are exact or fail as they should for all integers, but for the remainder of the
least integer and minus one, which is zero and not an overflow. -/
theorem isExactOrError_iff (handled : operator ∈ integral) (first : left.int? = some x)
    (second : right.int? = some y) :
    (IsExactOrError operator left right x y ↔
      ¬ (operator = .modulo ∧ x = IntegerType.int64.minValue ∧ y = -1)) ∧
      (¬ IsExactOrError operator left right x y → IsExact x y operator 0 ∧
        ofPrimitives operator left right = .error (.overflow operator.keyword)) := by
  by_cases corner : operator = .modulo ∧ x = IntegerType.int64.minValue ∧ y = -1
  · obtain ⟨rfl, rfl, rfl⟩ := corner
    have exact : IsExact IntegerType.int64.minValue (-1) .modulo 0 :=
      (isExact_iff handled 0).2 ⟨rfl, rfl⟩
    have answer := (ofPrimitives_eq handled first second).trans (ofIntegers_of_exact handled exact)
    rw [dif_neg fun both => Bool.noConfusion both.2] at answer
    have misses : ¬ IsExactOrError .modulo left right IntegerType.int64.minValue (-1) := by
      intro holds
      obtain ⟨value, given, -⟩ := holds.exact 0 exact (by decide)
      rw [answer] at given
      cases given
    exact ⟨iff_of_false misses (not_not.2 ⟨rfl, rfl, rfl⟩), fun _ => ⟨exact, answer⟩⟩
  · have holds : IsExactOrError operator left right x y := by
      cases divides : isDivision operator && y == 0 with
      | true => exact isExactOrError_of_zero handled first second divides
      | false =>
        obtain ⟨result, exact⟩ := exists_isExact (x := x) handled divides
        refine isExactOrError_of_exact handled first second exact fun inside => ?_
        exact Bool.eq_false_iff.2 fun seen =>
          corner ((isOverflowing_iff handled exact inside).1 seen)
    exact ⟨iff_of_true holds corner, fun misses => absurd holds misses⟩

end

/-- The least integer divided by two different numbers, once with nothing left, which fits, and once
with a quotient that does not. -/
theorem isExactOrError_iff_least :
    (BinaryOperator.modulo ∈ integral ∧ BinaryOperator.divide ∈ integral) ∧
      IsExactOrError .divide (.integer ⟨.int64, -9223372036854775808, by decide⟩)
        (.integer ⟨.sbyte, -1, by decide⟩) (-9223372036854775808) (-1) ∧
      IsExactOrError .modulo (.integer ⟨.int64, -9223372036854775808, by decide⟩)
        (.integer ⟨.int16, -7, by decide⟩) (-9223372036854775808) (-7) ∧
      ofPrimitives .modulo (.integer ⟨.int64, -9223372036854775808, by decide⟩)
        (.integer ⟨.int32, -1, by decide⟩) = .error (.overflow "mod") := by
  refine ⟨⟨by decide, by decide⟩, ?_, ?_, ?_⟩
  · exact (isExactOrError_iff (by decide) rfl rfl).1.2 (by decide)
  · exact (isExactOrError_iff (by decide) rfl rfl).1.2 (by decide)
  · have corner := @isExactOrError_iff .modulo
      (.integer ⟨.int64, -9223372036854775808, by decide⟩) (.integer ⟨.int32, -1, by decide⟩)
      _ _ (by decide) rfl rfl
    exact (corner.2 fun holds => corner.1.1 holds ⟨rfl, rfl, rfl⟩).2

/-- The remainder of the least integer and minus one is zero, but is not given. -/
theorem not_isExactOrError_least :
    IsExact (-9223372036854775808) (-1) .modulo 0 ∧
      ¬ IsExactOrError .modulo (.integer ⟨.int64, -9223372036854775808, by decide⟩)
        (.integer ⟨.int64, -1, by decide⟩) (-9223372036854775808) (-1) := by
  have exact : IsExact (-9223372036854775808) (-1) .modulo 0 :=
    (isExact_iff (by decide) 0).2 ⟨rfl, rfl⟩
  refine ⟨exact, fun holds => ?_⟩
  obtain ⟨value, given, -⟩ := holds.exact 0 exact (by decide)
  cases given

end Arithmetic

end EdmQuery
