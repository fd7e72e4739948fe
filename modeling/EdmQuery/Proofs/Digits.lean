import EdmQuery.Number.DecimalReader
import Mathlib.Algebra.Group.Nat.Defs

set_option autoImplicit false

namespace EdmQuery

theorem isAsciiDigit_eq_isDigit (char : Char) : isAsciiDigit char = char.isDigit := by
  unfold isAsciiDigit digitValue? Char.isDigit
  split
  · rename_i inside
    exact (decide_eq_true inside).symm.trans (Bool.decide_and ..)
  · rename_i outside
    exact (decide_eq_false outside).symm.trans (Bool.decide_and ..)

theorem digitsValue_eq_ofDigitChars (digits : List Char) :
    digitsValue digits = Nat.ofDigitChars 10 digits 0 := by
  simp only [digitsValue, Nat.ofDigitChars, Nat.mul_comm]

theorem toString_toList (number : Nat) : (toString number).toList = Nat.toDigits 10 number := by
  rw [Nat.toString_eq_repr, Nat.toList_repr]

@[simp] theorem digitsValue_toDigits (number : Nat) :
    digitsValue (Nat.toDigits 10 number) = number := by
  rw [digitsValue_eq_ofDigitChars, Nat.ofDigitChars_ten_toDigits]

theorem isAsciiDigit_of_mem_toDigits {number : Nat} {char : Char}
    (inside : char ∈ Nat.toDigits 10 number) : isAsciiDigit char = true := by
  rw [isAsciiDigit_eq_isDigit]
  exact Nat.isDigit_of_mem_toDigits (by decide) (by decide) inside

theorem toNat_lt_of_isAsciiDigit {char : Char} (digit : isAsciiDigit char = true) :
    char.toNat < 128 := by
  unfold isAsciiDigit digitValue? at digit
  split at digit
  · rename_i inside
    have upper : char.toNat ≤ '9'.toNat := inside.2
    have nine : '9'.toNat = 57 := rfl
    omega
  · cases digit

theorem digit_le_nine {char : Char} (digit : isAsciiDigit char = true) :
    char.toNat - '0'.toNat ≤ 9 := by
  unfold isAsciiDigit digitValue? at digit
  split at digit
  · rename_i inside
    have upper : char.toNat ≤ '9'.toNat := inside.2
    have zero : '0'.toNat = 48 := rfl
    have nine : '9'.toNat = 57 := rfl
    omega
  · cases digit

/-- A number is below the power of ten that its digits have no place for. -/
theorem digitsValue_lt {digits : List Char} (digit : ∀ char ∈ digits, isAsciiDigit char = true) :
    digitsValue digits < 10 ^ digits.length := by
  have bounded : ∀ start : Nat,
      digits.foldl (fun value char => value * 10 + (char.toNat - '0'.toNat)) start <
        (start + 1) * 10 ^ digits.length := by
    induction digits with
    | nil =>
      intro start
      rw [List.length_nil, Nat.pow_zero, Nat.mul_one]
      exact Nat.lt_succ_self start
    | cons char rest ih =>
      intro start
      have small := digit_le_nine (digit char List.mem_cons_self)
      have later := ih (fun other inside => digit other (List.mem_cons_of_mem _ inside))
        (start * 10 + (char.toNat - '0'.toNat))
      have step : start * 10 + (char.toNat - '0'.toNat) + 1 ≤ (start + 1) * 10 := by omega
      have raised := Nat.mul_le_mul_right (10 ^ rest.length) step
      rw [List.foldl_cons, List.length_cons, Nat.pow_succ, Nat.mul_comm (10 ^ rest.length),
        ← Nat.mul_assoc]
      exact Nat.lt_of_lt_of_le later raised
  have whole := bounded 0
  rwa [Nat.zero_add, Nat.one_mul] at whole

end EdmQuery
