set_option autoImplicit false

namespace EdmQuery

/-- The natural number nearest to `num / den`; a tie goes to the even neighbour. -/
def divNearestEven (num den : Nat) : Nat :=
  let quotient := num / den
  let twice := 2 * (num % den)
  if den < twice || (twice == den && quotient % 2 == 1) then quotient + 1 else quotient

/-- The natural number nearest to `num / den`; a tie goes up. -/
def divNearestUp (num den : Nat) : Nat :=
  if den ≤ 2 * (num % den) then num / den + 1 else num / den

theorem divNearestUp_le {den : Nat} (shrinks : 2 ≤ den) (num : Nat) :
    divNearestUp num den ≤ num := by
  have split := Nat.div_add_mod num den
  have smaller := Nat.mul_le_mul_right (num / den) shrinks
  unfold divNearestUp
  split
  · omega
  · exact Nat.div_le_self num den

/-- A quotient rounded up at a tie is off by at most half of the divisor, and downwards by less. -/
theorem divNearestUp_near (num den : Nat) (positive : 0 < den) :
    2 * (divNearestUp num den * den) ≤ 2 * num + den ∧
      2 * num < 2 * (divNearestUp num den * den) + den := by
  have split := Nat.div_add_mod' num den
  have below := Nat.mod_lt num positive
  unfold divNearestUp
  split
  · rw [Nat.add_mul, Nat.one_mul]
    omega
  · omega

theorem two_le_pow_ten {places : Nat} (positive : 0 < places) : 2 ≤ Nat.pow 10 places :=
  Nat.le_trans (by decide) (Nat.pow_le_pow_right (by decide) positive : 10 ^ 1 ≤ 10 ^ places)

theorem divNearestEven_of_dvd (num den : Nat) (positive : 0 < den) (divides : den ∣ num) :
    divNearestEven num den = num / den := by
  have remainder : num % den = 0 := Nat.mod_eq_zero_of_dvd divides
  have nonzero : ¬ 0 = den := by omega
  simp [divNearestEven, remainder, nonzero]

/-- A rounded quotient is off by at most half of the divisor. -/
theorem divNearestEven_near (num den : Nat) (positive : 0 < den) :
    2 * (divNearestEven num den * den) ≤ 2 * num + den ∧
      2 * num ≤ 2 * (divNearestEven num den * den) + den := by
  have split := Nat.div_add_mod num den
  have below := Nat.mod_lt num positive
  have swap : num / den * den = den * (num / den) := Nat.mul_comm ..
  unfold divNearestEven
  simp only
  split
  · rename_i up
    have step := Nat.succ_mul (num / den) den
    simp only [Nat.succ_eq_add_one] at step
    rw [step, swap]
    simp only [Bool.or_eq_true, decide_eq_true_eq, Bool.and_eq_true, beq_iff_eq] at up
    omega
  · rename_i down
    rw [swap]
    simp only [Bool.or_eq_true, decide_eq_true_eq, Bool.and_eq_true, beq_iff_eq, not_or] at down
    omega

/-- `n` without its factors of ten, at most `limit` of them, and how many were removed. -/
def stripTens : Nat → Nat → Nat × Nat
  | 0, number => (number, 0)
  | limit + 1, number =>
    if number % 10 = 0 then
      let (stripped, count) := stripTens limit (number / 10)
      (stripped, count + 1)
    else (number, 0)

theorem stripTens_mul (limit number : Nat) :
    (stripTens limit number).1 * Nat.pow 10 (stripTens limit number).2 = number := by
  simp only [Nat.pow_eq]
  induction limit generalizing number with
  | zero => simp only [stripTens, Nat.pow_zero, Nat.mul_one]
  | succ limit ih =>
    unfold stripTens
    split
    · rename_i even
      have step := ih (number / 10)
      simp only [Nat.pow_succ, ← Nat.mul_assoc, step]
      omega
    · simp only [Nat.pow_zero, Nat.mul_one]

end EdmQuery
