import EdmQuery.Primitive.Coercion
import EdmQuery.Proofs.MixedKeys

set_option autoImplicit false

namespace EdmQuery

namespace BinaryFormat

/-- From 2 ^ 63 on, up to 2 ^ 64, binary numbers stand 2 ^ 11 apart. -/
theorem round_wide {num : Nat} (least : 9223372036854775808 ≤ num)
    (below : num < 18446744073709551616) :
    double.round false num 1 =
      if divNearestEven num 2048 = Nat.pow 2 53 then .finite false (Nat.pow 2 52) 12
      else .finite false (divNearestEven num 2048) 11 := by
  have positive : num ≠ 0 := by omega
  have leading : Nat.log2 num = 63 := (Nat.log2_eq_iff positive).2 ⟨least, below⟩
  have place : max double.minExponent (((63 : Nat) : Int) - (double.precision - 1 : Nat)) = 11 := by
    decide
  have unit : 1 <<< (11 : Int).toNat = 2048 := by decide
  rw [round, if_neg positive, leadingExponent_one positive, leading, place]
  simp only [unit, show (0 : Int) ≤ 11 from by decide, if_true]
  split
  · next carried => exact (if_pos carried).symm
  · next kept => exact (if_neg kept).symm

end BinaryFormat

/-- The multiple of 2 ^ 11 next to such an integer is 2 ^ 63 for those up to half of the distance
above it. -/
theorem divNearestEven_wide {num : Nat} (least : 9223372036854775808 ≤ num) :
    divNearestEven num 2048 * 2048 ≤ 9223372036854775808 ↔ num ≤ 9223372036854776832 := by
  rw [divNearestEven]
  simp only [Bool.or_eq_true, decide_eq_true_eq, Bool.and_eq_true, beq_iff_eq]
  split <;> omega

theorem Binary64.ofInt_wide {n : Int} (least : 9223372036854775808 ≤ n)
    (below : n < 18446744073709551616) :
    (ofInt n).isWhole = true ∧ (ofInt n).toInt = (divNearestEven n.natAbs 2048 * 2048 : Nat) := by
  have sign : decide (n < 0) = false := decide_eq_false (by omega)
  rw [ofInt, sign, BinaryFormat.round_wide (by omega) (by omega)]
  -- rounding up may need one bit more; the multiple is the same one either way
  split
  · next carried =>
    rw [carried]
    exact ⟨rfl, rfl⟩
  · refine ⟨rfl, ?_⟩
    show ((divNearestEven n.natAbs 2048 <<< 11 : Nat) : Int) = _
    rw [Nat.shiftLeft_eq]

namespace Coercion

theorem wholeToInt?_ofInt_wide {n : Int} (least : 9223372036854775808 ≤ n)
    (below : n < 18446744073709551616) :
    wholeToInt? (Binary64.ofInt n) =
      if n ≤ 9223372036854776832 then some IntegerType.int64.maxValue else none := by
  obtain ⟨whole, value⟩ := Binary64.ofInt_wide least below
  have wide : 9223372036854775808 ≤ n.natAbs := by omega
  have near := divNearestEven_wide wide
  have atLeast : 9223372036854775808 ≤ divNearestEven n.natAbs 2048 * 2048 := by
    have := divNearestEven_near n.natAbs 2048 (by decide)
    omega
  by_cases close : n ≤ 9223372036854776832
  · have exact : divNearestEven n.natAbs 2048 * 2048 = 9223372036854775808 :=
      Nat.le_antisymm (near.2 (by omega)) atLeast
    -- 2 ^ 63 passes the test, as the limit is itself rounded to a binary number there
    rw [if_pos close, wholeToInt?, whole, value, exact]
    rfl
  · have beyond : ¬ divNearestEven n.natAbs 2048 * 2048 ≤ 9223372036854775808 :=
      fun within => close (by have := near.1 within; omega)
    rw [if_neg close, wholeToInt?, whole, value]
    exact if_neg fun within => beyond (Int.ofNat_le.1 within.2.2)

/-- What an integer of up to 64 bits, with a sign or without, is taken for. -/
theorem integer?_int {n : Int} (lower : -9223372036854775808 ≤ n)
    (upper : n < 18446744073709551616) (acceptString : Bool) :
    integer? acceptString (.int n) =
      if n ≤ IntegerType.int64.maxValue then some n
      else if n ≤ 9223372036854776832 then some IntegerType.int64.maxValue else none := by
  rw [integer?]
  by_cases fits : n ≤ IntegerType.int64.maxValue
  · rw [if_pos fits, if_pos ((IntegerType.contains_iff _ _).2 ⟨lower, fits⟩)]
  · have beyond : ¬ IntegerType.int64.contains n = true :=
      fun inside => fits ((IntegerType.contains_iff _ _).1 inside).2
    have wide : 9223372036854775808 ≤ n := by
      have : ¬ n ≤ 9223372036854775807 := fits
      omega
    rw [if_neg fits, if_neg beyond, wholeToInt?_ofInt_wide wide upper]

end Coercion

theorem IntegerType.outside_of_not_contains {width : IntegerType} {n : Int}
    (outside : ¬ width.contains n = true) : n < width.minValue ∨ width.maxValue < n := by
  rw [contains_iff] at outside
  omega

namespace PrimitiveType

/-- A type takes an integer if and only if it lies in a range, and then takes it as it is. -/
structure TakesExactly (type : PrimitiveType) (least greatest n : Int) : Prop where
  taken : least ≤ n → n ≤ greatest →
    ∃ value, type.instance? (.int n) = .ok (some value) ∧ value.type = type ∧ value.int? = some n
  refused : n < least ∨ greatest < n →
    type.instance? (.int n) = .error (.invalidValue type.qualifiedName (Json.int n).compact)

section

variable {width : IntegerType} {n : Int}

theorem instance?_of_convert? {type : PrimitiveType} {value : Primitive}
    (converted : type.convert? (.int n) = some value) :
    type.instance? (.int n) = .ok (some value) := by
  rw [instance?, converted]
  rfl

theorem instance?_of_convert?_none {type : PrimitiveType}
    (converted : type.convert? (.int n) = none) : type.instance? (.int n) =
      .error (.invalidValue type.qualifiedName (Json.int n).compact) := by
  rw [instance?, converted]
  rfl

/-- Integers of the range are taken as they are. -/
theorem convert?_int_of_contains (inside : width.contains n = true) :
    (integer width).convert? (.int n) = some (.integer ⟨width, n, inside⟩) := by
  have fits := IntegerType.int64_contains width n inside
  have seen : Coercion.integer? (width == .int64) (.int n) = some n := if_pos fits
  rw [convert?, seen, Option.bind_some, Primitive.ofInt?, TypedInteger.of?, dif_pos inside]
  rfl

theorem takesExactly_of_contains (inside : width.contains n = true) :
    (integer width).TakesExactly width.minValue width.maxValue n where
  taken _ _ := ⟨_, instance?_of_convert? (convert?_int_of_contains inside), rfl, rfl⟩
  refused outside := by
    have held := (IntegerType.contains_iff width n).1 inside
    omega

/-- Integers outside of the range are refused, but for those that are taken for the largest. -/
theorem convert?_int_of_not_contains (outside : ¬ width.contains n = true)
    (lower : -9223372036854775808 ≤ n) (upper : n < 18446744073709551616) :
    (integer width).convert? (.int n) =
      if width = .int64 ∧ n ≤ 9223372036854776832 then
        some (.integer ⟨.int64, IntegerType.int64.maxValue, by decide⟩)
      else none := by
  have refuses : ∀ other, ¬ width.contains other = true → Primitive.ofInt? width other = none := by
    intro other outside
    rw [Primitive.ofInt?, TypedInteger.of?, dif_neg outside]
    rfl
  rw [convert?, Coercion.integer?_int lower upper]
  by_cases fits : n ≤ IntegerType.int64.maxValue
  · have narrow : width ≠ .int64 := by
      rintro rfl
      exact outside ((IntegerType.contains_iff _ _).2 ⟨lower, fits⟩)
    rw [if_pos fits, if_neg fun both => narrow both.1]
    exact refuses n outside
  · rw [if_neg fits]
    by_cases close : n ≤ 9223372036854776832
    · rw [if_pos close, Option.bind_some]
      by_cases wide : width = .int64
      · subst wide
        rw [if_pos ⟨rfl, close⟩]
        rfl
      · rw [if_neg fun both => wide both.1]
        exact refuses _ (by cases width <;> first | decide | exact absurd rfl wide)
    · rw [if_neg close, if_neg fun both => close both.2]
      rfl

end

/-- Each type takes exactly the integers of its range, as they are; only the widest one takes 1025
integers beyond its range, all for the largest that it has. -/
theorem takesExactly_iff {type : PrimitiveType} {least greatest : Int}
    (ranged : type.integralRange? = some (least, greatest)) {n : Int}
    (lower : -9223372036854775808 ≤ n) (upper : n < 18446744073709551616) :
    (type.TakesExactly least greatest n ↔
      ¬ (type = integer .int64 ∧ greatest < n ∧ n ≤ greatest + 1025)) ∧
      (¬ type.TakesExactly least greatest n →
        ∃ value, type.instance? (.int n) = .ok (some value) ∧ value.int? = some greatest) := by
  cases type with
  | integer width =>
    obtain ⟨rfl, rfl⟩ : width.minValue = least ∧ width.maxValue = greatest := by
      cases ranged
      exact ⟨rfl, rfl⟩
    by_cases inside : width.contains n = true
    · have exactly := takesExactly_of_contains inside
      have held := (IntegerType.contains_iff width n).1 inside
      exact ⟨iff_of_true exactly fun beyond => by omega, fun misses => absurd exactly misses⟩
    · have outside := IntegerType.outside_of_not_contains inside
      have converted := convert?_int_of_not_contains inside lower upper
      by_cases close : width = .int64 ∧ n ≤ 9223372036854776832
      · obtain ⟨rfl, near⟩ := close
        rw [if_pos ⟨rfl, near⟩] at converted
        have answered := instance?_of_convert? converted
        have misses : ¬ TakesExactly (integer .int64) _ _ n := fun exactly => by
          have refused := exactly.refused outside
          rw [answered] at refused
          cases refused
        have beyond : IntegerType.int64.maxValue < n := outside.resolve_left (Int.not_lt.2 lower)
        exact ⟨iff_of_false misses (not_not.2 ⟨rfl, beyond, near⟩), fun _ => ⟨_, answered, rfl⟩⟩
      · rw [if_neg close] at converted
        have exactly : TakesExactly (integer width) width.minValue width.maxValue n :=
          ⟨fun least greatest => absurd outside (by omega),
            fun _ => instance?_of_convert?_none converted⟩
        refine ⟨iff_of_true exactly ?_, fun misses => absurd exactly misses⟩
        rintro ⟨wide, -, near⟩
        cases wide
        exact close ⟨rfl, near⟩
  | _ => cases ranged

/-- The last integer that is taken for the largest one, and the first behind it, which is refused. -/
theorem takesExactly_iff_beyond :
    (integer .int64).integralRange? = some (-9223372036854775808, 9223372036854775807) ∧
      (-9223372036854775808 ≤ (9223372036854776833 : Int) ∧
        (9223372036854776833 : Int) < 18446744073709551616) ∧
      (integer .int64).TakesExactly (-9223372036854775808) 9223372036854775807
        9223372036854776833 ∧
      ∃ value, (integer .int64).instance? (.int 9223372036854776832) = .ok (some value) ∧
        value.int? = some 9223372036854775807 := by
  have ranged : (integer .int64).integralRange? =
    some (-9223372036854775808, 9223372036854775807) := rfl
  refine ⟨ranged, by decide, ?_, ?_⟩
  · exact (takesExactly_iff ranged (by decide) (by decide)).1.2 (by decide)
  · have last := takesExactly_iff ranged (n := 9223372036854776832) (by decide) (by decide)
    exact last.2 fun exactly => last.1.1 exactly (by decide)

/-- The integer behind the largest one is not refused. -/
theorem not_takesExactly_successor :
    (integer .int64).integralRange? = some (-9223372036854775808, 9223372036854775807) ∧
      ¬ (integer .int64).TakesExactly (-9223372036854775808) 9223372036854775807
        9223372036854775808 := by
  refine ⟨rfl, fun exactly => ?_⟩
  have refused := exactly.refused (.inr (by decide))
  have answered : (integer .int64).instance? (.int 9223372036854775808) =
    .ok (some (.integer ⟨.int64, 9223372036854775807, by decide⟩)) := by rfl
  rw [answered] at refused
  cases refused

end PrimitiveType

end EdmQuery
