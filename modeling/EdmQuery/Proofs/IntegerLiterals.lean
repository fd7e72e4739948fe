import EdmQuery.Proofs.DecimalText
import EdmQuery.Proofs.FilterText

set_option autoImplicit false

namespace EdmQuery

section

variable {digits : List Char}

namespace Decimal

/-- Digits before the point that no longer fit are not rounded, but end the reading. -/
theorem readUnsigned?_eq_none (negative started : Bool) {mantissa : Nat}
    (digit : ∀ char ∈ digits, isAsciiDigit char = true) (fits : mantissa < mantissaLimit)
    (tooLarge : mantissaLimit ≤ digitsValueFrom mantissa digits) :
    readUnsigned? ⟨negative, false, started, mantissa, 0⟩ digits = none := by
  induction digits generalizing mantissa started with
  | nil => exact absurd fits (Nat.not_lt.2 tooLarge)
  | cons char others ih =>
    have value := digitValue?_of_isAsciiDigit (digit char List.mem_cons_self)
    have later : ∀ other ∈ others, isAsciiDigit other = true :=
      fun other inside => digit other (List.mem_cons_of_mem char inside)
    rw [readUnsigned?]
    simp only [Bool.false_and, Bool.false_eq_true, if_false, value]
    split
    · rename_i next
      exact ih true later next tooLarge
    · rfl

/-- The number that digits denote is read unless it is out of range. -/
theorem read?_eq_ofParts? (nonempty : digits ≠ [])
    (digit : ∀ char ∈ digits, isAsciiDigit char = true) :
    read? digits = ofParts? false (digitsValue digits) 0 := by
  by_cases fits : digitsValue digits < mantissaLimit
  · exact read?_digits nonempty digit fits
  · have tooLarge := readUnsigned?_eq_none false false digit (by decide) (Nat.not_lt.1 fits)
    have outside : ofParts? false (digitsValue digits) 0 = none :=
      dif_neg fun inside => fits inside.1
    obtain ⟨char, rest, rfl⟩ := List.exists_cons_of_ne_nil nonempty
    rw [read?_unsigned (digit char List.mem_cons_self), tooLarge, outside]

end Decimal

/-- A natural number is in the range of a type if it is not too large for it. -/
theorem IntegerType.contains_natCast_iff (width : IntegerType) (number : Nat) :
    width.contains number = true ↔ (number : Int) ≤ width.maxValue := by
  have least : width.minValue ≤ 0 := by cases width <;> decide
  rw [contains_iff]
  omega

namespace Primitive

/-- A natural number in the smallest type that holds it. -/
def ofNatural? (number : Nat) : Option Primitive :=
  (int32? number).or ((int64? number).or ((Decimal.ofParts? false number 0).map .decimal))

section

variable {number : Nat}

theorem ofNatural?_int32 (small : number ≤ 2 ^ 31 - 1) :
    ∃ inside, ofNatural? number = some (.integer ⟨.int32, number, inside⟩) := by
  have inside : IntegerType.int32.contains number = true :=
    (IntegerType.int32.contains_natCast_iff number).2 (Int.ofNat_le.2 small)
  refine ⟨inside, ?_⟩
  rw [ofNatural?, int32?, Filter.ofInt?_eq_some inside, Option.some_or]

theorem int32?_eq_none (large : 2 ^ 31 - 1 < number) : int32? number = none := by
  apply Filter.ofInt?_eq_none
  rw [IntegerType.contains_natCast_iff]
  exact Int.not_le.2 (Int.ofNat_lt.2 large)

theorem ofNatural?_int64 (large : 2 ^ 31 - 1 < number) (small : number ≤ 2 ^ 63 - 1) :
    ∃ inside, ofNatural? number = some (.integer ⟨.int64, number, inside⟩) := by
  have inside : IntegerType.int64.contains number = true :=
    (IntegerType.int64.contains_natCast_iff number).2 (Int.ofNat_le.2 small)
  refine ⟨inside, ?_⟩
  rw [ofNatural?, int32?_eq_none large, Option.none_or, int64?, Filter.ofInt?_eq_some inside,
    Option.some_or]

/-- Beyond all integers there are only decimals. -/
theorem ofNatural?_wide (large : 2 ^ 63 - 1 < number) :
    ofNatural? number = (Decimal.ofParts? false number 0).map .decimal := by
  have none : int64? number = none := by
    apply Filter.ofInt?_eq_none
    rw [IntegerType.contains_natCast_iff]
    exact Int.not_le.2 (Int.ofNat_lt.2 large)
  rw [ofNatural?, int32?_eq_none (Nat.lt_trans (by decide) large), none, Option.none_or,
    Option.none_or]

theorem ofNatural?_decimal (large : 2 ^ 63 - 1 < number) (small : number ≤ 2 ^ 96 - 1) :
    ∃ fits, ofNatural? number = some (.decimal ⟨false, number, 0, fits, by decide⟩) := by
  have fits : number < Nat.pow 2 96 := Nat.lt_of_le_of_lt small (by decide)
  refine ⟨fits, ?_⟩
  rw [ofNatural?_wide large, Decimal.ofParts?, dif_pos ⟨fits, by decide⟩]
  rfl

theorem ofNatural?_eq_none (tooLarge : 2 ^ 96 - 1 < number) : ofNatural? number = none := by
  have outside : ¬ number < Nat.pow 2 96 := by
    have limit : Nat.pow 2 96 = 2 ^ 96 - 1 + 1 := by decide
    omega
  rw [ofNatural?_wide (Nat.lt_trans (by decide) tooLarge), Decimal.ofParts?,
    dif_neg fun inside => outside inside.1]
  rfl

end

end Primitive

namespace Literal

open Parsing

theorem value?_digits (nonempty : digits ≠ [])
    (digit : ∀ char ∈ digits, isAsciiDigit char = true) :
    NumberToken.value? ⟨digits, none, none⟩ = Primitive.ofNatural? (digitsValue digits) := by
  rw [NumberToken.value?, Primitive.ofNatural?, Decimal.read?_eq_ofParts? nonempty digit]

/-- Digits are a number and nothing else, whether or not a type holds it. -/
theorem read?_digits (nonempty : digits ≠ [])
    (digit : ∀ char ∈ digits, isAsciiDigit char = true) :
    read? digits = some (match Primitive.ofNatural? (digitsValue digits) with
      | some value => .ok (.literal value, [])
      | none => .error ⟨.invalidLiteral, digits⟩) := by
  have absent : ∀ char, isAsciiDigit char = false → char ∉ digits.takeWhile isTokenChar := by
    intro char noDigit inside
    rw [digit char ((List.takeWhile_sublist _).subset inside)] at noDigit
    cases noDigit
  have token := numberToken?_whole nonempty digit delimited_nil
  have value := value?_digits nonempty digit
  have noHyphen := absent '-' (by decide)
  have noColon := absent ':' (by decide)
  rw [List.append_nil] at token
  obtain ⟨first, others, rfl⟩ := List.exists_cons_of_ne_nil nonempty
  rw [read?_eq_number? (digit first List.mem_cons_self) noHyphen noColon, number?, token]
  simp only [Option.map_some, value]
  cases Primitive.ofNatural? (digitsValue (first :: others)) with
  | none => rfl
  | some value => rfl

end Literal

end

namespace Filter

open Parsing

/-- The filter of a text of digits. -/
theorem ofText_digits {source : String} (nonempty : source.toList ≠ [])
    (digit : ∀ char ∈ source.toList, isAsciiDigit char = true) :
    ofText source = match Primitive.ofNatural? (digitsValue source.toList) with
      | some value => .ok (.literal value)
      | none => .error (failureError .syntaxError source ⟨.invalidLiteral, source.toList⟩) := by
  have read := Literal.read?_digits nonempty digit
  obtain ⟨first, others, chars⟩ := List.exists_cons_of_ne_nil nonempty
  have atFirst : isAsciiDigit first = true := by
    apply digit
    rw [chars]
    exact List.mem_cons_self
  have solid := isGap_of_digit atFirst
  have noGroup : first ≠ '(' := ne_of_digit atFirst (by decide)
  have noSign : first ≠ '-' := ne_of_digit atFirst (by decide)
  have unprefixed : keyword? "not" (skipGap source.toList) = none := by
    rw [chars, skipGap_cons solid, keyword?, name?_eq_none (isNameStart_of_digit atFirst)]
    rfl
  rw [chars] at read
  have operand : minus (nested maxDepth) (first :: others) = _ :=
    minus_of_literal solid noSign noGroup read
  rw [← chars] at operand
  cases value : Primitive.ofNatural? (digitsValue source.toList) with
  | some number =>
    rw [value] at operand
    have parsed := ofText_of_expression (expression_of_comparison
      (comparison_of_minus operand (ends_nil 3)) unprefixed (ends_nil 1))
    rwa [String.ofList_toList] at parsed
  | none =>
    rw [value] at operand
    rw [ofText, complete, topExpression, expression_of_error operand unprefixed]
    rfl

/-- A filter of decimal digits is the number that they denote, of the smallest type that holds it.
One that no type holds is an invalid literal. -/
theorem ofText_of_isDigit {source : String} (nonempty : source ≠ "")
    (digit : ∀ char ∈ source.toList, char.isDigit = true) :
    let number := Nat.ofDigitChars 10 source.toList 0
    (number ≤ 2 ^ 31 - 1 → ∃ inside,
      ofText source = .ok (.literal (.integer ⟨.int32, number, inside⟩))) ∧
    (2 ^ 31 - 1 < number → number ≤ 2 ^ 63 - 1 → ∃ inside,
      ofText source = .ok (.literal (.integer ⟨.int64, number, inside⟩))) ∧
    (2 ^ 63 - 1 < number → number ≤ 2 ^ 96 - 1 → ∃ fits,
      ofText source = .ok (.literal (.decimal ⟨false, number, 0, fits, by decide⟩))) ∧
    (2 ^ 96 - 1 < number → ∃ error,
      ofText source = .error error ∧ error.code = .invalidLiteral) := by
  have chars : source.toList ≠ [] := fun none => nonempty (String.toList_eq_nil_iff.1 none)
  have parsed := ofText_digits chars fun char inside =>
    (isAsciiDigit_eq_isDigit char).trans (digit char inside)
  rw [digitsValue_eq_ofDigitChars] at parsed
  intro number
  refine ⟨fun small => ?_, fun large small => ?_, fun large small => ?_, fun tooLarge => ?_⟩
  · obtain ⟨inside, value⟩ := Primitive.ofNatural?_int32 small
    exact ⟨inside, by rw [parsed, value]⟩
  · obtain ⟨inside, value⟩ := Primitive.ofNatural?_int64 large small
    exact ⟨inside, by rw [parsed, value]⟩
  · obtain ⟨fits, value⟩ := Primitive.ofNatural?_decimal large small
    exact ⟨fits, by rw [parsed, value]⟩
  · exact ⟨_, by rw [parsed, Primitive.ofNatural?_eq_none tooLarge], rfl⟩

/-- One more than the largest integer, behind some zeros. -/
theorem ofText_of_isDigit_wide :
    "009223372036854775808" ≠ "" ∧
      (∀ char ∈ "009223372036854775808".toList, char.isDigit = true) ∧
      ∃ fits, ofText "009223372036854775808" =
        .ok (.literal (.decimal ⟨false, 9223372036854775808, 0, fits, by decide⟩)) := by
  have digit : ∀ char ∈ "009223372036854775808".toList, char.isDigit = true :=
    List.all_eq_true.1 (by decide)
  exact ⟨by decide, digit, (ofText_of_isDigit (by decide) digit).2.2.1 (by decide) (by decide)⟩

end Filter

end EdmQuery
