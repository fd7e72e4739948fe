import EdmQuery.Proofs.PathText

set_option autoImplicit false

namespace EdmQuery

namespace Filter

open Parsing Node

/-- The parsers of one level read a text back, up to what stands behind it. -/
structure ReadsBack (levels : Nat) (node : Node) : Prop where
  opens : ∃ first others, node.spell = first :: others ∧ isGap first = false ∧ first ≠ ')'
  unprefixed : node.isNegation = false → ∀ rest, Delimited rest →
    keyword? "not" (skipGap (node.spell ++ rest)) = none
  minus : node.isNegation = false → ∀ rest, Delimited rest →
    Filter.minus (nested levels) (node.spell ++ rest) = .ok (node.unresolved, rest)
  negation : ∀ rest, Delimited rest → Ends 3 rest →
    Filter.negation (nested levels) (node.spell ++ rest) = .ok (node.unresolved, rest)

section

variable {levels : Nat} {node : Node}

theorem ReadsBack.expression (back : ReadsBack levels node) {rest : List Char}
    (delimited : Delimited rest) (ends : Ends 1 rest) :
    Filter.expression (nested levels) (node.spell ++ rest) = .ok (node.unresolved, rest) :=
  expression_of_negation (back.negation rest delimited (ends.mono (by omega))) ends

/-- What is an operand of unary minus is also an operand of looser operators. -/
theorem ReadsBack.ofOperand
    (opens : ∃ first others, node.spell = first :: others ∧ isGap first = false ∧ first ≠ ')')
    (unprefixed : ∀ rest, Delimited rest → keyword? "not" (skipGap (node.spell ++ rest)) = none)
    (read : ∀ rest, Delimited rest →
      Filter.minus (nested levels) (node.spell ++ rest) = .ok (node.unresolved, rest)) :
    ReadsBack levels node where
  opens := opens
  unprefixed _ := unprefixed
  minus _ := read
  negation rest delimited ends :=
    negation_of_comparison (comparison_of_minus (read rest delimited) ends)
      (unprefixed rest delimited)

/-- A text that starts with a sign, a parenthesis, a quote or a digit. -/
theorem ReadsBack.ofSymbol (first : Char) {others : List Char}
    (spelled : node.spell = first :: others)
    (solid : isGap first = false) (notClose : first ≠ ')') (other : isNameStart first = false)
    (read : ∀ rest, Delimited rest →
      Filter.minus (nested levels) (node.spell ++ rest) = .ok (node.unresolved, rest)) :
    ReadsBack levels node := by
  refine .ofOperand ⟨first, others, spelled, solid, notClose⟩ ?_ read
  intro rest delimited
  apply keyword?_eq_none
  intro name behind word
  rw [spelled, List.cons_append, skipGap_cons solid, name?_eq_none other] at word
  cases word

/-- A text that starts with a word for a path or a call. -/
theorem ReadsBack.ofLeading {word : String} {tail : List Char}
    (leading : isLeadingWord word = true) (spelled : node.spell = word.toList ++ tail)
    (ends : ∀ rest, Delimited rest → EndsWord (tail ++ rest))
    (read : ∀ rest, Delimited rest →
      pathOrCall (nested levels) (node.spell ++ rest) = .ok (node.unresolved, rest)) :
    ReadsBack levels node := by
  obtain ⟨first, others, chars, start⟩ := isName_cons (isName_of_isLeadingWord leading)
  refine .ofOperand ⟨first, others ++ tail, ?_, isGap_of_nameStart start, ?_⟩ ?_ ?_
  · rw [spelled, chars, List.cons_append]
  · exact ne_of_nameStart start (by decide)
  · intro rest delimited
    rw [spelled, List.append_assoc]
    exact keyword?_not_of_leading leading (ends rest delimited)
  · intro rest delimited
    have same := read rest delimited
    rw [spelled, List.append_assoc] at same ⊢
    rw [minus_of_leading leading (ends rest delimited)]
    exact same

/-- What looks like a literal is one, or fails as one. -/
theorem minus_of_literal {deeper : Option Nested} {first : Char} {others : List Char}
    {parsed : Parse (Node × List Char)} (solid : isGap first = false) (noSign : first ≠ '-')
    (noGroup : first ≠ '(') (read : Literal.read? (first :: others) = some parsed) :
    Filter.minus deeper (first :: others) = parsed := by
  rw [Filter.minus, skipGap_cons solid]
  split
  · rename_i same
    cases same
    exact absurd rfl noSign
  · rw [primary, skipGap_cons solid]
    split
    · rename_i same
      cases same
      exact absurd rfl noGroup
    · rw [read]

/-- The word of a literal. -/
theorem ReadsBack.ofWord {word : String} (spelled : node.spell = word.toList)
    (same : node.unresolved = node) (named : isName word = true) (other : word ≠ "not")
    (listed : Literal.wordLiterals.lookup word = some node) : ReadsBack levels node := by
  obtain ⟨first, others, chars, start⟩ := isName_cons named
  refine .ofOperand ⟨first, others, ?_, isGap_of_nameStart start, ?_⟩ ?_ ?_
  · rw [spelled, chars]
  · exact ne_of_nameStart start (by decide)
  · intro rest delimited
    rw [spelled, skipGap_name named]
    apply keyword?_eq_none
    intro name behind read
    rw [name?_append named delimited.stopsAt_namePart] at read
    cases read
    exact other
  · intro rest delimited
    have read : Literal.read? (word.toList ++ rest) = some (.ok (node, rest)) := by
      rw [Literal.read?, Literal.word?_of_name (name?_append named delimited.stopsAt_namePart),
        listed]
      rfl
    rw [spelled, same]
    rw [chars, List.cons_append] at read ⊢
    exact minus_of_literal (isGap_of_nameStart start) (ne_of_nameStart start (by decide))
      (ne_of_nameStart start (by decide)) read

theorem readsBack_null : ReadsBack levels .null :=
  .ofWord rfl rfl (by decide) (by decide) rfl

theorem readsBack_boolean (value : Bool) : ReadsBack levels (.literal (.boolean value)) := by
  cases value
  · exact .ofWord rfl rfl (by decide) (by decide) rfl
  · exact .ofWord rfl rfl (by decide) (by decide) rfl

theorem readsBack_string (value : String) : ReadsBack levels (.literal (.string value)) := by
  refine .ofSymbol '\'' rfl (by decide) (by decide) (by decide) ?_
  intro rest delimited
  have read := Literal.read?_quoteLiteral value (delimited.head_ne (by decide))
  exact minus_of_literal (by decide) (by decide) (by decide) read

theorem isGap_of_digit {char : Char} (digit : isAsciiDigit char = true) : isGap char = false := by
  have codes : ∀ code < 128, isAsciiDigit (Char.ofNat code) = true →
      isGap (Char.ofNat code) = false := by decide
  exact forall_ascii (fun char => isAsciiDigit char = true → isGap char = false) codes char
    (toNat_lt_of_isAsciiDigit digit) digit

theorem ne_of_digit {char other : Char} (digit : isAsciiDigit char = true)
    (noDigit : isAsciiDigit other = false) : char ≠ other := by
  rintro rfl
  simp [digit] at noDigit

/-- Digits are an operand, the number that they denote. -/
theorem minus_of_digits {deeper : Option Nested} {digits rest : List Char} {value : Primitive}
    (nonempty : digits ≠ []) (digit : ∀ char ∈ digits, isAsciiDigit char = true)
    (delimited : Delimited rest)
    (fits : Literal.NumberToken.value? ⟨digits, none, none⟩ = some value) :
    Filter.minus deeper (digits ++ rest) = .ok (.literal value, rest) := by
  have read := Literal.read?_whole nonempty digit delimited fits
  obtain ⟨first, others, rfl⟩ := List.exists_cons_of_ne_nil nonempty
  have atFirst := digit first List.mem_cons_self
  apply minus_of_literal (isGap_of_digit atFirst)
  · exact ne_of_digit atFirst (by decide)
  · exact ne_of_digit atFirst (by decide)
  · exact read

/-- A natural number that is written as a literal of its type. -/
theorem readsBack_natural {value : Primitive} (number : Nat)
    (spelled : value.spellLiteral = Nat.toDigits 10 number)
    (fits : Literal.NumberToken.value? ⟨Nat.toDigits 10 number, none, none⟩ = some value) :
    ReadsBack levels (.literal value) := by
  have digit : ∀ char ∈ Nat.toDigits 10 number, isAsciiDigit char = true :=
    fun _ inside => isAsciiDigit_of_mem_toDigits inside
  obtain ⟨first, others, chars⟩ :=
    List.exists_cons_of_ne_nil (Nat.toDigits_ne_nil (b := 10) (n := number))
  have atFirst : isAsciiDigit first = true := by
    apply digit
    rw [chars]
    exact List.mem_cons_self
  refine .ofSymbol first (spelled.trans chars) (isGap_of_digit atFirst)
    (ne_of_digit atFirst (by decide)) (isNameStart_of_digit atFirst) ?_
  intro rest delimited
  show Filter.minus (nested levels) (value.spellLiteral ++ rest) = .ok (.literal value, rest)
  rw [spelled]
  exact minus_of_digits Nat.toDigits_ne_nil digit delimited fits

theorem toString_natCast_toList (number : Nat) :
    (toString (number : Int)).toList = Nat.toDigits 10 number :=
  toString_toList number

theorem ofInt?_eq_some {width : IntegerType} {value : Int} (inside : width.contains value = true) :
    Primitive.ofInt? width value = some (.integer ⟨width, value, inside⟩) := by
  rw [Primitive.ofInt?, TypedInteger.of?, dif_pos inside]
  rfl

theorem ofInt?_eq_none {width : IntegerType} {value : Int}
    (outside : ¬ width.contains value = true) : Primitive.ofInt? width value = none := by
  rw [Primitive.ofInt?, TypedInteger.of?, dif_neg outside]
  rfl

theorem readsBack_int32 {value : Int} (inside : IntegerType.int32.contains value = true)
    (natural : 0 ≤ value) : ReadsBack levels (.literal (.integer ⟨.int32, value, inside⟩)) := by
  obtain ⟨number, rfl⟩ := Int.eq_ofNat_of_zero_le natural
  refine readsBack_natural number ?_ ?_
  · exact toString_natCast_toList number
  · simp only [Literal.NumberToken.value?, digitsValue_toDigits, Primitive.int32?,
      ofInt?_eq_some inside, Option.some_or]

/-- A larger integer is read as one of 64 bits only if it has too many for 32. -/
theorem readsBack_int64 {value : Int} (inside : IntegerType.int64.contains value = true)
    (large : IntegerType.int32.maxValue < value) :
    ReadsBack levels (.literal (.integer ⟨.int64, value, inside⟩)) := by
  have outside : ¬ IntegerType.int32.contains value = true := by
    rw [IntegerType.contains_iff]
    omega
  have natural : 0 ≤ value := by
    have bound : IntegerType.int32.maxValue = 2147483647 := rfl
    omega
  obtain ⟨number, rfl⟩ := Int.eq_ofNat_of_zero_le natural
  refine readsBack_natural number ?_ ?_
  · exact toString_natCast_toList number
  · simp only [Literal.NumberToken.value?, digitsValue_toDigits, Primitive.int32?,
      Primitive.int64?, ofInt?_eq_none outside, ofInt?_eq_some inside, Option.none_or,
      Option.some_or]

theorem readsBack_literal {value : Primitive} (printable : value.isPrintable = true) :
    ReadsBack levels (.literal value) := by
  cases value with
  | boolean value => exact readsBack_boolean value
  | string value => exact readsBack_string value
  | integer value =>
    obtain ⟨width, number, inside⟩ := value
    cases width with
    | int32 => exact readsBack_int32 inside (of_decide_eq_true printable)
    | int64 => exact readsBack_int64 inside (of_decide_eq_true printable)
    | _ => cases printable
  | _ => cases printable

/-- A path, and a reference to a variable that is spelled like one. -/
theorem readsBack_path {path : PropertyPath} {scope : List String}
    (printable : isPrintablePath scope path = true) (spelled : node.spell = path.spell)
    (same : node.unresolved = .property path) : ReadsBack levels node := by
  obtain ⟨word, segments, leading, split⟩ := spell_path printable
  refine .ofLeading leading (spelled.trans split) ?_ ?_
  · intro rest delimited
    exact endsWord_segments segments delimited.endsWord
  · intro rest delimited
    obtain ⟨fuel, -, read⟩ := pathOrCall_path (nested levels) printable
      delimited.endsWord (delimited.head_ne (by decide))
    rw [spelled, same, read, pathRest_end fuel path delimited]

/-- Every reference is spelled like a path, since names of variables are free. -/
theorem reference_path {scope : List String} (free : ∀ name ∈ scope, isFreeName name = true)
    (reference : node.isReference = true) (printable : node.isPrintable scope = true) :
    ∃ path, isPrintablePath [] path = true ∧ node.spell = path.spell ∧
      node.unresolved = .property path := by
  cases node with
  | property path =>
    refine ⟨path, ?_, rfl, rfl⟩
    obtain ⟨segments⟩ := path
    cases segments with
    | nil => rfl
    | cons first others =>
      simp only [isPrintable, isPrintablePath, Bool.and_eq_true] at printable
      simp only [isPrintablePath, Bool.and_eq_true, List.contains_nil, Bool.not_false]
      exact ⟨⟨printable.1.1, trivial⟩, printable.2⟩
  | ofVariable name path =>
    rw [isPrintable, isPrintableVariable, Bool.and_eq_true] at printable
    have inScope : name ∈ scope := List.contains_iff_mem.1 printable.1
    refine ⟨⟨name :: path.segments⟩, ?_, ?_, rfl⟩
    · simp only [isPrintablePath, Bool.and_eq_true, List.contains_nil, Bool.not_false]
      exact ⟨⟨free name inScope, trivial⟩, printable.2⟩
    · rw [spell, spellVariable_eq, PropertyPath.spell,
        if_neg (List.cons_ne_nil name path.segments), joinSlashes_cons]
  | _ => cases reference

end

end Filter

end EdmQuery
