import EdmQuery.Proofs.FilterText
import EdmQuery.Proofs.ParsedTrees
import EdmQuery.Proofs.TemporalText
import EdmQuery.Service.Basic

set_option autoImplicit false

namespace EdmQuery

namespace Literal

open Parsing

section

variable {value : Primitive} {first : Char} {others rest : List Char}

theorem read?_of_temporal (word : word? (first :: others) = none)
    (binary : binary? (first :: others) = none) (noQuote : first ≠ '\'')
    (temporal : temporal? (first :: others) = some (.ok (value, rest))) :
    read? (first :: others) = some (.ok (.literal value, rest)) := by
  rw [read?, word, binary, string?_eq_none noQuote, temporal]
  rfl

end

theorem binary?_encode (bytes : List UInt8) :
    binary? ("binary'".toList ++ ((Base64.encode bytes).toList ++ ['\''])) =
      some (.ok (.binary bytes, [])) := by
  have token : (Base64.encode bytes).toList = Base64.encodeWith Base64.urlSafe bytes :=
    String.toList_ofList
  have converted : PrimitiveType.binary.convert?
      (.string (String.ofList (Base64.encodeWith Base64.urlSafe bytes))) =
        some (.binary bytes) := by
    simp only [PrimitiveType.convert?, Json.string?, Option.bind_some, String.toList_ofList,
      Base64.decode?_encodeWith, Option.map_some]
  rw [token, binary?_append (Base64.quote_not_mem_encodeWith bytes), valueOf, converted]

end Literal

namespace Filter

open Parsing

section

variable {value : Primitive} {first : Char} {others : List Char}

/-- A text that is one literal is the filter of that literal. -/
theorem ofText_of_read (solid : isGap first = false) (noSign : first ≠ '-') (noGroup : first ≠ '(')
    (unprefixed : keyword? "not" (first :: others) = none)
    (read : Literal.read? (first :: others) = some (.ok (.literal value, []))) :
    ofText (String.ofList (first :: others)) = .ok (.literal value) := by
  have operand : minus (nested maxDepth) (first :: others) = .ok (.literal value, []) :=
    minus_of_literal solid noSign noGroup read
  have unprefixedHere : keyword? "not" (skipGap (first :: others)) = none := by
    rw [skipGap_cons solid]
    exact unprefixed
  exact ofText_of_expression (expression_of_comparison (comparison_of_minus operand (ends_nil 3))
    unprefixedHere (ends_nil 1))

end

end Filter

namespace Service

open Parsing

section

variable {value : Primitive} {text : List Char}

theorem keyOfText_of_ofText (read : Filter.ofText (String.ofList text) = .ok (.literal value)) :
    keyOfText (String.ofList text) = .ok value := by
  rw [keyOfText, read]
  rfl

/-- A literal that starts with a digit. -/
theorem keyOfText_of_digit {first : Char} {others : List Char} (spelled : text = first :: others)
    (digit : isAsciiDigit first = true)
    (read : Literal.read? text = some (.ok (.literal value, []))) :
    keyOfText (String.ofList text) = .ok value := by
  subst spelled
  have other : ∀ {char : Char}, isAsciiDigit char = false → first ≠ char := by
    rintro char noDigit rfl
    rw [digit] at noDigit
    cases noDigit
  have solid : isGap first = false := by
    rw [isGap]
    simp only [Bool.or_eq_false_iff, decide_eq_false_iff_not]
    exact ⟨⟨⟨other (by decide), other (by decide)⟩, other (by decide)⟩, other (by decide)⟩
  have unprefixed : keyword? "not" (first :: others) = none := by
    rw [keyword?, name?_eq_none (isNameStart_of_digit digit)]
    rfl
  exact keyOfText_of_ofText (Filter.ofText_of_read solid (other (by decide)) (other (by decide))
    unprefixed read)

/-- A literal that starts with a word. -/
theorem keyOfText_of_name {word : String} {rest : List Char} (spelled : text = word.toList ++ rest)
    (named : isName word = true) (other : word ≠ "not") (stops : StopsAt isNamePart rest)
    (read : Literal.read? text = some (.ok (.literal value, []))) :
    keyOfText (String.ofList text) = .ok value := by
  have unprefixed : keyword? "not" text = none := by
    apply keyword?_eq_none
    intro name behind found
    rw [spelled, name?_append named stops] at found
    cases found
    exact other
  obtain ⟨first, others, chars, start⟩ := isName_cons named
  rw [chars, List.cons_append] at spelled
  subst spelled
  exact keyOfText_of_ofText (Filter.ofText_of_read (isGap_of_nameStart start)
    (ne_of_nameStart start (by decide)) (ne_of_nameStart start (by decide)) unprefixed read)

/-- The words of literals and operators have less than eight characters. A longer name in front of a
hyphen is taken for what its whole token says. -/
theorem keyOfText_of_longName {word : String} {rest : List Char}
    (spelled : text = word.toList ++ '-' :: rest) (named : isName word = true)
    (long : 8 ≤ word.length) (temporal : Literal.temporal? text = some (.ok (value, []))) :
    keyOfText (String.ofList text) = .ok value := by
  have other : ∀ name : String, name.length < 8 → word ≠ name := by
    rintro name short rfl
    omega
  have stops : StopsAt isNamePart ('-' :: rest) := stopsAt_cons (by decide)
  have found := name?_append named stops
  rw [← spelled] at found
  have noWord : Literal.wordLiterals.lookup word = none := by
    rw [List.lookup_eq_none_iff]
    intro entry inside
    rw [bne_iff_ne]
    have short : ∀ entry ∈ Literal.wordLiterals, entry.1.length < 8 := by decide
    exact other entry.1 (short entry inside)
  have unknown : Literal.word? text = none := by
    rw [Literal.word?_of_name found, noWord]
    rfl
  have binary := Literal.binary?_eq_none_of_name found (fun tail same => by cases same)
  refine keyOfText_of_name spelled named (other "not" (by decide)) stops ?_
  obtain ⟨first, others, chars, start⟩ := isName_cons named
  rw [spelled, chars, List.cons_append] at unknown binary temporal ⊢
  exact Literal.read?_of_temporal unknown binary (ne_of_nameStart start (by decide)) temporal

/-- Literals that filters read back wherever they stand are also read back as keys. -/
theorem keyOfText_of_readsBack (back : Filter.ReadsBack maxDepth (.literal value)) :
    keyOfText (String.ofList value.spellLiteral) = .ok value := by
  have read := back.expression delimited_nil (Filter.ends_nil 1)
  rw [List.append_nil] at read
  exact keyOfText_of_ofText (Filter.ofText_of_expression read)

end

end Service

namespace Primitive

open Parsing Service

/-- Numbers in a binary format. Their texts in literals are those of decimal numbers. -/
def isBinaryNumber : Primitive → Bool
  | single _ | double _ => true
  | _ => false

/-- The text of the value starts without a sign: a number is not negative, and a year has at most
four digits. -/
def isUnsigned : Primitive → Bool
  | integer value => 0 ≤ value.value
  | decimal value => !value.negative
  | date value => value.isPlain
  | dateTimeOffset value => value.date.isPlain
  | _ => true

theorem compareBytes_self (bytes : List UInt8) : compareBytes bytes bytes = .eq := by
  induction bytes with
  | nil => rfl
  | cons first rest ih =>
    have same : compare first.toNat first.toNat = .eq := Std.ReflCmp.compare_self
    rw [compareBytes, same, ih]
    rfl

/-- Every value but a binary number equals itself. -/
theorem equals?_self {value : Primitive} (exact : value.isBinaryNumber = false) :
    value.equals? value = some true := by
  have order : value.compare? value = some .eq := by
    cases value with
    | boolean value => exact congrArg some Std.ReflCmp.compare_self
    | integer value => exact congrArg some Std.ReflCmp.compare_self
    | single value => cases exact
    | double value => cases exact
    | decimal value => exact congrArg some value.compare_self
    | string value => exact congrArg some Std.ReflCmp.compare_self
    | guid value =>
      have same : compare value.value value.value = .eq := Std.ReflCmp.compare_self
      exact congrArg some same
    | date value =>
      have same : compare value.toDays value.toDays = .eq := Std.ReflCmp.compare_self
      exact congrArg some same
    | dateTimeOffset value =>
      have seconds : compare value.toSeconds value.toSeconds = .eq := Std.ReflCmp.compare_self
      have nanos : compare value.time.nanosecond value.time.nanosecond = .eq :=
        Std.ReflCmp.compare_self
      show some (value.compare value) = some .eq
      rw [DateTimeOffset.compare, seconds, nanos]
      rfl
    | timeOfDay value =>
      have seconds : compare value.secondOfDay value.secondOfDay = .eq := Std.ReflCmp.compare_self
      have nanos : compare value.nanosecond value.nanosecond = .eq := Std.ReflCmp.compare_self
      show some (value.compare value) = some .eq
      rw [TimeOfDay.compare, seconds, nanos]
      rfl
    | binary bytes => exact congrArg some (compareBytes_self bytes)
  rw [equals?, order]
  rfl

/-- A natural number is read back in the width that its digits suggest. -/
theorem readsBack_of_natural {value : TypedInteger} (natural : 0 ≤ value.value) :
    ∃ read, keyOfText (integer value).keyLiteral = .ok read ∧
      (integer value).equals? read = some true := by
  obtain ⟨width, number, inside⟩ := value
  have within := IntegerType.int64_contains width number inside
  have equal : ∀ other : TypedInteger, other.value = number →
      (integer ⟨width, number, inside⟩).equals? (integer other) = some true := by
    rintro other rfl
    have same : compare other.value other.value = .eq := Std.ReflCmp.compare_self
    show some (compare other.value other.value == .eq) = some true
    rw [same]
    rfl
  by_cases large : IntegerType.int32.maxValue < number
  · refine ⟨integer ⟨.int64, number, within⟩, ?_, equal _ rfl⟩
    exact keyOfText_of_readsBack (Filter.readsBack_int64 within large)
  · have small : IntegerType.int32.contains number = true := by
      have least : IntegerType.int32.minValue = -2147483648 := rfl
      have lower : 0 ≤ number := natural
      rw [IntegerType.contains_iff]
      omega
    refine ⟨integer ⟨.int32, number, small⟩, ?_, equal _ rfl⟩
    exact keyOfText_of_readsBack (Filter.readsBack_int32 small natural)

/-- A decimal number without places equals the integer of the same digits. -/
theorem equals?_integer {value : Decimal} (natural : value.negative = false)
    (whole : value.scale = 0) (width : IntegerType)
    (inside : width.contains value.mantissa = true) :
    (decimal value).equals? (integer ⟨width, value.mantissa, inside⟩) = some true := by
  have promoted : Decimal.ofInt64 (value.mantissa : Int) = value := by
    have sign : decide ((value.mantissa : Int) < 0) = false := decide_eq_false (by omega)
    have parts := value.ofParts?_of_natural natural
    rw [whole] at parts
    rw [Decimal.ofInt64, Decimal.ofInt?, sign, Int.natAbs_natCast, parts, Option.getD_some]
  show some (value.compare (Decimal.ofInt64 value.mantissa) == .eq) = some true
  rw [promoted, value.compare_self]
  rfl

/-- Digits without a point are taken for the smallest number that holds them. -/
theorem value?_of_whole {value : Decimal} (natural : value.negative = false)
    (whole : value.scale = 0) :
    ∃ read, Literal.NumberToken.value? ⟨value.wholeDigits, none, none⟩ = some read ∧
      (decimal value).equals? read = some true := by
  have mantissa : digitsValue value.wholeDigits = value.mantissa := by
    have noPlaces : value.placeDigits = [] := by
      rw [← List.length_eq_zero_iff, value.length_placeDigits, whole]
    have padded := value.digitsValue_padded
    rwa [noPlaces, List.append_nil] at padded
  have plain : Decimal.read? value.wholeDigits = some value := by
    rw [Decimal.read?_digits value.wholeDigits_ne_nil
      (fun _ => value.isAsciiDigit_of_mem_wholeDigits) (mantissa ▸ value.mantissa_lt),
      mantissa, ← whole, value.ofParts?_of_natural natural]
  simp only [Literal.NumberToken.value?, mantissa, plain, int32?, int64?, Option.map_some]
  by_cases small : IntegerType.int32.contains value.mantissa = true
  · refine ⟨_, ?_, equals?_integer natural whole _ small⟩
    rw [Filter.ofInt?_eq_some small, Option.some_or]
  by_cases large : IntegerType.int64.contains value.mantissa = true
  · refine ⟨_, ?_, equals?_integer natural whole _ large⟩
    rw [Filter.ofInt?_eq_none small, Filter.ofInt?_eq_some large, Option.none_or, Option.some_or]
  · refine ⟨decimal value, ?_, equals?_self rfl⟩
    rw [Filter.ofInt?_eq_none small, Filter.ofInt?_eq_none large, Option.none_or, Option.none_or]

/-- A decimal number is read back, one without places possibly as an integer. -/
theorem readsBack_of_decimal {value : Decimal} (natural : value.negative = false) :
    ∃ read, keyOfText (decimal value).keyLiteral = .ok read ∧
      (decimal value).equals? read = some true := by
  have digit : ∀ char ∈ value.wholeDigits, isAsciiDigit char = true :=
    fun _ => value.isAsciiDigit_of_mem_wholeDigits
  have place : ∀ char ∈ value.placeDigits, isAsciiDigit char = true :=
    fun _ => value.isAsciiDigit_of_mem_placeDigits
  obtain ⟨first, others, spelled⟩ := List.exists_cons_of_ne_nil value.wholeDigits_ne_nil
  have firstDigit : isAsciiDigit first = true := by
    apply digit
    rw [spelled]
    exact List.mem_cons_self
  have text : (decimal value).spellLiteral =
      value.wholeDigits ++ if value.scale = 0 then [] else '.' :: value.placeDigits := by
    show value.render.toList = _
    rw [value.toList_render, natural]
    rfl
  rw [keyLiteral, text]
  by_cases whole : value.scale = 0
  · rw [if_pos whole]
    obtain ⟨read, fits, equal⟩ := value?_of_whole natural whole
    have literal := Literal.read?_whole value.wholeDigits_ne_nil digit delimited_nil fits
    rw [List.append_nil] at literal ⊢
    exact ⟨read, keyOfText_of_digit spelled firstDigit literal, equal⟩
  · rw [if_neg whole]
    have somePlaces : value.placeDigits ≠ [] := by
      rw [← List.length_pos_iff, value.length_placeDigits]
      omega
    have fits : Literal.NumberToken.value? ⟨value.wholeDigits, some value.placeDigits, none⟩ =
        some (decimal value) := by
      simp only [Literal.NumberToken.value?, value.read?_render_of_places natural,
        Option.map_some]
    have literal := Literal.read?_places value.wholeDigits_ne_nil digit somePlaces place
      delimited_nil fits
    rw [List.append_nil] at literal
    have start : value.wholeDigits ++ '.' :: value.placeDigits =
        first :: (others ++ '.' :: value.placeDigits) := by
      rw [spelled, List.cons_append]
    exact ⟨decimal value, keyOfText_of_digit start firstDigit literal, equals?_self rfl⟩

/-- Dates and times start with a digit. -/
theorem keyOfText_of_temporal {value : Primitive} {width number : Nat} {rest : List Char}
    (fits : number < 10 ^ width) (wide : 0 < width)
    (spelled : value.spellLiteral = (padNat width number).toList ++ rest)
    (temporal : Literal.temporal? value.spellLiteral = some (.ok (value, []))) :
    keyOfText value.keyLiteral = .ok value := by
  obtain ⟨first, others, chars, digit⟩ := padNat_cons fits wide
  have start : value.spellLiteral = first :: (others ++ rest) := by
    rw [spelled, chars, List.cons_append]
  have noB : first ≠ 'b' := by
    rintro rfl
    cases digit
  have noQuote : first ≠ '\'' := by
    rintro rfl
    cases digit
  rw [start] at temporal
  have read := Literal.read?_of_temporal (Literal.word?_eq_none (isNameStart_of_digit digit) _)
    (Literal.binary?_eq_none noB _) noQuote temporal
  rw [← start] at read
  exact keyOfText_of_digit start digit read

theorem keyOfText_date {date : Date} (plain : date.isPlain = true) :
    keyOfText (Primitive.date date).keyLiteral = .ok (.date date) := by
  have years := date.isPlain_iff.1 plain
  have year : date.year.toNat < 10 ^ 4 := by omega
  exact keyOfText_of_temporal year (by decide) (date.toList_render_of_isPlain plain)
    (Literal.temporal?_date plain)

theorem keyOfText_moment {moment : DateTimeOffset} (plain : moment.date.isPlain = true) :
    keyOfText (dateTimeOffset moment).keyLiteral = .ok (.dateTimeOffset moment) := by
  have years := moment.date.isPlain_iff.1 plain
  have year : moment.date.year.toNat < 10 ^ 4 := by omega
  have spelled := moment.toList_render
  rw [moment.date.toList_render_of_isPlain plain, List.append_assoc] at spelled
  exact keyOfText_of_temporal year (by decide) spelled (Literal.temporal?_moment plain)

theorem keyOfText_time (time : TimeOfDay) :
    keyOfText (timeOfDay time).keyLiteral = .ok (.timeOfDay time) := by
  have inside := time.bounds
  have hour : time.hour < 10 ^ 2 := by omega
  exact keyOfText_of_temporal hour (by decide) time.toList_render (Literal.temporal?_time time)

theorem keyOfText_binary (bytes : List UInt8) :
    keyOfText (binary bytes).keyLiteral = .ok (.binary bytes) := by
  have text : (binary bytes).spellLiteral =
      "binary".toList ++ '\'' :: ((Base64.encode bytes).toList ++ ['\'']) :=
    List.append_assoc ..
  have stops : StopsAt isNamePart ('\'' :: ((Base64.encode bytes).toList ++ ['\''])) :=
    stopsAt_cons (by decide)
  have named : isName "binary" = true := by decide
  refine keyOfText_of_name text named (by decide) stops ?_
  have word : Literal.word? (binary bytes).spellLiteral = none := by
    rw [text, Literal.word?_of_name (name?_append named stops)]
    rfl
  have value := Literal.binary?_encode bytes
  have same : "binary'".toList ++ ((Base64.encode bytes).toList ++ ['\'']) =
      (binary bytes).spellLiteral := (List.append_assoc ..).symm
  rw [same] at value
  rw [Literal.read?, word, value]
  rfl

theorem keyOfText_guid (guid : Guid) :
    keyOfText (Primitive.guid guid).keyLiteral = .ok (.guid guid) := by
  obtain ⟨first, second, third, fourth, last, spelled, groups, -⟩ := guid.render_groups
  have temporal : Literal.temporal? (Primitive.guid guid).spellLiteral =
      some (.ok (.guid guid, [])) := Literal.temporal?_guid guid
  have text : (Primitive.guid guid).spellLiteral =
      first ++ '-' :: (second ++ '-' :: (third ++ '-' :: (fourth ++ '-' :: last))) := spelled
  have hex : ∀ char ∈ first, Guid.isHex char = true := by
    have digit := groups.digit
    simp only [List.forall_mem_append] at digit
    exact digit.1.1.1.1
  obtain ⟨head, others, rfl⟩ := List.exists_cons_of_length_pos
    (show 0 < first.length by rw [groups.length_first]; decide)
  have headHex := hex head List.mem_cons_self
  by_cases letter : isNameStart head = true
  · have named : isName (String.ofList (head :: others)) = true := by
      rw [isName_iff, String.toList_ofList]
      exact ⟨head, others, rfl, letter, fun char inside =>
        (Literal.token_and_name_of_isHex (hex char (List.mem_cons_of_mem head inside))).2⟩
    have long : 8 ≤ (String.ofList (head :: others)).length := by
      rw [String.length_ofList]
      exact Nat.le_of_eq groups.length_first.symm
    have split : (Primitive.guid guid).spellLiteral = (String.ofList (head :: others)).toList ++
        '-' :: (second ++ '-' :: (third ++ '-' :: (fourth ++ '-' :: last))) := by
      rw [String.toList_ofList]
      exact text
    exact keyOfText_of_longName split named long temporal
  · have digit := Literal.isAsciiDigit_of_isHex headHex (Bool.eq_false_iff.2 letter)
    have noQuote : head ≠ '\'' := by
      rintro rfl
      cases digit
    have noB : head ≠ 'b' := by
      rintro rfl
      cases digit
    refine keyOfText_of_digit text digit ?_
    rw [text, List.cons_append] at temporal ⊢
    exact Literal.read?_of_temporal (Literal.word?_eq_none (isNameStart_of_digit digit) _)
      (Literal.binary?_eq_none noB _) noQuote temporal

end Primitive

namespace Filter

open Parsing

/-- A parser that does not take a text for a literal. -/
def MakesNoLiteral (parser : Parser Node) (text : List Char) : Prop :=
  ∀ node rest, parser text = .ok (node, rest) → ∀ value, node ≠ .literal value

theorem MakesNoLiteral.leftAssociative {first : Parser Node} {text : List Char}
    (none : MakesNoLiteral first text) (precedence : Nat)
    (operand : BinaryOperator → Parser Node) :
    MakesNoLiteral (leftAssociative precedence first operand) text := by
  intro node rest read
  rw [Filter.leftAssociative] at read
  cases begun : first text with
  | error failure =>
    rw [begun] at read
    cases read
  | ok found =>
    rw [begun] at read
    rcases chain_eq_or_binary read with ⟨rfl, -⟩ | ⟨operator, left, right, rfl⟩
    · exact none found.1 found.2 begun
    · intro value same
      cases same

section

variable {deeper : Option Nested} {char : Char} {rest : List Char}

/-- A character that is not skipped and starts no word decides by the level of unary minus. -/
theorem MakesNoLiteral.expression (none : MakesNoLiteral (minus deeper) (char :: rest))
    (solid : isGap char = false) (other : isNameStart char = false) :
    MakesNoLiteral (expression deeper) (char :: rest) := by
  have comparisons : MakesNoLiteral (comparison deeper) (char :: rest) :=
    ((none.leftAssociative 5 _).leftAssociative 4 _).leftAssociative 3 _
  have unprefixed : keyword? "not" (skipGap (char :: rest)) = Option.none := by
    rw [skipGap_cons solid, keyword?, name?_eq_none other]
    rfl
  have negations : MakesNoLiteral (negation deeper) (char :: rest) := by
    intro node left read
    rw [negation, unprefixed] at read
    exact comparisons node left read
  have whole := (negations.leftAssociative 2 fun _ => negation deeper).leftAssociative 1
    fun _ => conjunction deeper
  intro node left read
  rw [Filter.expression, skipGap_cons solid] at read
  exact whole node left read

/-- A minus sign is an operator. -/
theorem makesNoLiteral_minus : MakesNoLiteral (minus deeper) ('-' :: rest) := by
  intro node left read value
  cases deeper with
  | none => cases read
  | some within =>
    rw [minus_sign] at read
    cases operand : within.minus rest with
    | error failure =>
      rw [operand] at read
      cases read
    | ok found =>
      rw [operand] at read
      cases read
      intro same
      cases same

/-- A plus sign begins nothing. -/
theorem makesNoLiteral_plus : MakesNoLiteral (minus deeper) ('+' :: rest) := by
  have noTemporal : Literal.temporal? ('+' :: rest) = none := by
    have taken : ('+' :: rest).takeWhile Literal.isTokenChar =
        '+' :: rest.takeWhile Literal.isTokenChar := List.takeWhile_cons_of_pos (by decide)
    rw [Literal.temporal?, taken, Literal.tokenType?_eq_none_of_head (by decide) (by decide)]
    rfl
  have noLiteral : Literal.read? ('+' :: rest) = none := by
    rw [Literal.read?, Literal.word?_eq_none (by decide), Literal.binary?_eq_none (by decide),
      Literal.string?_eq_none (by decide), noTemporal, Literal.number?_eq_none (by decide)]
    rfl
  have failed : minus deeper ('+' :: rest) = .error ⟨.unexpected, '+' :: rest⟩ := by
    have start : minus deeper ('+' :: rest) = primary deeper ('+' :: rest) := rfl
    rw [start, primary, skipGap_cons (by decide)]
    split
    · rename_i same
      cases same
    · rw [noLiteral]
      show pathOrCall deeper ('+' :: rest) = _
      rw [pathOrCall, name?_eq_none (by decide)]
      rfl
  intro node left read
  rw [failed] at read
  cases read

end

theorem resolve_eq_literal {scope : List String} {node : Node} {value : Primitive}
    (same : resolve scope node = .literal value) : node = .literal value := by
  cases node with
  | literal other => exact same
  | property path =>
    unfold resolve at same
    split at same
    · split at same <;> cases same
    · cases same
  | _ => cases same

/-- A text that starts with a sign is no literal, and so no key. -/
theorem ofText_ne_literal_of_sign {text : List Char} {char : Char} {rest : List Char}
    (spelled : text = char :: rest) (sign : char = '-' ∨ char = '+') (value : Primitive) :
    ofText (String.ofList text) ≠ .ok (.literal value) := by
  have none : MakesNoLiteral topExpression text := by
    subst spelled
    rcases sign with rfl | rfl
    · exact makesNoLiteral_minus.expression (by decide) (by decide)
    · exact makesNoLiteral_plus.expression (by decide) (by decide)
  intro read
  obtain ⟨node, left, found, -, same⟩ := ofText_eq_ok read
  rw [String.toList_ofList] at found
  exact none node left found value (resolve_eq_literal same.symm)

end Filter

namespace Primitive

open Service

theorem toString_negative {number : Int} (negative : number < 0) :
    ∃ rest, (toString number).toList = '-' :: rest := by
  cases number with
  | ofNat number => exact absurd negative (Int.not_lt.2 (Int.natCast_nonneg number))
  | negSucc number =>
    refine ⟨(toString (number + 1)).toList, ?_⟩
    have text : toString (Int.negSucc number) = "-" ++ toString (number + 1) := rfl
    have minus : "-".toList = ['-'] := by decide
    rw [text, String.toList_append, minus, List.singleton_append]

theorem renderYear_signed {year : Int} (outside : ¬ (0 ≤ year ∧ year < 10000)) :
    ∃ sign rest, (Date.renderYear year).toList = sign :: rest ∧ (sign = '-' ∨ sign = '+') := by
  have minus : "-".toList = ['-'] := by decide
  have plus : "+".toList = ['+'] := by decide
  rw [Date.renderYear, if_neg outside, String.toList_append]
  by_cases negative : year < 0
  · rw [if_pos negative, minus]
    exact ⟨'-', _, rfl, .inl rfl⟩
  · rw [if_neg negative, plus]
    exact ⟨'+', _, rfl, .inr rfl⟩

theorem render_signed {date : Date} (signed : date.isPlain = false) :
    ∃ sign rest, date.render.toList = sign :: rest ∧ (sign = '-' ∨ sign = '+') := by
  have outside : ¬ (0 ≤ date.year ∧ date.year < 10000) := by
    rw [← date.isPlain_iff, signed]
    exact Bool.false_ne_true
  obtain ⟨sign, rest, spelled, signs⟩ := renderYear_signed outside
  refine ⟨sign, rest ++ ("-" ++ padNat 2 date.month ++ "-" ++ padNat 2 date.day).toList, ?_, signs⟩
  rw [Date.render]
  simp only [String.toList_append, spelled, List.cons_append, List.append_assoc]

/-- All other texts start with a sign. -/
theorem spellLiteral_signed {value : Primitive} (signed : value.isUnsigned = false) :
    ∃ sign rest, value.spellLiteral = sign :: rest ∧ (sign = '-' ∨ sign = '+') := by
  cases value with
  | integer value =>
    have negative : value.value < 0 := Int.not_le.1 (of_decide_eq_false signed)
    obtain ⟨rest, spelled⟩ := toString_negative negative
    exact ⟨'-', rest, spelled, .inl rfl⟩
  | decimal value =>
    have negative : value.negative = true := by
      rw [isUnsigned, Bool.not_eq_false'] at signed
      exact signed
    have spelled := value.toList_render
    rw [negative] at spelled
    exact ⟨'-', _, spelled, .inl rfl⟩
  | date value => exact render_signed signed
  | dateTimeOffset value =>
    obtain ⟨sign, rest, spelled, signs⟩ := render_signed signed
    have text : (dateTimeOffset value).spellLiteral = value.date.render.toList ++
        'T' :: (value.time.render.toList ++ (DateTimeOffset.renderOffset value.offset).toList) :=
      value.toList_render
    rw [spelled] at text
    exact ⟨sign, _, text, signs⟩
  | _ => cases signed

theorem readsBack_of_isUnsigned {value : Primitive} (exact : value.isBinaryNumber = false)
    (unsigned : value.isUnsigned = true) :
    ∃ read, keyOfText value.keyLiteral = .ok read ∧ value.equals? read = some true := by
  have itself := equals?_self exact
  cases value with
  | boolean value => exact ⟨_, keyOfText_of_readsBack (Filter.readsBack_boolean value), itself⟩
  | integer value => exact readsBack_of_natural (of_decide_eq_true unsigned)
  | single value => cases exact
  | double value => cases exact
  | decimal value =>
    rw [isUnsigned, Bool.not_eq_true'] at unsigned
    exact readsBack_of_decimal unsigned
  | string value => exact ⟨_, keyOfText_of_readsBack (Filter.readsBack_string value), itself⟩
  | guid value => exact ⟨_, keyOfText_guid value, itself⟩
  | date value => exact ⟨_, keyOfText_date unsigned, itself⟩
  | dateTimeOffset value => exact ⟨_, keyOfText_moment unsigned, itself⟩
  | timeOfDay value => exact ⟨_, keyOfText_time value, itself⟩
  | binary bytes => exact ⟨_, keyOfText_binary bytes, itself⟩

theorem isUnsigned_of_keyOfText {value read : Primitive}
    (found : keyOfText value.keyLiteral = .ok read) : value.isUnsigned = true := by
  by_cases unsigned : value.isUnsigned = true
  · exact unsigned
  · obtain ⟨sign, rest, spelled, signs⟩ := spellLiteral_signed (Bool.eq_false_iff.2 unsigned)
    rw [keyLiteral, keyOfText] at found
    cases parsed : Filter.ofText (String.ofList value.spellLiteral) with
    | error error =>
      rw [parsed] at found
      cases found
    | ok node =>
      rw [parsed] at found
      cases node with
      | literal key =>
        exact absurd parsed (Filter.ofText_ne_literal_of_sign spelled signs key)
      | _ => cases found

/-- A key is read back as an equal one from its literal, and finds its entity by the text in the
entity's identifier, if and only if the literal starts without a sign. -/
theorem keyLiteral_readsBack_iff (key : Primitive) (exact : key.isBinaryNumber = false) :
    ((∃ read, keyOfText key.keyLiteral = .ok read ∧ key.equals? read = some true) ↔
      key.isUnsigned = true) ∧
    ∀ (entity : ComplexValue) (set : String), entity.entitySet? = some set →
      entity.key? = some key →
        entity.entityId? = some (set ++ "(" ++ key.keyLiteral ++ ")") ∧
          ((∃ read, keyOfText key.keyLiteral = .ok read ∧
            ∀ others, findByKey read (entity :: others) = .ok (some entity)) ↔
              key.isUnsigned = true) := by
  constructor
  · constructor
    · rintro ⟨read, found, -⟩
      exact isUnsigned_of_keyOfText found
    · exact readsBack_of_isUnsigned exact
  · intro entity set inSet bound
    refine ⟨?_, ?_, ?_⟩
    · rw [ComplexValue.entityId?, inSet, bound]
    · rintro ⟨read, found, -⟩
      exact isUnsigned_of_keyOfText found
    · intro unsigned
      obtain ⟨read, found, equal⟩ := readsBack_of_isUnsigned exact unsigned
      refine ⟨read, found, ?_⟩
      intro others
      have order : key.compare? read = some .eq := by
        rw [equals?, Option.map_eq_some_iff] at equal
        obtain ⟨ordering, compared, same⟩ := equal
        rw [compared, beq_iff_eq.1 same]
      rw [findByKey, bound]
      simp only [Comparison.order, order]
      rfl

theorem keyLiteral_readsBack_iff_decimal :
    let key : Primitive := .decimal ⟨false, 150, 2, by decide, by decide⟩
    let amount : Property := .declared "Amount" (.primitive .decimal)
    let type : ComplexType := ⟨"Price", true, some "Amount", false, true, [amount]⟩
    let entity : ComplexValue :=
      ⟨⟨0⟩, type, [.unattached amount (some (.primitive key))], none, some "Prices", false, []⟩
    key.isBinaryNumber = false ∧ entity.entitySet? = some "Prices" ∧ entity.key? = some key ∧
      entity.entityId? = some ("Prices" ++ "(" ++ key.keyLiteral ++ ")") ∧
        ∃ read, keyOfText key.keyLiteral = .ok read ∧
          ∀ others, findByKey read (entity :: others) = .ok (some entity) := by
  intro key amount type entity
  have whole := (keyLiteral_readsBack_iff key rfl).2 entity "Prices" rfl rfl
  exact ⟨rfl, rfl, rfl, whole.1, whole.2.2 rfl⟩

/-- The literal of a negative key is refused: a sign makes an operation of it. -/
theorem keyOfText_negative :
    let key : Primitive := .integer ⟨.int32, -7, by decide⟩
    key.isBinaryNumber = false ∧ key.keyLiteral = "-7" ∧
      keyOfText "-7" = .error (.parse .invalidLiteral "Expected a key literal, found -7" "-7") ∧
        ¬ ∃ read, keyOfText key.keyLiteral = .ok read ∧ key.equals? read = some true := by
  refine ⟨rfl, by decide, by rfl, ?_⟩
  rintro ⟨read, found, -⟩
  exact Bool.false_ne_true (isUnsigned_of_keyOfText found)

end Primitive

end EdmQuery
