import EdmQuery.Proofs.Words

set_option autoImplicit false

namespace EdmQuery

namespace Literal

open Parsing

/-- A quoted text is read to its closing quote, doubled quotes inside of it as one. -/
theorem stringRest_double (text : List Char) (segment rest : List Char)
    (unquoted : ∀ tail, rest ≠ '\'' :: tail) :
    stringRest segment (text.flatMap (fun char => if char = '\'' then ['\'', '\''] else [char]) ++
      '\'' :: rest) = .ok (text, rest) := by
  induction text generalizing segment with
  | nil =>
    simp only [List.flatMap_nil, List.nil_append]
    rw [stringRest]
    intro tail
    exact unquoted tail
  | cons char others ih =>
    by_cases quote : char = '\''
    · subst quote
      simp only [List.flatMap_cons, if_true, List.cons_append, List.nil_append]
      rw [stringRest, ih]
      rfl
    · simp only [List.flatMap_cons, if_neg quote, List.cons_append, List.nil_append]
      rw [stringRest, ih]
      · rfl
      · intro _ first
        exact absurd first quote
      · intro first
        exact absurd first quote

theorem flatMap_of_unquoted {text : List Char} (unquoted : '\'' ∉ text) :
    text.flatMap (fun char => if char = '\'' then ['\'', '\''] else [char]) = text := by
  induction text with
  | nil => rfl
  | cons char rest ih =>
    rw [List.mem_cons, not_or] at unquoted
    rw [List.flatMap_cons, if_neg (Ne.symm unquoted.1), ih unquoted.2, List.singleton_append]

theorem string?_quoteLiteral (text : String) (rest : List Char)
    (unquoted : ∀ tail, rest ≠ '\'' :: tail) :
    string? (quoteLiteral text.toList ++ rest) = some (.ok (.string text, rest)) := by
  have read := stringRest_double text.toList
    (text.toList.flatMap (fun char => if char = '\'' then ['\'', '\''] else [char]) ++ '\'' :: rest)
    rest unquoted
  simp only [quoteLiteral, List.cons_append, List.append_assoc, List.nil_append, string?, read]
  simp only [Except.map, String.ofList_toList]

theorem binary?_append {token : List Char} (unquoted : '\'' ∉ token) :
    binary? ("binary'".toList ++ (token ++ ['\''])) =
      some (valueOf .binary (String.ofList token) ("binary'".toList ++ (token ++ ['\''])) []) := by
  have starts : "binary'".toList.isPrefixOf ("binary'".toList ++ (token ++ ['\''])) = true :=
    List.isPrefixOf_iff_prefix.2 (List.prefix_append ..)
  have count : "binary'".toList.length = 7 := by decide
  have body : ("binary'".toList ++ (token ++ ['\''])).drop 7 = token ++ ['\''] := by
    rw [← count, List.drop_left]
  have quoted := stringRest_double token (token ++ ['\'']) [] (fun tail same => by cases same)
  rw [flatMap_of_unquoted unquoted] at quoted
  rw [binary?, if_pos starts]
  simp only [body, quoted]
  rfl

section

variable {text rest : List Char}

/-- A text whose first character starts no name is no word. -/
theorem word?_eq_none {char : Char} (other : isNameStart char = false) (rest : List Char) :
    word? (char :: rest) = none := by
  rw [word?, name?_eq_none other]
  rfl

theorem word?_of_name {name : String} (read : name? text = some (name, rest)) :
    word? text = (wordLiterals.lookup name).map fun node => .ok (node, rest) := by
  rw [word?, read]
  rfl

theorem binary?_eq_none {char : Char} (other : char ≠ 'b') (rest : List Char) :
    binary? (char :: rest) = none := by
  have start : "binary'".toList = 'b' :: "inary'".toList := by decide
  have different : ('b' == char) = false := by
    rw [beq_eq_false_iff_ne]
    exact other.symm
  rw [binary?, start, List.isPrefixOf, different]
  rfl

/-- A name is no quoted byte string, not even one called `binary`, unless a quote follows. -/
theorem binary?_eq_none_of_name {name : String} (read : name? text = some (name, rest))
    (unquoted : ∀ tail, rest ≠ '\'' :: tail) : binary? text = none := by
  rw [binary?]
  apply if_neg
  intro starts
  obtain ⟨tail, rfl⟩ := List.isPrefixOf_iff_prefix.1 starts
  have word : name? ("binary".toList ++ '\'' :: tail) = some ("binary", '\'' :: tail) :=
    name?_append (by decide) (stopsAt_cons (by decide))
  have split : "binary'".toList ++ tail = "binary".toList ++ '\'' :: tail := rfl
  rw [split, word] at read
  cases read
  exact unquoted tail rfl

theorem string?_eq_none {char : Char} (other : char ≠ '\'') (rest : List Char) :
    string? (char :: rest) = none := by
  rw [string?]
  intro tail same
  cases same
  exact other rfl

end

/-- Dates and identifiers have hyphens, and times have colons. -/
theorem tokenType?_eq_none {token : List Char} (noHyphen : '-' ∉ token) (noColon : ':' ∉ token) :
    tokenType? token = none := by
  have notGuid : looksLikeGuid token = false := by
    rw [Bool.eq_false_iff]
    intro looks
    simp only [looksLikeGuid, Bool.and_eq_true, beq_iff_eq, List.all_eq_true] at looks
    have inside : 8 < token.length := by omega
    have atEight := looks.2 (token[8], 8) (by
      rw [List.mk_mem_zipIdx_iff_getElem?, List.getElem?_eq_getElem inside])
    simp only [true_or, if_true, beq_iff_eq] at atEight
    exact noHyphen (atEight ▸ List.getElem_mem inside)
  have noneAt : ∀ {char : Char} (index : Nat), char ∉ token →
      (token[index]? == some char) = false := by
    intro char index absent
    rw [beq_eq_false_iff_ne]
    intro found
    exact absent (List.mem_of_getElem? found)
  have notDate : looksLikeDate token = false := by
    rw [looksLikeDate, noneAt 4 noHyphen]
    simp only [Bool.and_false, Bool.false_and]
  have notTime : looksLikeTime token = false := by
    rw [looksLikeTime, noneAt 2 noColon]
    simp only [Bool.and_false, Bool.false_and]
  rw [tokenType?, notGuid, notDate, notTime]
  rfl

theorem temporal?_eq_none {text : List Char} (noHyphen : '-' ∉ text.takeWhile isTokenChar)
    (noColon : ':' ∉ text.takeWhile isTokenChar) : temporal? text = none := by
  rw [temporal?, tokenType?_eq_none noHyphen noColon]
  rfl

theorem number?_eq_none {char : Char} (other : isAsciiDigit char = false) (rest : List Char) :
    number? (char :: rest) = none := by
  have noDigits : (char :: rest).takeWhile isAsciiDigit = [] :=
    (stopsAt_cons other).takeWhile_eq_nil
  rw [number?, numberToken?, noDigits]
  rfl

theorem read?_quoteLiteral (value : String) {rest : List Char}
    (unquoted : ∀ tail, rest ≠ '\'' :: tail) :
    read? (quoteLiteral value.toList ++ rest) = some (.ok (.literal (.string value), rest)) := by
  have string := string?_quoteLiteral value rest unquoted
  rw [quoteLiteral, List.cons_append, List.cons_append] at string ⊢
  rw [read?, word?_eq_none (by decide), binary?_eq_none (by decide), string]
  rfl

section

variable {digits rest : List Char}

theorem fraction?_eq_none (delimited : Delimited rest) : fraction? rest = none := by
  rw [fraction?]
  exact delimited.head_ne (by decide)

theorem exponent?_eq_none (delimited : Delimited rest) : exponent? rest = none := by
  cases rest with
  | nil => rfl
  | cons char others =>
    have noMark : ¬ (char = 'e' ∨ char = 'E') := by
      rintro (rfl | rfl)
      · exact delimited.head_ne (by decide) others rfl
      · exact delimited.head_ne (by decide) others rfl
    unfold exponent?
    exact if_neg noMark

theorem numberToken?_whole (nonempty : digits ≠ [])
    (digit : ∀ char ∈ digits, isAsciiDigit char = true) (delimited : Delimited rest) :
    numberToken? (digits ++ rest) = some (⟨digits, none, none⟩, rest) := by
  rw [numberToken?, delimited.stopsAt_digit.takeWhile_append digit,
    delimited.stopsAt_digit.dropWhile_append digit]
  simp only [if_neg nonempty, fraction?_eq_none delimited, exponent?_eq_none delimited]

theorem numberToken?_fraction {places : List Char} (nonempty : digits ≠ [])
    (digit : ∀ char ∈ digits, isAsciiDigit char = true) (somePlaces : places ≠ [])
    (place : ∀ char ∈ places, isAsciiDigit char = true) (delimited : Delimited rest) :
    numberToken? (digits ++ '.' :: (places ++ rest)) =
      some (⟨digits, some places, none⟩, rest) := by
  have point : StopsAt isAsciiDigit ('.' :: (places ++ rest)) := stopsAt_cons (by decide)
  have fraction : fraction? ('.' :: (places ++ rest)) = some (places, rest) := by
    rw [fraction?, delimited.stopsAt_digit.takeWhile_append place,
      delimited.stopsAt_digit.dropWhile_append place]
    exact if_neg somePlaces
  rw [numberToken?, point.takeWhile_append digit, point.dropWhile_append digit]
  simp only [if_neg nonempty, fraction, exponent?_eq_none delimited]

end

/-- A text whose first word looks like no other literal is read as a number. -/
theorem read?_eq_number? {char : Char} (digit : isAsciiDigit char = true) {rest : List Char}
    (noHyphen : '-' ∉ (char :: rest).takeWhile isTokenChar)
    (noColon : ':' ∉ (char :: rest).takeWhile isTokenChar) :
    read? (char :: rest) = (number? (char :: rest)).map fun parsed =>
      parsed.map fun (value, left) => (.literal value, left) := by
  have notB : char ≠ 'b' := by
    rintro rfl
    exact absurd digit (by decide)
  have notQuote : char ≠ '\'' := by
    rintro rfl
    exact absurd digit (by decide)
  rw [read?, word?_eq_none (isNameStart_of_digit digit), binary?_eq_none notB,
    string?_eq_none notQuote, temporal?_eq_none noHyphen noColon]
  rfl

/-- A token of digits, with at most a point between them, is read as the number it denotes. -/
theorem read?_of_numberToken? {token rest : List Char} {number : NumberToken} {value : Primitive}
    (begins : ∀ char ∈ token.head?, isAsciiDigit char = true) (nonempty : token ≠ [])
    (numeric : ∀ char ∈ token, isAsciiDigit char = true ∨ char = '.')
    (delimited : Delimited rest) (read : numberToken? (token ++ rest) = some (number, rest))
    (fits : number.value? = some value) :
    read? (token ++ rest) = some (.ok (.literal value, rest)) := by
  have isToken : ∀ char ∈ token, isTokenChar char = true := by
    intro char inside
    rcases numeric char inside with digit | rfl
    · rw [isTokenChar, digit]
      simp only [Bool.or_true, Bool.true_or]
    · decide
  have wholeToken : (token ++ rest).takeWhile isTokenChar = token :=
    delimited.stopsAt_tokenChar.takeWhile_append isToken
  have absent : ∀ char, isAsciiDigit char = false → char ≠ '.' →
      char ∉ (token ++ rest).takeWhile isTokenChar := by
    intro char noDigit noPoint inside
    rw [wholeToken] at inside
    rcases numeric char inside with digit | point
    · rw [digit] at noDigit
      cases noDigit
    · exact noPoint point
  have noHyphen := absent '-' (by decide) (by decide)
  have noColon := absent ':' (by decide) (by decide)
  obtain ⟨first, others, rfl⟩ := List.exists_cons_of_ne_nil nonempty
  rw [List.cons_append] at noHyphen noColon read ⊢
  rw [read?_eq_number? (begins first rfl) noHyphen noColon, number?, read]
  simp only [Option.map_some, fits]
  rfl

theorem read?_whole {digits rest : List Char} {value : Primitive} (nonempty : digits ≠ [])
    (digit : ∀ char ∈ digits, isAsciiDigit char = true) (delimited : Delimited rest)
    (fits : NumberToken.value? ⟨digits, none, none⟩ = some value) :
    read? (digits ++ rest) = some (.ok (.literal value, rest)) :=
  read?_of_numberToken? (fun char inside => digit char (List.mem_of_mem_head? inside)) nonempty
    (fun char inside => .inl (digit char inside)) delimited
    (numberToken?_whole nonempty digit delimited) fits

theorem read?_places {digits places rest : List Char} {value : Primitive} (nonempty : digits ≠ [])
    (digit : ∀ char ∈ digits, isAsciiDigit char = true) (somePlaces : places ≠ [])
    (place : ∀ char ∈ places, isAsciiDigit char = true) (delimited : Delimited rest)
    (fits : NumberToken.value? ⟨digits, some places, none⟩ = some value) :
    read? (digits ++ '.' :: places ++ rest) = some (.ok (.literal value, rest)) := by
  have token := numberToken?_fraction nonempty digit somePlaces place delimited
  rw [← List.cons_append, ← List.append_assoc] at token
  refine read?_of_numberToken? ?_ ?_ ?_ delimited token fits
  · intro char inside
    obtain ⟨first, others, rfl⟩ := List.exists_cons_of_ne_nil nonempty
    rw [← Option.some.inj inside]
    exact digit first List.mem_cons_self
  · exact List.append_ne_nil_of_left_ne_nil nonempty _
  · intro char inside
    rcases List.mem_append.1 inside with before | behind
    · exact .inl (digit char before)
    · rcases List.mem_cons.1 behind with rfl | later
      · exact .inr rfl
      · exact .inl (place char later)

/-- What starts with a name other than the words for literals is no literal. -/
theorem read?_eq_none {name : String} (named : isName name = true)
    (other : wordLiterals.lookup name = none) {rest : List Char}
    (noPart : StopsAt isNamePart rest) (noToken : StopsAt isTokenChar rest)
    (unquoted : ∀ tail, rest ≠ '\'' :: tail) : read? (name.toList ++ rest) = none := by
  have read := name?_append named noPart
  obtain ⟨first, others, spelled, start, part⟩ := (isName_iff name).1 named
  have notIn : ∀ {char : Char}, isNameStart char = false → isNamePart char = false →
      char ∉ (name.toList ++ rest).takeWhile isTokenChar := by
    intro char noStart noPart inside
    have atName : char ∈ name.toList := noToken.mem_of_mem_takeWhile inside
    rw [spelled] at atName
    rcases List.mem_cons.1 atName with rfl | later
    · rw [start] at noStart
      cases noStart
    · rw [part char later] at noPart
      cases noPart
  have notQuote : first ≠ '\'' := by
    rintro rfl
    exact absurd start (by decide)
  have notDigit : isAsciiDigit first = false := by
    rw [Bool.eq_false_iff]
    intro digit
    rw [isNameStart_of_digit digit] at start
    cases start
  have temporal : temporal? (name.toList ++ rest) = none :=
    temporal?_eq_none (notIn (by decide) (by decide)) (notIn (by decide) (by decide))
  rw [read?, word?_of_name read, other, binary?_eq_none_of_name read unquoted, temporal]
  rw [spelled, List.cons_append, string?_eq_none notQuote, number?_eq_none notDigit]
  rfl

end Literal

end EdmQuery
