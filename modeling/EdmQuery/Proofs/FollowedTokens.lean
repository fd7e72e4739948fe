import EdmQuery.Proofs.PathText
import EdmQuery.Proofs.Remainders

set_option autoImplicit false

namespace EdmQuery

namespace Parsing

section

variable {inClass : Char → Bool} {tail : List Char}

theorem StopsAt.takeWhile_before (stops : StopsAt inClass tail) (text : List Char) :
    (text ++ tail).takeWhile inClass = text.takeWhile inClass := by
  rw [List.takeWhile_append]
  split
  · rename_i whole
    rw [stops.takeWhile_eq_nil, List.append_nil]
    exact ((List.takeWhile_prefix inClass).eq_of_length whole).symm
  · rfl

theorem StopsAt.dropWhile_before (stops : StopsAt inClass tail) (text : List Char) :
    (text ++ tail).dropWhile inClass = text.dropWhile inClass ++ tail := by
  rw [List.dropWhile_append]
  split
  · rename_i nothing
    rw [stops.dropWhile_eq_self, List.isEmpty_iff.1 nothing, List.nil_append]
  · rfl

/-- A pattern does not begin in a text and end behind it, if it lacks the next character. -/
theorem isPrefixOf_before {pattern : List Char} (apart : ∀ char ∈ tail.head?, char ∉ pattern)
    (text : List Char) : pattern.isPrefixOf (text ++ tail) = pattern.isPrefixOf text := by
  induction pattern generalizing text with
  | nil => simp
  | cons first others ih =>
    cases text with
    | nil =>
      cases tail with
      | nil => rfl
      | cons char rest =>
        have other := apart char rfl
        simp only [List.mem_cons, not_or] at other
        simp only [List.nil_append, List.isPrefixOf]
        simp [Ne.symm other.1]
    | cons char rest =>
      simp only [List.cons_append, List.isPrefixOf]
      rw [ih]
      intro other inside
      exact fun later => apart other inside (List.mem_cons_of_mem first later)

theorem skipGap_before {text : List Char} (solid : skipGap text ≠ []) (tail : List Char) :
    skipGap (text ++ tail) = skipGap text ++ tail := by
  rw [skipGap, List.dropWhile_append, if_neg]
  · rfl
  · exact fun nothing => solid (List.isEmpty_iff.1 nothing)

theorem skipGap_blank_before {text : List Char} (blank : skipGap text = []) (tail : List Char) :
    skipGap (text ++ tail) = skipGap tail := by
  rw [skipGap, List.dropWhile_append, if_pos]
  · rfl
  · exact List.isEmpty_iff.2 blank

variable (delimited : Delimited tail)

include delimited

theorem name?_before (text : List Char) :
    name? (text ++ tail) = (name? text).map fun found => (found.1, found.2 ++ tail) := by
  cases text with
  | nil =>
    have stops : StopsAt isNameStart tail :=
      delimited.stopsAt (by decide) (by decide) (by decide)
    cases tail with
    | nil => rfl
    | cons char rest => exact name?_eq_none (stops char rfl) rest
  | cons char rest =>
    rw [List.cons_append, name?, name?, delimited.stopsAt_namePart.takeWhile_before,
      delimited.stopsAt_namePart.dropWhile_before]
    split <;> rfl

theorem keyword?_before (word : String) (text : List Char) :
    keyword? word (text ++ tail) = (keyword? word text).map (· ++ tail) := by
  rw [keyword?, keyword?, name?_before delimited]
  cases name? text with
  | none => rfl
  | some found =>
    simp only [Option.map_some, Option.bind_some]
    split <;> rfl

/-- What starts with no delimiter in front of a tail does so by itself. -/
theorem Delimited.ne_cons_before {char : Char}
    (noDelimiter : char ≠ ' ' ∧ char ≠ ')' ∧ char ≠ ',') {text : List Char}
    (other : ∀ rest, text ≠ char :: rest) (rest : List Char) : text ++ tail ≠ char :: rest := by
  cases text with
  | nil => exact delimited.head_ne noDelimiter rest
  | cons first others =>
    intro same
    rw [List.cons_append, List.cons.injEq] at same
    exact other others (by rw [same.1])

omit delimited in
theorem expect_before {char : Char} {cause : ParseCause} {text rest : List Char}
    (read : expect char cause text = .ok rest) :
    expect char cause (text ++ tail) = .ok (rest ++ tail) := by
  rw [expect] at read ⊢
  split at read
  · rename_i first behind found
    rw [skipGap_before (by simp [found]), found]
    split at read
    · cases read
      simp_all
    · cases read
  · cases read

end

end Parsing

namespace Literal

open Parsing

/-- A literal that is read again in front of a tail, as is its absence. -/
structure Carries {α : Type} (tail : List Char) (found further : Option (Parse (α × List Char))) :
    Prop where
  none : found = none → further = none
  ok : ∀ value rest, found = some (.ok (value, rest)) → further = some (.ok (value, rest ++ tail))

namespace Carries

variable {α β : Type} {tail : List Char} {found further : Option (Parse (α × List Char))}

theorem or {found' further' : Option (Parse (α × List Char))} (first : Carries tail found further)
    (second : Carries tail found' further') :
    Carries tail (found.or found') (further.or further') := by
  constructor
  · intro none
    rw [Option.or_eq_none_iff] at none ⊢
    exact ⟨first.none none.1, second.none none.2⟩
  · intro value rest read
    rw [Option.or_eq_some_iff] at read ⊢
    rcases read with read | ⟨none, read⟩
    · exact .inl (first.ok value rest read)
    · exact .inr ⟨first.none none, second.ok value rest read⟩

theorem map (carries : Carries tail found further) (change : α → β) :
    Carries tail (found.map fun parsed => parsed.map fun found => (change found.1, found.2))
      (further.map fun parsed => parsed.map fun found => (change found.1, found.2)) := by
  constructor
  · intro none
    rw [Option.map_eq_none_iff] at none ⊢
    exact carries.none none
  · intro value rest read
    obtain ⟨parsed, before, same⟩ := Option.map_eq_some_iff.1 read
    cases parsed with
    | error failure => cases same
    | ok pair =>
      cases same
      rw [carries.ok pair.1 pair.2 before]
      rfl

theorem nothing (tail : List Char) : Carries (α := α) tail Option.none Option.none :=
  ⟨fun _ => rfl, fun value rest read => by cases read⟩

end Carries

section

variable {tail : List Char}

theorem valueOf_eq_ok {type : PrimitiveType} {token : String} {start rest last : List Char}
    {value : Primitive} (read : valueOf type token start rest = .ok (value, last))
    (start' rest' : List Char) :
    last = rest ∧ valueOf type token start' rest' = .ok (value, rest') := by
  unfold valueOf at read ⊢
  split at read
  · cases read
    exact ⟨rfl, rfl⟩
  · cases read

variable (delimited : Delimited tail)

include delimited

theorem stringRest_before (segment : List Char) {text rest value : List Char}
    (read : stringRest segment text = .ok (value, rest)) (segment' : List Char) :
    stringRest segment' (text ++ tail) = .ok (value, rest ++ tail) := by
  induction segment, text using stringRest.induct generalizing segment' value rest with
  | case1 segment => cases read
  | case2 segment behind ih =>
    rw [stringRest] at read
    cases inner : stringRest behind behind with
    | error failure =>
      rw [inner] at read
      cases read
    | ok found =>
      rw [inner] at read
      cases read
      have again := ih inner (behind ++ tail)
      simp only [List.cons_append] at again ⊢
      rw [stringRest, again]
      rfl
  | case3 segment behind other =>
    rw [stringRest] at read
    · cases read
      rw [List.cons_append, stringRest]
      intro later same
      cases behind with
      | nil => exact delimited.head_ne (by decide) later same
      | cons char others =>
        simp only [List.cons_append, List.cons.injEq] at same
        exact other others (by rw [same.1])
    · exact other
  | case4 segment char behind other other' ih =>
    have step : ∀ segment rest, (∀ later, char = '\'' → rest = '\'' :: later → False) →
        stringRest segment (char :: rest) = (stringRest segment rest).map fun found =>
          (char :: found.1, found.2) := by
      intro segment rest double
      rw [stringRest]
      · exact double
      · exact other'
    rw [step _ _ other] at read
    cases inner : stringRest segment behind with
    | error failure =>
      rw [inner] at read
      cases read
    | ok found =>
      rw [inner] at read
      cases read
      rw [List.cons_append, step _ _ fun _ first _ => other' first, ih inner segment']
      rfl

theorem carries_word? (text : List Char) : Carries tail (word? text) (word? (text ++ tail)) := by
  rw [word?, word?, name?_before delimited]
  cases name? text with
  | none => exact .nothing tail
  | some found =>
    simp only [Option.map_some, Option.bind_some]
    cases wordLiterals.lookup found.1 with
    | none => exact .nothing tail
    | some node =>
      constructor
      · intro none
        cases none
      · intro value rest read
        cases read
        rfl

theorem carries_binary? (text : List Char) :
    Carries tail (binary? text) (binary? (text ++ tail)) := by
  have apart : ∀ char ∈ tail.head?, char ∉ "binary'".toList := by
    intro char inside
    rcases delimited char inside with rfl | rfl | rfl <;> decide
  rw [binary?, binary?, isPrefixOf_before apart]
  split
  · rename_i begins
    have enough : 7 ≤ text.length := (List.isPrefixOf_iff_prefix.1 begins).length_le
    constructor
    · intro none
      cases none
    · intro value rest read
      rw [List.drop_append_of_le_length enough]
      simp only [Option.some.injEq] at read ⊢
      cases quoted : stringRest (text.drop 7) (text.drop 7) with
      | error failure =>
        rw [quoted] at read
        cases read
      | ok found =>
        rw [quoted] at read
        obtain ⟨rfl, again⟩ := valueOf_eq_ok read (text ++ tail) (found.2 ++ tail)
        rw [stringRest_before delimited _ quoted]
        exact again
  · exact .nothing tail

theorem carries_string? (text : List Char) :
    Carries tail (string? text) (string? (text ++ tail)) := by
  cases text with
  | nil =>
    constructor
    · intro _
      unfold string?
      split
      · rename_i rest same
        exact absurd same (delimited.head_ne (by decide) rest)
      · rfl
    · intro value rest read
      cases read
  | cons char others =>
    by_cases quote : char = '\''
    · subst quote
      constructor
      · intro none
        cases none
      · intro value rest read
        simp only [string?, List.cons_append, Option.some.injEq] at read ⊢
        cases quoted : stringRest others others with
        | error failure =>
          rw [quoted] at read
          cases read
        | ok found =>
          rw [quoted] at read
          cases read
          rw [stringRest_before delimited _ quoted]
          rfl
    · rw [List.cons_append, string?_eq_none quote, string?_eq_none quote]
      exact .nothing tail

theorem carries_temporal? (text : List Char) :
    Carries tail (temporal? text) (temporal? (text ++ tail)) := by
  have stops := delimited.stopsAt_tokenChar
  rw [temporal?, temporal?, stops.takeWhile_before, stops.dropWhile_before]
  cases tokenType? (text.takeWhile isTokenChar) with
  | none => exact .nothing tail
  | some type =>
    constructor
    · intro none
      cases none
    · intro value rest read
      simp only [Option.map_some, Option.some.injEq] at read ⊢
      obtain ⟨rfl, again⟩ := valueOf_eq_ok read (text ++ tail) (text.dropWhile isTokenChar ++ tail)
      exact again

theorem fraction?_before (text : List Char) :
    fraction? (text ++ tail) = (fraction? text).map fun found => (found.1, found.2 ++ tail) := by
  have stops := delimited.stopsAt_digit
  cases text with
  | nil => exact fraction?_eq_none delimited
  | cons char others =>
    by_cases point : char = '.'
    · subst point
      simp only [List.cons_append, fraction?, stops.takeWhile_before, stops.dropWhile_before]
      split <;> rfl
    · have none : ∀ rest : List Char, fraction? (char :: rest) = Option.none := by
        intro rest
        rw [fraction?]
        rintro _ same
        cases same
        exact point rfl
      rw [List.cons_append, none, none]
      rfl

/-- The sign of an exponent is found in the text, since no delimiter is one. -/
theorem exponentSign_before (text : List Char) :
    exponentSign (text ++ tail) = ((exponentSign text).1, (exponentSign text).2 ++ tail) := by
  cases text with
  | nil =>
    unfold exponentSign
    split
    · rename_i digits same
      exact absurd same (delimited.head_ne (by decide) digits)
    · rename_i digits same
      exact absurd same (delimited.head_ne (by decide) digits)
    · rfl
  | cons sign digits =>
    by_cases plus : sign = '+'
    · subst plus
      rfl
    · by_cases minus : sign = '-'
      · subst minus
        rfl
      · simp [exponentSign, plus, minus]

theorem exponent?_before (text : List Char) :
    exponent? (text ++ tail) = (exponent? text).map fun found => (found.1, found.2 ++ tail) := by
  have stops := delimited.stopsAt_digit
  cases text with
  | nil => exact exponent?_eq_none delimited
  | cons mark others =>
    simp only [List.cons_append, exponent?_cons, exponentSign_before delimited,
      stops.takeWhile_before, stops.dropWhile_before]
    split
    · split <;> rfl
    · rfl

theorem numberToken?_before (text : List Char) : numberToken? (text ++ tail) =
    (numberToken? text).map fun found => (found.1, found.2 ++ tail) := by
  have stops := delimited.stopsAt_digit
  simp only [numberToken?, stops.takeWhile_before, stops.dropWhile_before,
    fraction?_before delimited]
  split
  · rfl
  · cases fraction? (text.dropWhile isAsciiDigit) with
    | none =>
      simp only [Option.map_none, exponent?_before delimited]
      cases exponent? (text.dropWhile isAsciiDigit) <;> rfl
    | some fraction =>
      simp only [Option.map_some, exponent?_before delimited]
      cases exponent? fraction.2 <;> rfl

theorem carries_number? (text : List Char) :
    Carries tail (number? text) (number? (text ++ tail)) := by
  rw [number?, number?, numberToken?_before delimited]
  cases numberToken? text with
  | none => exact .nothing tail
  | some found =>
    constructor
    · intro none
      cases none
    · intro value rest read
      simp only [Option.map_some, Option.some.injEq] at read ⊢
      split at read
      · cases read
        simp_all
      · cases read

/-- A literal is read up to a delimiter behind it; what is no literal is none in front of one. -/
theorem carries_read? (text : List Char) : Carries tail (read? text) (read? (text ++ tail)) := by
  have values := (carries_binary? delimited text).or ((carries_string? delimited text).or
    ((carries_temporal? delimited text).or (carries_number? delimited text)))
  exact (carries_word? delimited text).or (values.map Node.literal)

end

end Literal

end EdmQuery
