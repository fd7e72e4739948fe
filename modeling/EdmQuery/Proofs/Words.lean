import EdmQuery.Proofs.Digits
import EdmQuery.Query.Literal

set_option autoImplicit false

namespace EdmQuery

/-- A fact about all ASCII characters follows from one about their codes. -/
theorem forall_ascii (fact : Char → Prop) (codes : ∀ code < 128, fact (Char.ofNat code))
    (char : Char) (ascii : char.toNat < 128) : fact char := by
  have atCode := codes char.toNat ascii
  rwa [Char.ofNat_toNat] at atCode

/-- A fact about the items of a list that is decided item by item. -/
theorem forall_mem_of_all {α : Type} {fact : α → Prop} [DecidablePred fact] {items : List α}
    (all : (items.all fun item => decide (fact item)) = true) : ∀ item ∈ items, fact item :=
  fun item inside => of_decide_eq_true (List.all_eq_true.1 all item inside)

namespace Parsing

/-- A text that is empty or starts outside of a class of characters. -/
def StopsAt (inClass : Char → Bool) (rest : List Char) : Prop :=
  ∀ char ∈ rest.head?, inClass char = false

section

variable {inClass : Char → Bool} {token rest : List Char}

theorem stopsAt_nil : StopsAt inClass [] := by
  intro char inside
  cases inside

theorem stopsAt_cons {char : Char} (outside : inClass char = false) :
    StopsAt inClass (char :: rest) := by
  intro head inside
  cases inside
  exact outside

theorem stopsAt_dropWhile (text : List Char) : StopsAt inClass (text.dropWhile inClass) := by
  intro char inside
  have outside := List.head?_dropWhile_not inClass text
  rw [Option.mem_def.1 inside] at outside
  exact outside

theorem StopsAt.takeWhile_eq_nil (stops : StopsAt inClass rest) : rest.takeWhile inClass = [] := by
  cases rest with
  | nil => rfl
  | cons char others =>
    rw [List.takeWhile_cons_of_neg]
    simp only [stops char rfl, Bool.false_eq_true, not_false_eq_true]

theorem StopsAt.dropWhile_eq_self (stops : StopsAt inClass rest) :
    rest.dropWhile inClass = rest := by
  cases rest with
  | nil => rfl
  | cons char others =>
    rw [List.dropWhile_cons_of_neg]
    simp only [stops char rfl, Bool.false_eq_true, not_false_eq_true]

theorem StopsAt.takeWhile_append (stops : StopsAt inClass rest)
    (inside : ∀ char ∈ token, inClass char = true) :
    (token ++ rest).takeWhile inClass = token := by
  rw [List.takeWhile_append_of_pos inside, stops.takeWhile_eq_nil, List.append_nil]

theorem StopsAt.dropWhile_append (stops : StopsAt inClass rest)
    (inside : ∀ char ∈ token, inClass char = true) :
    (token ++ rest).dropWhile inClass = rest := by
  rw [List.dropWhile_append_of_pos inside, stops.dropWhile_eq_self]

/-- What is read of a token and the text behind it is part of the token. -/
theorem StopsAt.mem_of_mem_takeWhile (stops : StopsAt inClass rest) {char : Char}
    (inside : char ∈ (token ++ rest).takeWhile inClass) : char ∈ token := by
  rw [List.takeWhile_append] at inside
  split at inside
  · rw [stops.takeWhile_eq_nil, List.append_nil] at inside
    exact inside
  · exact (List.takeWhile_sublist _).subset inside

end

/-- What may stand behind an expression: nothing, a blank, a closing parenthesis or a comma. -/
def Delimited (rest : List Char) : Prop :=
  ∀ char ∈ rest.head?, char = ' ' ∨ char = ')' ∨ char = ','

section

variable {rest : List Char}

theorem delimited_nil : Delimited [] := by
  intro char inside
  cases inside

theorem delimited_cons {char : Char} (delimiter : char = ' ' ∨ char = ')' ∨ char = ',') :
    Delimited (char :: rest) := by
  intro head inside
  cases inside
  exact delimiter

theorem Delimited.stopsAt (delimited : Delimited rest) {inClass : Char → Bool}
    (blank : inClass ' ' = false) (close : inClass ')' = false) (comma : inClass ',' = false) :
    StopsAt inClass rest := by
  intro char inside
  rcases delimited char inside with rfl | rfl | rfl
  · exact blank
  · exact close
  · exact comma

theorem Delimited.stopsAt_namePart (delimited : Delimited rest) : StopsAt isNamePart rest :=
  delimited.stopsAt (by decide) (by decide) (by decide)

theorem Delimited.stopsAt_tokenChar (delimited : Delimited rest) :
    StopsAt Literal.isTokenChar rest :=
  delimited.stopsAt (by decide) (by decide) (by decide)

theorem Delimited.stopsAt_digit (delimited : Delimited rest) : StopsAt isAsciiDigit rest :=
  delimited.stopsAt (by decide) (by decide) (by decide)

theorem Delimited.head_ne (delimited : Delimited rest) {char : Char}
    (other : char ≠ ' ' ∧ char ≠ ')' ∧ char ≠ ',') (tail : List Char) : rest ≠ char :: tail := by
  rintro rfl
  rcases delimited char rfl with rfl | rfl | rfl
  · exact other.1 rfl
  · exact other.2.1 rfl
  · exact other.2.2 rfl

end

theorem bind_ok {α β : Type} (value : α) (next : α → Parse β) :
    (Except.ok value >>= next) = next value := rfl

/-- Gaps are skipped up to the first character of what comes next. -/
theorem skipGap_cons {char : Char} (solid : isGap char = false) (rest : List Char) :
    skipGap (char :: rest) = char :: rest :=
  (stopsAt_cons solid).dropWhile_eq_self

theorem skipGap_skipGap (text : List Char) : skipGap (skipGap text) = skipGap text :=
  (stopsAt_dropWhile text).dropWhile_eq_self

@[simp] theorem skipGap_blank (rest : List Char) : skipGap (' ' :: rest) = skipGap rest := rfl

/-- Whether a text is a whole name, as properties, functions and variables have one. -/
def isName (word : String) : Bool :=
  match word.toList with
  | [] => false
  | first :: others => isNameStart first && others.all isNamePart

theorem isName_iff (word : String) :
    isName word = true ↔ ∃ first others, word.toList = first :: others ∧
      isNameStart first = true ∧ ∀ char ∈ others, isNamePart char = true := by
  unfold isName
  cases word.toList with
  | nil => simp
  | cons first others =>
    rw [Bool.and_eq_true, List.all_eq_true]
    constructor
    · intro named
      exact ⟨first, others, rfl, named⟩
    · rintro ⟨head, tail, same, named⟩
      cases same
      exact named

theorem name?_append {word : String} (named : isName word = true) {rest : List Char}
    (stops : StopsAt isNamePart rest) : name? (word.toList ++ rest) = some (word, rest) := by
  obtain ⟨first, others, spelled, start, part⟩ := (isName_iff word).1 named
  rw [spelled, List.cons_append, name?, if_pos start, stops.takeWhile_append part,
    stops.dropWhile_append part, ← spelled, String.ofList_toList]

theorem name?_eq_none {char : Char} (other : isNameStart char = false) (rest : List Char) :
    name? (char :: rest) = none := by
  rw [name?, other]
  rfl

theorem isNameStart_of_digit {char : Char} (digit : isAsciiDigit char = true) :
    isNameStart char = false := by
  have codes : ∀ code < 128, isAsciiDigit (Char.ofNat code) = true →
      isNameStart (Char.ofNat code) = false := by decide
  exact forall_ascii (fun char => isAsciiDigit char = true → isNameStart char = false) codes char
    (toNat_lt_of_isAsciiDigit digit) digit

theorem keyword?_eq_none {word : String} {text : List Char}
    (other : ∀ name rest, name? text = some (name, rest) → name ≠ word) :
    keyword? word text = none := by
  unfold keyword?
  cases read : name? text with
  | none => rfl
  | some found => exact if_neg (other found.1 found.2 read)

theorem expect_cons {char : Char} (solid : isGap char = false) (cause : ParseCause)
    (rest : List Char) : expect char cause (char :: rest) = .ok rest := by
  rw [expect, skipGap_cons solid]
  exact if_pos rfl

end Parsing

end EdmQuery
