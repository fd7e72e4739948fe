import EdmQuery.Proofs.Words
import EdmQuery.Query.SearchGrammar

set_option autoImplicit false

namespace EdmQuery

open Parsing Search

namespace SearchTerm

/-- A phrase, or a word that is read as one: it has nothing that ends words, and is no operator. -/
def isReadable (term : SearchTerm) : Bool :=
  term.isPhrase || (term.text.toList.all isWordChar && !term.text.toList.isEmpty &&
    !isOperatorWord term.text)

/-- A term without a backslash that would have to be escaped. -/
def IsPlain (term : SearchTerm) : Prop := term.isPhrase = true → '\\' ∉ term.text.toList

instance : DecidablePred IsPlain := fun term =>
  inferInstanceAs (Decidable (term.isPhrase = true → '\\' ∉ term.text.toList))

end SearchTerm

namespace SearchExpression

/-- How deep groups and negations nest in the canonical text. -/
def nesting : SearchExpression → Nat
  | term _ => 0
  | and left right | or left right => max left.nesting right.nesting + 1
  | not operand => operand.nesting + 1

end SearchExpression

namespace Search

section

variable {word rest text : List Char}

theorem isBlank_of_isGap {char : Char} (gap : isGap char = true) : Text.isBlank char = true := by
  simp only [isGap, Bool.or_eq_true, decide_eq_true_eq] at gap
  rcases gap with ((rfl | rfl) | rfl) | rfl <;> decide

theorem isGap_of_wordChar {char : Char} (inWord : isWordChar char = true) : isGap char = false := by
  rw [Bool.eq_false_iff]
  intro gap
  rw [isWordChar, isBlank_of_isGap gap] at inWord
  cases inWord

/-- A token that is neither a group nor a phrase: characters of a word, and at least one. -/
def IsWord (word : List Char) : Prop := word ≠ [] ∧ ∀ char ∈ word, isWordChar char = true

theorem skipGap_word (isWord : IsWord word) (rest : List Char) :
    skipGap (word ++ rest) = word ++ rest := by
  obtain ⟨char, others, rfl⟩ := List.exists_cons_of_ne_nil isWord.1
  exact skipGap_cons (isGap_of_wordChar (isWord.2 char List.mem_cons_self)) (others ++ rest)

theorem word?_append (isWord : IsWord word) (stops : StopsAt isWordChar rest) :
    word? (word ++ rest) = some (word, rest) := by
  rw [word?, stops.takeWhile_append isWord.2, stops.dropWhile_append isWord.2]
  exact if_neg isWord.1

theorem word?_mark {char : Char} (mark : isWordChar char = false) (rest : List Char) :
    word? (char :: rest) = none := by
  have stops : StopsAt isWordChar (char :: rest) := stopsAt_cons mark
  rw [word?, stops.takeWhile_eq_nil]
  exact if_pos rfl

/-- An operator is found where its word stands, and only there. -/
theorem operator?_word (isWord : IsWord word) (stops : StopsAt isWordChar rest)
    (operator : String) :
    operator? operator (word ++ rest) =
      if String.ofList word = operator then some rest else none := by
  rw [operator?, skipGap_word isWord, word?_append isWord stops]
  rfl

theorem operator?_mark {char : Char} (solid : isGap char = false) (mark : isWordChar char = false)
    (operator : String) (rest : List Char) : operator? operator (char :: rest) = none := by
  rw [operator?, skipGap_cons solid, word?_mark mark]
  rfl

theorem operator?_blank (operator : String) (text : List Char) :
    operator? operator (' ' :: text) = operator? operator text := by
  rw [operator?, skipGap_blank]
  rfl

/-- A phrase without backslashes is read back up to its closing quote. -/
theorem phraseRest_escaped {phrase : List Char} (plain : '\\' ∉ phrase) (rest : List Char) :
    phraseRest (phrase.flatMap (fun char => if char = '"' then ['\\', '"'] else [char]) ++
      '"' :: rest) = .ok (phrase, rest) := by
  induction phrase with
  | nil => rfl
  | cons char others ih =>
    have noBackslash : char ≠ '\\' := fun same => plain (same ▸ List.mem_cons_self)
    have read := ih fun inside => plain (List.mem_cons_of_mem char inside)
    rw [List.flatMap_cons, List.append_assoc]
    by_cases quote : char = '"'
    · subst quote
      rw [if_pos rfl, List.cons_append, List.singleton_append, phraseRest, read]
      rfl
    · rw [if_neg quote, List.singleton_append, phraseRest, read]
      · rfl
      · exact quote
      · exact fun same _ => noBackslash same
      · exact fun _ _ same _ => noBackslash same

end

/-- A search that is read back wherever an operand may stand. -/
def ReadsBack (levels : Nat) (tree : SearchExpression) : Prop :=
  ∀ rest, StopsAt isWordChar rest →
    negation (nested levels) (tree.spell ++ rest) = .ok (tree, rest)

section

variable {levels : Nat} {rest : List Char}

theorem stopsAt_blank (rest : List Char) : StopsAt isWordChar (' ' :: rest) :=
  stopsAt_cons (by decide)

theorem stopsAt_close (rest : List Char) : StopsAt isWordChar (')' :: rest) :=
  stopsAt_cons (by decide)

theorem negation_blank (deeper : Option Nested) (text : List Char) :
    negation deeper (' ' :: text) = negation deeper text := by
  rw [negation, negation, operator?_blank, primary, skipGap_blank]
  rfl

theorem isWord_operator {operator : String} (isOperator : isOperatorWord operator = true) :
    IsWord operator.toList := by
  simp only [isOperatorWord, Bool.or_eq_true, beq_iff_eq] at isOperator
  rcases isOperator with (rfl | rfl) | rfl <;>
    exact ⟨by decide, List.all_eq_true.1 (by decide)⟩

theorem isWord_of_isReadable {word : String} (readable : (SearchTerm.word word).isReadable = true) :
    IsWord word.toList ∧ isOperatorWord word = false := by
  simp only [SearchTerm.isReadable, SearchTerm.word, Bool.false_or, Bool.and_eq_true,
    List.all_eq_true, Bool.not_eq_true', List.isEmpty_eq_false_iff] at readable
  exact ⟨⟨readable.1.2, readable.1.1⟩, readable.2⟩

theorem isReadable_of_isWord {word : List Char} (isWord : IsWord word)
    (other : ¬ isOperatorWord (String.ofList word) = true) :
    (SearchTerm.word (String.ofList word)).isReadable = true := by
  simp only [SearchTerm.isReadable, SearchTerm.word, Bool.false_or, Bool.and_eq_true,
    List.all_eq_true, Bool.not_eq_true', List.isEmpty_eq_false_iff, String.toList_ofList]
  exact ⟨⟨isWord.2, isWord.1⟩, Bool.eq_false_iff.2 other⟩

theorem readsBack_word {word : String} (readable : (SearchTerm.word word).isReadable = true) :
    ReadsBack levels (.term (.word word)) := by
  intro rest stops
  obtain ⟨isWord, other⟩ := isWord_of_isReadable readable
  have notOperator : word ≠ "NOT" := by
    rintro rfl
    cases other
  have noMark : ∀ (char : Char) (others : List Char), isWordChar char = false →
      word.toList ++ rest ≠ char :: others := by
    intro char others mark same
    obtain ⟨first, later, spelled⟩ := List.exists_cons_of_ne_nil isWord.1
    have inWord := isWord.2 first (spelled ▸ List.mem_cons_self)
    rw [spelled, List.cons_append, List.cons.injEq] at same
    rw [same.1, mark] at inWord
    cases inWord
  show negation (nested levels) (word.toList ++ rest) = _
  rw [negation, operator?_word isWord stops, String.ofList_toList, if_neg notOperator]
  show primary (nested levels) (word.toList ++ rest) = _
  rw [primary, skipGap_word isWord]
  split
  · rename_i others same
    exact absurd same (noMark '(' others (by decide))
  · rename_i others same
    exact absurd same (noMark '"' others (by decide))
  · rw [word?_append isWord stops]
    simp only [String.ofList_toList, other]
    rfl

/-- What starts with a parenthesis or a quote is no negation. -/
theorem negation_mark {char : Char} (solid : isGap char = false) (mark : isWordChar char = false)
    (deeper : Option Nested) (text : List Char) :
    negation deeper (char :: text) = primary deeper (char :: text) := by
  rw [negation, operator?_mark solid mark]

theorem readsBack_phrase {phrase : String} (plain : '\\' ∉ phrase.toList) :
    ReadsBack levels (.term (.phrase phrase)) := by
  intro rest stops
  have read := phraseRest_escaped plain rest
  have spelled : (SearchExpression.term (.phrase phrase)).spell ++ rest = '"' ::
      (phrase.toList.flatMap (fun char => if char = '"' then ['\\', '"'] else [char]) ++
        '"' :: rest) := by
    simp [SearchExpression.spell, SearchTerm.spell, SearchTerm.phrase]
  rw [spelled, negation_mark (by decide) (by decide), primary, skipGap_cons (by decide)]
  simp only [read, Except.map, String.ofList_toList]

theorem primary_group {text : List Char} {tree : SearchExpression}
    (read : disjunction (nested levels) text = .ok (tree, ')' :: rest)) :
    primary (nested (levels + 1)) ('(' :: text) = .ok (tree, rest) := by
  show (disjunction (nested levels) text >>= _) = _
  rw [read, bind_ok]
  simp only [expect_cons (show isGap ')' = false by decide), bind_ok]
  rfl

section

variable {deeper : Option Nested} {text behind : List Char} {left right : SearchExpression}

theorem moreConjuncts_end {operand : Parser SearchExpression} (none : operator? "AND" rest = none)
    (ends : atBoundary rest = true) (fuel : Nat) :
    moreConjuncts operand fuel left rest = .ok (left, rest) := by
  cases fuel with
  | zero => rfl
  | succ fuel => rw [moreConjuncts, none, if_pos ends]

theorem moreDisjuncts_end {operand : Parser SearchExpression} (none : operator? "OR" rest = none)
    (fuel : Nat) : moreDisjuncts operand fuel left rest = .ok (left, rest) := by
  cases fuel with
  | zero => rfl
  | succ fuel => rw [moreDisjuncts, none]

theorem conjunction_of_negation (read : negation deeper text = .ok (left, rest))
    (none : operator? "AND" rest = none) (ends : atBoundary rest = true) :
    conjunction deeper text = .ok (left, rest) := by
  rw [conjunction, read]
  exact moreConjuncts_end none ends rest.length

theorem disjunction_of_conjunction (read : conjunction deeper text = .ok (left, rest))
    (none : operator? "OR" rest = none) : disjunction deeper text = .ok (left, rest) := by
  rw [disjunction, read]
  exact moreDisjuncts_end none rest.length

/-- An operator word between blanks, as it stands between its operands. -/
theorem operator?_between {word : String} (isOperator : isOperatorWord word = true)
    (operator : String) (text : List Char) :
    operator? operator (' ' :: (word.toList ++ ' ' :: text)) =
      if word = operator then some (' ' :: text) else none := by
  rw [operator?_blank, operator?_word (isWord_operator isOperator) (stopsAt_blank text),
    String.ofList_toList]

theorem conjunction_and (first : negation deeper text =
      .ok (left, ' ' :: ("AND".toList ++ ' ' :: behind)))
    (second : negation deeper behind = .ok (right, rest)) (none : operator? "AND" rest = none)
    (ends : atBoundary rest = true) : conjunction deeper text = .ok (.and left right, rest) := by
  have found : operator? "AND" (' ' :: ("AND".toList ++ ' ' :: behind)) = some (' ' :: behind) :=
    operator?_between rfl "AND" behind
  rw [conjunction, first, bind_ok]
  simp only [List.length_cons, moreConjuncts, found, negation_blank, second, bind_ok]
  exact moreConjuncts_end none ends _

theorem conjunction_blank (deeper : Option Nested) (text : List Char) :
    conjunction deeper (' ' :: text) = conjunction deeper text := by
  rw [conjunction, conjunction, negation_blank]

theorem disjunction_or (first : conjunction deeper text =
      .ok (left, ' ' :: ("OR".toList ++ ' ' :: behind)))
    (second : conjunction deeper behind = .ok (right, rest)) (none : operator? "OR" rest = none) :
    disjunction deeper text = .ok (.or left right, rest) := by
  have found : operator? "OR" (' ' :: ("OR".toList ++ ' ' :: behind)) = some (' ' :: behind) :=
    operator?_between rfl "OR" behind
  rw [disjunction, first, bind_ok]
  simp only [List.length_cons, moreDisjuncts, found, conjunction_blank, second, bind_ok]
  exact moreDisjuncts_end none _

end

theorem operator?_close (operator : String) (rest : List Char) :
    operator? operator (')' :: rest) = none := operator?_mark (by decide) (by decide) operator rest

theorem readsBack_group {text : List Char} {tree : SearchExpression}
    (spelled : tree.spell = '(' :: (text ++ [')']))
    (read : ∀ rest, disjunction (nested levels) (text ++ ')' :: rest) = .ok (tree, ')' :: rest)) :
    ReadsBack (levels + 1) tree := by
  intro rest stops
  have text : tree.spell ++ rest = '(' :: (text ++ ')' :: rest) := by
    rw [spelled, List.cons_append, List.append_assoc]
    rfl
  rw [text, negation_mark (by decide) (by decide)]
  exact primary_group (read rest)

theorem readsBack_and {left right : SearchExpression} (first : ReadsBack levels left)
    (second : ReadsBack levels right) : ReadsBack (levels + 1) (.and left right) := by
  have spelled : (SearchExpression.and left right).spell =
      '(' :: (left.spell ++ ' ' :: ("AND".toList ++ ' ' :: right.spell) ++ [')']) := by
    simp [SearchExpression.spell]
  apply readsBack_group spelled
  intro rest
  have both := conjunction_and (first _ (stopsAt_blank _))
    (second (')' :: rest) (stopsAt_close rest)) (operator?_close "AND" rest) rfl
  have inner := disjunction_of_conjunction both (operator?_close "OR" rest)
  simpa using inner

theorem readsBack_or {left right : SearchExpression} (first : ReadsBack levels left)
    (second : ReadsBack levels right) : ReadsBack (levels + 1) (.or left right) := by
  have spelled : (SearchExpression.or left right).spell =
      '(' :: (left.spell ++ ' ' :: ("OR".toList ++ ' ' :: right.spell) ++ [')']) := by
    simp [SearchExpression.spell]
  apply readsBack_group spelled
  intro rest
  have before := conjunction_of_negation (first _ (stopsAt_blank ("OR".toList ++ ' ' ::
    (right.spell ++ ')' :: rest)))) (operator?_between rfl "AND" _) rfl
  have behind := conjunction_of_negation (second (')' :: rest) (stopsAt_close rest))
    (operator?_close "AND" rest) rfl
  have inner := disjunction_or before behind (operator?_close "OR" rest)
  simpa using inner

theorem readsBack_not {operand : SearchExpression} (back : ReadsBack levels operand) :
    ReadsBack (levels + 1) (.not operand) := by
  intro rest stops
  have found : operator? "NOT" ("NOT".toList ++ ' ' :: (operand.spell ++ rest)) =
      some (' ' :: (operand.spell ++ rest)) :=
    operator?_word (isWord_operator rfl) (stopsAt_blank _) "NOT"
  have spelled : (SearchExpression.not operand).spell ++ rest =
      "NOT".toList ++ ' ' :: (operand.spell ++ rest) := by
    simp [SearchExpression.spell]
  rw [spelled, negation, found]
  show (negation (nested levels) (' ' :: (operand.spell ++ rest)) >>= _) = _
  rw [negation_blank, back rest stops]
  rfl

end

/-- A search is read back from its canonical text if its words are words, no phrase has a backslash,
and it nests no deeper than allowed. -/
theorem readsBack_of_plain (tree : SearchExpression) (levels : Nat)
    (readable : ∀ term ∈ tree.terms, term.isReadable = true)
    (plain : ∀ term ∈ tree.terms, term.IsPlain) (deep : tree.nesting ≤ levels) :
    ReadsBack levels tree := by
  induction tree generalizing levels with
  | term term =>
    obtain ⟨text, isPhrase⟩ := term
    have readable := readable _ List.mem_cons_self
    have plain := plain _ List.mem_cons_self
    cases isPhrase with
    | false => exact readsBack_word readable
    | true =>
      exact readsBack_phrase (plain rfl)
  | and left right first second =>
    obtain ⟨readableLeft, readableRight⟩ := List.forall_mem_append.1 readable
    obtain ⟨plainLeft, plainRight⟩ := List.forall_mem_append.1 plain
    simp only [SearchExpression.nesting] at deep
    obtain ⟨levels, rfl⟩ := Nat.exists_eq_add_one_of_ne_zero (show levels ≠ 0 by omega)
    apply readsBack_and
    · exact first levels readableLeft plainLeft (by omega)
    · exact second levels readableRight plainRight (by omega)
  | or left right first second =>
    obtain ⟨readableLeft, readableRight⟩ := List.forall_mem_append.1 readable
    obtain ⟨plainLeft, plainRight⟩ := List.forall_mem_append.1 plain
    simp only [SearchExpression.nesting] at deep
    obtain ⟨levels, rfl⟩ := Nat.exists_eq_add_one_of_ne_zero (show levels ≠ 0 by omega)
    apply readsBack_or
    · exact first levels readableLeft plainLeft (by omega)
    · exact second levels readableRight plainRight (by omega)
  | not operand ih =>
    simp only [SearchExpression.nesting] at deep
    obtain ⟨levels, rfl⟩ := Nat.exists_eq_add_one_of_ne_zero (show levels ≠ 0 by omega)
    apply readsBack_not
    exact ih levels readable plain (by omega)

end Search

end EdmQuery
