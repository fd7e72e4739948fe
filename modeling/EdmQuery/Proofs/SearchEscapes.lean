import Mathlib.Algebra.Ring.Nat
import EdmQuery.Proofs.SearchRemainders
import EdmQuery.Proofs.SearchText

set_option autoImplicit false

namespace EdmQuery

open Parsing

namespace Search

def backslashes (text : List Char) : Nat := text.count '\\'

theorem backslashes_append (first second : List Char) :
    backslashes (first ++ second) = backslashes first + backslashes second :=
  List.count_append

theorem backslashes_le_of_suffix {rest text : List Char} (suffix : rest <:+ text) :
    backslashes rest ≤ backslashes text := suffix.sublist.count_le '\\'

/-- How many backslashes there are at least in any text that a term is read from. Each quote and
each backslash in a phrase has one in front of it. -/
def escaped (term : SearchTerm) : Nat :=
  if term.isPhrase then term.text.toList.count '"' + 2 * backslashes term.text.toList
  else backslashes term.text.toList

def escapedAll (terms : List SearchTerm) : Nat := (terms.map escaped).sum

theorem escapedAll_append (first second : List SearchTerm) :
    escapedAll (first ++ second) = escapedAll first + escapedAll second := by
  rw [escapedAll, List.map_append, List.sum_append]
  rfl

/-- What a tree was read from has all its terms, and all their backslashes. -/
structure IsReadFrom (text : List Char) (tree : SearchExpression) (rest : List Char) : Prop where
  readable : ∀ term ∈ tree.terms, term.isReadable = true
  enough : escapedAll tree.terms + backslashes rest ≤ backslashes text

def Accounts (parser : Parser SearchExpression) : Prop :=
  ∀ text tree rest, parser text = .ok (tree, rest) → IsReadFrom text tree rest

theorem backslashes_cons (char : Char) (rest : List Char) :
    backslashes (char :: rest) = backslashes rest + if char = '\\' then 1 else 0 := by
  simp [backslashes, List.count_cons]

theorem phraseRest_map {char : Char} {text phrase rest : List Char}
    (read : (phraseRest text).map (fun found => (char :: found.1, found.2)) = .ok (phrase, rest)) :
    ∃ others, phraseRest text = .ok (others, rest) ∧ phrase = char :: others := by
  cases inner : phraseRest text with
  | error failure =>
    rw [inner] at read
    cases read
  | ok found =>
    rw [inner] at read
    cases read
    exact ⟨found.1, rfl, rfl⟩

theorem phraseRest_enough {text phrase rest : List Char}
    (read : phraseRest text = .ok (phrase, rest)) :
    phrase.count '"' + 2 * backslashes phrase + backslashes rest ≤ backslashes text := by
  induction text using phraseRest.induct generalizing phrase with
  | case1 => cases read
  | case2 behind =>
    cases read
    simp [backslashes]
  | case3 => cases read
  | case4 char behind ih =>
    obtain ⟨others, inner, rfl⟩ := phraseRest_map read
    have rest := ih inner
    simp only [List.count_cons, backslashes_cons, beq_iff_eq, if_true]
    by_cases backslash : char = '\\'
    · rw [if_pos backslash, if_neg (show char ≠ '"' by rw [backslash]; decide)]
      omega
    · rw [if_neg backslash]
      split <;> omega
  | case5 char behind noQuote noEnd noEscape ih =>
    rw [phraseRest] at read
    · obtain ⟨others, inner, rfl⟩ := phraseRest_map read
      have rest := ih inner
      -- a backslash would have been an escape, or the end of the text
      have noBackslash : char ≠ '\\' := by
        rintro rfl
        cases behind with
        | nil => exact noEnd rfl rfl
        | cons next later => exact noEscape next later rfl rfl
      simp only [List.count_cons, backslashes_cons, beq_iff_eq, if_neg noBackslash,
        if_neg (show char ≠ '"' from noQuote)]
      exact rest
    · exact noQuote
    · exact noEnd
    · exact noEscape

theorem word?_eq_some {text word rest : List Char} (read : word? text = some (word, rest)) :
    IsWord word ∧ text = word ++ rest := by
  rw [word?] at read
  split at read
  · cases read
  · rename_i nonempty
    cases read
    exact ⟨⟨nonempty, List.all_eq_true.1 List.all_takeWhile⟩, List.takeWhile_append_dropWhile.symm⟩

theorem operator?_enough {operator : String} {text rest : List Char}
    (read : operator? operator text = some rest) : backslashes rest ≤ backslashes text :=
  backslashes_le_of_suffix (operator?_suffix read)

theorem expect_enough {char : Char} {cause : ParseCause} {text rest : List Char}
    (read : expect char cause text = .ok rest) : backslashes rest ≤ backslashes text := by
  have gap := backslashes_le_of_suffix (skipGap_suffix text)
  rw [expect] at read
  split at read
  · rename_i first behind found
    split at read
    · cases read
      rw [found, backslashes_cons] at gap
      omega
    · cases read
  · cases read

theorem isReadFrom_term {text rest : List Char} {term : SearchTerm}
    (readable : term.isReadable = true)
    (enough : escaped term + backslashes rest ≤ backslashes text) :
    IsReadFrom text (.term term) rest := by
  constructor
  · exact List.forall_mem_singleton.2 readable
  · simpa [escapedAll, SearchExpression.terms] using enough

namespace IsReadFrom

variable {text behind rest : List Char} {left right : SearchExpression}

/-- What stands in front of a tree is only read over. -/
theorem before (reads : IsReadFrom behind left rest)
    (more : backslashes behind ≤ backslashes text) : IsReadFrom text left rest :=
  ⟨reads.readable, Nat.le_trans reads.enough more⟩

theorem leaving (reads : IsReadFrom text left behind)
    (less : backslashes rest ≤ backslashes behind) : IsReadFrom text left rest :=
  ⟨reads.readable, by have := reads.enough; omega⟩

theorem not (reads : IsReadFrom text left rest) : IsReadFrom text (.not left) rest :=
  ⟨reads.readable, reads.enough⟩

theorem append (first : IsReadFrom text left behind) (second : IsReadFrom behind right rest)
    {tree : SearchExpression} (terms : tree.terms = left.terms ++ right.terms) :
    IsReadFrom text tree rest := by
  constructor
  · rw [terms]
    exact List.forall_mem_append.2 ⟨first.readable, second.readable⟩
  · have enough := first.enough
    have enoughRight := second.enough
    rw [terms, escapedAll_append]
    omega

end IsReadFrom

section

variable {deeper : Option Nested}

theorem descend_eq_ok {nested : Nested} {text : List Char}
    (entered : descend deeper text = .ok nested) : deeper = some nested := by
  cases deeper with
  | none => cases entered
  | some inner =>
    cases entered
    rfl

/-- The parsers of a level account for what they read. -/
def Nested.Accounts (nested : Nested) : Prop :=
  Search.Accounts nested.disjunction ∧ Search.Accounts nested.negation

theorem accounts_moreConjuncts {operand : Parser SearchExpression} (operands : Accounts operand)
    {fuel : Nat} {start text rest : List Char} {left tree : SearchExpression}
    (first : IsReadFrom start left text)
    (read : moreConjuncts operand fuel left text = .ok (tree, rest)) :
    IsReadFrom start tree rest := by
  induction fuel generalizing left text with
  | zero =>
    cases read
    exact first
  | succ fuel ih =>
    rw [moreConjuncts] at read
    split at read
    · rename_i behind found
      obtain ⟨⟨right, later⟩, second, read⟩ := Parse.bind_eq_ok read
      have reads := (operands _ _ _ second).before (operator?_enough found)
      exact ih (first.append reads rfl) read
    · split at read
      · cases read
        exact first
      · obtain ⟨⟨right, later⟩, second, read⟩ := Parse.bind_eq_ok read
        exact ih (first.append (operands _ _ _ second) rfl) read

theorem accounts_moreDisjuncts {operand : Parser SearchExpression} (operands : Accounts operand)
    {fuel : Nat} {start text rest : List Char} {left tree : SearchExpression}
    (first : IsReadFrom start left text)
    (read : moreDisjuncts operand fuel left text = .ok (tree, rest)) :
    IsReadFrom start tree rest := by
  induction fuel generalizing left text with
  | zero =>
    cases read
    exact first
  | succ fuel ih =>
    rw [moreDisjuncts] at read
    split at read
    · rename_i behind found
      obtain ⟨⟨right, later⟩, second, read⟩ := Parse.bind_eq_ok read
      have reads := (operands _ _ _ second).before (operator?_enough found)
      exact ih (first.append reads rfl) read
    · cases read
      exact first

variable (below : ∀ nested, deeper = some nested → nested.Accounts)

include below

theorem accounts_primary : Accounts (primary deeper) := by
  intro text tree rest read
  have gap := backslashes_le_of_suffix (skipGap_suffix text)
  rw [primary] at read
  split at read
  · rename_i behind opened
    obtain ⟨nested, entered, read⟩ := Parse.bind_eq_ok read
    obtain ⟨⟨inner, later⟩, grouped, read⟩ := Parse.bind_eq_ok read
    obtain ⟨final, closed, read⟩ := Parse.bind_eq_ok read
    cases read
    rw [opened] at gap
    have more := backslashes_cons '(' behind
    exact (((below nested (descend_eq_ok entered)).1 _ _ _ grouped).leaving
      (expect_enough closed)).before (by omega)
  · rename_i behind opened
    cases quoted : phraseRest behind with
    | error failure =>
      rw [quoted] at read
      cases read
    | ok found =>
      rw [quoted] at read
      cases read
      have enough := phraseRest_enough quoted
      rw [opened, backslashes_cons, if_neg (by decide)] at gap
      apply isReadFrom_term rfl
      simp only [escaped, SearchTerm.phrase, if_true, String.toList_ofList]
      omega
  · split at read
    · cases read
    · rename_i word behind found
      obtain ⟨isWord, spelled⟩ := word?_eq_some found
      split at read
      · cases read
      · rename_i noOperator
        cases read
        rw [spelled, backslashes_append] at gap
        apply isReadFrom_term
        · exact isReadable_of_isWord isWord noOperator
        · simpa [escaped, SearchTerm.word] using gap

theorem accounts_negation : Accounts (negation deeper) := by
  intro text tree rest read
  rw [negation] at read
  split at read
  · rename_i behind found
    obtain ⟨nested, entered, read⟩ := Parse.bind_eq_ok read
    obtain ⟨⟨operand, later⟩, inner, read⟩ := Parse.bind_eq_ok read
    cases read
    have reads := (below nested (descend_eq_ok entered)).2 _ _ _ inner
    exact (reads.before (operator?_enough found)).not
  · exact accounts_primary below _ _ _ read

theorem accounts_conjunction : Accounts (conjunction deeper) := by
  intro text tree rest read
  have operands := accounts_negation below
  obtain ⟨⟨left, later⟩, first, read⟩ := Parse.bind_eq_ok read
  exact accounts_moreConjuncts operands (operands _ _ _ first) read

theorem accounts_disjunction : Accounts (disjunction deeper) := by
  intro text tree rest read
  have operands := accounts_conjunction below
  obtain ⟨⟨left, later⟩, first, read⟩ := Parse.bind_eq_ok read
  exact accounts_moreDisjuncts operands (operands _ _ _ first) read

end

theorem nested_accounts (levels : Nat) :
    ∀ inner, nested levels = some inner → inner.Accounts := by
  induction levels with
  | zero =>
    intro inner found
    cases found
  | succ levels ih =>
    intro inner found
    cases found
    exact ⟨accounts_disjunction ih, accounts_negation ih⟩

/-- An accepted search has terms that can be read, and its text has backslashes enough for them. -/
theorem isReadFrom_of_ofText {source : String} {tree : SearchExpression}
    (parsed : ofText source = .ok tree) : ∃ rest, IsReadFrom source.toList tree rest := by
  obtain ⟨rest, read, -⟩ := complete_eq_ok parsed
  have reads := accounts_disjunction (nested_accounts maxDepth) _ _ _ read
  exact ⟨rest, reads.before (backslashes_le_of_suffix (skipGap_suffix _))⟩

/-- The backslashes that are not escaped where a term is printed. -/
def unescaped (term : SearchTerm) : Nat :=
  if term.isPhrase then backslashes term.text.toList else 0

theorem backslashes_quoted (phrase : List Char) :
    backslashes (phrase.flatMap fun char => if char = '"' then ['\\', '"'] else [char]) =
      phrase.count '"' + backslashes phrase := by
  induction phrase with
  | nil => rfl
  | cons char others ih =>
    simp only [List.flatMap_cons, backslashes_append, ih, List.count_cons, backslashes_cons,
      beq_iff_eq]
    by_cases quote : char = '"'
    · subst quote
      have marks : backslashes (if '"' = '"' then ['\\', '"'] else ['"']) = 1 := by decide
      rw [marks, if_pos rfl, if_neg (by decide)]
      omega
    · have mark : backslashes [char] = if char = '\\' then 1 else 0 := by
        rw [backslashes_cons]
        exact Nat.zero_add _
      rw [if_neg quote, if_neg quote, mark]
      omega

theorem escaped_eq (term : SearchTerm) :
    escaped term = backslashes term.spell + unescaped term := by
  obtain ⟨text, isPhrase⟩ := term
  cases isPhrase with
  | false => rfl
  | true =>
    have none : backslashes [] = 0 := rfl
    have mark : ∀ rest, backslashes ('"' :: rest) = backslashes rest := backslashes_cons '"'
    simp only [escaped, unescaped, SearchTerm.spell, if_true, List.cons_append, mark,
      backslashes_append, none, backslashes_quoted]
    omega

/-- Operands and an operator in parentheses have the backslashes of the operands. -/
theorem backslashes_group (left right : List Char) {operator : String}
    (noBackslash : backslashes operator.toList = 0) :
    backslashes ('(' :: left ++ operator.toList ++ right ++ [')']) =
      backslashes left + backslashes right := by
  have closing : backslashes [')'] = 0 := by decide
  have opening : backslashes ('(' :: left) = backslashes left := backslashes_cons '(' left
  rw [backslashes_append, backslashes_append, backslashes_append, opening, noBackslash, closing]
  rfl

theorem escapedAll_eq (tree : SearchExpression) :
    escapedAll tree.terms = backslashes tree.spell + (tree.terms.map unescaped).sum := by
  induction tree with
  | term term =>
    have one := escaped_eq term
    simpa only [escapedAll, SearchExpression.terms, SearchExpression.spell, List.map_cons,
      List.map_nil, List.sum_cons, List.sum_nil, Nat.add_zero] using one
  | and left right first second =>
    rw [SearchExpression.spell, backslashes_group _ _ (by decide), SearchExpression.terms,
      escapedAll_append, first, second, List.map_append, List.sum_append]
    omega
  | or left right first second =>
    rw [SearchExpression.spell, backslashes_group _ _ (by decide), SearchExpression.terms,
      escapedAll_append, first, second, List.map_append, List.sum_append]
    omega
  | not operand ih =>
    have opening : backslashes "NOT ".toList = 0 := by decide
    rw [SearchExpression.spell, backslashes_append, opening, Nat.zero_add]
    exact ih

/-- If the canonical text has backslashes enough, none of them is without its escape. -/
theorem plain_of_escapedAll_le {tree : SearchExpression}
    (enough : escapedAll tree.terms ≤ backslashes tree.spell) :
    ∀ term ∈ tree.terms, term.IsPlain := by
  rw [escapedAll_eq] at enough
  have none : (tree.terms.map unescaped).sum = 0 := by omega
  intro term inside
  have noneHere : unescaped term = 0 :=
    List.sum_eq_zero_iff_forall_eq_nat.1 none _ (List.mem_map_of_mem inside)
  intro isPhrase
  rw [unescaped, if_pos isPhrase] at noneHere
  exact List.count_eq_zero.1 noneHere

theorem disjunction_skipGap (deeper : Option Nested) (text : List Char) :
    disjunction deeper (skipGap text) = disjunction deeper text := by
  have operators : ∀ operator, operator? operator (skipGap text) = operator? operator text := by
    intro operator
    rw [operator?, operator?, skipGap_skipGap]
  have negations : negation deeper (skipGap text) = negation deeper text := by
    rw [negation, negation, operators, primary, primary, skipGap_skipGap]
  rw [disjunction, disjunction, conjunction, conjunction, negations]

theorem ofText_of_readsBack {tree : SearchExpression} (back : ReadsBack maxDepth tree) :
    ofText tree.render = .ok tree := by
  have read := back [] stopsAt_nil
  rw [List.append_nil] at read
  have whole : disjunction (nested maxDepth) tree.spell = .ok (tree, []) :=
    disjunction_of_conjunction (conjunction_of_negation read rfl rfl) rfl
  rw [ofText, complete, SearchExpression.render, String.toList_ofList, disjunction_skipGap, whole]
  rfl

/-- The canonical text of an accepted search is read as that search if and only if no phrase in it
has a backslash. -/
theorem ofText_render_iff {source : String} {tree : SearchExpression}
    (accepted : ofText source = .ok tree) (deep : tree.nesting ≤ maxDepth) :
    ofText tree.render = .ok tree ↔ ∀ term ∈ tree.terms, term.IsPlain := by
  constructor
  · intro again
    obtain ⟨rest, accounted⟩ := isReadFrom_of_ofText again
    have enough := accounted.enough
    rw [SearchExpression.render, String.toList_ofList] at enough
    exact plain_of_escapedAll_le (by omega)
  · intro plain
    obtain ⟨rest, accounted⟩ := isReadFrom_of_ofText accepted
    exact ofText_of_readsBack (readsBack_of_plain tree maxDepth accounted.readable plain deep)

theorem ofText_render_iff_words :
    let source := "a\\b\"say \\\"OR\\\" ()\" OR (NOT or)"
    let tree : SearchExpression := .or
      (.and (.term (.word "a\\b")) (.term (.phrase "say \"OR\" ()"))) (.not (.term (.word "or")))
    ofText source = .ok tree ∧ tree.nesting ≤ maxDepth ∧ (∀ term ∈ tree.terms, term.IsPlain) ∧
      (ofText tree.render = .ok tree ↔ ∀ term ∈ tree.terms, term.IsPlain) := by
  intro source tree
  have accepted : ofText source = .ok tree := by
    dsimp only [source, tree]
    cbv
  exact ⟨accepted, by decide, by decide, ofText_render_iff accepted (by decide)⟩

/-- A phrase that is a backslash is read from its escape, but printed without. -/
theorem ofText_backslash :
    let tree : SearchExpression := .term (.phrase "\\")
    ofText "\"\\\\\"" = .ok tree ∧ tree.nesting ≤ maxDepth ∧ tree.render = "\"\\\"" ∧
      ofText tree.render ≠ .ok tree := by
  intro tree
  refine ⟨by rfl, by decide, by rfl, ?_⟩
  intro same
  have refused : (ofText "\"\\\"").isOk = false := by rfl
  have printed : tree.render = "\"\\\"" := by rfl
  rw [← printed, same] at refused
  cases refused

end Search

end EdmQuery
