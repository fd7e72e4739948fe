import EdmQuery.Proofs.FilterText
import EdmQuery.Proofs.FollowedTokens

set_option autoImplicit false

namespace EdmQuery

namespace Filter

open Parsing

/-- No operator is tighter than the tightest ones. -/
theorem ends_tightest (text : List Char) : Ends 6 text := by
  intro precedence above
  rw [operator?]
  cases name? (skipGap text) with
  | none => rfl
  | some found =>
    simp only [Option.bind_some]
    cases BinaryOperator.ofKeyword? found.1 with
    | none => rfl
    | some operator =>
      have other : operator.precedence ≠ precedence := by
        cases operator <;> simp only [BinaryOperator.precedence] <;> omega
      simp [other]

theorem operator?_of_blank {precedence : Nat} {text : List Char} (blank : skipGap text = []) :
    operator? precedence text = none := by
  rw [operator?, blank]
  rfl

theorem solid_of_operator? {precedence : Nat} {text : List Char}
    {found : BinaryOperator × List Char} (read : operator? precedence text = some found) :
    skipGap text ≠ [] := by
  intro blank
  rw [operator?_of_blank blank] at read
  cases read

section

variable {tail : List Char} (delimited : Delimited tail)

include delimited

theorem operator?_before {precedence : Nat} {text : List Char} (solid : skipGap text ≠ []) :
    operator? precedence (text ++ tail) =
      (operator? precedence text).map fun found => (found.1, found.2 ++ tail) := by
  rw [operator?, operator?, skipGap_before solid, name?_before delimited]
  cases name? (skipGap text) with
  | none => rfl
  | some found =>
    simp only [Option.map_some, Option.bind_some]
    cases BinaryOperator.ofKeyword? found.1 with
    | none => rfl
    | some operator =>
      simp only [Option.bind_some]
      split <;> rfl

theorem operator?_none_before {precedence lowest : Nat} {text : List Char}
    (none : operator? precedence text = none) (above : lowest ≤ precedence)
    (ends : skipGap text = [] → Ends lowest tail) :
    operator? precedence (text ++ tail) = Option.none := by
  by_cases blank : skipGap text = []
  · have atTail := ends blank precedence above
    rw [operator?] at atTail ⊢
    rwa [skipGap_blank_before blank]
  · rw [operator?_before delimited blank, none]
    rfl

end

/-- What one parser reads of a text, the other one reads of the text with a tail behind it, and
leaves the tail. If nothing but a gap is left of the text, the tail must not go on with an operator
from a precedence on. -/
def Persists (tail : List Char) (lowest : Nat) (parser further : Parser Node) : Prop :=
  ∀ text node rest, parser text = .ok (node, rest) → (skipGap rest = [] → Ends lowest tail) →
    further (text ++ tail) = .ok (node, rest ++ tail)

theorem Persists.read {tail : List Char} {parser further : Parser Node}
    (persists : Persists tail 6 parser further) {text rest : List Char} {node : Node}
    (read : parser text = .ok (node, rest)) : further (text ++ tail) = .ok (node, rest ++ tail) :=
  persists text node rest read fun _ => ends_tightest tail

/-- What the parsers of one level read, those of another one read in front of a tail. -/
structure Nested.Persists (tail : List Char) (nested further : Nested) : Prop where
  leaves : nested.LeavesSuffix
  expression : Filter.Persists tail 1 nested.expression further.expression
  negation : Filter.Persists tail 3 nested.negation further.negation
  minus : Filter.Persists tail 6 nested.minus further.minus

section

variable {tail : List Char} (delimited : Delimited tail)

section

variable {precedence : Nat} {first first' : Parser Node}
variable {operand operand' : BinaryOperator → Parser Node}

/-- A loop over operators stops where only a gap is left. -/
theorem rest_of_blank {fuel : Nat} {text rest : List Char} {left node : Node}
    (read : chain precedence operand fuel left text = .ok (node, rest))
    (blank : skipGap text = []) : rest = text := by
  rw [chain_of_none (operator?_of_blank blank)] at read
  cases read
  rfl

include delimited

/-- Each step of a loop over operators is taken again; the loop stops again where it stopped. -/
theorem chain_before (leaves : ∀ operator, LeavesSuffix (operand operator))
    (persists : ∀ operator, Persists tail (precedence + 1) (operand operator) (operand' operator))
    {fuel fuel' : Nat} {text rest : List Char} {left node : Node}
    (read : chain precedence operand fuel left text = .ok (node, rest))
    (enough : text.length ≤ fuel) (enough' : text.length ≤ fuel')
    (ends : skipGap rest = [] → Ends precedence tail) :
    chain precedence operand' fuel' left (text ++ tail) = .ok (node, rest ++ tail) := by
  induction fuel generalizing fuel' text left with
  | zero =>
    cases read
    obtain rfl := List.eq_nil_of_length_eq_zero (Nat.le_zero.1 enough)
    exact chain_of_none (ends rfl precedence (Nat.le_refl precedence)) fuel'
  | succ fuel ih =>
    rw [chain] at read
    split at read
    · rename_i none
      cases read
      exact chain_of_none (operator?_none_before delimited none (Nat.le_refl precedence) ends) fuel'
    · rename_i operator behind found
      obtain ⟨⟨right, later⟩, second, read⟩ := Parse.bind_eq_ok read
      have shorter := operator?_shorter found
      have notLonger := ((leaves operator).of_eq_ok second).length_le
      -- a right operand that reaches up to the end is the last one
      have operandEnds : skipGap later = [] → Ends (precedence + 1) tail := by
        intro blank
        obtain rfl : rest = later := rest_of_blank read blank
        exact (ends blank).mono (Nat.le_succ precedence)
      cases fuel' with
      | zero => omega
      | succ fuel' =>
        rw [chain, operator?_before delimited (solid_of_operator? found), found]
        show (operand' operator (behind ++ tail) >>= _) = _
        rw [persists operator behind right later second operandEnds]
        exact ih read (by omega) (by omega)

theorem Persists.leftAssociative (begins : Persists tail (precedence + 1) first first')
    (leaves : ∀ operator, LeavesSuffix (operand operator))
    (persists : ∀ operator, Persists tail (precedence + 1) (operand operator) (operand' operator)) :
    Persists tail precedence (leftAssociative precedence first operand)
      (leftAssociative precedence first' operand') := by
  intro text node rest read ends
  obtain ⟨⟨left, later⟩, begun, read⟩ := Parse.bind_eq_ok read
  have firstEnds : skipGap later = [] → Ends (precedence + 1) tail := by
    intro blank
    obtain rfl : rest = later := rest_of_blank read blank
    exact (ends blank).mono (Nat.le_succ precedence)
  rw [Filter.leftAssociative, begins text left later begun firstEnds]
  apply chain_before delimited leaves persists read (Nat.le_refl _) _ ends
  simp

end

section

variable {item item' : Parser Node}

/-- Items that end in front of more than a gap do not end their text. -/
theorem ne_nil_of_moreItems {fuel : Nat} {text rest : List Char} {items : List Node}
    (read : moreItems item fuel text = .ok (items, rest)) (solid : skipGap rest ≠ []) :
    text ≠ [] := by
  rintro rfl
  apply solid
  cases fuel with
  | zero =>
    cases read
    rfl
  | succ fuel =>
    cases read
    rfl

theorem ne_nil_of_expect {char : Char} {cause : ParseCause} {text rest : List Char}
    (read : expect char cause text = .ok rest) : skipGap text ≠ [] := by
  intro blank
  rw [expect, blank] at read
  cases read

omit item item' in
/-- A text with a tail starts like the text. -/
theorem ne_cons_before {char : Char} {text : List Char} (begins : text ≠ [])
    (other : ∀ rest, text ≠ char :: rest) (rest : List Char) : text ++ tail ≠ char :: rest := by
  obtain ⟨first, others, rfl⟩ := List.exists_cons_of_ne_nil begins
  intro same
  rw [List.cons_append, List.cons.injEq] at same
  exact other others (by rw [same.1])

theorem moreItems_before (persists : Persists tail 1 item item') (leaves : LeavesSuffix item)
    {fuel fuel' : Nat} {text rest : List Char} {items : List Node}
    (read : moreItems item fuel text = .ok (items, rest)) (enough : text.length ≤ fuel)
    (enough' : text.length ≤ fuel') (solid : skipGap rest ≠ []) :
    moreItems item' fuel' (text ++ tail) = .ok (items, rest ++ tail) := by
  have begins := ne_nil_of_moreItems read solid
  have long := List.length_pos_iff.2 begins
  induction fuel generalizing fuel' text items with
  | zero => omega
  | succ fuel ih =>
    obtain ⟨fuel', rfl⟩ := Nat.exists_eq_add_one_of_ne_zero (show fuel' ≠ 0 by omega)
    unfold moreItems at read
    split at read
    · rename_i behind
      obtain ⟨⟨node, later⟩, one, read⟩ := Parse.bind_eq_ok read
      obtain ⟨⟨others, final⟩, more, read⟩ := Parse.bind_eq_ok read
      cases read
      have inside : skipGap later ≠ [] := ne_nil_of_moreItems more solid
      have notLonger := (leaves.of_eq_ok one).length_le
      have gap := (skipGap_suffix later).length_le
      have again := persists behind node later one fun none => absurd none inside
      simp only [List.length_cons] at enough enough'
      have enough : (skipGap later).length ≤ fuel ∧ (skipGap later).length ≤ fuel' := by omega
      have rest' := ih more enough.1 enough.2 inside (List.length_pos_iff.2 inside)
      simp only [List.cons_append, moreItems, again, bind_ok, skipGap_before inside, rest']
      rfl
    · rename_i other
      cases read
      rw [moreItems]
      exact ne_cons_before begins other

/-- Further items up to a closing parenthesis are read again. -/
theorem closedItems_before (persists : Persists tail 1 item item') (leaves : LeavesSuffix item)
    {text behind rest : List Char} {items : List Node}
    (more : moreItems item text.length text = .ok (items, behind))
    (closed : expect ')' .unexpected behind = .ok rest) :
    moreItems item' (text ++ tail).length (text ++ tail) = .ok (items, behind ++ tail) := by
  apply moreItems_before persists leaves more (Nat.le_refl _) _ (ne_nil_of_expect closed)
  rw [List.length_append]
  omega

end

section

variable {deeper deeper' : Option Nested}

/-- Where a parser may enter a level, another one may enter a level that persists. -/
def PersistsWithin (tail : List Char) (deeper deeper' : Option Nested) : Prop :=
  ∀ nested, deeper = some nested → ∃ further, deeper' = some further ∧ nested.Persists tail further

variable (within : PersistsWithin tail deeper deeper')

include within

theorem PersistsWithin.descend {text : List Char} {nested : Nested}
    (entered : Filter.descend deeper text = .ok nested) :
    ∃ further, nested.Persists tail further ∧
      ∀ text', Filter.descend deeper' text' = .ok further := by
  obtain ⟨further, rfl, persists⟩ := within nested (descend_eq_ok entered)
  exact ⟨further, persists, fun text' => rfl⟩

theorem PersistsWithin.leaves : ∀ nested, deeper = some nested → nested.LeavesSuffix := by
  intro nested found
  obtain ⟨further, -, persists⟩ := within nested found
  exact persists.leaves

theorem persists_group (lowest : Nat) : Persists tail lowest (group deeper) (group deeper') := by
  intro text node rest read _
  obtain ⟨nested, entered, read⟩ := Parse.bind_eq_ok read
  obtain ⟨further, persists, enters⟩ := within.descend entered
  obtain ⟨⟨first, later⟩, one, read⟩ := Parse.bind_eq_ok read
  have again (solid : skipGap later ≠ []) :
      further.expression (text ++ tail) = .ok (first, later ++ tail) :=
    persists.expression text first later one fun none => absurd none solid
  simp only at read
  split at read
  · rename_i behind closed
    cases read
    have solid : skipGap later ≠ [] := by simp [closed]
    simp only [group, enters, bind_ok, again solid, skipGap_before solid, closed, List.cons_append]
    rfl
  · rename_i others
    obtain ⟨⟨items, final⟩, more, read⟩ := Parse.bind_eq_ok read
    obtain ⟨left, closed, read⟩ := Parse.bind_eq_ok read
    cases read
    have solid : skipGap later ≠ [] := ne_nil_of_moreItems more (ne_nil_of_expect closed)
    simp only [group, enters, bind_ok, again solid, skipGap_before solid]
    split
    · rename_i behind starts
      exact absurd starts (ne_cons_before solid others behind)
    · simp only [closedItems_before persists.expression persists.leaves.expression more
        closed, bind_ok, expect_before closed]
      rfl

theorem callArguments_before {text rest : List Char} {arguments : List Node}
    (read : callArguments deeper text = .ok (arguments, rest)) :
    callArguments deeper' (text ++ tail) = .ok (arguments, rest ++ tail) := by
  obtain ⟨nested, entered, read⟩ := Parse.bind_eq_ok read
  obtain ⟨further, persists, enters⟩ := within.descend entered
  split at read
  · rename_i behind closed
    cases read
    have solid : skipGap text ≠ [] := by simp [closed]
    simp only [callArguments, enters, bind_ok, skipGap_before solid, closed, List.cons_append]
    rfl
  · rename_i others
    obtain ⟨⟨first, later⟩, one, read⟩ := Parse.bind_eq_ok read
    obtain ⟨⟨items, final⟩, more, read⟩ := Parse.bind_eq_ok read
    obtain ⟨left, closed, read⟩ := Parse.bind_eq_ok read
    cases read
    have solid : skipGap later ≠ [] := ne_nil_of_moreItems more (ne_nil_of_expect closed)
    have begins : skipGap text ≠ [] := by
      intro blank
      obtain rfl : later = [] := by
        have left := persists.leaves.expression.of_eq_ok one
        rwa [blank, List.suffix_nil] at left
      exact solid rfl
    have again := persists.expression _ first later one fun none => absurd none solid
    simp only [callArguments, enters, bind_ok, skipGap_before begins]
    split
    · rename_i behind starts
      exact absurd starts (ne_cons_before begins others behind)
    · simp only [again, bind_ok, skipGap_before solid, closedItems_before
        persists.expression persists.leaves.expression more closed, expect_before closed]
      rfl

include delimited

theorem persists_lambdaBody (lowest : Nat) (operator : LambdaOperator) (collection : Node) :
    Persists tail lowest (lambdaBody deeper operator collection)
      (lambdaBody deeper' operator collection) := by
  intro text node rest read _
  obtain ⟨nested, entered, read⟩ := Parse.bind_eq_ok read
  obtain ⟨further, persists, enters⟩ := within.descend entered
  split at read
  · rename_i behind closed
    have solid : skipGap text ≠ [] := by simp [closed]
    split at read
    · cases read
    · rename_i any
      cases read
      simp only [lambdaBody, enters, bind_ok, skipGap_before solid, closed, List.cons_append,
        if_neg any]
      rfl
  · rename_i others
    split at read
    · cases read
    · rename_i parameter behind named
      obtain ⟨colon, separated, read⟩ := Parse.bind_eq_ok read
      obtain ⟨⟨predicate, later⟩, one, read⟩ := Parse.bind_eq_ok read
      obtain ⟨left, closed, read⟩ := Parse.bind_eq_ok read
      cases read
      have begins : skipGap text ≠ [] := by
        intro blank
        rw [blank] at named
        cases named
      have solid := ne_nil_of_expect closed
      have again := persists.expression _ predicate later one fun none => absurd none solid
      simp only [lambdaBody, enters, bind_ok, skipGap_before begins]
      split
      · rename_i behind starts
        exact absurd starts (ne_cons_before begins others behind)
      · simp only [name?_before delimited, named, Option.map_some, expect_before separated, again,
          bind_ok, expect_before closed]
        rfl

theorem pathRest_before {fuel fuel' : Nat} {path : PropertyPath} {text rest : List Char}
    {node : Node} (read : pathRest deeper fuel path text = .ok (node, rest))
    (enough : text.length ≤ fuel) (enough' : text.length ≤ fuel') :
    pathRest deeper' fuel' path (text ++ tail) = .ok (node, rest ++ tail) := by
  induction fuel generalizing fuel' path text with
  | zero =>
    obtain rfl := List.eq_nil_of_length_eq_zero (Nat.le_zero.1 enough)
    cases read
    exact pathRest_end fuel' path delimited
  | succ fuel ih =>
    unfold pathRest at read
    split at read
    · rename_i behind
      simp only [List.length_cons] at enough enough'
      obtain ⟨fuel', rfl⟩ := Nat.exists_eq_add_one_of_ne_zero (show fuel' ≠ 0 by omega)
      split at read
      · rename_i noName
        cases read
        simp only [List.cons_append, pathRest, name?_before delimited, noName, Option.map_none]
      · rename_i segment later named
        have shorter := name?_shorter named
        simp only [List.cons_append, pathRest, name?_before delimited, named, Option.map_some]
        split at read
        · rename_i operator body found
          rw [List.cons_append]
          simp only [found]
          exact persists_lambdaBody delimited within 6 operator _ |>.read read
        · rename_i noLambda
          split
          · rename_i operator body found starts
            have noOpen := delimited.ne_cons_before (by decide) fun body =>
              noLambda operator body found
            exact absurd starts (noOpen body)
          · exact ih read (by omega) (by omega)
    · rename_i noSegment
      cases read
      unfold pathRest
      split
      · rfl
      · split
        · rename_i behind starts
          exact absurd starts (delimited.ne_cons_before (by decide) noSegment behind)
        · rfl

theorem persists_pathOrCall (lowest : Nat) :
    Persists tail lowest (pathOrCall deeper) (pathOrCall deeper') := by
  intro text node rest read _
  rw [pathOrCall] at read ⊢
  rw [name?_before delimited]
  split at read
  · cases read
  · rename_i first behind named
    have longer : behind.length ≤ (behind ++ tail).length := by simp
    rw [named]
    simp only [Option.map_some]
    split at read
    · rename_i root
      rw [if_pos root]
      exact pathRest_before delimited within read (Nat.le_refl _) longer
    · rename_i notRoot
      rw [if_neg notRoot]
      split at read
      · rename_i body
        obtain ⟨⟨arguments, later⟩, given, read⟩ := Parse.bind_eq_ok read
        cases read
        simp only [List.cons_append, callArguments_before within given, bind_ok]
        rfl
      · rename_i noCall
        split
        · rename_i body starts
          exact absurd starts (delimited.ne_cons_before (by decide) noCall body)
        · exact pathRest_before delimited within read (Nat.le_refl _) longer

omit delimited within in
/-- A parser that finds nothing in an empty text finds nothing in a gap. -/
theorem solid_of_read {parser : Parser Node} (ignores : IgnoresGap parser)
    (nothing : parser [] = .error ⟨.unexpected, []⟩) {text rest : List Char} {node : Node}
    (read : parser text = .ok (node, rest)) : skipGap text ≠ [] := by
  intro blank
  rw [← ignores, blank, nothing] at read
  cases read

theorem persists_primary (lowest : Nat) :
    Persists tail lowest (primary deeper) (primary deeper') := by
  intro text node rest read _
  have solid := solid_of_read (ignoresGap_primary deeper) rfl read
  rw [primary] at read ⊢
  rw [skipGap_before solid]
  split at read
  · rename_i behind opened
    rw [opened]
    exact (persists_group within 6).read read
  · rename_i noGroup
    split
    · rename_i behind starts
      exact absurd starts (ne_cons_before solid noGroup behind)
    · have carries := Literal.carries_read? delimited (skipGap text)
      split at read
      · rename_i parsed literal
        rw [read] at literal
        rw [carries.ok node rest literal]
      · rename_i noLiteral
        rw [carries.none noLiteral]
        exact (persists_pathOrCall delimited within 6).read read

theorem persists_minus : Persists tail 6 (minus deeper) (minus deeper') := by
  intro text node rest read _
  have solid := solid_of_read (ignoresGap_minus deeper) rfl read
  rw [minus] at read ⊢
  rw [skipGap_before solid]
  split at read
  · rename_i behind signed
    obtain ⟨nested, entered, read⟩ := Parse.bind_eq_ok read
    obtain ⟨further, persists, enters⟩ := within.descend entered
    obtain ⟨⟨operand, later⟩, inner, read⟩ := Parse.bind_eq_ok read
    cases read
    simp only [signed, List.cons_append, enters, bind_ok, persists.minus.read inner]
    rfl
  · rename_i noSign
    split
    · rename_i behind starts
      exact absurd starts (ne_cons_before solid noSign behind)
    · exact (persists_primary delimited within 6).read read

theorem persists_members : Persists tail 4 (members deeper) (members deeper') := by
  intro text node rest read _
  obtain ⟨⟨found, later⟩, one, read⟩ := Parse.bind_eq_ok read
  rw [members, (persists_primary delimited within 6).read one]
  simp only [bind_ok] at read ⊢
  split at read
  · cases read
    rfl
  · cases read
    rfl
  · cases read
    rfl

theorem persists_product : Persists tail 5 (product deeper) (product deeper') := by
  have factors := persists_minus delimited within
  have leaves := leavesSuffix_minus within.leaves
  exact factors.leftAssociative delimited (fun _ => leaves) fun _ => factors

theorem persists_sum : Persists tail 4 (sum deeper) (sum deeper') := by
  have products := persists_product delimited within
  have leaves := leavesSuffix_product within.leaves
  exact products.leftAssociative delimited (fun _ => leaves) fun _ => products

theorem persists_comparison : Persists tail 3 (comparison deeper) (comparison deeper') := by
  apply (persists_sum delimited within).leftAssociative delimited
  · intro operator
    split
    · exact leavesSuffix_members within.leaves
    · exact leavesSuffix_sum within.leaves
  · intro operator
    split
    · exact persists_members delimited within
    · exact persists_sum delimited within

theorem persists_negation : Persists tail 3 (negation deeper) (negation deeper') := by
  intro text node rest read ends
  have solid := solid_of_read (ignoresGap_negation deeper) rfl read
  rw [negation] at read ⊢
  rw [skipGap_before solid, keyword?_before delimited]
  split at read
  · rename_i behind word
    obtain ⟨nested, entered, read⟩ := Parse.bind_eq_ok read
    obtain ⟨further, persists, enters⟩ := within.descend entered
    obtain ⟨⟨operand, later⟩, inner, read⟩ := Parse.bind_eq_ok read
    cases read
    rw [word]
    simp only [Option.map_some, enters, bind_ok, persists.negation behind operand rest inner ends]
    rfl
  · rename_i none
    rw [none]
    exact persists_comparison delimited within text node rest read ends

theorem persists_conjunction : Persists tail 2 (conjunction deeper) (conjunction deeper') := by
  have negations := persists_negation delimited within
  have leaves := leavesSuffix_negation within.leaves
  exact negations.leftAssociative delimited (fun _ => leaves) fun _ => negations

theorem persists_expression : Persists tail 1 (expression deeper) (expression deeper') := by
  have conjunctions := persists_conjunction delimited within
  have leaves := leavesSuffix_conjunction within.leaves
  have chains := conjunctions.leftAssociative delimited (fun _ => leaves) fun _ => conjunctions
  intro text node rest read ends
  rw [expression, (ignoresGap_conjunction deeper).leftAssociative] at read
  rw [expression, (ignoresGap_conjunction deeper').leftAssociative]
  exact chains text node rest read ends

end

include delimited

/-- What the grammar reads with some levels left, it reads in front of a tail with as many levels or
more. -/
theorem nested_persists {levels levels' : Nat} (enough : levels ≤ levels') :
    PersistsWithin tail (nested levels) (nested levels') := by
  induction levels generalizing levels' with
  | zero =>
    intro inner found
    cases found
  | succ levels ih =>
    obtain ⟨more, rfl⟩ := Nat.exists_eq_add_of_le' enough
    have within := ih (Nat.le_add_left levels more)
    intro inner found
    have leaves := nested_leavesSuffix (levels + 1) inner found
    cases found
    exact ⟨_, rfl, leaves, persists_expression delimited within, persists_negation delimited within,
      persists_minus delimited within⟩

end

end Filter

end EdmQuery
