import EdmQuery.Proofs.FollowedText

set_option autoImplicit false

namespace EdmQuery

namespace Parsing

/-- The nesting limit was reached. -/
def IsTooDeep {α : Type} (parsed : Parse α) : Prop := ∃ left, parsed = .error ⟨.tooDeep, left⟩

theorem IsTooDeep.bind {α β : Type} {first : Parse α} (deep : IsTooDeep first)
    (next : α → Parse β) : IsTooDeep (first >>= next) := by
  obtain ⟨left, rfl⟩ := deep
  exact ⟨left, rfl⟩

end Parsing

namespace Filter

open Parsing

variable (closing : List Char)

/-- What a parser reads, another one reads as well, or else it gets too deep in the text and a closing
parenthesis behind it. -/
def Cuts (other parser : Parser Node) : Prop :=
  ∀ text node rest, parser text = .ok (node, rest) →
    other text = .ok (node, rest) ∨ IsTooDeep (other (text ++ ')' :: closing))

structure Nested.Cuts (other nested : Nested) : Prop where
  leaves : nested.LeavesSuffix
  expression : Filter.Cuts closing other.expression nested.expression
  negation : Filter.Cuts closing other.negation nested.negation
  minus : Filter.Cuts closing other.minus nested.minus

/-- Where a parser may enter a level, another one may not, or enters a level that cuts. -/
def CutsWithin (other deeper : Option Nested) : Prop :=
  ∀ nested, deeper = some nested →
    other = none ∨ ∃ further, other = some further ∧ further.Cuts closing nested

variable {closing}

/-- Nothing goes on with what is read behind a closing parenthesis. -/
theorem Persists.closed {lowest : Nat} {parser : Parser Node}
    (persists : Persists (')' :: closing) lowest parser parser) {text rest : List Char} {node : Node}
    (read : parser text = .ok (node, rest)) :
    parser (text ++ ')' :: closing) = .ok (node, rest ++ ')' :: closing) :=
  persists text node rest read fun _ => ends_close lowest closing

section

variable {precedence lowest : Nat} {first first' : Parser Node}
variable {operand operand' : BinaryOperator → Parser Node}

theorem cuts_chain (cuts : ∀ operator, Cuts closing (operand operator) (operand' operator))
    (persists : ∀ operator,
      Persists (')' :: closing) lowest (operand operator) (operand operator))
    (leaves : ∀ operator, LeavesSuffix (operand operator)) {fuel fuel' : Nat}
    {text rest : List Char} {left node : Node}
    (read : chain precedence operand' fuel left text = .ok (node, rest))
    (enough : text.length ≤ fuel) (enough' : text.length ≤ fuel') :
    chain precedence operand fuel left text = .ok (node, rest) ∨
      IsTooDeep (chain precedence operand fuel' left (text ++ ')' :: closing)) := by
  induction fuel generalizing fuel' text left with
  | zero => exact .inl read
  | succ fuel ih =>
    rw [chain] at read
    split at read
    · rename_i none
      cases read
      exact .inl (chain_of_none none (fuel + 1))
    · rename_i operator behind found
      obtain ⟨⟨right, later⟩, second, read⟩ := Parse.bind_eq_ok read
      have shorter := operator?_shorter found
      have foundAgain : operator? precedence (text ++ ')' :: closing) =
          some (operator, behind ++ ')' :: closing) := by
        rw [operator?_before (delimited_close closing) (solid_of_operator? found), found]
        rfl
      obtain ⟨fuel', rfl⟩ := Nat.exists_eq_add_one_of_ne_zero (show fuel' ≠ 0 by omega)
      have step : chain precedence operand (fuel + 1) left text =
          (operand operator behind >>= fun found =>
            chain precedence operand fuel (.binary operator left found.1) found.2) := by
        rw [chain, found]
      have stepAgain : chain precedence operand (fuel' + 1) left (text ++ ')' :: closing) =
          (operand operator (behind ++ ')' :: closing) >>= fun found =>
            chain precedence operand fuel' (.binary operator left found.1) found.2) := by
        rw [chain, foundAgain]
      rw [step, stepAgain]
      rcases cuts operator behind right later second with same | deep
      · have notLonger := ((leaves operator).of_eq_ok same).length_le
        have below : later.length ≤ fuel := by omega
        have belowAgain : later.length ≤ fuel' := by omega
        rw [same, (persists operator).closed same]
        exact ih read below belowAgain
      · exact .inr (deep.bind _)

theorem Cuts.leftAssociative (begins : Cuts closing first first')
    (beginsAgain : Persists (')' :: closing) lowest first first)
    (cuts : ∀ operator, Cuts closing (operand operator) (operand' operator))
    (persists : ∀ operator,
      Persists (')' :: closing) lowest (operand operator) (operand operator))
    (leaves : ∀ operator, LeavesSuffix (operand operator)) :
    Cuts closing (leftAssociative precedence first operand)
      (leftAssociative precedence first' operand') := by
  intro text node rest read
  obtain ⟨⟨left, later⟩, begun, read⟩ := Parse.bind_eq_ok read
  rw [Filter.leftAssociative, Filter.leftAssociative]
  rcases begins text left later begun with same | deep
  · rw [same, beginsAgain.closed same]
    apply cuts_chain cuts persists leaves read (Nat.le_refl _)
    simp
  · exact .inr (deep.bind _)

end

/-- Items up to a closing parenthesis. -/
theorem cuts_moreItems {lowest : Nat} {item item' : Parser Node} (cuts : Cuts closing item item')
    (persists : Persists (')' :: closing) lowest item item) (leaves : LeavesSuffix item)
    {fuel fuel' : Nat} {text rest : List Char} {items : List Node}
    (read : moreItems item' fuel text = .ok (items, rest)) (enough : text.length ≤ fuel)
    (enough' : text.length ≤ fuel') (solid : skipGap rest ≠ []) :
    moreItems item fuel text = .ok (items, rest) ∨
      IsTooDeep (moreItems item fuel' (text ++ ')' :: closing)) := by
  induction fuel generalizing fuel' text items with
  | zero => exact .inl read
  | succ fuel ih =>
    unfold moreItems at read
    split at read
    · rename_i behind
      obtain ⟨⟨node, later⟩, one, read⟩ := Parse.bind_eq_ok read
      obtain ⟨⟨others, final⟩, more, read⟩ := Parse.bind_eq_ok read
      cases read
      simp only [List.length_cons] at enough enough'
      obtain ⟨fuel', rfl⟩ := Nat.exists_eq_add_one_of_ne_zero (show fuel' ≠ 0 by omega)
      have inside : skipGap later ≠ [] := ne_nil_of_moreItems more solid
      rw [moreItems, List.cons_append, moreItems]
      rcases cuts behind node later one with same | deep
      · have notLonger := (leaves.of_eq_ok same).length_le
        have gap := (skipGap_suffix later).length_le
        have below : (skipGap later).length ≤ fuel := by omega
        have belowAgain : (skipGap later).length ≤ fuel' := by omega
        rw [same, persists.closed same]
        simp only [bind_ok, skipGap_before inside]
        rcases ih more below belowAgain with again | deep
        · exact .inl (by rw [again]; rfl)
        · exact .inr (deep.bind _)
      · exact .inr (deep.bind _)
    · cases read
      rename_i other
      left
      unfold moreItems
      split
      · rename_i behind
        exact absurd rfl (other behind)
      · rfl

/-- Further items up to a closing parenthesis. -/
theorem cuts_closedItems {lowest : Nat} {item item' : Parser Node} (cuts : Cuts closing item item')
    (persists : Persists (')' :: closing) lowest item item) (leaves : LeavesSuffix item)
    {text behind rest : List Char} {items : List Node}
    (more : moreItems item' text.length text = .ok (items, behind))
    (closed : expect ')' .unexpected behind = .ok rest) :
    moreItems item text.length text = .ok (items, behind) ∨
      IsTooDeep (moreItems item (text ++ ')' :: closing).length (text ++ ')' :: closing)) := by
  apply cuts_moreItems cuts persists leaves more (Nat.le_refl _) _ (ne_nil_of_expect closed)
  simp

section

variable {other deeper : Option Nested} (within : CutsWithin closing other deeper)
  (again : PersistsWithin (')' :: closing) other other)

include within again

/-- A level that is entered is not there to enter, or it cuts, and reads the same when closed. -/
theorem CutsWithin.descend {text : List Char} {nested : Nested}
    (entered : Filter.descend deeper text = .ok nested) :
    (∀ text', IsTooDeep (Filter.descend other text')) ∨
      ∃ further, (∀ text', Filter.descend other text' = .ok further) ∧
        further.Cuts closing nested ∧ further.Persists (')' :: closing) further := by
  rcases within nested (descend_eq_ok entered) with rfl | ⟨further, rfl, cuts⟩
  · exact .inl fun text' => ⟨text', rfl⟩
  · obtain ⟨twin, same, persists⟩ := again further rfl
    cases same
    exact .inr ⟨further, fun _ => rfl, cuts, persists⟩

theorem cuts_group : Cuts closing (group other) (group deeper) := by
  intro text node rest read
  obtain ⟨nested, entered, read⟩ := Parse.bind_eq_ok read
  obtain ⟨⟨first, later⟩, one, read⟩ := Parse.bind_eq_ok read
  rw [group, group]
  rcases within.descend again entered with deep | ⟨further, enters, cuts, persists⟩
  · exact .inr ((deep _).bind _)
  rw [enters, enters, bind_ok, bind_ok]
  rcases cuts.expression text first later one with same | deep
  · rw [same, persists.expression.closed same, bind_ok, bind_ok]
    simp only at read ⊢
    split at read
    · exact .inl read
    · rename_i noClose
      obtain ⟨⟨items, final⟩, more, read⟩ := Parse.bind_eq_ok read
      obtain ⟨left, closed, read⟩ := Parse.bind_eq_ok read
      have solid : skipGap later ≠ [] := ne_nil_of_moreItems more (ne_nil_of_expect closed)
      have itemsCut := cuts_closedItems cuts.expression persists.expression
        persists.leaves.expression more closed
      rw [skipGap_before solid]
      rcases itemsCut with sameItems | deep
      · left
        rw [sameItems, bind_ok, closed]
        exact read
      · right
        split
        · rename_i behind starts
          exact absurd starts (ne_cons_before solid noClose behind)
        · exact deep.bind _
  · exact .inr (deep.bind _)

/-- The arguments of a call, which are no node by themselves. -/
theorem cuts_callArguments {text rest : List Char} {arguments : List Node}
    (read : callArguments deeper text = .ok (arguments, rest)) :
    callArguments other text = .ok (arguments, rest) ∨
      IsTooDeep (callArguments other (text ++ ')' :: closing)) := by
  obtain ⟨nested, entered, read⟩ := Parse.bind_eq_ok read
  rw [callArguments, callArguments]
  rcases within.descend again entered with deep | ⟨further, enters, cuts, persists⟩
  · exact .inr ((deep _).bind _)
  rw [enters, enters, bind_ok, bind_ok]
  split at read
  · exact .inl read
  · rename_i noClose
    obtain ⟨⟨first, later⟩, one, read⟩ := Parse.bind_eq_ok read
    obtain ⟨⟨items, final⟩, more, read⟩ := Parse.bind_eq_ok read
    obtain ⟨left, closed, read⟩ := Parse.bind_eq_ok read
    have solid : skipGap later ≠ [] := ne_nil_of_moreItems more (ne_nil_of_expect closed)
    have begins : skipGap text ≠ [] := by
      intro blank
      have left := cuts.leaves.expression.of_eq_ok one
      rw [blank, List.suffix_nil] at left
      exact solid (by rw [left]; rfl)
    have itemsCut := cuts_closedItems cuts.expression persists.expression
      persists.leaves.expression more closed
    have noCloseHere (behind : List Char) : skipGap text ++ ')' :: closing ≠ ')' :: behind :=
      ne_cons_before begins noClose behind
    rw [skipGap_before begins]
    rcases cuts.expression _ first later one with same | deep
    · rcases itemsCut with sameItems | deep
      · left
        rw [same, bind_ok]
        simp only [sameItems, bind_ok, closed]
        exact read
      · right
        split
        · rename_i behind starts
          exact absurd starts (noCloseHere behind)
        · rw [persists.expression.closed same, bind_ok]
          simp only [skipGap_before solid]
          exact deep.bind _
    · right
      split
      · rename_i behind starts
        exact absurd starts (noCloseHere behind)
      · exact deep.bind _

theorem cuts_lambdaBody (operator : LambdaOperator) (collection : Node) :
    Cuts closing (lambdaBody other operator collection) (lambdaBody deeper operator collection) := by
  intro text node rest read
  obtain ⟨nested, entered, read⟩ := Parse.bind_eq_ok read
  rw [lambdaBody, lambdaBody]
  rcases within.descend again entered with deep | ⟨further, enters, cuts, persists⟩
  · exact .inr ((deep _).bind _)
  rw [enters, enters, bind_ok, bind_ok]
  split at read
  · exact .inl read
  · rename_i noClose
    split at read
    · cases read
    · rename_i parameter behind named
      obtain ⟨colon, separated, read⟩ := Parse.bind_eq_ok read
      obtain ⟨⟨predicate, later⟩, one, read⟩ := Parse.bind_eq_ok read
      have begins : skipGap text ≠ [] := by
        intro blank
        rw [blank] at named
        cases named
      rcases cuts.expression _ predicate later one with same | deep
      · left
        rw [separated, bind_ok, same]
        exact read
      · right
        rw [skipGap_before begins]
        split
        · rename_i behind starts
          exact absurd starts (ne_cons_before begins noClose behind)
        · simp only [name?_before (delimited_close closing), named, Option.map_some,
            expect_before separated, bind_ok]
          exact deep.bind _

theorem cuts_pathRest {fuel fuel' : Nat} {path : PropertyPath} {text rest : List Char} {node : Node}
    (read : pathRest deeper fuel path text = .ok (node, rest)) (enough : text.length ≤ fuel') :
    pathRest other fuel path text = .ok (node, rest) ∨
      IsTooDeep (pathRest other fuel' path (text ++ ')' :: closing)) := by
  induction fuel generalizing fuel' path text with
  | zero => exact .inl read
  | succ fuel ih =>
    unfold pathRest at read
    split at read
    · rename_i behind
      simp only [List.length_cons] at enough
      obtain ⟨fuel', rfl⟩ := Nat.exists_eq_add_one_of_ne_zero (show fuel' ≠ 0 by omega)
      simp only [List.cons_append, pathRest, name?_before (delimited_close closing)]
      split at read
      · rename_i noName
        rw [noName]
        exact .inl read
      · rename_i segment later named
        have shorter := name?_shorter named
        have below : later.length ≤ fuel' := by omega
        rw [named]
        simp only [Option.map_some]
        split at read
        · rename_i operator body found
          simp only [found, List.cons_append]
          exact cuts_lambdaBody within again operator (.property path) _ _ _ read
        · rename_i noLambda
          rcases ih read below with same | deep
          · exact .inl same
          · right
            split
            · rename_i operator body found starts
              have noOpen := (delimited_close closing).ne_cons_before (by decide) fun body =>
                noLambda operator body found
              exact absurd starts (noOpen body)
            · exact deep
    · rename_i noSegment
      left
      unfold pathRest
      split
      · rename_i behind
        exact absurd rfl (noSegment behind)
      · exact read

theorem cuts_pathOrCall : Cuts closing (pathOrCall other) (pathOrCall deeper) := by
  intro text node rest read
  rw [pathOrCall] at read
  rw [pathOrCall, pathOrCall, name?_before (delimited_close closing)]
  split at read
  · cases read
  · rename_i first behind named
    have longer : behind.length ≤ (behind ++ ')' :: closing).length := by simp
    rw [named]
    simp only [Option.map_some]
    split at read
    · rename_i root
      rw [if_pos root, if_pos root]
      exact cuts_pathRest within again read longer
    · rename_i notRoot
      rw [if_neg notRoot, if_neg notRoot]
      split at read
      · rename_i body
        obtain ⟨⟨arguments, later⟩, given, read⟩ := Parse.bind_eq_ok read
        rcases cuts_callArguments within again given with same | deep
        · left
          rw [same]
          exact read
        · exact .inr (deep.bind _)
      · rename_i noCall
        rcases cuts_pathRest within again read longer with same | deep
        · exact .inl same
        · right
          split
          · rename_i body starts
            exact absurd starts ((delimited_close closing).ne_cons_before (by decide) noCall body)
          · exact deep

theorem cuts_primary : Cuts closing (primary other) (primary deeper) := by
  intro text node rest read
  have solid := solid_of_read (ignoresGap_primary deeper) rfl read
  rw [primary] at read
  rw [primary, primary, skipGap_before solid]
  split at read
  · rename_i behind opened
    rw [opened]
    exact cuts_group within again _ _ _ read
  · rename_i noGroup
    have carries := Literal.carries_read? (delimited_close closing) (skipGap text)
    have noGroupHere (behind : List Char) : skipGap text ++ ')' :: closing ≠ '(' :: behind :=
      ne_cons_before solid noGroup behind
    split at read
    · exact .inl read
    · rename_i noLiteral
      rcases cuts_pathOrCall within again _ _ _ read with same | deep
      · exact .inl same
      · right
        split
        · rename_i behind starts
          exact absurd starts (noGroupHere behind)
        · rw [carries.none noLiteral]
          exact deep

theorem cuts_minus : Cuts closing (minus other) (minus deeper) := by
  intro text node rest read
  have solid := solid_of_read (ignoresGap_minus deeper) rfl read
  rw [minus] at read
  rw [minus, minus, skipGap_before solid]
  split at read
  · rename_i behind signed
    obtain ⟨nested, entered, read⟩ := Parse.bind_eq_ok read
    obtain ⟨⟨operand, later⟩, inner, read⟩ := Parse.bind_eq_ok read
    rw [signed, List.cons_append]
    show _ ∨ IsTooDeep (Filter.descend other (behind ++ ')' :: closing) >>= _)
    rcases within.descend again entered with deep | ⟨further, enters, cuts, -⟩
    · exact .inr ((deep _).bind _)
    rw [enters, enters, bind_ok, bind_ok]
    rcases cuts.minus behind operand later inner with same | deep
    · left
      rw [same]
      exact read
    · exact .inr (deep.bind _)
  · rename_i noSign
    rcases cuts_primary within again _ _ _ read with same | deep
    · exact .inl same
    · right
      split
      · rename_i behind starts
        exact absurd starts (ne_cons_before solid noSign behind)
      · exact deep

theorem cuts_members : Cuts closing (members other) (members deeper) := by
  intro text node rest read
  obtain ⟨⟨found, later⟩, one, read⟩ := Parse.bind_eq_ok read
  rw [members, members]
  rcases cuts_primary within again _ _ _ one with same | deep
  · left
    rw [same]
    exact read
  · exact .inr (deep.bind _)

theorem cuts_product : Cuts closing (product other) (product deeper) := by
  have factors := cuts_minus within again
  have persists := persists_minus (delimited_close closing) again
  have leaves := leavesSuffix_minus again.leaves
  exact factors.leftAssociative persists (fun _ => factors) (fun _ => persists) fun _ => leaves

theorem cuts_sum : Cuts closing (sum other) (sum deeper) := by
  have products := cuts_product within again
  have persists := persists_product (delimited_close closing) again
  have leaves := leavesSuffix_product again.leaves
  exact products.leftAssociative persists (fun _ => products) (fun _ => persists) fun _ => leaves

theorem cuts_comparison : Cuts closing (comparison other) (comparison deeper) := by
  have delimited := delimited_close closing
  apply (cuts_sum within again).leftAssociative (persists_sum delimited again)
  · intro operator
    split
    · exact cuts_members within again
    · exact cuts_sum within again
  · intro operator
    split
    · exact persists_members delimited again
    · exact persists_sum delimited again
  · intro operator
    split
    · exact leavesSuffix_members again.leaves
    · exact leavesSuffix_sum again.leaves

theorem cuts_negation : Cuts closing (negation other) (negation deeper) := by
  intro text node rest read
  have solid := solid_of_read (ignoresGap_negation deeper) rfl read
  rw [negation] at read
  rw [negation, negation, skipGap_before solid, keyword?_before (delimited_close closing)]
  split at read
  · rename_i behind word
    obtain ⟨nested, entered, read⟩ := Parse.bind_eq_ok read
    obtain ⟨⟨operand, later⟩, inner, read⟩ := Parse.bind_eq_ok read
    rw [word]
    simp only [Option.map_some]
    rcases within.descend again entered with deep | ⟨further, enters, cuts, -⟩
    · exact .inr ((deep _).bind _)
    rw [enters, enters, bind_ok, bind_ok]
    rcases cuts.negation behind operand later inner with same | deep
    · left
      rw [same]
      exact read
    · exact .inr (deep.bind _)
  · rename_i none
    rw [none]
    exact cuts_comparison within again text node rest read

theorem cuts_conjunction : Cuts closing (conjunction other) (conjunction deeper) := by
  have negations := cuts_negation within again
  have persists := persists_negation (delimited_close closing) again
  have leaves := leavesSuffix_negation again.leaves
  exact negations.leftAssociative persists (fun _ => negations) (fun _ => persists) fun _ => leaves

theorem cuts_expression : Cuts closing (expression other) (expression deeper) := by
  have conjunctions := cuts_conjunction within again
  have persists := persists_conjunction (delimited_close closing) again
  have leaves := leavesSuffix_conjunction again.leaves
  have chains : Cuts closing (leftAssociative 1 (conjunction other) fun _ => conjunction other)
      (leftAssociative 1 (conjunction deeper) fun _ => conjunction deeper) :=
    conjunctions.leftAssociative persists (fun _ => conjunctions) (fun _ => persists) fun _ => leaves
  intro text node rest read
  rw [expression, (ignoresGap_conjunction deeper).leftAssociative] at read
  rw [expression, expression, (ignoresGap_conjunction other).leftAssociative,
    (ignoresGap_conjunction other).leftAssociative]
  exact chains text node rest read

end

variable (closing) in
/-- Whatever the grammar reads with some levels left, it reads with another number of them as well, or
it gets too deep. -/
theorem nested_cuts (levels levels' : Nat) :
    CutsWithin closing (nested levels) (nested levels') := by
  induction levels generalizing levels' with
  | zero =>
    intro inner found
    exact .inl rfl
  | succ levels ih =>
    intro inner found
    cases levels' with
    | zero => cases found
    | succ levels' =>
      have leaves := nested_leavesSuffix (levels' + 1) inner found
      cases found
      have within := ih levels'
      have again := nested_persists (delimited_close closing) (Nat.le_refl levels)
      exact .inr ⟨_, rfl, leaves, cuts_expression within again, cuts_negation within again,
        cuts_minus within again⟩

end Filter

end EdmQuery
