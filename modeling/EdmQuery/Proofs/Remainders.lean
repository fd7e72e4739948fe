import EdmQuery.Proofs.ParsedTrees

set_option autoImplicit false

namespace EdmQuery

namespace Parsing

section

variable {α β : Type}

/-- The text behind a result, or the text that was left when the parser failed. -/
def leftOf : Parse (α × List Char) → List Char
  | .ok (_, rest) => rest
  | .error failure => failure.rest

/-- A parser that leaves an end of its text. -/
def LeavesSuffix (parser : Parser α) : Prop := ∀ text, leftOf (parser text) <:+ text

theorem LeavesSuffix.of_eq_ok {parser : Parser α} (leaves : LeavesSuffix parser)
    {text rest : List Char} {value : α} (read : parser text = .ok (value, rest)) :
    rest <:+ text := by
  have left := leaves text
  rwa [read] at left

theorem leftOf_map (parsed : Parse (α × List Char)) (change : α → β) :
    leftOf (parsed.map fun found => (change found.1, found.2)) = leftOf parsed := by
  cases parsed <;> rfl

/-- What a sequence of steps leaves, if the first one leaves an end of the text and the others leave
an end of that. -/
theorem suffix_bind {text : List Char} {first : Parse (α × List Char)}
    {next : α × List Char → Parse (β × List Char)} (begins : leftOf first <:+ text)
    (goes : ∀ value rest, first = .ok (value, rest) → leftOf (next (value, rest)) <:+ rest) :
    leftOf (first >>= next) <:+ text := by
  cases first with
  | error failure => exact begins
  | ok found => exact (goes found.1 found.2 rfl).trans begins

theorem skipGap_suffix (text : List Char) : skipGap text <:+ text := List.dropWhile_suffix isGap

theorem suffix_expect {text : List Char} {char : Char} {cause : ParseCause}
    {next : List Char → Parse (β × List Char)} (goes : ∀ rest, leftOf (next rest) <:+ rest) :
    leftOf (expect char cause text >>= next) <:+ text := by
  have begins := skipGap_suffix text
  rw [expect]
  split
  · rename_i first rest found
    rw [found] at begins
    split
    · exact ((goes rest).trans (List.suffix_cons first rest)).trans begins
    · exact begins
  · exact List.nil_suffix

theorem name?_suffix {text rest : List Char} {name : String}
    (read : name? text = some (name, rest)) : rest <:+ text := by
  cases text with
  | nil => cases read
  | cons char others =>
    rw [name?] at read
    split at read
    · cases read
      exact (List.dropWhile_suffix isNamePart).trans (List.suffix_cons char others)
    · cases read

theorem name?_shorter {text rest : List Char} {name : String}
    (read : name? text = some (name, rest)) : rest.length < text.length := by
  cases text with
  | nil => cases read
  | cons char others =>
    rw [name?] at read
    split at read
    · cases read
      have inside := (List.dropWhile_suffix isNamePart (l := others)).length_le
      simp only [List.length_cons]
      omega
    · cases read

theorem keyword?_suffix {word : String} {text rest : List Char}
    (read : keyword? word text = some rest) : rest <:+ text := by
  obtain ⟨⟨name, behind⟩, named, same⟩ := Option.bind_eq_some_iff.1 read
  dsimp only at same
  split at same
  · cases same
    exact name?_suffix named
  · cases same

end

end Parsing

namespace Literal

open Parsing

/-- A quoted text that does not end fails at its last segment, which began before. -/
theorem suffix_stringRest {whole : List Char} (segment text : List Char) (inside : text <:+ whole)
    (before : segment <:+ whole) : leftOf (stringRest segment text) <:+ whole := by
  induction segment, text using stringRest.induct with
  | case1 segment => exact before
  | case2 segment rest ih =>
    have behind : rest <:+ whole :=
      ((List.suffix_cons _ _).trans (List.suffix_cons _ _)).trans inside
    rw [stringRest, leftOf_map]
    exact ih behind behind
  | case3 segment rest other =>
    rw [stringRest]
    · exact (List.suffix_cons _ _).trans inside
    · exact other
  | case4 segment char rest other other' ih =>
    rw [stringRest, leftOf_map]
    · exact ih ((List.suffix_cons _ _).trans inside) before
    · exact other
    · exact other'

theorem suffix_valueOf {type : PrimitiveType} {token : String} {start rest text : List Char}
    (inside : start <:+ text) (behind : rest <:+ text) :
    leftOf (valueOf type token start rest) <:+ text := by
  rw [valueOf]
  split
  · exact behind
  · exact inside

section

variable {text : List Char} {parsed : Parse (Primitive × List Char)}

theorem suffix_binary? (read : binary? text = some parsed) : leftOf parsed <:+ text := by
  rw [binary?] at read
  split at read
  · cases read
    have inside := List.drop_suffix 7 text
    have left := suffix_stringRest (text.drop 7) (text.drop 7) inside inside
    revert left
    cases stringRest (text.drop 7) (text.drop 7) with
    | error failure => exact id
    | ok found => exact suffix_valueOf List.suffix_rfl
  · cases read

theorem suffix_string? (read : string? text = some parsed) : leftOf parsed <:+ text := by
  unfold string? at read
  split at read
  · rename_i rest
    cases read
    rw [leftOf_map _ fun text => Primitive.string (String.ofList text)]
    have inside := List.suffix_cons '\'' rest
    exact suffix_stringRest _ _ inside inside
  · cases read

theorem suffix_temporal? (read : temporal? text = some parsed) : leftOf parsed <:+ text := by
  obtain ⟨type, _, rfl⟩ := Option.map_eq_some_iff.1 read
  exact suffix_valueOf List.suffix_rfl (List.dropWhile_suffix isTokenChar)

theorem suffix_fraction? {digits rest : List Char} (read : fraction? text = some (digits, rest)) :
    rest <:+ text := by
  unfold fraction? at read
  split at read
  · dsimp only at read
    split at read
    · cases read
    · cases read
      exact (List.dropWhile_suffix isAsciiDigit).trans (List.suffix_cons _ _)
  · cases read

/-- Whether an exponent is negative, and the text behind its sign. -/
def exponentSign : List Char → Bool × List Char
  | '+' :: digits => (false, digits)
  | '-' :: digits => (true, digits)
  | rest => (false, rest)

omit text parsed in
theorem exponent?_cons (mark : Char) (rest : List Char) :
    exponent? (mark :: rest) =
      if mark = 'e' ∨ mark = 'E' then
        if (exponentSign rest).2.takeWhile isAsciiDigit = [] then none
        else some (((exponentSign rest).1, (exponentSign rest).2.takeWhile isAsciiDigit),
          (exponentSign rest).2.dropWhile isAsciiDigit)
      else none := by
  cases rest with
  | nil => rfl
  | cons sign digits =>
    by_cases plus : sign = '+'
    · subst plus
      rfl
    · by_cases minus : sign = '-'
      · subst minus
        rfl
      · simp [exponent?, exponentSign, plus, minus]

omit text parsed in
theorem exponentSign_suffix (rest : List Char) : (exponentSign rest).2 <:+ rest := by
  unfold exponentSign
  split
  · exact List.suffix_cons _ _
  · exact List.suffix_cons _ _
  · exact List.suffix_rfl

theorem suffix_exponent? {found : Bool × List Char} {rest : List Char}
    (read : exponent? text = some (found, rest)) : rest <:+ text := by
  cases text with
  | nil => cases read
  | cons mark others =>
    rw [exponent?_cons] at read
    split at read
    · split at read
      · cases read
      · cases read
        exact ((List.dropWhile_suffix isAsciiDigit).trans (exponentSign_suffix others)).trans
          (List.suffix_cons mark others)
    · cases read

theorem suffix_numberToken? {token : NumberToken} {rest : List Char}
    (read : numberToken? text = some (token, rest)) : rest <:+ text := by
  rw [numberToken?] at read
  split at read
  · cases read
  · dsimp only at read
    have begins := List.dropWhile_suffix isAsciiDigit (l := text)
    cases point : fraction? (text.dropWhile isAsciiDigit) with
    | none =>
      simp only [point] at read
      split at read
      · rename_i found
        cases read
        exact (suffix_exponent? found).trans begins
      · cases read
        exact begins
    | some digits =>
      have behind := (suffix_fraction? point).trans begins
      simp only [point] at read
      split at read
      · rename_i found
        cases read
        exact (suffix_exponent? found).trans behind
      · cases read
        exact behind

theorem suffix_number? (read : number? text = some parsed) : leftOf parsed <:+ text := by
  obtain ⟨⟨token, rest⟩, tokenRead, rfl⟩ := Option.map_eq_some_iff.1 read
  dsimp only
  split
  · exact suffix_numberToken? tokenRead
  · exact List.suffix_rfl

end

theorem suffix_read? {text : List Char} {parsed : Parse (Node × List Char)}
    (read : read? text = some parsed) : leftOf parsed <:+ text := by
  rw [read?, Option.or_eq_some_iff] at read
  rcases read with word | ⟨-, value⟩
  · obtain ⟨⟨name, rest⟩, named, listed⟩ := Option.bind_eq_some_iff.1 word
    obtain ⟨node, -, rfl⟩ := Option.map_eq_some_iff.1 listed
    exact name?_suffix named
  · obtain ⟨inner, found, rfl⟩ := Option.map_eq_some_iff.1 value
    rw [leftOf_map _ Node.literal]
    rw [Option.or_eq_some_iff, Option.or_eq_some_iff, Option.or_eq_some_iff] at found
    rcases found with binary | ⟨-, string | ⟨-, temporal | ⟨-, number⟩⟩⟩
    · exact suffix_binary? binary
    · exact suffix_string? string
    · exact suffix_temporal? temporal
    · exact suffix_number? number

end Literal

namespace Filter

open Parsing

theorem exists_of_operator? {precedence : Nat} {text rest : List Char}
    {operator : BinaryOperator} (read : operator? precedence text = some (operator, rest)) :
    ∃ word, name? (skipGap text) = some (word, rest) := by
  obtain ⟨⟨word, behind⟩, named, same⟩ := Option.bind_eq_some_iff.1 read
  obtain ⟨found, -, same⟩ := Option.bind_eq_some_iff.1 same
  split at same
  · cases same
    exact ⟨word, named⟩
  · cases same

theorem operator?_suffix {precedence : Nat} {text rest : List Char} {operator : BinaryOperator}
    (read : operator? precedence text = some (operator, rest)) : rest <:+ text := by
  obtain ⟨word, named⟩ := exists_of_operator? read
  exact (name?_suffix named).trans (skipGap_suffix text)

theorem operator?_shorter {precedence : Nat} {text rest : List Char} {operator : BinaryOperator}
    (read : operator? precedence text = some (operator, rest)) : rest.length < text.length := by
  obtain ⟨word, named⟩ := exists_of_operator? read
  exact Nat.lt_of_lt_of_le (name?_shorter named) (skipGap_suffix text).length_le

/-- The parsers of a level leave ends of their texts. -/
structure Nested.LeavesSuffix (nested : Nested) : Prop where
  expression : Parsing.LeavesSuffix nested.expression
  negation : Parsing.LeavesSuffix nested.negation
  minus : Parsing.LeavesSuffix nested.minus

section

variable {precedence : Nat} {first : Parser Node} {operand : BinaryOperator → Parser Node}

theorem suffix_chain (operands : ∀ operator, LeavesSuffix (operand operator)) (fuel : Nat)
    (left : Node) : LeavesSuffix (chain precedence operand fuel left) := by
  induction fuel generalizing left with
  | zero =>
    intro text
    exact List.suffix_rfl
  | succ fuel ih =>
    intro text
    rw [chain]
    split
    · exact List.suffix_rfl
    · rename_i operator rest found
      refine List.IsSuffix.trans ?_ (operator?_suffix found)
      apply suffix_bind (operands operator rest)
      intro right behind _
      exact ih _ behind

theorem leavesSuffix_leftAssociative (begins : LeavesSuffix first)
    (operands : ∀ operator, LeavesSuffix (operand operator)) :
    LeavesSuffix (leftAssociative precedence first operand) := by
  intro text
  rw [leftAssociative]
  apply suffix_bind (begins text)
  intro left rest _
  exact suffix_chain operands rest.length left rest

end

theorem leavesSuffix_moreItems {item : Parser Node} (items : LeavesSuffix item) (fuel : Nat) :
    LeavesSuffix (moreItems item fuel) := by
  induction fuel with
  | zero =>
    intro text
    exact List.suffix_rfl
  | succ fuel ih =>
    intro text
    unfold moreItems
    split
    · rename_i rest
      refine List.IsSuffix.trans ?_ (List.suffix_cons ',' rest)
      apply suffix_bind (items rest)
      intro node behind _
      refine List.IsSuffix.trans ?_ (skipGap_suffix behind)
      apply suffix_bind (ih _)
      intro others last _
      exact List.suffix_rfl
    · exact List.suffix_rfl

section

variable {deeper : Option Nested} (below : ∀ nested, deeper = some nested → nested.LeavesSuffix)

theorem suffix_descend {β : Type} {text : List Char} {next : Nested → Parse (β × List Char)}
    (goes : ∀ nested, deeper = some nested → leftOf (next nested) <:+ text) :
    leftOf (descend deeper text >>= next) <:+ text := by
  cases deeper with
  | none => exact List.suffix_rfl
  | some nested => exact goes nested rfl

include below

theorem leavesSuffix_group : LeavesSuffix (group deeper) := by
  intro text
  rw [group]
  apply suffix_descend
  intro nested entered
  have inner := (below nested entered).expression
  apply suffix_bind (inner text)
  intro node rest _
  refine List.IsSuffix.trans ?_ (skipGap_suffix rest)
  dsimp only
  split
  · rename_i behind closed
    rw [closed]
    exact List.suffix_cons ')' behind
  · apply suffix_bind (leavesSuffix_moreItems inner _ _)
    intro items behind _
    apply suffix_expect
    intro last
    exact List.suffix_rfl

theorem leavesSuffix_callArguments : LeavesSuffix (callArguments deeper) := by
  intro text
  rw [callArguments]
  apply suffix_descend
  intro nested entered
  have inner := (below nested entered).expression
  refine List.IsSuffix.trans ?_ (skipGap_suffix text)
  split
  · rename_i behind closed
    rw [closed]
    exact List.suffix_cons ')' behind
  · apply suffix_bind (inner _)
    intro node rest _
    refine List.IsSuffix.trans ?_ (skipGap_suffix rest)
    apply suffix_bind (leavesSuffix_moreItems inner _ _)
    intro items behind _
    apply suffix_expect
    intro last
    exact List.suffix_rfl

theorem leavesSuffix_lambdaBody (operator : LambdaOperator) (collection : Node) :
    LeavesSuffix (lambdaBody deeper operator collection) := by
  intro text
  rw [lambdaBody]
  apply suffix_descend
  intro nested entered
  have inner := (below nested entered).expression
  refine List.IsSuffix.trans ?_ (skipGap_suffix text)
  split
  · rename_i behind closed
    rw [closed]
    split <;> exact List.suffix_cons ')' behind
  · split
    · exact List.suffix_rfl
    · rename_i parameter rest named
      refine List.IsSuffix.trans ?_ (name?_suffix named)
      apply suffix_expect
      intro behind
      apply suffix_bind (inner behind)
      intro predicate last _
      apply suffix_expect
      intro final
      exact List.suffix_rfl

theorem leavesSuffix_pathRest (fuel : Nat) (path : PropertyPath) :
    LeavesSuffix (pathRest deeper fuel path) := by
  induction fuel generalizing path with
  | zero =>
    intro text
    exact List.suffix_rfl
  | succ fuel ih =>
    intro text
    unfold pathRest
    split
    · rename_i rest
      split
      · exact List.suffix_rfl
      · rename_i segment behind named
        have inside := (name?_suffix named).trans (List.suffix_cons '/' rest)
        split
        · rename_i operator body _
          have opened := List.suffix_cons '(' body
          exact ((leavesSuffix_lambdaBody below operator _ body).trans opened).trans inside
        · exact (ih _ _).trans inside
    · exact List.suffix_rfl

theorem leavesSuffix_pathOrCall : LeavesSuffix (pathOrCall deeper) := by
  intro text
  rw [pathOrCall]
  split
  · exact List.suffix_rfl
  · rename_i first rest named
    refine List.IsSuffix.trans ?_ (name?_suffix named)
    split
    · exact leavesSuffix_pathRest below _ _ rest
    · split
      · rename_i body
        refine List.IsSuffix.trans ?_ (List.suffix_cons '(' body)
        apply suffix_bind (leavesSuffix_callArguments below body)
        intro arguments behind _
        exact List.suffix_rfl
      · exact leavesSuffix_pathRest below _ _ rest

theorem leavesSuffix_primary : LeavesSuffix (primary deeper) := by
  intro text
  rw [primary]
  refine List.IsSuffix.trans ?_ (skipGap_suffix text)
  split
  · rename_i rest opened
    rw [opened]
    exact (leavesSuffix_group below rest).trans (List.suffix_cons '(' rest)
  · split
    · rename_i parsed read
      exact Literal.suffix_read? read
    · exact leavesSuffix_pathOrCall below _

theorem leavesSuffix_minus : LeavesSuffix (minus deeper) := by
  intro text
  rw [minus]
  refine List.IsSuffix.trans ?_ (skipGap_suffix text)
  split
  · rename_i rest signed
    rw [signed]
    refine List.IsSuffix.trans ?_ (List.suffix_cons '-' rest)
    apply suffix_descend
    intro nested entered
    apply suffix_bind ((below nested entered).minus rest)
    intro operand behind _
    exact List.suffix_rfl
  · exact leavesSuffix_primary below _

theorem leavesSuffix_members : LeavesSuffix (members deeper) := by
  intro text
  rw [members]
  apply suffix_bind (leavesSuffix_primary below text)
  intro node rest _
  dsimp only
  split <;> exact List.suffix_rfl

theorem leavesSuffix_product : LeavesSuffix (product deeper) :=
  leavesSuffix_leftAssociative (leavesSuffix_minus below) fun _ => leavesSuffix_minus below

theorem leavesSuffix_sum : LeavesSuffix (sum deeper) :=
  leavesSuffix_leftAssociative (leavesSuffix_product below) fun _ => leavesSuffix_product below

theorem leavesSuffix_comparison : LeavesSuffix (comparison deeper) := by
  apply leavesSuffix_leftAssociative (leavesSuffix_sum below)
  intro operator
  split
  · exact leavesSuffix_members below
  · exact leavesSuffix_sum below

theorem leavesSuffix_negation : LeavesSuffix (negation deeper) := by
  intro text
  rw [negation]
  split
  · rename_i rest word
    refine List.IsSuffix.trans ?_ ((keyword?_suffix word).trans (skipGap_suffix text))
    apply suffix_descend
    intro nested entered
    apply suffix_bind ((below nested entered).negation rest)
    intro operand behind _
    exact List.suffix_rfl
  · exact leavesSuffix_comparison below text

theorem leavesSuffix_conjunction : LeavesSuffix (conjunction deeper) :=
  leavesSuffix_leftAssociative (leavesSuffix_negation below) fun _ => leavesSuffix_negation below

theorem leavesSuffix_expression : LeavesSuffix (expression deeper) := by
  have conjunctions := leavesSuffix_conjunction below
  intro text
  exact (leavesSuffix_leftAssociative conjunctions (fun _ => conjunctions) _).trans
    (skipGap_suffix text)

end

/-- With any number of levels left, the grammar leaves ends of its texts. -/
theorem nested_leavesSuffix (levels : Nat) :
    ∀ inner, nested levels = some inner → inner.LeavesSuffix := by
  induction levels with
  | zero =>
    intro inner found
    cases found
  | succ levels ih =>
    intro inner found
    cases found
    exact ⟨leavesSuffix_expression ih, leavesSuffix_negation ih, leavesSuffix_minus ih⟩

theorem leavesSuffix_topExpression : LeavesSuffix topExpression :=
  leavesSuffix_expression (nested_leavesSuffix maxDepth)

theorem direction_suffix (text : List Char) : (direction text).2 <:+ text := by
  rw [direction]
  split
  · rename_i rest word
    exact (keyword?_suffix word).trans (skipGap_suffix text)
  · split
    · rename_i rest word
      exact (keyword?_suffix word).trans (skipGap_suffix text)
    · exact List.suffix_rfl

theorem leavesSuffix_orderByItems (fuel : Nat) : LeavesSuffix (orderByItems fuel) := by
  induction fuel with
  | zero =>
    intro text
    exact List.suffix_rfl
  | succ fuel ih =>
    intro text
    rw [orderByItems]
    apply suffix_bind (leavesSuffix_topExpression text)
    intro key rest _
    refine List.IsSuffix.trans ?_ ((skipGap_suffix _).trans (direction_suffix rest))
    dsimp only
    split
    · rename_i behind separated
      rw [separated]
      refine List.IsSuffix.trans ?_ (List.suffix_cons ',' behind)
      apply suffix_bind (ih behind)
      intro items last _
      exact List.suffix_rfl
    · exact List.suffix_rfl

end Filter

end EdmQuery
