import EdmQuery.Proofs.OperandText

set_option autoImplicit false

namespace EdmQuery

namespace Node

/-- What is written behind an item: more of them, and the closing parenthesis. -/
def spellOthers : List Node → List Char
  | [] => [')']
  | items => ',' :: spellItems items

theorem spellItems_cons (item : Node) (others : List Node) :
    spellItems (item :: others) = item.spell ++ spellOthers others := by
  cases others with
  | nil => rw [spellItems, spellOthers]
  | cons next later =>
    rw [spellItems, spellOthers]
    · intro none
      cases none
    · intro none
      cases none

end Node

namespace Filter

open Parsing Node

section

variable {levels : Nat} {text rest : List Char}

theorem spellOthers_cons (others : List Node) (rest : List Char) :
    ∃ char tail, spellOthers others ++ rest = char :: tail ∧ (char = ')' ∨ char = ',') := by
  cases others with
  | nil => exact ⟨')', rest, rfl, .inl rfl⟩
  | cons next later => exact ⟨',', spellItems (next :: later) ++ rest, rfl, .inr rfl⟩

theorem delimited_spellOthers (others : List Node) (rest : List Char) :
    Delimited (spellOthers others ++ rest) := by
  obtain ⟨char, tail, spelled, delimiter⟩ := spellOthers_cons others rest
  rw [spelled]
  exact delimited_cons (.inr delimiter)

theorem ends_spellOthers (others : List Node) (lowest : Nat) (rest : List Char) :
    Ends lowest (spellOthers others ++ rest) := by
  obtain ⟨char, tail, spelled, rfl | rfl⟩ := spellOthers_cons others rest
  · rw [spelled]
    exact ends_cons (by decide) (by decide) lowest tail
  · rw [spelled]
    exact ends_cons (by decide) (by decide) lowest tail

theorem skipGap_spellOthers (others : List Node) (rest : List Char) :
    skipGap (spellOthers others ++ rest) = spellOthers others ++ rest := by
  obtain ⟨char, tail, spelled, rfl | rfl⟩ := spellOthers_cons others rest
  · rw [spelled, skipGap_cons (by decide)]
  · rw [spelled, skipGap_cons (by decide)]

theorem ReadsBack.expression_item {item : Node} (back : ReadsBack levels item)
    (others : List Node) (rest : List Char) :
    Filter.expression (nested levels) (item.spell ++ (spellOthers others ++ rest)) =
      .ok (item.unresolved, spellOthers others ++ rest) :=
  back.expression (delimited_spellOthers others rest) (ends_spellOthers others 1 rest)

/-- Items behind commas are read one by one, up to the closing parenthesis. -/
theorem moreItems_spellOthers (others : List Node)
    (back : ∀ item ∈ others, ReadsBack levels item) (fuel : Nat) (rest : List Char)
    (enough : others.length ≤ fuel) :
    moreItems (expression (nested levels)) fuel (spellOthers others ++ rest) =
      .ok (others.map unresolved, ')' :: rest) := by
  induction others generalizing fuel with
  | nil =>
    cases fuel with
    | zero => rfl
    | succ fuel =>
      rw [spellOthers, moreItems]
      · rfl
      · intro tail same
        cases same
  | cons item others ih =>
    cases fuel with
    | zero => cases enough
    | succ fuel =>
      have first := (back item List.mem_cons_self).expression_item others rest
      have later := ih (fun node inside => back node (List.mem_cons_of_mem item inside)) fuel
        (Nat.le_of_succ_le_succ enough)
      have text : spellOthers (item :: others) ++ rest =
          ',' :: (item.spell ++ (spellOthers others ++ rest)) := by
        rw [spellOthers, spellItems_cons, List.cons_append, List.append_assoc]
        intro none
        cases none
      rw [text, moreItems, first]
      simp only [bind_ok, skipGap_spellOthers, later]
      rfl

theorem length_le_spellOthers (others : List Node) (rest : List Char)
    (back : ∀ item ∈ others, ReadsBack levels item) :
    others.length ≤ (spellOthers others ++ rest).length := by
  induction others with
  | nil => exact Nat.zero_le _
  | cons item others ih =>
    have later := ih fun node inside => back node (List.mem_cons_of_mem item inside)
    have text : spellOthers (item :: others) = ',' :: (item.spell ++ spellOthers others) := by
      rw [spellOthers, spellItems_cons]
      intro none
      cases none
    rw [text]
    simp only [List.length_append, List.length_cons] at later ⊢
    omega

theorem expect_close (cause : ParseCause) (rest : List Char) :
    expect ')' cause (')' :: rest) = .ok rest :=
  expect_cons (by decide) cause rest

/-- A group one level above the last one. -/
theorem group_succ (levels : Nat) (text : List Char) :
    group (nested (levels + 1)) text = (do
      let (first, rest) ← expression (nested levels) text
      match skipGap rest with
      | ')' :: rest => return (first, rest)
      | rest =>
        let (items, rest) ← moreItems (expression (nested levels)) rest.length rest
        let rest ← expect ')' .unexpected rest
        return (.list (first :: items), rest)) := rfl

theorem callArguments_succ (levels : Nat) (text : List Char) :
    callArguments (nested (levels + 1)) text = (match skipGap text with
      | ')' :: rest => return ([], rest)
      | text => do
        let (first, rest) ← expression (nested levels) text
        let rest := skipGap rest
        let (others, rest) ← moreItems (expression (nested levels)) rest.length rest
        let rest ← expect ')' .unexpected rest
        return (first :: others, rest)) := rfl

/-- One expression in parentheses stands for itself. -/
theorem group_of_expression {node : Node}
    (read : expression (nested levels) text = .ok (node, ')' :: rest)) :
    group (nested (levels + 1)) text = .ok (node, rest) := by
  rw [group_succ, read]
  rfl

/-- Several items in parentheses are a list. -/
theorem group_of_items {item next : Node} {others : List Node}
    (back : ∀ node ∈ item :: next :: others, ReadsBack levels node) (rest : List Char) :
    group (nested (levels + 1)) (spellItems (item :: next :: others) ++ rest) =
      .ok (.list (unresolvedAll (item :: next :: others)), rest) := by
  have first := (back item List.mem_cons_self).expression_item (next :: others) rest
  have backOthers : ∀ node ∈ next :: others, ReadsBack levels node :=
    fun node inside => back node (List.mem_cons_of_mem item inside)
  have later := moreItems_spellOthers (next :: others) backOthers
    (spellOthers (next :: others) ++ rest).length rest
    (length_le_spellOthers (next :: others) rest backOthers)
  rw [group_succ, spellItems_cons, List.append_assoc, first]
  simp only [bind_ok, skipGap_spellOthers]
  split
  · rename_i left same
    cases same
  · rw [later]
    simp only [bind_ok, expect_close, unresolvedAll_eq_map]
    rfl

theorem callArguments_of_items {arguments : List Node}
    (back : ∀ node ∈ arguments, ReadsBack levels node) (rest : List Char) :
    callArguments (nested (levels + 1)) (spellItems arguments ++ rest) =
      .ok (unresolvedAll arguments, rest) := by
  cases arguments with
  | nil => rfl
  | cons item others =>
    have backItem := back item List.mem_cons_self
    have backOthers : ∀ node ∈ others, ReadsBack levels node :=
      fun node inside => back node (List.mem_cons_of_mem item inside)
    have first := backItem.expression_item others rest
    have later := moreItems_spellOthers others backOthers (spellOthers others ++ rest).length rest
      (length_le_spellOthers others rest backOthers)
    obtain ⟨char, tail, spelled, solid, notClose⟩ := backItem.opens
    rw [callArguments_succ, spellItems_cons, List.append_assoc]
    rw [spelled, List.cons_append] at first ⊢
    rw [skipGap_cons solid]
    split
    · rename_i left same
      cases same
      exact absurd rfl notClose
    · rw [first]
      simp only [bind_ok, skipGap_spellOthers]
      rw [later]
      simp only [bind_ok, expect_close, unresolvedAll_eq_map]
      rfl

theorem primary_open (deeper : Option Nested) (text : List Char) :
    primary deeper ('(' :: text) = group deeper text := rfl

theorem minus_open (deeper : Option Nested) (text : List Char) :
    Filter.minus deeper ('(' :: text) = group deeper text := rfl

theorem minus_sign (within : Nested) (text : List Char) :
    Filter.minus (some within) ('-' :: text) =
      (within.minus text).map fun found => (.unary .negate found.1, found.2) := by
  have read : Filter.minus (some within) ('-' :: text) = (within.minus text >>= fun found =>
      Except.ok (Node.unary .negate found.1, found.2)) := rfl
  rw [read]
  cases within.minus text <;> rfl

theorem readsBack_list {items : List Node} (several : 2 ≤ items.length)
    (back : ∀ item ∈ items, ReadsBack levels item) : ReadsBack (levels + 1) (.list items) := by
  refine .ofSymbol '(' rfl (by decide) (by decide) (by decide) ?_
  intro rest _
  rw [spell, List.cons_append, minus_open]
  cases items with
  | nil => exact absurd several (Nat.not_succ_le_zero 1)
  | cons item others =>
    cases others with
    | nil => exact absurd several (Nat.not_succ_le_self 1)
    | cons next others => exact group_of_items back rest

/-- An operation is a group whose expression has one operator. -/
theorem readsBack_group {operator : BinaryOperator} {left right : Node}
    (read : ∀ rest, expression (nested levels) (left.spell ++
        ' ' :: (operator.keyword.toList ++ ' ' :: (right.spell ++ ')' :: rest))) =
      .ok (.binary operator left.unresolved right.unresolved, ')' :: rest)) :
    ReadsBack (levels + 1) (.binary operator left right) := by
  have spelled : (Node.binary operator left right).spell = '(' :: (left.spell ++
      ' ' :: (operator.keyword.toList ++ ' ' :: (right.spell ++ [')']))) := by
    simp only [spell, List.cons_append, List.append_assoc]
  refine .ofSymbol '(' spelled (by decide) (by decide) (by decide) ?_
  intro rest _
  rw [spelled]
  simp only [List.cons_append, List.append_assoc, List.nil_append]
  rw [minus_open]
  exact group_of_expression (read rest)

theorem delimited_blank (rest : List Char) : Delimited (' ' :: rest) := delimited_cons (.inl rfl)

theorem delimited_close (rest : List Char) : Delimited (')' :: rest) :=
  delimited_cons (.inr (.inl rfl))

theorem readsBack_logical {operator : BinaryOperator} {left right : Node}
    (logical : operator.isLogical = true) (first : ReadsBack levels left)
    (second : ReadsBack levels right) : ReadsBack (levels + 1) (.binary operator left right) := by
  apply readsBack_group
  intro rest
  have looser : Ends 3 (' ' :: (operator.keyword.toList ++ ' ' :: (right.spell ++ ')' :: rest))) :=
    ends_operator (precedence_of_logical logical) _
  exact expression_of_logical logical (first.negation _ (delimited_blank _) looser)
    (second.negation _ (delimited_close rest) (ends_close 3 rest)) (ends_close 1 rest)

/-- The second operand of an operator that is not logical, read up to the end of a group. -/
def SecondReadsBack (levels : Nat) (operator : BinaryOperator) (right : Node) : Prop :=
  ∀ rest, Delimited rest → secondOperand (nested levels) operator (right.spell ++ rest) =
    .ok (right.unresolved, rest)

theorem ReadsBack.second {right : Node} (back : ReadsBack levels right)
    (operand : right.isNegation = false) {operator : BinaryOperator} (other : operator ≠ .isIn) :
    SecondReadsBack levels operator right := by
  intro rest delimited
  rw [secondOperand, if_neg other]
  exact back.minus operand rest delimited

theorem readsBack_operation {operator : BinaryOperator} {left right : Node}
    (other : operator.isLogical = false) (operand : left.isNegation = false)
    (first : ReadsBack levels left) (second : SecondReadsBack levels operator right) :
    ReadsBack (levels + 1) (.binary operator left right) := by
  apply readsBack_group
  intro rest
  have both := comparison_of_operands other (first.minus operand _ (delimited_blank _))
    (second _ (delimited_close rest)) (ends_close 3 rest)
  exact expression_of_comparison both (first.unprefixed operand _ (delimited_blank _))
    (ends_close 1 rest)

theorem secondReadsBack_of_path {path : PropertyPath} {right : Node}
    (printable : isPrintablePath [] path = true) (spelled : right.spell = path.spell)
    (same : right.unresolved = .property path) : SecondReadsBack levels .isIn right := by
  intro rest delimited
  obtain ⟨word, segments, leading, split⟩ := spell_path printable
  obtain ⟨fuel, -, read⟩ := pathOrCall_path (nested levels) printable delimited.endsWord
    (delimited.head_ne (by decide))
  have atStart : primary (nested levels) (path.spell ++ rest) = .ok (.property path, rest) := by
    rw [← pathRest_end fuel path delimited, ← read, split, List.append_assoc,
      primary_of_leading leading (endsWord_segments segments delimited.endsWord)]
  rw [spelled, same]
  show members (nested levels) (path.spell ++ rest) = _
  rw [members, atStart]
  rfl

theorem secondReadsBack_of_items {items : List Node} (shape : hasListShape items = true)
    (back : ∀ item ∈ items, ReadsBack levels item) :
    SecondReadsBack (levels + 1) .isIn (.list items) := by
  intro rest _
  show members (nested (levels + 1)) ('(' :: (spellItems items ++ rest)) = _
  rw [members, primary_open]
  cases items with
  | nil => cases shape
  | cons item others =>
    cases others with
    | nil =>
      have single : group (nested (levels + 1)) (spellItems [item] ++ rest) =
          .ok (item.unresolved, rest) := by
        rw [spellItems_cons, List.append_assoc]
        exact group_of_expression ((back item List.mem_cons_self).expression_item [] rest)
      rw [hasListShape, Bool.and_eq_true, Bool.not_eq_true', Bool.not_eq_true'] at shape
      rw [single]
      cases item with
      | list items => cases shape.2
      | property path => cases shape.1
      | ofVariable name path => cases shape.1
      | _ => rfl
    | cons next others =>
      rw [group_of_items back rest]
      rfl

theorem readsBack_negate {operand : Node} (operandOnly : operand.isNegation = false)
    (back : ReadsBack levels operand) : ReadsBack (levels + 1) (.unary .negate operand) := by
  refine .ofSymbol '-' rfl (by decide) (by decide) (by decide) ?_
  intro rest delimited
  have inner := back.minus operandOnly rest delimited
  show Filter.minus (nested (levels + 1)) ('-' :: (operand.spell ++ rest)) = _
  rw [nested, minus_sign]
  show (Filter.minus (nested levels) (operand.spell ++ rest)).map _ = _
  rw [inner]
  rfl

theorem readsBack_not {operand : Node} (back : ReadsBack levels operand) :
    ReadsBack (levels + 1) (.unary .not operand) where
  opens := ⟨'n', 'o' :: 't' :: ' ' :: operand.spell, rfl, by decide, by decide⟩
  unprefixed operandOnly := by cases operandOnly
  minus operandOnly := by cases operandOnly
  negation rest delimited ends := by
    have inner := back.negation rest delimited ends
    rw [← (ignoresGap_negation (nested levels)).blank] at inner
    have word : keyword? "not" ("not".toList ++ ' ' :: (operand.spell ++ rest)) =
        some (' ' :: (operand.spell ++ rest)) := by
      have read : name? ("not".toList ++ ' ' :: (operand.spell ++ rest)) =
          some ("not", ' ' :: (operand.spell ++ rest)) :=
        name?_append (by decide) (delimited_blank _).stopsAt_namePart
      rw [keyword?, read]
      rfl
    have text : (Node.unary .not operand).spell ++ rest =
        "not".toList ++ ' ' :: (operand.spell ++ rest) := rfl
    rw [text, Filter.negation, skipGap_name (by decide), word]
    show (Filter.negation (nested levels) (' ' :: (operand.spell ++ rest)) >>=
      fun (operand, rest) => Except.ok (Node.unary .not operand, rest)) = _
    rw [inner]
    rfl

theorem readsBack_call {function : String} {arguments : List Node}
    (free : isFreeName function = true) (back : ∀ node ∈ arguments, ReadsBack levels node) :
    ReadsBack (levels + 1) (.call function arguments) := by
  have leading := isLeadingWord_of_isFreeName free
  refine .ofLeading leading rfl ?_ ?_
  · intro rest _
    exact endsWord_open _
  · intro rest _
    have read := callArguments_of_items back rest
    have word : name? (function.toList ++ '(' :: (spellItems arguments ++ rest)) =
        some (function, '(' :: (spellItems arguments ++ rest)) :=
      name?_append (isName_of_isLeadingWord leading) (endsWord_open _).stopsAt_namePart
    rw [spell, List.append_assoc, List.cons_append, pathOrCall, word]
    simp only [if_neg (ne_root_of_isFreeName free), read]
    rfl

/-- A lambda over a path is read like the path, up to the parenthesis. -/
theorem readsBack_lambda_of_body {node collection : Node} {path : PropertyPath}
    {operator : LambdaOperator} {body : List Char} (printable : isPrintablePath [] path = true)
    (spelled : collection.spell = path.spell)
    (text : node.spell =
      collection.spell ++ '/' :: (operator.keyword.toList ++ '(' :: body))
    (read : ∀ rest, lambdaBody (nested levels) operator (.property path) (body ++ rest) =
      .ok (node.unresolved, rest)) : ReadsBack levels node := by
  obtain ⟨word, segments, leading, split⟩ := spell_path printable
  have whole : node.spell = word.toList ++ (spellSegments segments ++
      '/' :: (operator.keyword.toList ++ '(' :: body)) := by
    rw [text, spelled, split, List.append_assoc]
  refine .ofLeading leading whole ?_ ?_
  · intro rest _
    rw [List.append_assoc]
    exact endsWord_segments segments (endsWord_slash _)
  · intro rest _
    have start : node.spell ++ rest =
        path.spell ++ '/' :: (operator.keyword.toList ++ '(' :: (body ++ rest)) := by
      simp only [text, spelled, List.cons_append, List.append_assoc]
    obtain ⟨fuel, enough, atPath⟩ := pathOrCall_path (nested levels) printable
      (endsWord_slash (operator.keyword.toList ++ '(' :: (body ++ rest)))
      (fun tail same => by cases same)
    rw [start, atPath]
    cases fuel with
    | zero => cases enough
    | succ fuel => rw [pathRest_lambda, read]

theorem lambdaBody_succ (levels : Nat) (operator : LambdaOperator) (collection : Node)
    (text : List Char) :
    lambdaBody (nested (levels + 1)) operator collection text = (match skipGap text with
      | ')' :: rest =>
        if operator = .all then fail .invalidLambda rest
        else return (.bareLambda operator collection, rest)
      | text =>
        match name? text with
        | none => fail .invalidLambda text
        | some (parameter, rest) => do
          let rest ← expect ':' .invalidLambda rest
          let (predicate, rest) ← expression (nested levels) rest
          let rest ← expect ')' .invalidLambda rest
          return (.lambda operator collection parameter predicate, rest)) := rfl

theorem lambdaBody_of_predicate {operator : LambdaOperator} {collection predicate : Node}
    {parameter : String} (named : isName parameter = true) (back : ReadsBack levels predicate)
    (rest : List Char) :
    lambdaBody (nested (levels + 1)) operator collection
        (parameter.toList ++ ':' :: (predicate.spell ++ ')' :: rest)) =
      .ok (.lambda operator collection parameter predicate.unresolved, rest) := by
  have colon : StopsAt isNamePart (':' :: (predicate.spell ++ ')' :: rest)) :=
    stopsAt_cons (by decide)
  have read := name?_append named colon
  have inner := back.expression (delimited_close rest) (ends_close 1 rest)
  obtain ⟨first, others, chars, start⟩ := isName_cons named
  rw [lambdaBody_succ, skipGap_name named]
  split
  · rename_i behind same
    rw [chars] at same
    cases same
    exact absurd rfl (ne_of_nameStart start (by decide))
  · rw [read]
    simp only [expect_cons (show isGap ':' = false by decide), bind_ok, inner, expect_close]
    rfl

theorem readsBack_lambda {operator : LambdaOperator} {collection predicate : Node}
    {path : PropertyPath} {parameter : String} (printable : isPrintablePath [] path = true)
    (spelled : collection.spell = path.spell) (same : collection.unresolved = .property path)
    (named : isName parameter = true) (back : ReadsBack levels predicate) :
    ReadsBack (levels + 1) (.lambda operator collection parameter predicate) := by
  have text : (Node.lambda operator collection parameter predicate).spell =
      collection.spell ++ '/' :: (operator.keyword.toList ++
        '(' :: (parameter.toList ++ ':' :: (predicate.spell ++ [')']))) := by
    simp only [spell, List.cons_append, List.append_assoc]
  refine readsBack_lambda_of_body printable spelled text ?_
  intro rest
  simp only [List.append_assoc, List.cons_append, List.nil_append]
  rw [lambdaBody_of_predicate named back rest, unresolved, same]

theorem readsBack_bareLambda {collection : Node} {path : PropertyPath}
    (printable : isPrintablePath [] path = true) (spelled : collection.spell = path.spell)
    (same : collection.unresolved = .property path) :
    ReadsBack (levels + 1) (.bareLambda .any collection) := by
  have text : (Node.bareLambda .any collection).spell =
      collection.spell ++ '/' :: (LambdaOperator.any.keyword.toList ++ '(' :: [')']) := by
    simp only [spell, List.cons_append, List.append_assoc]
  refine readsBack_lambda_of_body printable spelled text ?_
  intro rest
  rw [unresolved, same]
  rfl

end

mutual

/-- Each printable expression is read back while its nesting is allowed. -/
theorem readsBack_of_isPrintable (scope : List String)
    (free : ∀ name ∈ scope, isFreeName name = true) (levels : Nat) (node : Node)
    (printable : node.isPrintable scope = true) (deep : node.nesting ≤ levels) :
    ReadsBack levels node := by
  cases node with
  | null => exact readsBack_null
  | literal value => exact readsBack_literal printable
  | property path =>
    obtain ⟨written, printablePath, spelled, same⟩ := reference_path free rfl printable
    exact readsBack_path printablePath spelled same
  | ofVariable name path =>
    obtain ⟨written, printablePath, spelled, same⟩ := reference_path free rfl printable
    exact readsBack_path printablePath spelled same
  | list items =>
    rw [isPrintable, Bool.and_eq_true, decide_eq_true_eq] at printable
    cases levels with
    | zero => cases deep
    | succ levels =>
      exact readsBack_list printable.1 (readsBack_of_areAllPrintable scope free levels items
        printable.2 (Nat.le_of_succ_le_succ deep))
  | call function arguments =>
    rw [isPrintable, Bool.and_eq_true] at printable
    cases levels with
    | zero => cases deep
    | succ levels =>
      exact readsBack_call printable.1 (readsBack_of_areAllPrintable scope free levels arguments
        printable.2 (Nat.le_of_succ_le_succ deep))
  | unary operator operand =>
    cases levels with
    | zero => cases deep
    | succ levels =>
      have below : operand.nesting ≤ levels := Nat.le_of_succ_le_succ deep
      cases operator with
      | not =>
        exact readsBack_not (readsBack_of_isPrintable scope free levels operand printable below)
      | negate =>
        rw [isPrintable, Bool.and_eq_true, Bool.not_eq_true'] at printable
        exact readsBack_negate printable.1
          (readsBack_of_isPrintable scope free levels operand printable.2 below)
  | binary operator left right =>
    cases levels with
    | zero => cases deep
    | succ levels =>
      rw [nesting] at deep
      have leftBelow : left.nesting ≤ levels := by omega
      have rightBelow : right.nesting ≤ levels := by omega
      rw [isPrintable] at printable
      by_cases logical : operator.isLogical = true
      · rw [if_pos logical, Bool.and_eq_true] at printable
        exact readsBack_logical logical
          (readsBack_of_isPrintable scope free levels left printable.1 leftBelow)
          (readsBack_of_isPrintable scope free levels right printable.2 rightBelow)
      · rw [if_neg logical] at printable
        simp only [Bool.and_eq_true, Bool.not_eq_true'] at printable
        obtain ⟨⟨⟨leftOperand, leftPrintable⟩, rightOperand⟩, second⟩ := printable
        have first := readsBack_of_isPrintable scope free levels left leftPrintable leftBelow
        rw [Bool.not_eq_true] at logical
        by_cases isIn : operator = .isIn
        · subst isIn
          rw [if_pos rfl] at second
          exact readsBack_operation logical leftOperand first
            (secondReadsBack_of_isMembers scope free levels right second rightBelow)
        · rw [if_neg isIn] at second
          exact readsBack_operation logical leftOperand first
            ((readsBack_of_isPrintable scope free levels right second rightBelow).second
              rightOperand isIn)
  | lambda operator collection parameter predicate =>
    simp only [isPrintable, Bool.and_eq_true] at printable
    obtain ⟨⟨⟨reference, printableCollection⟩, freeParameter⟩, printablePredicate⟩ := printable
    obtain ⟨path, printablePath, spelled, same⟩ :=
      reference_path free reference printableCollection
    have named := isName_of_isLeadingWord (isLeadingWord_of_isFreeName freeParameter)
    have freeInside : ∀ name ∈ parameter :: scope, isFreeName name = true := by
      intro name inside
      rcases List.mem_cons.1 inside with rfl | outer
      · exact freeParameter
      · exact free name outer
    cases levels with
    | zero => cases deep
    | succ levels =>
      rw [nesting] at deep
      exact readsBack_lambda printablePath spelled same named
        (readsBack_of_isPrintable (parameter :: scope) freeInside levels predicate
          printablePredicate (by omega))
  | bareLambda operator collection =>
    simp only [isPrintable, Bool.and_eq_true, decide_eq_true_eq] at printable
    obtain ⟨⟨rfl, reference⟩, printableCollection⟩ := printable
    obtain ⟨path, printablePath, spelled, same⟩ :=
      reference_path free reference printableCollection
    cases levels with
    | zero => cases deep
    | succ levels => exact readsBack_bareLambda printablePath spelled same

theorem secondReadsBack_of_isMembers (scope : List String)
    (free : ∀ name ∈ scope, isFreeName name = true) (levels : Nat) (node : Node)
    (members : node.isMembers scope = true) (deep : node.nesting ≤ levels) :
    SecondReadsBack levels .isIn node := by
  cases node with
  | property path =>
    have printable : (Node.property path).isPrintable scope = true := members
    obtain ⟨written, printablePath, spelled, same⟩ := reference_path free rfl printable
    exact secondReadsBack_of_path printablePath spelled same
  | ofVariable name path =>
    have printable : (Node.ofVariable name path).isPrintable scope = true := members
    obtain ⟨written, printablePath, spelled, same⟩ := reference_path free rfl printable
    exact secondReadsBack_of_path printablePath spelled same
  | list items =>
    rw [isMembers, Bool.and_eq_true] at members
    cases levels with
    | zero => cases deep
    | succ levels =>
      exact secondReadsBack_of_items members.1 (readsBack_of_areAllPrintable scope free levels
        items members.2 (Nat.le_of_succ_le_succ deep))
  | _ => cases members

theorem readsBack_of_areAllPrintable (scope : List String)
    (free : ∀ name ∈ scope, isFreeName name = true) (levels : Nat) (nodes : List Node)
    (printable : areAllPrintable scope nodes = true) (deep : nestingAll nodes ≤ levels) :
    ∀ node ∈ nodes, ReadsBack levels node := by
  cases nodes with
  | nil =>
    intro node inside
    cases inside
  | cons first rest =>
    rw [areAllPrintable, Bool.and_eq_true] at printable
    rw [nestingAll] at deep
    have back := readsBack_of_isPrintable scope free levels first printable.1 (by omega)
    have backRest := readsBack_of_areAllPrintable scope free levels rest printable.2 (by omega)
    intro node inside
    rcases List.mem_cons.1 inside with rfl | later
    · exact back
    · exact backRest node later

end

theorem ofText_of_expression {text : List Char} {node : Node}
    (read : expression (nested maxDepth) text = .ok (node, [])) :
    ofText (String.ofList text) = .ok (resolve [] node) := by
  rw [ofText, complete, String.toList_ofList, topExpression, read]
  rfl

/-- A filter is read back from its canonical text. -/
theorem ofText_render (node : Node) (printable : node.isPrintable [] = true)
    (deep : node.nesting ≤ maxDepth) : ofText node.render = .ok node := by
  have back := readsBack_of_isPrintable [] (fun name inside => by cases inside) maxDepth node
    printable deep
  have read := back.expression delimited_nil (ends_nil 1)
  rw [List.append_nil] at read
  rw [Node.render, ofText_of_expression read, resolve_unresolved [] node printable]

theorem ofText_render_nested :
    let tags : Node := .property ⟨["Tags", "any"]⟩
    let size : Node := .binary .multiply (.property ⟨["Size"]⟩) (.literal (.integer default))
    let node : Node := .unary .not (.binary .or
      (.lambda .any tags "t" (.binary .equal (.ofVariable "t" ⟨["Name"]⟩)
        (.literal (.string "O'Neil, (all)"))))
      (.binary .isIn (.unary .negate size) (.list [.null, .call "year" [.property .root]])))
    node.isPrintable [] = true ∧ node.nesting ≤ maxDepth ∧ ofText node.render = .ok node := by
  refine ⟨by decide, by decide, ofText_render _ (by decide) (by decide)⟩

end Filter

end EdmQuery
