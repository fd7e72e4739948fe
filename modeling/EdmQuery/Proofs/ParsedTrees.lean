import EdmQuery.Query.Filter

set_option autoImplicit false

namespace EdmQuery

theorem Parse.bind_eq_ok {α β : Type} {first : Parse α} {next : α → Parse β} {result : β}
    (done : first >>= next = .ok result) :
    ∃ value, first = .ok value ∧ next value = .ok result := by
  cases first with
  | error failure => cases done
  | ok value => exact ⟨value, rfl, done⟩

/-- A source is accepted if its parser leaves nothing of it but a gap. -/
theorem Parsing.complete_eq_ok {α : Type} {parser : Parser α} {fallback : ErrorCode}
    {inFilter : Bool} {source : String} {value : α}
    (parsed : complete parser fallback inFilter source = .ok value) :
    ∃ rest, parser source.toList = .ok (value, rest) ∧ skipGap rest = [] := by
  rw [complete] at parsed
  split at parsed
  · cases parsed
  · rename_i found rest read
    split at parsed
    · rename_i blank
      cases parsed
      exact ⟨rest, read, blank⟩
    · cases parsed

theorem Result.map_eq_ok {ε α β : Type} {first : Except ε α} {change : α → β} {result : β}
    (done : first.map change = .ok result) :
    ∃ value, first = .ok value ∧ result = change value := by
  cases first with
  | error error => cases done
  | ok value =>
    cases done
    exact ⟨value, rfl, rfl⟩

theorem Result.map_eq_error {ε α β : Type} {first : Except ε α} {change : α → β} {error : ε}
    (failed : first.map change = .error error) : first = .error error := by
  cases first with
  | error same =>
    cases failed
    rfl
  | ok value => cases failed

namespace Filter

open Parsing

/-- A loop over operators hands on its operand if it takes none, and else makes an operation. -/
theorem chain_eq_or_binary {precedence fuel : Nat} {operand : BinaryOperator → Parser Node}
    {left node : Node} {text rest : List Char}
    (read : chain precedence operand fuel left text = .ok (node, rest)) :
    (node = left ∧ rest = text) ∨
      ∃ operator first second, node = .binary operator first second := by
  induction fuel generalizing left text with
  | zero =>
    cases read
    exact .inl ⟨rfl, rfl⟩
  | succ fuel ih =>
    rw [chain] at read
    split at read
    · cases read
      exact .inl ⟨rfl, rfl⟩
    · rename_i operator behind _
      obtain ⟨⟨second, later⟩, -, read⟩ := Parse.bind_eq_ok read
      rcases ih read with ⟨rfl, -⟩ | binary
      · exact .inr ⟨operator, left, second, rfl⟩
      · exact .inr binary

/-- The tree of a filter comes from reading the whole text. -/
theorem ofText_eq_ok {source : String} {node : Node} (parsed : ofText source = .ok node) :
    ∃ unresolved rest, topExpression source.toList = .ok (unresolved, rest) ∧ skipGap rest = [] ∧
      node = resolve [] unresolved := by
  obtain ⟨unresolved, whole, same⟩ := Result.map_eq_ok parsed
  obtain ⟨rest, read, blank⟩ := complete_eq_ok whole
  exact ⟨unresolved, rest, read, blank, same⟩

/-- What is kept by every kind of node that the grammar makes. -/
structure KeptByGrammar (holds : Node → Prop) : Prop where
  null : holds .null
  literal : ∀ value, holds (.literal value)
  property : ∀ path, holds (.property path)
  list : ∀ items, (∀ item ∈ items, holds item) → holds (.list items)
  binary : ∀ operator left right, holds left → holds right → holds (.binary operator left right)
  unary : ∀ operator operand, holds operand → holds (.unary operator operand)
  call : ∀ name arguments, (∀ argument ∈ arguments, holds argument) → holds (.call name arguments)
  lambda : ∀ operator path parameter predicate, holds predicate →
    holds (.lambda operator (.property path) parameter predicate)
  bareLambda : ∀ operator path, holds (.bareLambda operator (.property path))

/-- What one level of the grammar keeps: its nodes have a property if those one level further down,
behind a parenthesis or a sign, have one of their own. Without such a level there are none of them. -/
structure KeptByLevel (deeper : Option Nested) (within holds : Node → Prop) : Prop where
  null : holds .null
  literal : ∀ value, holds (.literal value)
  property : ∀ path, holds (.property path)
  list : ∀ items, (∀ item ∈ items, holds item) → holds (.list items)
  binary : ∀ operator left right, holds left → holds right → holds (.binary operator left right)
  group : ∀ nested, deeper = some nested → ∀ node, within node → holds node
  unary : ∀ nested, deeper = some nested → ∀ operator operand, within operand →
    holds (.unary operator operand)
  call : ∀ nested, deeper = some nested → ∀ name arguments,
    (∀ argument ∈ arguments, within argument) → holds (.call name arguments)
  lambda : ∀ nested, deeper = some nested → ∀ operator path parameter predicate, within predicate →
    holds (.lambda operator (.property path) parameter predicate)
  bareLambda : ∀ nested, deeper = some nested → ∀ operator path,
    holds (.bareLambda operator (.property path))

theorem KeptByGrammar.level {holds : Node → Prop} (kept : KeptByGrammar holds)
    (deeper : Option Nested) : KeptByLevel deeper holds holds where
  null := kept.null
  literal := kept.literal
  property := kept.property
  list := kept.list
  binary := kept.binary
  group _ _ _ := id
  unary _ _ := kept.unary
  call _ _ := kept.call
  lambda _ _ := kept.lambda
  bareLambda _ _ := kept.bareLambda

/-- Whatever the parser makes of a text, the property holds of it. -/
def Yields (holds : Node → Prop) (parser : Parser Node) : Prop :=
  ∀ text node rest, parser text = .ok (node, rest) → holds node

def Nested.Yields (holds : Node → Prop) (nested : Nested) : Prop :=
  Filter.Yields holds nested.expression ∧ Filter.Yields holds nested.negation ∧
    Filter.Yields holds nested.minus

section

variable {within holds : Node → Prop} {deeper : Option Nested}

theorem yields_chain (kept : KeptByLevel deeper within holds) {operand : BinaryOperator → Parser Node}
    (operands : ∀ operator, Yields holds (operand operator)) {precedence fuel : Nat}
    {left node : Node} {text rest : List Char} (first : holds left)
    (read : chain precedence operand fuel left text = .ok (node, rest)) : holds node := by
  induction fuel generalizing left text with
  | zero =>
    cases read
    exact first
  | succ fuel ih =>
    rw [chain] at read
    split at read
    · cases read
      exact first
    · rename_i operator behind _
      obtain ⟨⟨right, later⟩, second, read⟩ := Parse.bind_eq_ok read
      exact ih (kept.binary operator left right first (operands operator _ _ _ second)) read

theorem yields_leftAssociative (kept : KeptByLevel deeper within holds) {precedence : Nat}
    {first : Parser Node} {operand : BinaryOperator → Parser Node} (begins : Yields holds first)
    (operands : ∀ operator, Yields holds (operand operator)) :
    Yields holds (leftAssociative precedence first operand) := by
  intro text node rest read
  obtain ⟨⟨left, later⟩, begun, read⟩ := Parse.bind_eq_ok read
  exact yields_chain kept operands (begins _ _ _ begun) read

theorem forall_moreItems {item : Parser Node} (yields : Yields holds item) {fuel : Nat}
    {text rest : List Char} {items : List Node}
    (read : moreItems item fuel text = .ok (items, rest)) : ∀ node ∈ items, holds node := by
  induction fuel generalizing text items rest with
  | zero =>
    cases read
    intro node inside
    cases inside
  | succ fuel ih =>
    unfold moreItems at read
    split at read
    · obtain ⟨⟨first, later⟩, one, read⟩ := Parse.bind_eq_ok read
      obtain ⟨⟨others, final⟩, more, read⟩ := Parse.bind_eq_ok read
      cases read
      intro node inside
      rcases List.mem_cons.1 inside with rfl | inside
      · exact yields _ _ _ one
      · exact ih more node inside
    · cases read
      intro node inside
      cases inside

theorem descend_eq_ok {nested : Nested} {text : List Char}
    (entered : descend deeper text = .ok nested) : deeper = some nested := by
  cases deeper with
  | none => cases entered
  | some inner =>
    cases entered
    rfl

variable (kept : KeptByLevel deeper within holds)
  (below : ∀ nested, deeper = some nested → nested.Yields within)

include kept below

theorem yields_group : Yields holds (group deeper) := by
  intro text node rest read
  obtain ⟨nested, entered, read⟩ := Parse.bind_eq_ok read
  have enters := descend_eq_ok entered
  have inner := (below nested enters).1
  obtain ⟨⟨first, later⟩, one, read⟩ := Parse.bind_eq_ok read
  have begins := kept.group nested enters first (inner _ _ _ one)
  simp only at read
  split at read
  · cases read
    exact begins
  · obtain ⟨⟨others, final⟩, more, read⟩ := Parse.bind_eq_ok read
    obtain ⟨left, closed, read⟩ := Parse.bind_eq_ok read
    cases read
    apply kept.list
    intro item inside
    rcases List.mem_cons.1 inside with rfl | inside
    · exact begins
    · exact kept.group nested enters item (forall_moreItems inner more item inside)

omit kept in
theorem forall_callArguments {text rest : List Char} {arguments : List Node}
    (read : callArguments deeper text = .ok (arguments, rest)) :
    (∃ nested, deeper = some nested) ∧ ∀ argument ∈ arguments, within argument := by
  obtain ⟨nested, entered, read⟩ := Parse.bind_eq_ok read
  have enters := descend_eq_ok entered
  have inner := (below nested enters).1
  refine ⟨⟨nested, enters⟩, ?_⟩
  split at read
  · cases read
    intro argument inside
    cases inside
  · obtain ⟨⟨first, later⟩, one, read⟩ := Parse.bind_eq_ok read
    obtain ⟨⟨others, final⟩, more, read⟩ := Parse.bind_eq_ok read
    obtain ⟨left, closed, read⟩ := Parse.bind_eq_ok read
    cases read
    intro argument inside
    rcases List.mem_cons.1 inside with rfl | inside
    · exact inner _ _ _ one
    · exact forall_moreItems inner more argument inside

theorem yields_lambdaBody (operator : LambdaOperator) (path : PropertyPath) :
    Yields holds (lambdaBody deeper operator (.property path)) := by
  intro text node rest read
  obtain ⟨nested, entered, read⟩ := Parse.bind_eq_ok read
  have enters := descend_eq_ok entered
  have inner := (below nested enters).1
  split at read
  · split at read
    · cases read
    · cases read
      exact kept.bareLambda nested enters operator path
  · split at read
    · cases read
    · obtain ⟨left, colon, read⟩ := Parse.bind_eq_ok read
      obtain ⟨⟨predicate, later⟩, body, read⟩ := Parse.bind_eq_ok read
      obtain ⟨final, closed, read⟩ := Parse.bind_eq_ok read
      cases read
      exact kept.lambda nested enters operator path _ predicate (inner _ _ _ body)

theorem yields_pathRest (fuel : Nat) (path : PropertyPath) :
    Yields holds (pathRest deeper fuel path) := by
  induction fuel generalizing path with
  | zero =>
    intro text node rest read
    cases read
    exact kept.property path
  | succ fuel ih =>
    intro text node rest read
    unfold pathRest at read
    split at read
    · split at read
      · cases read
        exact kept.property path
      · split at read
        · exact yields_lambdaBody kept below _ path _ _ _ read
        · exact ih _ _ _ _ read
    · cases read
      exact kept.property path

theorem yields_pathOrCall : Yields holds (pathOrCall deeper) := by
  intro text node rest read
  rw [pathOrCall] at read
  split at read
  · cases read
  · split at read
    · exact yields_pathRest kept below _ _ _ _ _ read
    · split at read
      · obtain ⟨⟨arguments, later⟩, given, read⟩ := Parse.bind_eq_ok read
        cases read
        obtain ⟨⟨nested, enters⟩, all⟩ := forall_callArguments below given
        exact kept.call nested enters _ arguments all
      · exact yields_pathRest kept below _ _ _ _ _ read

omit below in
theorem holds_of_wordLiteral {word : String} {node : Node}
    (found : Literal.wordLiterals.lookup word = some node) : holds node := by
  have leaf : ∀ entry ∈ Literal.wordLiterals, holds entry.2 := by
    intro entry inside
    simp only [Literal.wordLiterals, List.mem_cons, List.not_mem_nil, or_false] at inside
    rcases inside with rfl | rfl | rfl | rfl | rfl
    · exact kept.null
    all_goals exact kept.literal _
  obtain ⟨before, after, split, -⟩ := List.lookup_eq_some_iff.1 found
  exact leaf (word, node) (split ▸ List.mem_append_right _ List.mem_cons_self)

omit below in
theorem holds_of_read? {text rest : List Char} {node : Node}
    (read : Literal.read? text = some (.ok (node, rest))) : holds node := by
  rw [Literal.read?, Option.or_eq_some_iff] at read
  rcases read with word | ⟨-, value⟩
  · obtain ⟨⟨name, left⟩, -, listed⟩ := Option.bind_eq_some_iff.1 word
    obtain ⟨leaf, found, made⟩ := Option.map_eq_some_iff.1 listed
    cases made
    exact holds_of_wordLiteral kept found
  · obtain ⟨parsed, -, made⟩ := Option.map_eq_some_iff.1 value
    cases parsed with
    | error failure => cases made
    | ok pair =>
      cases made
      exact kept.literal pair.1

theorem yields_primary : Yields holds (primary deeper) := by
  intro text node rest read
  rw [primary] at read
  split at read
  · exact yields_group kept below _ _ _ read
  · split at read
    · rename_i parsed found
      rw [read] at found
      exact holds_of_read? kept found
    · exact yields_pathOrCall kept below _ _ _ read

theorem yields_minus : Yields holds (minus deeper) := by
  intro text node rest read
  rw [minus] at read
  split at read
  · obtain ⟨nested, entered, read⟩ := Parse.bind_eq_ok read
    obtain ⟨⟨operand, later⟩, inner, read⟩ := Parse.bind_eq_ok read
    cases read
    have enters := descend_eq_ok entered
    exact kept.unary nested enters _ operand ((below nested enters).2.2 _ _ _ inner)
  · exact yields_primary kept below _ _ _ read

theorem yields_members : Yields holds (members deeper) := by
  intro text node rest read
  obtain ⟨⟨found, later⟩, one, read⟩ := Parse.bind_eq_ok read
  have begins := yields_primary kept below _ _ _ one
  simp only at read
  split at read
  · cases read
    exact begins
  · cases read
    exact begins
  · cases read
    apply kept.list
    intro item inside
    rw [List.mem_singleton] at inside
    exact inside ▸ begins

theorem yields_sum : Yields holds (sum deeper) := by
  have factors := yields_minus kept below
  have products : Yields holds (product deeper) :=
    yields_leftAssociative kept factors fun _ => factors
  exact yields_leftAssociative kept products fun _ => products

theorem yields_comparison : Yields holds (comparison deeper) := by
  refine yields_leftAssociative kept (yields_sum kept below) ?_
  intro operator
  split
  · exact yields_members kept below
  · exact yields_sum kept below

theorem yields_negation : Yields holds (negation deeper) := by
  intro text node rest read
  rw [negation] at read
  split at read
  · obtain ⟨nested, entered, read⟩ := Parse.bind_eq_ok read
    obtain ⟨⟨operand, later⟩, inner, read⟩ := Parse.bind_eq_ok read
    cases read
    have enters := descend_eq_ok entered
    exact kept.unary nested enters _ operand ((below nested enters).2.1 _ _ _ inner)
  · exact yields_comparison kept below _ _ _ read

theorem yields_expression : Yields holds (expression deeper) := by
  have negations := yields_negation kept below
  have conjunctions : Yields holds (conjunction deeper) :=
    yields_leftAssociative kept negations fun _ => negations
  intro text node rest read
  exact yields_leftAssociative kept conjunctions (fun _ => conjunctions) _ _ _ read

end

/-- A property for each number of levels that are left, kept from one number to the next. -/
def KeptByLevels (holds : Nat → Node → Prop) : Prop :=
  ∀ levels, KeptByLevel (nested levels) (holds (levels - 1)) (holds levels)

theorem nested_yields {holds : Nat → Node → Prop} (kept : KeptByLevels holds) (levels : Nat) :
    ∀ inner, nested levels = some inner → inner.Yields (holds (levels - 1)) := by
  induction levels with
  | zero =>
    intro inner found
    cases found
  | succ levels ih =>
    intro inner found
    cases found
    have top := kept levels
    exact ⟨yields_expression top ih, yields_negation top ih, yields_minus top ih⟩

theorem yields_topExpression {holds : Nat → Node → Prop} (kept : KeptByLevels holds) :
    Yields (holds maxDepth) topExpression :=
  yields_expression (kept maxDepth) (nested_yields kept maxDepth)

/-- A property that all levels keep holds of the tree that is parsed from a text with all of them
left, before the variables of its lambdas are resolved. -/
theorem KeptByLevels.of_ofText {holds : Nat → Node → Prop} (kept : KeptByLevels holds)
    {source : String} {node : Node} (parsed : ofText source = .ok node) :
    ∃ unresolved, holds maxDepth unresolved ∧ node = resolve [] unresolved := by
  obtain ⟨unresolved, rest, read, -, same⟩ := ofText_eq_ok parsed
  exact ⟨unresolved, yields_topExpression kept _ _ _ read, same⟩

theorem KeptByGrammar.levels {holds : Node → Prop} (kept : KeptByGrammar holds) :
    KeptByLevels fun _ => holds :=
  fun levels => kept.level (nested levels)

/-- A property that the grammar keeps holds of the tree that is parsed from a text, before the
variables of its lambdas are resolved. -/
theorem holds_of_ofText {holds : Node → Prop} (kept : KeptByGrammar holds) {source : String}
    {node : Node} (parsed : ofText source = .ok node) :
    ∃ unresolved, holds unresolved ∧ node = resolve [] unresolved :=
  kept.levels.of_ofText parsed

theorem forall_orderByItems {holds : Nat → Node → Prop} (kept : KeptByLevels holds) {fuel : Nat}
    {text rest : List Char} {items : List OrderByItem}
    (read : orderByItems fuel text = .ok (items, rest)) :
    ∀ item ∈ items, holds maxDepth item.key := by
  induction fuel generalizing text items rest with
  | zero => cases read
  | succ fuel ih =>
    obtain ⟨⟨key, behind⟩, one, read⟩ := Parse.bind_eq_ok read
    have begins := yields_topExpression kept _ _ _ one
    simp only at read
    split at read
    · obtain ⟨⟨others, final⟩, more, read⟩ := Parse.bind_eq_ok read
      cases read
      exact List.forall_mem_cons.2 ⟨begins, ih more⟩
    · cases read
      exact List.forall_mem_singleton.2 begins

/-- A property that all levels keep holds of each sort key that is parsed from a text with all of them
left, before the variables of its lambdas are resolved. -/
theorem KeptByLevels.of_orderByOfText {holds : Nat → Node → Prop} (kept : KeptByLevels holds)
    {source : String} {items : List OrderByItem} (parsed : orderByOfText source = .ok items) :
    ∀ item ∈ items, ∃ unresolved, holds maxDepth unresolved ∧ item.key = resolve [] unresolved := by
  obtain ⟨unresolved, whole, rfl⟩ := Result.map_eq_ok parsed
  obtain ⟨rest, read, -⟩ := complete_eq_ok whole
  intro item inside
  obtain ⟨before, among, rfl⟩ := List.mem_map.1 inside
  exact ⟨before.key, forall_orderByItems kept read before among, rfl⟩

/-- A property that the grammar keeps holds of each sort key that is parsed from a text, before the
variables of its lambdas are resolved. -/
theorem holds_of_orderByOfText {holds : Node → Prop} (kept : KeptByGrammar holds) {source : String}
    {items : List OrderByItem} (parsed : orderByOfText source = .ok items) :
    ∀ item ∈ items, ∃ unresolved, holds unresolved ∧ item.key = resolve [] unresolved :=
  kept.levels.of_orderByOfText parsed

end Filter

namespace Node

mutual

/-- Whether every lambda in an expression stands over a path. -/
def quantifiesPaths : Node → Bool
  | null | literal _ | property _ | ofVariable _ _ => true
  | list items => allQuantifyPaths items
  | binary _ left right => left.quantifiesPaths && right.quantifiesPaths
  | unary _ operand => operand.quantifiesPaths
  | call _ arguments => allQuantifyPaths arguments
  | lambda _ collection _ predicate => collection.isReference && predicate.quantifiesPaths
  | bareLambda _ collection => collection.isReference

def allQuantifyPaths : List Node → Bool
  | [] => true
  | node :: rest => node.quantifiesPaths && allQuantifyPaths rest

end

theorem allQuantifyPaths_iff (nodes : List Node) :
    allQuantifyPaths nodes = true ↔ ∀ node ∈ nodes, node.quantifiesPaths = true := by
  induction nodes with
  | nil => simp only [allQuantifyPaths, List.not_mem_nil, false_implies, implies_true]
  | cons node rest ih => simp only [allQuantifyPaths, Bool.and_eq_true, ih, List.forall_mem_cons]

end Node

namespace Filter

theorem isReference_resolve (scope : List String) {node : Node}
    (reference : node.isReference = true) :
    (resolve scope node).isReference = true := by
  cases node with
  | property path =>
    unfold resolve
    split
    · split <;> rfl
    · rfl
  | ofVariable name path => rfl
  | _ => cases reference

mutual

theorem quantifiesPaths_resolve (scope : List String) (node : Node)
    (quantified : node.quantifiesPaths = true) : (resolve scope node).quantifiesPaths = true := by
  cases node with
  | null => rfl
  | literal value => rfl
  | ofVariable name path => rfl
  | property path =>
    unfold resolve
    split
    · split <;> rfl
    · rfl
  | list items => exact allQuantifyPaths_resolveAll scope items quantified
  | binary operator left right =>
    rw [Node.quantifiesPaths, Bool.and_eq_true] at quantified
    rw [resolve, Node.quantifiesPaths, quantifiesPaths_resolve scope left quantified.1,
      quantifiesPaths_resolve scope right quantified.2]
    rfl
  | unary operator operand => exact quantifiesPaths_resolve scope operand quantified
  | call name arguments => exact allQuantifyPaths_resolveAll scope arguments quantified
  | lambda operator collection parameter predicate =>
    rw [Node.quantifiesPaths, Bool.and_eq_true] at quantified
    rw [resolve, Node.quantifiesPaths, isReference_resolve scope quantified.1,
      quantifiesPaths_resolve (parameter :: scope) predicate quantified.2]
    rfl
  | bareLambda operator collection => exact isReference_resolve scope quantified

theorem allQuantifyPaths_resolveAll (scope : List String) (nodes : List Node)
    (quantified : Node.allQuantifyPaths nodes = true) :
    Node.allQuantifyPaths (resolveAll scope nodes) = true := by
  cases nodes with
  | nil => rfl
  | cons node rest =>
    rw [Node.allQuantifyPaths, Bool.and_eq_true] at quantified
    rw [resolveAll, Node.allQuantifyPaths, quantifiesPaths_resolve scope node quantified.1,
      allQuantifyPaths_resolveAll scope rest quantified.2]
    rfl

end

/-- In a parsed filter every lambda stands over a path. -/
theorem quantifiesPaths_of_ofText {source : String} {node : Node}
    (parsed : ofText source = .ok node) : node.quantifiesPaths = true := by
  have kept : KeptByGrammar fun node => node.quantifiesPaths = true := by
    constructor
    · rfl
    · intro value
      rfl
    · intro path
      rfl
    · intro items all
      exact (Node.allQuantifyPaths_iff items).2 all
    · intro operator left right first second
      rw [Node.quantifiesPaths, first, second]
      rfl
    · intro operator operand inner
      exact inner
    · intro name arguments all
      exact (Node.allQuantifyPaths_iff arguments).2 all
    · intro operator path parameter predicate inner
      exact inner
    · intro operator path
      rfl
  obtain ⟨unresolved, quantified, rfl⟩ := holds_of_ofText kept parsed
  exact quantifiesPaths_resolve [] unresolved quantified

end Filter

end EdmQuery
