import EdmQuery.Query.Literal

set_option autoImplicit false

/- The grammar of filters and sort keys. From loosest to tightest: `or`, `and`, `not`, comparisons,
sums, products, unary minus, and what stands for itself. Whatever stands inside of something else is
parsed by a `Nested` grammar, which exists only while the nesting limit is not reached; so the
grammar is defined by recursion on the number of levels that are left. -/
namespace EdmQuery

namespace Filter

open Parsing

/-- The parsers of one level further down. -/
structure Nested where
  expression : Parser Node
  negation : Parser Node
  minus : Parser Node

/-- The operator of a given precedence that comes next, if one does. -/
def operator? (precedence : Nat) (text : List Char) : Option (BinaryOperator × List Char) :=
  (name? (skipGap text)).bind fun (word, rest) =>
    (BinaryOperator.ofKeyword? word).bind fun operator =>
      if operator.precedence = precedence then some (operator, rest) else none

/-- Further operands of one precedence, gathered to the left; `fuel` bounds their number. -/
def chain (precedence : Nat) (operand : BinaryOperator → Parser Node) :
    Nat → Node → Parser Node
  | 0, left, text => .ok (left, text)
  | fuel + 1, left, text =>
    match operator? precedence text with
    | none => .ok (left, text)
    | some (operator, rest) => do
      let (right, rest) ← operand operator rest
      chain precedence operand fuel (.binary operator left right) rest

/-- An operand and all further ones of a precedence. -/
def leftAssociative (precedence : Nat) (first : Parser Node)
    (operand : BinaryOperator → Parser Node) : Parser Node := fun text => do
  let (left, rest) ← first text
  chain precedence operand rest.length left rest

/-- Enters a level, or fails where the limit is reached. -/
def descend (deeper : Option Nested) (text : List Char) : Parse Nested :=
  match deeper with
  | some nested => .ok nested
  | none => .error ⟨.tooDeep, text⟩

/-- Further items behind commas. -/
def moreItems (item : Parser Node) : Nat → Parser (List Node)
  | 0, text => .ok ([], text)
  | fuel + 1, text =>
    match text with
    | ',' :: rest => do
      let (node, rest) ← item rest
      let (items, rest) ← moreItems item fuel (skipGap rest)
      return (node :: items, rest)
    | _ => .ok ([], text)

/-- What stands behind an opening parenthesis: one expression is a group, several are a list. -/
def group (deeper : Option Nested) (text : List Char) : Parse (Node × List Char) := do
  let nested ← descend deeper text
  let (first, rest) ← nested.expression text
  match skipGap rest with
  | ')' :: rest => return (first, rest)
  | rest =>
    let (items, rest) ← moreItems nested.expression rest.length rest
    let rest ← expect ')' .unexpected rest
    return (.list (first :: items), rest)

/-- The arguments behind the opening parenthesis of a call. -/
def callArguments (deeper : Option Nested) (text : List Char) : Parse (List Node × List Char) := do
  let nested ← descend deeper text
  match skipGap text with
  | ')' :: rest => return ([], rest)
  | text =>
    let (first, rest) ← nested.expression text
    let rest := skipGap rest
    let (others, rest) ← moreItems nested.expression rest.length rest
    let rest ← expect ')' .unexpected rest
    return (first :: others, rest)

/-- A variable and a predicate behind the opening parenthesis of a lambda; `any` may do without. -/
def lambdaBody (deeper : Option Nested) (operator : LambdaOperator) (collection : Node)
    (text : List Char) : Parse (Node × List Char) := do
  let nested ← descend deeper text
  match skipGap text with
  | ')' :: rest =>
    if operator = .all then fail .invalidLambda rest
    else return (.bareLambda operator collection, rest)
  | text =>
    match name? text with
    | none => fail .invalidLambda text
    | some (parameter, rest) =>
      let rest ← expect ':' .invalidLambda rest
      let (predicate, rest) ← nested.expression rest
      let rest ← expect ')' .invalidLambda rest
      return (.lambda operator collection parameter predicate, rest)

def lambdaOperator? (segment : String) : Option LambdaOperator :=
  if segment = "any" then some .any else if segment = "all" then some .all else none

/-- Further segments of a path, up to a lambda over what was gathered so far. -/
def pathRest (deeper : Option Nested) : Nat → PropertyPath → Parser Node
  | 0, path, text => .ok (.property path, text)
  | fuel + 1, path, text =>
    match text with
    | '/' :: rest =>
      match name? rest with
      | none => .ok (.property path, text)
      | some (segment, rest) =>
        match lambdaOperator? segment, rest with
        | some operator, '(' :: body => lambdaBody deeper operator (.property path) body
        | _, _ => pathRest deeper fuel (path.push segment) rest
    | _ => .ok (.property path, text)

/-- A path, a call, or a lambda over a path. -/
def pathOrCall (deeper : Option Nested) (text : List Char) : Parse (Node × List Char) :=
  match name? text with
  | none => fail .unexpected text
  | some (first, rest) =>
    if first = "$it" then pathRest deeper rest.length .root rest
    else match rest with
      | '(' :: body => do
        let (arguments, rest) ← callArguments deeper body
        return (.call first arguments, rest)
      | _ => pathRest deeper rest.length ⟨[first]⟩ rest

/-- A group, a literal, or whatever a name begins. -/
def primary (deeper : Option Nested) (text : List Char) : Parse (Node × List Char) :=
  match skipGap text with
  | '(' :: rest => group deeper rest
  | text =>
    match Literal.read? text with
    | some parsed => parsed
    | none => pathOrCall deeper text

def minus (deeper : Option Nested) (text : List Char) : Parse (Node × List Char) :=
  match skipGap text with
  | '-' :: rest => do
    let nested ← descend deeper rest
    let (operand, rest) ← nested.minus rest
    return (.unary .negate operand, rest)
  | text => primary deeper text

def product (deeper : Option Nested) : Parser Node :=
  leftAssociative 5 (minus deeper) fun _ => minus deeper

def sum (deeper : Option Nested) : Parser Node :=
  leftAssociative 4 (product deeper) fun _ => product deeper

/-- The right operand of `in`: a list or a path as it stands, anything else as a list of one. -/
def members (deeper : Option Nested) (text : List Char) : Parse (Node × List Char) := do
  let (node, rest) ← primary deeper text
  match node with
  | .list _ | .property _ => return (node, rest)
  | single => return (.list [single], rest)

def comparison (deeper : Option Nested) : Parser Node :=
  leftAssociative 3 (sum deeper) fun operator =>
    if operator = .isIn then members deeper else sum deeper

def negation (deeper : Option Nested) (text : List Char) : Parse (Node × List Char) :=
  match keyword? "not" (skipGap text) with
  | some rest => do
    let nested ← descend deeper rest
    let (operand, rest) ← nested.negation rest
    return (.unary .not operand, rest)
  | none => comparison deeper text

def conjunction (deeper : Option Nested) : Parser Node :=
  leftAssociative 2 (negation deeper) fun _ => negation deeper

def expression (deeper : Option Nested) (text : List Char) : Parse (Node × List Char) :=
  leftAssociative 1 (conjunction deeper) (fun _ => conjunction deeper) (skipGap text)

/-- The grammar with a number of levels left, none at zero. -/
def nested : Nat → Option Nested
  | 0 => none
  | levels + 1 =>
    some ⟨expression (nested levels), negation (nested levels), minus (nested levels)⟩

/-- An expression with the whole nesting allowed. -/
def topExpression : Parser Node := expression (nested maxDepth)

mutual

/-- Turns paths that start at a lambda variable in scope into paths of that variable. -/
def resolve (scope : List String) : Node → Node
  | .property path =>
    match path.first? with
    | some first =>
      if scope.contains first then .ofVariable first path.tail else .property path
    | none => .property path
  | .binary operator left right => .binary operator (resolve scope left) (resolve scope right)
  | .unary operator operand => .unary operator (resolve scope operand)
  | .call function arguments => .call function (resolveAll scope arguments)
  | .list items => .list (resolveAll scope items)
  | .lambda operator collection parameter predicate =>
    .lambda operator (resolve scope collection) parameter (resolve (parameter :: scope) predicate)
  | .bareLambda operator collection => .bareLambda operator (resolve scope collection)
  | .null => .null
  | .literal value => .literal value
  | .ofVariable name path => .ofVariable name path

def resolveAll (scope : List String) : List Node → List Node
  | [] => []
  | node :: rest => resolve scope node :: resolveAll scope rest

end

@[simp] theorem resolveAll_eq_map (scope : List String) (nodes : List Node) :
    resolveAll scope nodes = nodes.map (resolve scope) := by
  induction nodes with
  | nil => rfl
  | cons node rest ih => simp only [resolveAll, ih, List.map_cons]

/-- The tree of a filter. -/
def ofText (source : String) : Result Node :=
  (complete topExpression .syntaxError true source).map (resolve [])

/-- The direction behind a sort key, ascending if none is given. -/
def direction (text : List Char) : SortDirection × List Char :=
  match keyword? "desc" (skipGap text) with
  | some rest => (.descending, rest)
  | none =>
    match keyword? "asc" (skipGap text) with
    | some rest => (.ascending, rest)
    | none => (.ascending, text)

/-- Sort keys between commas. -/
def orderByItems : Nat → Parser (List OrderByItem)
  | 0, text => fail .unexpected text
  | fuel + 1, text => do
    let (key, rest) ← topExpression text
    let (direction, rest) := direction rest
    match skipGap rest with
    | ',' :: rest =>
      let (items, rest) ← orderByItems fuel rest
      return (⟨key, direction⟩ :: items, rest)
    | rest => return ([⟨key, direction⟩], rest)

/-- The sort keys of an ordering. -/
def orderByOfText (source : String) : Result (List OrderByItem) :=
  (complete (fun text => orderByItems (text.length + 1) text) .invalidOrderby false source).map
    fun items => items.map fun item => { item with key := resolve [] item.key }

end Filter

end EdmQuery
