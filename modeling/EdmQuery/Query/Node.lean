import EdmQuery.Primitive.Basic
import EdmQuery.Query.Operator
import EdmQuery.Query.Path

set_option autoImplicit false

namespace EdmQuery

/-- A query expression. A path starts at the current instance, or at the element that a lambda
variable stands for. -/
inductive Node
  | null
  | literal (value : Primitive)
  | list (items : List Node)
  | property (path : PropertyPath)
  | ofVariable (name : String) (path : PropertyPath)
  | binary (operator : BinaryOperator) (left right : Node)
  | unary (operator : UnaryOperator) (operand : Node)
  | call (function : String) (arguments : List Node)
  | lambda (operator : LambdaOperator) (collection : Node) (parameter : String) (predicate : Node)
  | bareLambda (operator : LambdaOperator) (collection : Node)
deriving Repr, Inhabited

/-- A text between single quotes, with quotes inside of it doubled. -/
def quoteLiteral (text : List Char) : List Char :=
  '\'' :: text.flatMap (fun char => if char = '\'' then ['\'', '\''] else [char]) ++ ['\'']

/-- A primitive value as a literal of the expression language. -/
def Primitive.spellLiteral : Primitive → List Char
  | .string value => quoteLiteral value.toList
  | .binary bytes => "binary'".toList ++ (Base64.encode bytes).toList ++ ['\'']
  | other => other.render.toList

namespace Node

/-- Whether a node reads from the instance or from a lambda variable. -/
def isReference : Node → Bool
  | property _ | ofVariable _ _ => true
  | _ => false

def spellVariable (name : String) (path : PropertyPath) : List Char :=
  if path.isRoot then name.toList else name.toList ++ '/' :: path.spell

mutual

def spell : Node → List Char
  | null => "null".toList
  | literal value => value.spellLiteral
  | list items => '(' :: spellItems items
  | property path => path.spell
  | ofVariable name path => spellVariable name path
  | binary operator left right =>
    '(' :: spell left ++ ' ' :: operator.keyword.toList ++ ' ' :: spell right ++ [')']
  | unary .not operand => "not ".toList ++ spell operand
  | unary .negate operand => '-' :: spell operand
  | call function arguments => function.toList ++ '(' :: spellItems arguments
  | lambda operator collection parameter predicate =>
    spell collection ++ '/' :: operator.keyword.toList ++ '(' :: parameter.toList ++
      ':' :: spell predicate ++ [')']
  | bareLambda operator collection =>
    spell collection ++ '/' :: operator.keyword.toList ++ ['(', ')']

/-- Items between commas, and the closing parenthesis. -/
def spellItems : List Node → List Char
  | [] => [')']
  | [item] => spell item ++ [')']
  | item :: rest => spell item ++ ',' :: spellItems rest

end

def render (node : Node) : String := String.ofList node.spell

end Node

inductive SortDirection
  | ascending
  | descending
deriving DecidableEq, Repr, Inhabited

def SortDirection.keyword : SortDirection → String
  | .ascending => "asc"
  | .descending => "desc"

/-- One sort key and its direction. -/
structure OrderByItem where
  key : Node
  direction : SortDirection
deriving Repr, Inhabited

def OrderByItem.render (item : OrderByItem) : String :=
  item.key.render ++ " " ++ item.direction.keyword

end EdmQuery
