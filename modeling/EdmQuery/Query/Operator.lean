set_option autoImplicit false

namespace EdmQuery

inductive BinaryOperator
  | or
  | and
  | equal
  | notEqual
  | greater
  | greaterOrEqual
  | less
  | lessOrEqual
  | isIn
  | add
  | subtract
  | multiply
  | divide
  | divideBy
  | modulo
deriving DecidableEq, Repr, Inhabited

namespace BinaryOperator

def all : List BinaryOperator :=
  [or, and, equal, notEqual, greater, greaterOrEqual, less, lessOrEqual, isIn, add, subtract,
    multiply, divide, divideBy, modulo]

/-- From one to five; a higher one binds tighter. -/
def precedence : BinaryOperator → Nat
  | or => 1
  | and => 2
  | equal | notEqual | greater | greaterOrEqual | less | lessOrEqual | isIn => 3
  | add | subtract => 4
  | multiply | divide | divideBy | modulo => 5

def isComparison : BinaryOperator → Bool
  | equal | notEqual | greater | greaterOrEqual | less | lessOrEqual => true
  | _ => false

def isLogical : BinaryOperator → Bool
  | or | and => true
  | _ => false

def isArithmetic : BinaryOperator → Bool
  | add | subtract | multiply | divide | divideBy | modulo => true
  | _ => false

def keyword : BinaryOperator → String
  | or => "or"
  | and => "and"
  | equal => "eq"
  | notEqual => "ne"
  | greater => "gt"
  | greaterOrEqual => "ge"
  | less => "lt"
  | lessOrEqual => "le"
  | isIn => "in"
  | add => "add"
  | subtract => "sub"
  | multiply => "mul"
  | divide => "div"
  | divideBy => "divby"
  | modulo => "mod"

def ofKeyword? (keyword : String) : Option BinaryOperator :=
  all.find? fun operator => operator.keyword == keyword

@[simp] theorem ofKeyword?_keyword (operator : BinaryOperator) :
    ofKeyword? operator.keyword = some operator := by
  cases operator <;> decide

end BinaryOperator

inductive UnaryOperator
  | not
  | negate
deriving DecidableEq, Repr, Inhabited

namespace UnaryOperator

def symbol : UnaryOperator → String
  | not => "not"
  | negate => "-"

end UnaryOperator

/-- Whether some or all elements of a collection satisfy a predicate. -/
inductive LambdaOperator
  | any
  | all
deriving DecidableEq, Repr, Inhabited

namespace LambdaOperator

def keyword : LambdaOperator → String
  | any => "any"
  | all => "all"

end LambdaOperator

end EdmQuery
