import EdmQuery.Error.Basic

set_option autoImplicit false

namespace EdmQuery

inductive EvaluationError
  | unknownOperator (name : String)
  | unknownProperty (path typeName : String)
  | typeMismatch (operator expected found : String)
  | argumentCount (function expected : String) (found : Nat)
  | unboundVariable (name : String)
  | divisionByZero
  | overflow (operation : String)
  | invalidPattern (pattern : String)
  | tooDeep (limit : Nat)
deriving DecidableEq, Repr, Inhabited

namespace EvaluationError

def message : EvaluationError → String
  | unknownOperator name => "Unknown function or operator: " ++ name
  | unknownProperty path typeName =>
    "Property '" ++ path ++ "' does not exist on type " ++ typeName
  | typeMismatch operator expected found =>
    "Type mismatch in " ++ operator ++ ": expected " ++ expected ++ ", found " ++ found
  | argumentCount function expected found =>
    function ++ " expects " ++ expected ++ " argument(s), found " ++ toString found
  | unboundVariable name => "Lambda variable '" ++ name ++ "' is not in scope"
  | divisionByZero => "Division by zero"
  | overflow operation => "Arithmetic overflow in " ++ operation
  | invalidPattern pattern => "Invalid regex pattern: " ++ pattern
  | tooDeep limit => "Expression is more than " ++ toString limit ++ " levels deep"

def code : EvaluationError → ErrorCode
  | unknownOperator _ => .unknownOperator
  | unknownProperty .. => .unknownProperty
  | typeMismatch .. => .typeMismatch
  | argumentCount .. => .invalidArgumentCount
  | unboundVariable _ => .unboundVariable
  | divisionByZero => .divisionByZero
  | overflow _ => .overflow
  | invalidPattern _ => .invalidPattern
  | tooDeep _ => .evaluationTooDeep

/-- What the error is about, where it is about something in the expression. -/
def target? : EvaluationError → Option String
  | unknownOperator name => some name
  | unknownProperty path _ => some path
  | typeMismatch operator _ _ => some operator
  | argumentCount function _ _ => some function
  | unboundVariable name => some name
  | invalidPattern pattern => some pattern
  | divisionByZero | overflow _ | tooDeep _ => none

def toError (error : EvaluationError) : Error :=
  ⟨error.code, error.message, .request error.target?⟩

end EvaluationError

/-- What an operation on values that are at hand already gives. -/
abbrev Evaluated (α : Type) := Except EvaluationError α

def Evaluated.toResult {α : Type} (evaluated : Evaluated α) : Result α :=
  match evaluated with
  | .ok value => .ok value
  | .error error => .error error.toError

end EdmQuery
