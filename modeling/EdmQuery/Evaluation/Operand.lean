import EdmQuery.Evaluation.Error
import EdmQuery.Value.Basic

set_option autoImplicit false

namespace EdmQuery

inductive Operand
  | null
  | primitive (value : Primitive)
  | complex (value : ComplexValue)
  | collection (items : List Value)
  | list (items : List Operand)
deriving Inhabited

namespace Operand

def ofValue : Value → Operand
  | .primitive value => primitive value
  | .complex value => complex value
  | .collection items => collection items

def ofOption : Option Value → Operand
  | none => null
  | some value => ofValue value

def ofPrimitive? : Option Primitive → Operand
  | none => null
  | some value => primitive value

def ofBool (value : Bool) : Operand := primitive (.boolean value)

/-- A truth value that may not be known. -/
def ofTruth : Option Bool → Operand
  | none => null
  | some value => ofBool value

def isNull : Operand → Bool
  | null => true
  | _ => false

/-- What an operand is called in a message. -/
def typeName : Operand → String
  | null => "null"
  | primitive value => value.typeName
  | complex _ => "complex value"
  | collection _ => "collection"
  | list _ => "list"

/-- The truth value that an operator needs. -/
def truth (operator : String) : Operand → Evaluated (Option Bool)
  | null => .ok none
  | primitive (.boolean value) => .ok (some value)
  | other => .error (.typeMismatch operator "Edm.Boolean" other.typeName)

/-- The primitive value that an operator needs, none for null. -/
def primitiveOrNull (operator : String) : Operand → Evaluated (Option Primitive)
  | null => .ok none
  | primitive value => .ok (some value)
  | other => .error (.typeMismatch operator "primitive value" other.typeName)

@[simp] theorem truth_ofTruth (operator : String) (value : Option Bool) :
    (ofTruth value).truth operator = .ok value := by
  cases value <;> rfl

end Operand

end EdmQuery
