import EdmQuery.Evaluation.Operand
import EdmQuery.Query.Operator

set_option autoImplicit false

namespace EdmQuery.Comparison

/-- The order of two primitives. Only numbers may have none, if one of them is not a number. -/
def order (operator : String) (x y : Primitive) : Evaluated (Option Ordering) :=
  match x.compare? y with
  | some ordering => .ok (some ordering)
  | none =>
    if x.numeric?.isSome && y.numeric?.isSome then .ok none
    else .error (.typeMismatch operator x.typeName y.typeName)

/-- A number as it takes part in the total order of binary numbers. -/
def binaryKey (value : Primitive) : Binary64 :=
  (value.numeric?.map Numeric.toBinary64).getD (.nan false)

/-- The order of sort keys, in which also what is not a number has a place. -/
def sortOrder (x y : Primitive) : Evaluated Ordering := do
  match ← order "$orderby" x y with
  | some ordering => return ordering
  | none => return (binaryKey x).totalCompare (binaryKey y)

/-- Whether an order satisfies an operator. -/
def holds : BinaryOperator → Ordering → Bool
  | .equal, ordering => ordering == .eq
  | .notEqual, ordering => ordering != .eq
  | .greater, ordering => ordering == .gt
  | .greaterOrEqual, ordering => ordering != .lt
  | .less, ordering => ordering == .lt
  | .lessOrEqual, ordering => ordering != .gt
  | _, _ => false

/-- What is not a number differs from everything, and satisfies no other operator. -/
def holdsPartially (operator : BinaryOperator) : Option Ordering → Bool
  | some ordering => holds operator ordering
  | none => operator == .notEqual

def compare (operator : BinaryOperator) : Operand → Operand → Evaluated Operand
  | .null, _ | _, .null => .ok .null
  | .primitive x, .primitive y =>
    return .ofBool (holdsPartially operator (← order operator.keyword x y))
  | .primitive _, other | other, _ =>
    .error (.typeMismatch operator.keyword "primitive value" other.typeName)

/-- Looks for an equal member, given whether an unknown one was passed already. -/
def findMember (needle : Primitive) : Bool → List Operand → Evaluated Operand
  | unknown, [] => .ok (if unknown then .null else .ofBool false)
  | _, .null :: rest => findMember needle true rest
  | unknown, .primitive member :: rest => do
    match ← order "in" needle member with
    | some .eq => return .ofBool true
    | _ => findMember needle unknown rest
  | _, other :: _ => .error (.typeMismatch "in" "primitive value" other.typeName)

/-- The members that `in` looks through, none for null. -/
def members? : Operand → Evaluated (Option (List Operand))
  | .null => .ok none
  | .list items => .ok (some items)
  | .collection items => .ok (some (items.map Operand.ofValue))
  | other => .error (.typeMismatch "in" "list or collection" other.typeName)

/-- True if some member is equal, unknown if none is but some member is null, false otherwise. -/
def isMember (needle members : Operand) : Evaluated Operand := do
  match ← needle.primitiveOrNull "in" with
  | none => return .null
  | some value =>
    match ← members? members with
    | none => return .null
    | some items => findMember value false items

end EdmQuery.Comparison
