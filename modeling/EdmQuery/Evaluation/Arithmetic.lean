import EdmQuery.Evaluation.Operand
import EdmQuery.Query.Operator

set_option autoImplicit false

namespace EdmQuery.Arithmetic

def isDivision : BinaryOperator → Bool
  | .divide | .divideBy | .modulo => true
  | _ => false

/-- The exact result of an operator on integers, for a divisor other than zero. -/
def resultOf? : BinaryOperator → Int → Int → Option Int
  | .add, x, y => some (x + y)
  | .subtract, x, y => some (x - y)
  | .multiply, x, y => some (x * y)
  | .divide, x, y | .divideBy, x, y => some (x.tdiv y)
  | .modulo, x, y => some (x.tmod y)
  | _, _, _ => none

/-- The one division that overflows also makes its remainder overflow. -/
def isOverflowing (operator : BinaryOperator) (x y : Int) : Bool :=
  isDivision operator && x == IntegerType.int64.minValue && y == -1

def ofIntegers (operator : BinaryOperator) (x y : Int) : Evaluated Primitive :=
  if isDivision operator && y == 0 then .error .divisionByZero
  else match resultOf? operator x y with
    | none => .error (.unknownOperator operator.keyword)
    | some result =>
      if isOverflowing operator x y then .error (.overflow operator.keyword)
      else match Primitive.int64? result with
        | some value => .ok value
        | none => .error (.overflow operator.keyword)

def ofDecimals (operator : BinaryOperator) (x y : Decimal) : Evaluated Primitive :=
  let finish (result : Option Decimal) : Evaluated Primitive :=
    match result with
    | some value => .ok (.decimal value)
    | none => .error (.overflow operator.keyword)
  if isDivision operator && y.isZero then .error .divisionByZero
  else match operator with
    | .add => finish (x.add? y)
    | .subtract => finish (x.sub? y)
    | .multiply => finish (x.mul? y)
    | .divide | .divideBy => finish (x.div? y)
    | .modulo => finish (x.rem? y)
    | _ => .error (.unknownOperator operator.keyword)

def ofBinaries (operator : BinaryOperator) (x y : Binary64) : Evaluated Primitive :=
  if isDivision operator && y.isZero then .error .divisionByZero
  else match operator with
    | .add => .ok (.double (x.add y))
    | .subtract => .ok (.double (x.sub y))
    | .multiply => .ok (.double (x.mul y))
    | .divide | .divideBy => .ok (.double (x.div y))
    | .modulo => .ok (.double (x.rem y))
    | _ => .error (.unknownOperator operator.keyword)

/-- The number that an operator needs. -/
def numeric (operator : String) (value : Primitive) : Evaluated Numeric :=
  match value.numeric? with
  | some number => .ok number
  | none => .error (.typeMismatch operator "numeric value" value.typeName)

def ofPrimitives (operator : BinaryOperator) (left right : Primitive) : Evaluated Primitive := do
  let x ← numeric operator.keyword left
  let y ← numeric operator.keyword right
  match x.promote y with
  | (.integer x, .integer y) =>
    if operator = .divideBy then
      ofDecimals operator (Decimal.ofInt64 x) (Decimal.ofInt64 y)
    else ofIntegers operator x y
  | (.decimal x, .decimal y) => ofDecimals operator x y
  | (x, y) => ofBinaries operator x.toBinary64 y.toBinary64

def negate (value : Primitive) : Evaluated Primitive := do
  match ← numeric "-" value with
  | .integer number =>
    match Primitive.int64? (-number) with
    | some result => return result
    | none => throw (.overflow "-")
  | .decimal number => return .decimal number.neg
  | .double number => return .double number.neg

def apply (operator : BinaryOperator) : Operand → Operand → Evaluated Operand
  | .null, _ | _, .null => .ok .null
  | .primitive x, .primitive y => return .primitive (← ofPrimitives operator x y)
  | .primitive _, other | other, _ =>
    .error (.typeMismatch operator.keyword "numeric value" other.typeName)

def applyNegate : Operand → Evaluated Operand
  | .null => .ok .null
  | .primitive value => return .primitive (← negate value)
  | other => .error (.typeMismatch "-" "numeric value" other.typeName)

end EdmQuery.Arithmetic
