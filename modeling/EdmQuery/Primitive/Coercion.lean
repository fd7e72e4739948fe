import EdmQuery.Error.Basic
import EdmQuery.Number.DecimalReader
import EdmQuery.Primitive.Basic
import EdmQuery.Text.CharProperties

set_option autoImplicit false

namespace EdmQuery

namespace Coercion

/-- A whole binary number within the bounds of 64-bit integers; the upper bound itself, which is
one more than the largest integer, counts as that integer. -/
def wholeToInt? (value : Binary64) : Option Int :=
  let bound : Int := Nat.pow 2 63
  if value.isWhole ∧ -bound ≤ value.toInt ∧ value.toInt ≤ bound then
    some (min value.toInt (bound - 1))
  else none

/-- The integer that raw JSON denotes. -/
def integer? (acceptString : Bool) : Json → Option Int
  | .int value =>
    if IntegerType.int64.contains value then some value else wholeToInt? (Binary64.ofInt value)
  | .double value => wholeToInt? value
  | .string text =>
    if acceptString then
      (readInt? (Text.trim text.toList)).filter (IntegerType.int64.contains ·)
    else none
  | _ => none

def floating? : Json → Option Binary64
  | .int value => some (Binary64.ofInt value)
  | .double value => some value
  | .string text =>
    if text = "NaN" then some (.nan false)
    else if text = "INF" then some (.infinity false)
    else if text = "-INF" then some (.infinity true)
    else none
  | _ => none

/-- A number is read from the text that JSON writes for it. -/
def decimal? : Json → Option Decimal
  | .string text => Decimal.ofText? (Text.trim text.toList)
  | .int value => Decimal.ofText? (Json.scalarText (.int value)).toList
  | .double value => Decimal.ofText? (Json.scalarText (.double value)).toList
  | _ => none

end Coercion

namespace PrimitiveType

def convert? (type : PrimitiveType) (raw : Json) : Option Primitive :=
  match type with
  | boolean => raw.bool?.map .boolean
  | integer width =>
    (Coercion.integer? (width == .int64) raw).bind (Primitive.ofInt? width ·)
  | single => (Coercion.floating? raw).map fun value => .single value.toSingle
  | double => (Coercion.floating? raw).map .double
  | decimal => (Coercion.decimal? raw).map .decimal
  | string => raw.string?.map .string
  | guid => (raw.string?.bind fun text => Guid.read? text.toList).map .guid
  | date => (raw.string?.bind fun text => Date.read? text.toList).map .date
  | dateTimeOffset =>
    (raw.string?.bind fun text => DateTimeOffset.read? text.toList).map .dateTimeOffset
  | timeOfDay => (raw.string?.bind fun text => TimeOfDay.read? text.toList).map .timeOfDay
  | binary => (raw.string?.bind fun text => Base64.decode? text.toList).map .binary

/-- The value of this type that raw JSON denotes, none for null, or an error. -/
def instance? (type : PrimitiveType) (raw : Json) : Result (Option Primitive) :=
  if raw.isNull then .ok none
  else match type.convert? raw with
    | some value => .ok (some value)
    | none => .error (.invalidValue type.qualifiedName raw.compact)

end PrimitiveType

/-- The value that raw JSON suggests without a declared type; the smaller of two integer types
is preferred. Null, arrays and objects suggest none. -/
def Primitive.infer? : Json → Option Primitive
  | .bool value => some (.boolean value)
  | .int value =>
    (Primitive.int32? value).or ((Primitive.int64? value).or
      (some (.double (Binary64.ofInt value))))
  | .double value => some (.double value)
  | .string text => some (.string text)
  | _ => none

end EdmQuery
