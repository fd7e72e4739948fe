import EdmQuery.Calendar.DateTimeOffset
import EdmQuery.Json.Printer
import EdmQuery.Number.Decimal
import EdmQuery.Number.Shortest
import EdmQuery.Primitive.Base64
import EdmQuery.Primitive.Guid
import EdmQuery.Primitive.PrimitiveType

set_option autoImplicit false

namespace EdmQuery

/-- An integer that lies in the range of its type. -/
structure TypedInteger where
  width : IntegerType
  value : Int
  inside : width.contains value = true
deriving DecidableEq, Repr

namespace TypedInteger

instance : Inhabited TypedInteger := ⟨⟨.int32, 0, by decide⟩⟩

def of? (width : IntegerType) (value : Int) : Option TypedInteger :=
  if inside : width.contains value = true then some ⟨width, value, inside⟩ else none

end TypedInteger

/-- A primitive value. A single-precision number is held in double precision. -/
inductive Primitive
  | boolean (value : Bool)
  | integer (value : TypedInteger)
  | single (value : Binary64)
  | double (value : Binary64)
  | decimal (value : Decimal)
  | string (value : String)
  | guid (value : Guid)
  | date (value : Date)
  | dateTimeOffset (value : DateTimeOffset)
  | timeOfDay (value : TimeOfDay)
  | binary (bytes : List UInt8)
deriving DecidableEq, Repr, Inhabited

/-- A number in the widest representation of its kind. -/
inductive Numeric
  | integer (value : Int)
  | decimal (value : Decimal)
  | double (value : Binary64)
deriving DecidableEq, Repr

namespace Numeric

def toBinary64 : Numeric → Binary64
  | integer value => Binary64.ofInt value
  | decimal value => value.toBinary64
  | double value => value

/-- Brings two numbers to the wider of their kinds: integers before decimals before binary
numbers. -/
def promote : Numeric → Numeric → Numeric × Numeric
  | integer x, integer y => (integer x, integer y)
  | decimal x, decimal y => (decimal x, decimal y)
  | integer x, decimal y => (decimal (Decimal.ofInt64 x), decimal y)
  | decimal x, integer y => (decimal x, decimal (Decimal.ofInt64 y))
  | x, y => (double x.toBinary64, double y.toBinary64)

def compare? (x y : Numeric) : Option Ordering :=
  match promote x y with
  | (integer x, integer y) => some (compare x y)
  | (decimal x, decimal y) => some (x.compare y)
  | (double x, double y) => x.compare? y
  | _ => none

end Numeric

/-- The first difference of two byte strings decides; a shorter one comes first. -/
def compareBytes : List UInt8 → List UInt8 → Ordering
  | [], [] => .eq
  | [], _ :: _ => .lt
  | _ :: _, [] => .gt
  | first :: rest, second :: others =>
    (compare first.toNat second.toNat).then (compareBytes rest others)

namespace Primitive

/-- An integer of a given type, if it is in range. -/
def ofInt? (width : IntegerType) (value : Int) : Option Primitive :=
  (TypedInteger.of? width value).map integer

def int32? (value : Int) : Option Primitive := ofInt? .int32 value

def int64? (value : Int) : Option Primitive := ofInt? .int64 value

def type : Primitive → PrimitiveType
  | boolean _ => .boolean
  | integer value => .integer value.width
  | single _ => .single
  | double _ => .double
  | decimal _ => .decimal
  | string _ => .string
  | guid _ => .guid
  | date _ => .date
  | dateTimeOffset _ => .dateTimeOffset
  | timeOfDay _ => .timeOfDay
  | binary _ => .binary

def typeName (value : Primitive) : String := value.type.qualifiedName

def bool? : Primitive → Option Bool
  | boolean value => some value
  | _ => none

def string? : Primitive → Option String
  | string value => some value
  | _ => none

/-- The value of an integer of any width. -/
def int? : Primitive → Option Int
  | integer value => some value.value
  | _ => none

def numeric? : Primitive → Option Numeric
  | single value | double value => some (.double value)
  | decimal value => some (.decimal value)
  | integer value => some (.integer value.value)
  | _ => none

/-- The wire text: what stands in keys, messages and joined texts, without quotes. -/
def render : Primitive → String
  | boolean value => if value then "true" else "false"
  | integer value => toString value.value
  | single value | double value => value.positional
  | decimal value => value.render
  | string value => value
  | guid value => value.render
  | date value => value.render
  | dateTimeOffset value => value.render
  | timeOfDay value => value.render
  | binary bytes => Base64.encode bytes

/-- Binary numbers that JSON cannot write are strings. -/
def binaryToJson (value : Binary64) : Json :=
  if value.isFinite then .double value else .string value.positional

/-- The form in JSON: numbers as numbers, a decimal without places as an integer while it fits,
everything else as its wire text. -/
def toJson : Primitive → Json
  | boolean value => .bool value
  | integer value => .int value.value
  | single value | double value => binaryToJson value
  | decimal value =>
    match value.toInt? with
    | some int => if IntegerType.int64.contains int then .int int else .double value.toBinary64
    | none => .double value.toBinary64
  | other => .string other.render

/-- The text that enters an ETag, for types that do. -/
def etagText? (value : Primitive) : Option String :=
  if value.type.isETagEligible then some (value.typeName ++ ":" ++ value.render) else none

/-- The order of two values, if they have one. -/
def compare? (x y : Primitive) : Option Ordering :=
  match x.numeric?, y.numeric? with
  | some a, some b => a.compare? b
  | _, _ =>
    match x, y with
    | boolean a, boolean b => some (compare a.toNat b.toNat)
    | string a, string b => some (compare a b)
    | guid a, guid b => some (a.compare b)
    | date a, date b => some (a.compare b)
    | dateTimeOffset a, dateTimeOffset b => some (a.compare b)
    | timeOfDay a, timeOfDay b => some (a.compare b)
    | binary a, binary b => some (compareBytes a b)
    | _, _ => none

/-- Equality of values that can be compared. -/
def equals? (x y : Primitive) : Option Bool := (x.compare? y).map (· == .eq)

/-- Equality within one type: numbers by value, points in time whatever their offset, and NaN
differs from itself. -/
def same (x y : Primitive) : Bool := x.type == y.type && x.compare? y == some .eq

end Primitive

end EdmQuery
