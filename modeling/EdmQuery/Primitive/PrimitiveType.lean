set_option autoImplicit false

namespace EdmQuery

/-- The types of integers, by width. -/
inductive IntegerType
  | byte
  | sbyte
  | int16
  | int32
  | int64
deriving DecidableEq, Repr, Inhabited

namespace IntegerType

def minValue : IntegerType → Int
  | byte => 0
  | sbyte => -128
  | int16 => -32768
  | int32 => -2147483648
  | int64 => -9223372036854775808

def maxValue : IntegerType → Int
  | byte => 255
  | sbyte => 127
  | int16 => 32767
  | int32 => 2147483647
  | int64 => 9223372036854775807

def contains (type : IntegerType) (value : Int) : Bool :=
  decide (type.minValue ≤ value) && decide (value ≤ type.maxValue)

theorem contains_iff (type : IntegerType) (value : Int) :
    type.contains value = true ↔ type.minValue ≤ value ∧ value ≤ type.maxValue := by
  simp only [contains, Bool.and_eq_true, decide_eq_true_eq]

/-- Every integer type lies within the widest one. -/
theorem int64_contains (type : IntegerType) (value : Int) (inside : type.contains value = true) :
    int64.contains value = true := by
  rw [contains_iff] at inside ⊢
  cases type <;> simp only [minValue, maxValue] at inside ⊢ <;> omega

def simpleName : IntegerType → String
  | byte => "Byte"
  | sbyte => "SByte"
  | int16 => "Int16"
  | int32 => "Int32"
  | int64 => "Int64"

end IntegerType

inductive PrimitiveType
  | boolean
  | integer (width : IntegerType)
  | single
  | double
  | decimal
  | string
  | guid
  | date
  | dateTimeOffset
  | timeOfDay
  | binary
deriving DecidableEq, Repr, Inhabited

namespace PrimitiveType

def all : List PrimitiveType :=
  [boolean, integer .byte, integer .sbyte, integer .int16, integer .int32, integer .int64, single,
    double, decimal, string, guid, date, dateTimeOffset, timeOfDay, binary]

theorem mem_all (type : PrimitiveType) : type ∈ all := by
  cases type with
  | integer width => cases width <;> decide
  | _ => decide

/-- The name within the `Edm` namespace. -/
def simpleName : PrimitiveType → String
  | boolean => "Boolean"
  | integer width => width.simpleName
  | single => "Single"
  | double => "Double"
  | decimal => "Decimal"
  | string => "String"
  | guid => "Guid"
  | date => "Date"
  | dateTimeOffset => "DateTimeOffset"
  | timeOfDay => "TimeOfDay"
  | binary => "Binary"

def qualifiedName (type : PrimitiveType) : String := "Edm." ++ type.simpleName

/-- A name without the namespace in front, if it is there. -/
def stripNamespace (name : String) : String :=
  let chars := name.toList
  if "Edm.".toList.isPrefixOf chars then String.ofList (chars.drop 4) else name

/-- Finds a type by its name with or without the namespace. -/
def ofName? (name : String) : Option PrimitiveType :=
  all.find? fun type => type.simpleName == stripNamespace name

def isIntegral : PrimitiveType → Bool
  | integer _ => true
  | _ => false

def isNumeric : PrimitiveType → Bool
  | integer _ | single | double | decimal => true
  | _ => false

/-- Values of other types need a type hint to be read back from JSON. -/
def isJsonNative : PrimitiveType → Bool
  | boolean | string | double | integer .int32 => true
  | _ => false

def isETagEligible : PrimitiveType → Bool
  | binary => false
  | _ => true

/-- The smallest and the largest value of an integer type. -/
def integralRange? : PrimitiveType → Option (Int × Int)
  | integer width => some (width.minValue, width.maxValue)
  | _ => none

end PrimitiveType

end EdmQuery
