import EdmQuery.Evaluation.Function

set_option autoImplicit false

namespace EdmQuery.RoundingFunctions

def ofNumber (name : String) (decimal : Decimal → Decimal) (binary : Binary64 → Binary64) :
    FunctionDefinition :=
  .fixed name 1 fun _ arguments =>
    match arguments.head? with
    | none | some .null => .ok none
    | some (.primitive (.decimal value)) => .ok (some (.decimal (decimal value)))
    | some (.primitive (.double value)) => .ok (some (.double (binary value)))
    | some (.primitive (.single value)) => .ok (some (.single (binary value).toSingle))
    | some (.primitive (.integer value)) => .ok (some (.integer value))
    | some other => .error (.typeMismatch name "numeric value" other.typeName)

/-- Halves are rounded away from zero. -/
def functions : List FunctionDefinition :=
  [ofNumber "round" Decimal.round Binary64.round,
    ofNumber "floor" Decimal.floor Binary64.floor,
    ofNumber "ceiling" Decimal.ceil Binary64.ceil]

end EdmQuery.RoundingFunctions
