import EdmQuery.Evaluation.CalendarFunctions
import EdmQuery.Evaluation.RoundingFunctions
import EdmQuery.Evaluation.TextFunctions

set_option autoImplicit false

namespace EdmQuery.FunctionRegistry

def standard : FunctionRegistry :=
  ofList (TextFunctions.functions ++ CalendarFunctions.functions ++ RoundingFunctions.functions)

end EdmQuery.FunctionRegistry
