import EdmQuery.Evaluation.Context
import EdmQuery.Keyed

set_option autoImplicit false

namespace EdmQuery

structure FunctionDefinition where
  name : String
  minArguments : Nat
  maxArguments : Nat
  run : EvaluationContext → List Operand → Evaluated (Option Primitive)

namespace FunctionDefinition

/-- A function of a fixed number of arguments. -/
def fixed (name : String) (count : Nat)
    (run : EvaluationContext → List Operand → Evaluated (Option Primitive)) : FunctionDefinition :=
  ⟨name, count, count, run⟩

/-- How many arguments a function takes, as a message tells it. -/
def expectedCount (function : FunctionDefinition) : String :=
  if function.minArguments = function.maxArguments then toString function.minArguments
  else toString function.minArguments ++ " to " ++ toString function.maxArguments

def checkCount (function : FunctionDefinition) (found : Nat) : Evaluated Unit :=
  if function.minArguments ≤ found ∧ found ≤ function.maxArguments then .ok ()
  else .error (.argumentCount function.name function.expectedCount found)

def call (function : FunctionDefinition) (context : EvaluationContext) (arguments : List Operand) :
    Evaluated (Option Primitive) := do
  function.checkCount arguments.length
  function.run context arguments

end FunctionDefinition

/-- Functions of distinct names. -/
structure FunctionRegistry where
  functions : List FunctionDefinition

namespace FunctionRegistry

def empty : FunctionRegistry := ⟨[]⟩

/-- A function takes the place of an earlier one of its name. -/
def register (registry : FunctionRegistry) (function : FunctionDefinition) : FunctionRegistry :=
  ⟨Keyed.put FunctionDefinition.name function registry.functions⟩

def ofList (functions : List FunctionDefinition) : FunctionRegistry :=
  functions.foldl register empty

def find? (registry : FunctionRegistry) (name : String) : Option FunctionDefinition :=
  Keyed.find? FunctionDefinition.name name registry.functions

/-- The names, sorted. -/
def names (registry : FunctionRegistry) : List String :=
  (registry.functions.map FunctionDefinition.name).mergeSort

end FunctionRegistry

/-- The text at a position among the arguments, none for null. -/
def textArgument (function : String) (arguments : List Operand) (index : Nat) :
    Evaluated (Option String) :=
  match arguments[index]? with
  | none | some .null => .ok none
  | some (.primitive (.string text)) => .ok (some text)
  | some other => .error (.typeMismatch function "Edm.String" other.typeName)

/-- The integer at a position among the arguments, none for null. -/
def integerArgument (function : String) (arguments : List Operand) (index : Nat) :
    Evaluated (Option Int) :=
  match arguments[index]? with
  | none | some .null => .ok none
  | some (.primitive value) =>
    match value.int? with
    | some number => .ok (some number)
    | none => .error (.typeMismatch function "Edm.Int32" value.typeName)
  | some other => .error (.typeMismatch function "Edm.Int32" other.typeName)

/-- A count or a position as the result of a function. -/
def countResult (function : String) (count : Nat) : Evaluated Primitive :=
  match Primitive.int32? count with
  | some value => .ok value
  | none => .error (.overflow function)

end EdmQuery
