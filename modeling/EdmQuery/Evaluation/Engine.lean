import EdmQuery.Evaluation.Arithmetic
import EdmQuery.Evaluation.Comparison
import EdmQuery.Evaluation.Function
import EdmQuery.Evaluation.Logic
import EdmQuery.Query.Node
import EdmQuery.Value.Container

set_option autoImplicit false

namespace EdmQuery

namespace Evaluation

/-- A property that is declared but not bound is null, as is any unbound name on an open type. -/
def member (value : ComplexValue) (name : String) : Evaluated Operand :=
  match value.get? name with
  | some binding => .ok (.ofOption binding.value?)
  | none =>
    if (value.type.property? name).isSome || value.type.isOpen then .ok .null
    else .error (.unknownProperty name value.type.name)

/-- Follows a path; null ends it early. -/
def navigate : Operand → List String → Evaluated Operand
  | start, [] => .ok start
  | .null, _ => .ok .null
  | .complex value, segment :: rest => do navigate (← member value segment) rest
  | other, segment :: _ => .error (.unknownProperty segment other.typeName)

def variableOperand (name : String) (path : PropertyPath) (context : EvaluationContext) :
    Evaluated Operand :=
  match context.lookup? name with
  | some bound => navigate bound path.segments
  | none => .error (.unboundVariable name)

/-- The function that a call means, if its number of arguments is right. -/
def calledFunction (registry : FunctionRegistry) (name : String) (count : Nat) :
    Evaluated FunctionDefinition :=
  match registry.find? name with
  | some function => do
    function.checkCount count
    return function
  | none => .error (.unknownOperator name)

/-- The items that a lambda goes through, none for null. -/
def lambdaItems? (operator : LambdaOperator) : Operand → Evaluated (Option (List Value))
  | .null => .ok none
  | .collection items => .ok (some items)
  | other => .error (.typeMismatch operator.keyword "collection" other.typeName)

/-- What a lambda gives where no item decides. -/
def undecided : LambdaOperator → Bool
  | .any => false
  | .all => true

/-- A lambda without a predicate only asks whether there are items. -/
def bareResult (operator : LambdaOperator) (items? : Option (List Value)) : Bool :=
  match operator, items? with
  | .any, some items => !items.isEmpty
  | _, _ => undecided operator

/-- Evaluates a predicate on item after item, given whether it was unknown for an earlier one. The
first item that decides ends the search. -/
def quantify (operator : LambdaOperator) (parameter : String) (predicate : Evaluation Operand) :
    Bool → List Value → Evaluation Operand
  | unknown, [] => done (.ok (if unknown then .null else .ofBool (undecided operator)))
  | unknown, item :: rest => do
    let truth ← withVariable parameter (.ofValue item) do
      done ((← predicate).truth operator.keyword)
    match truth with
    | none => quantify operator parameter predicate true rest
    | some value =>
      if value = undecided operator then quantify operator parameter predicate unknown rest
      else return .ofBool value

/-- The truth values of both operands, unless the first one decides. -/
def connect (keyword : String) (deciding : Bool) (combine : Option Bool → Option Bool → Option Bool)
    (left right : Evaluation Operand) : Evaluation Operand := do
  let first ← done ((← left).truth keyword)
  if first = some deciding then return .ofBool deciding
  let second ← done ((← right).truth keyword)
  return .ofTruth (combine first second)

def binary (operator : BinaryOperator) (left right : Evaluation Operand) : Evaluation Operand :=
  match operator with
  | .and => connect "and" false Logic.and left right
  | .or => connect "or" true Logic.or left right
  | .isIn => do
    let needle ← left
    done (Comparison.isMember needle (← right))
  | _ => do
    let first ← left
    let second ← right
    if operator.isComparison then done (Comparison.compare operator first second)
    else done (Arithmetic.apply operator first second)

end Evaluation

namespace Node

open Evaluation

mutual

/-- The value of an expression, one level deeper than what it is part of. -/
def evaluate (registry : FunctionRegistry) : Node → Evaluation Operand
  | null => deeper (done (.ok .null))
  | literal value => deeper (done (.ok (.primitive value)))
  | list items => deeper do return .list (← evaluateAll registry items)
  | property path =>
    deeper (ofContext fun context => navigate (.complex context.current) path.segments)
  | ofVariable name path => deeper (ofContext (variableOperand name path))
  | binary operator left right =>
    deeper (Evaluation.binary operator (left.evaluate registry) (right.evaluate registry))
  | unary .not operand => deeper do
    return .ofTruth (Logic.not (← done ((← operand.evaluate registry).truth "not")))
  | unary .negate operand => deeper do
    done (Arithmetic.applyNegate (← operand.evaluate registry))
  | call name arguments => deeper do
    let function ← done (calledFunction registry name arguments.length)
    let operands ← evaluateAll registry arguments
    ofContext fun context => return .ofPrimitive? (← function.call context operands)
  | lambda operator collection parameter predicate => deeper do
    match ← done (lambdaItems? operator (← collection.evaluate registry)) with
    | none => return .ofBool (undecided operator)
    | some items => quantify operator parameter (predicate.evaluate registry) false items
  | bareLambda operator collection => deeper do
    let items? ← done (lambdaItems? operator (← collection.evaluate registry))
    return .ofBool (bareResult operator items?)

def evaluateAll (registry : FunctionRegistry) : List Node → Evaluation (List Operand)
  | [] => done (.ok [])
  | item :: rest => do
    let operand ← item.evaluate registry
    return operand :: (← evaluateAll registry rest)

end

/-- The truth value of a filter. -/
def predicate (registry : FunctionRegistry) (filter : Node) : Evaluation (Option Bool) := do
  done ((← filter.evaluate registry).truth "$filter")

/-- Only an instance for which a filter is true passes it. -/
def passes (registry : FunctionRegistry) (filter : Node) : Evaluation Bool := do
  return (← filter.predicate registry) == some true

end Node

end EdmQuery
