import EdmQuery.Proofs.Contexts
import EdmQuery.Proofs.OperandErrors

set_option autoImplicit false

namespace EdmQuery

open Evaluated (FailsOnly failsOnly_ok failsOnly_error)

namespace Node

/-- The expressions right below that are evaluated for the same variables. -/
def operands : Node → List Node
  | null | literal _ | property _ | ofVariable .. => []
  | list items => items
  | binary _ left right => [left, right]
  | unary _ operand => [operand]
  | call _ arguments => arguments
  | lambda _ collection _ _ | bareLambda _ collection => [collection]

/-- How an error comes about when an expression is evaluated in a context. -/
inductive Arises (registry : FunctionRegistry) : Node → EvaluationContext → EvaluationError → Prop
  | ofOperands {node : Node} {context : EvaluationContext} {error : EvaluationError}
      (operands : error.isOfPlace = false) : Arises registry node context error
  | atLimit {node : Node} {context : EvaluationContext}
      (limit : EvaluationContext.maxNesting ≤ context.nesting) :
      Arises registry node context (.tooDeep EvaluationContext.maxNesting)
  | ofVariable {name : String} {path : PropertyPath} {context : EvaluationContext}
      (unbound : context.lookup? name = none) :
      Arises registry (ofVariable name path) context (.unboundVariable name)
  | ofFunction {name : String} {arguments : List Node} {context : EvaluationContext}
      {error : EvaluationError} {function : FunctionDefinition} {values : List Operand}
      (registered : function ∈ registry.functions)
      (fails : function.run context.deepened values = .error error) :
      Arises registry (call name arguments) context error
  | ofOperand {node operand : Node} {context : EvaluationContext} {error : EvaluationError}
      (below : operand ∈ node.operands) (rest : Arises registry operand context.deepened error) :
      Arises registry node context error
  | ofPredicate {operator : LambdaOperator} {collection predicate : Node} {parameter : String}
      {context : EvaluationContext} {error : EvaluationError} {item : Value}
      (rest : Arises registry predicate (context.deepened.bind parameter (.ofValue item)) error) :
      Arises registry (lambda operator collection parameter predicate) context error

end Node

namespace Evaluation

section

variable {allowed : EvaluationError → Prop}
  (operands : ∀ error : EvaluationError, error.isOfPlace = false → allowed error)

include operands

theorem failsOnly_truth (operator : String) (operand : Operand) :
    (operand.truth operator).FailsOnly allowed :=
  (operand.failsForOperands_truth operator).mono operands

variable {left right : Evaluation Operand} (keepsLeft : left.Keeps) (keepsRight : right.Keeps)
  {context : EvaluationContext} (first : (left.value context).FailsOnly allowed)
  (second : (right.value context).FailsOnly allowed)

include keepsLeft keepsRight first second

theorem failsOnly_connect (keyword : String) (deciding : Bool)
    (combine : Option Bool → Option Bool → Option Bool) :
    ((connect keyword deciding combine left right).value context).FailsOnly allowed := by
  rw [value_connect keepsLeft keepsRight]
  refine first.bind fun x _ => (failsOnly_truth operands keyword x).bind fun truth _ => ?_
  split
  · exact failsOnly_ok _
  · exact second.bind fun y _ => (failsOnly_truth operands keyword y).bind fun _ _ =>
      failsOnly_ok _

theorem failsOnly_binary (operator : BinaryOperator) :
    ((binary operator left right).value context).FailsOnly allowed := by
  unfold binary
  split
  · exact failsOnly_connect operands keepsLeft keepsRight first second _ _ _
  · exact failsOnly_connect operands keepsLeft keepsRight first second _ _ _
  · rw [value_bind keepsLeft]
    refine first.bind fun needle _ => ?_
    rw [value_bind keepsRight]
    exact second.bind fun members _ =>
      (Comparison.failsForOperands_isMember needle members).mono operands
  · rw [value_bind keepsLeft]
    refine first.bind fun x _ => ?_
    rw [value_bind keepsRight]
    refine second.bind fun y _ => ?_
    split
    · exact (Comparison.failsForOperands_compare operator x y).mono operands
    · exact (Arithmetic.failsForOperands_apply operator x y).mono operands

end

/-- A lambda fails as its predicate does on some item. -/
theorem failsOnly_quantify {allowed : EvaluationError → Prop}
    (operands : ∀ error : EvaluationError, error.isOfPlace = false → allowed error)
    {predicate : Evaluation Operand} (keeps : predicate.Keeps) {context : EvaluationContext}
    {parameter : String}
    (fails : ∀ item, (predicate.value (context.bind parameter (.ofValue item))).FailsOnly allowed)
    (operator : LambdaOperator) (unknown : Bool) (items : List Value) :
    ((quantify operator parameter predicate unknown items).value context).FailsOnly allowed := by
  induction items generalizing unknown with
  | nil =>
    rw [value_quantify_nil]
    exact failsOnly_ok _
  | cons item rest ih =>
    rw [value_quantify_cons keeps]
    refine (fails item).bind fun held _ => (failsOnly_truth operands _ held).bind fun truth _ => ?_
    cases truth with
    | none => exact ih true
    | some decided =>
      dsimp only
      split
      · exact ih unknown
      · exact failsOnly_ok _

end Evaluation

namespace Node

open Evaluation

variable {registry : FunctionRegistry} {context : EvaluationContext}

/-- At the limit an expression fails for its depth, above it as its evaluation does. -/
theorem failsOnly_deeper {node : Node} {step : Evaluation Operand}
    (fails : (step.value context.deepened).FailsOnly (Arises registry node context)) :
    ((deeper step).value context).FailsOnly (Arises registry node context) := by
  rw [value_deeper]
  split
  · next limit => exact failsOnly_error (.atLimit limit)
  · exact fails

theorem failsOnly_variableOperand (name : String) (path : PropertyPath) :
    (variableOperand name path context.deepened).FailsOnly
      (Arises registry (ofVariable name path) context) := by
  rw [variableOperand]
  cases found : context.deepened.lookup? name with
  | some held => exact (failsForOperands_navigate held path.segments).mono fun _ => .ofOperands
  | none => exact failsOnly_error (.ofVariable found)

theorem failsOnly_call {name : String} {arguments : List Node} {function : FunctionDefinition}
    (called : calledFunction registry name arguments.length = .ok function)
    (values : List Operand) : (function.call context.deepened values).FailsOnly
      (Arises registry (call name arguments) context) := by
  have counted : (function.checkCount values.length).FailsOnly
      (Arises registry (call name arguments) context) :=
    (failsForOperands_checkCount function values.length).mono fun _ => .ofOperands
  exact counted.bind fun _ _ error fails =>
    .ofFunction (FunctionRegistry.mem_of_calledFunction called) fails

mutual

/-- What the evaluation of an expression fails with arises at the expression or below. -/
theorem failsOnly_evaluate (registry : FunctionRegistry) (node : Node)
    (context : EvaluationContext) :
    ((node.evaluate registry).value context).FailsOnly (Arises registry node context) := by
  have operandErrors : ∀ {error : EvaluationError}, error.isOfPlace = false →
    Arises registry node context error := .ofOperands
  cases node with
  | null => exact failsOnly_deeper (failsOnly_ok _)
  | literal value => exact failsOnly_deeper (failsOnly_ok _)
  | property path =>
    exact failsOnly_deeper ((failsForOperands_navigate _ path.segments).mono fun _ => operandErrors)
  | ofVariable name path => exact failsOnly_deeper (failsOnly_variableOperand name path)
  | list items =>
    refine failsOnly_deeper ?_
    rw [value_bind (keeps_evaluateAll registry items)]
    refine FailsOnly.bind ((failsOnly_evaluateAll registry items context.deepened).mono ?_)
      fun _ _ => failsOnly_ok _
    rintro error ⟨item, inside, arises⟩
    exact .ofOperand inside arises
  | binary operator left right =>
    refine failsOnly_deeper (failsOnly_binary (fun _ => operandErrors)
      (keeps_evaluate registry left) (keeps_evaluate registry right) ?_ ?_ operator)
    · exact (failsOnly_evaluate registry left context.deepened).mono fun _ =>
        .ofOperand List.mem_cons_self
    · exact (failsOnly_evaluate registry right context.deepened).mono fun _ =>
        .ofOperand (List.mem_cons_of_mem _ List.mem_cons_self)
  | unary operator operand =>
    have held : ((operand.evaluate registry).value context.deepened).FailsOnly
        (Arises registry (unary operator operand) context) :=
      (failsOnly_evaluate registry operand context.deepened).mono fun _ =>
        .ofOperand List.mem_cons_self
    cases operator with
    | not =>
      refine failsOnly_deeper ?_
      rw [value_bind (keeps_evaluate registry operand)]
      refine held.bind fun value _ => ?_
      rw [value_bind (keeps_done _)]
      exact (failsOnly_truth (fun _ => operandErrors) "not" value).bind fun _ _ => failsOnly_ok _
    | negate =>
      refine failsOnly_deeper ?_
      rw [value_bind (keeps_evaluate registry operand)]
      exact held.bind fun value _ =>
        (Arithmetic.failsForOperands_applyNegate value).mono fun _ => operandErrors
  | call name arguments =>
    refine failsOnly_deeper ?_
    rw [value_bind (keeps_done _)]
    refine FailsOnly.bind ((failsForOperands_calledFunction registry name arguments.length).mono
      fun _ => operandErrors) fun function called => ?_
    rw [value_bind (keeps_evaluateAll registry arguments)]
    refine FailsOnly.bind ((failsOnly_evaluateAll registry arguments context.deepened).mono ?_)
      fun values _ => (failsOnly_call called values).bind fun _ _ => failsOnly_ok _
    rintro error ⟨argument, inside, arises⟩
    exact .ofOperand inside arises
  | lambda operator collection parameter predicate =>
    refine failsOnly_deeper ?_
    rw [value_bind (keeps_evaluate registry collection)]
    refine FailsOnly.bind ((failsOnly_evaluate registry collection context.deepened).mono fun _ =>
      .ofOperand List.mem_cons_self) fun held _ => ?_
    rw [value_bind (keeps_done _)]
    refine FailsOnly.bind ((failsForOperands_lambdaItems? operator held).mono
      fun _ => operandErrors) fun items? _ => ?_
    cases items? with
    | none => exact failsOnly_ok _
    | some items =>
      refine failsOnly_quantify (fun _ => operandErrors) (keeps_evaluate registry predicate)
        (fun item => ?_) operator false items
      exact (failsOnly_evaluate registry predicate _).mono fun _ => .ofPredicate
  | bareLambda operator collection =>
    refine failsOnly_deeper ?_
    rw [value_bind (keeps_evaluate registry collection)]
    refine FailsOnly.bind ((failsOnly_evaluate registry collection context.deepened).mono fun _ =>
      .ofOperand List.mem_cons_self) fun held _ => ?_
    rw [value_bind (keeps_done _)]
    exact FailsOnly.bind ((failsForOperands_lambdaItems? operator held).mono
      fun _ => operandErrors) fun _ _ => failsOnly_ok _

theorem failsOnly_evaluateAll (registry : FunctionRegistry) (nodes : List Node)
    (context : EvaluationContext) : ((evaluateAll registry nodes).value context).FailsOnly
      fun error => ∃ node ∈ nodes, Arises registry node context error := by
  cases nodes with
  | nil => exact failsOnly_ok _
  | cons node rest =>
    rw [evaluateAll, value_bind (keeps_evaluate registry node)]
    refine FailsOnly.bind ((failsOnly_evaluate registry node context).mono fun error arises =>
      ⟨node, List.mem_cons_self, arises⟩) fun held _ => ?_
    rw [value_bind (keeps_evaluateAll registry rest)]
    refine FailsOnly.bind ((failsOnly_evaluateAll registry rest context).mono ?_)
      fun _ _ => failsOnly_ok _
    rintro error ⟨later, inside, arises⟩
    exact ⟨later, List.mem_cons_of_mem _ inside, arises⟩

end

end Node

end EdmQuery
