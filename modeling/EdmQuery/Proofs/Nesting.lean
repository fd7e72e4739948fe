import EdmQuery.Proofs.Contexts
import EdmQuery.Proofs.StoredOperands

set_option autoImplicit false

namespace EdmQuery

/-- The same context at another depth. -/
def EvaluationContext.atNesting (context : EvaluationContext) (nesting : Nat) : EvaluationContext :=
  { context with nesting := nesting }

/-- A function cannot see how deep the call stands. -/
def FunctionDefinition.IgnoresNesting (function : FunctionDefinition) : Prop :=
  ∀ context nesting arguments,
    function.run (context.atNesting nesting) arguments = function.run context arguments

def FunctionRegistry.IgnoresNesting (registry : FunctionRegistry) : Prop :=
  ∀ function ∈ registry.functions, function.IgnoresNesting

theorem FunctionDefinition.IgnoresNesting.call_eq {function : FunctionDefinition}
    (ignores : function.IgnoresNesting) (context : EvaluationContext) (nesting : Nat)
    (arguments : List Operand) :
    function.call (context.atNesting nesting) arguments = function.call context arguments := by
  rw [call, call, ignores]

theorem FunctionDefinition.IsPlain.ignoresNesting {function : FunctionDefinition}
    (plain : function.IsPlain) : function.IgnoresNesting := by
  intro context nesting arguments
  have now : context.now = (context.atNesting nesting).now := rfl
  rw [← plain context (context.atNesting nesting) arguments now, plain context context arguments rfl]

theorem FunctionRegistry.standard_ignoresNesting : standard.IgnoresNesting :=
  fun function inside => (standard_isPlain function inside).ignoresNesting

/-- What is evaluated at some depth is evaluated alike at a lower one, unless it fails for its
depth. -/
def Evaluated.SameUnlessTooDeep {α : Type} (deep shallow : Evaluated α) : Prop :=
  deep = .error (.tooDeep EvaluationContext.maxNesting) ∨ shallow = deep

namespace Evaluated.SameUnlessTooDeep

variable {α β : Type} {deep shallow : Evaluated α}

theorem same (evaluated : Evaluated α) : evaluated.SameUnlessTooDeep evaluated := .inr rfl

theorem eq_of_ne (same : deep.SameUnlessTooDeep shallow)
    (fits : deep ≠ .error (.tooDeep EvaluationContext.maxNesting)) : shallow = deep :=
  same.resolve_left fits

theorem bind (same : deep.SameUnlessTooDeep shallow) {next later : α → Evaluated β}
    (continued : ∀ result, (next result).SameUnlessTooDeep (later result)) :
    (deep >>= next).SameUnlessTooDeep (shallow >>= later) := by
  rcases same with rfl | rfl
  · exact .inl rfl
  · cases shallow with
    | error error => exact .inr rfl
    | ok result => exact continued result

end Evaluated.SameUnlessTooDeep

namespace Evaluation

/-- A step gives the same at lower depths, unless it fails for its depth. -/
def RisesFrom {α : Type} (step : Evaluation α) (context : EvaluationContext) : Prop :=
  ∀ nesting, nesting ≤ context.nesting →
    (step.value context).SameUnlessTooDeep (step.value (context.atNesting nesting))

variable {α β : Type} {context : EvaluationContext}

theorem risesFrom_done (evaluated : Evaluated α) : (done evaluated).RisesFrom context :=
  fun _ _ => .same evaluated

theorem risesFrom_pure (result : α) : (pure result : Evaluation α).RisesFrom context :=
  fun _ _ => .same _

theorem RisesFrom.deeper {step : Evaluation α} (rises : step.RisesFrom context.deepened) :
    (deeper step).RisesFrom context := by
  intro nesting lower
  rw [value_deeper, value_deeper]
  by_cases limit : EvaluationContext.maxNesting ≤ context.nesting
  · rw [if_pos limit]
    exact .inl rfl
  · have below : ¬ EvaluationContext.maxNesting ≤ nesting := by omega
    rw [if_neg limit, if_neg]
    · exact rises (nesting + 1) (Nat.succ_le_succ lower)
    · exact below

theorem RisesFrom.bind {step : Evaluation α} {next : α → Evaluation β} (keeps : step.Keeps)
    (rises : step.RisesFrom context) (later : ∀ result, (next result).RisesFrom context) :
    (step >>= next).RisesFrom context := by
  intro nesting lower
  rw [value_bind keeps, value_bind keeps]
  exact (rises nesting lower).bind fun result => later result nesting lower

theorem RisesFrom.quantify {predicate : Evaluation Operand} (keeps : predicate.Keeps)
    (operator : LambdaOperator) (parameter : String) {items : List Value}
    (rises : ∀ item, predicate.RisesFrom (context.bind parameter (.ofValue item)))
    (unknown : Bool) : (quantify operator parameter predicate unknown items).RisesFrom context := by
  induction items generalizing unknown with
  | nil => exact risesFrom_done _
  | cons item rest ih =>
    intro nesting lower
    rw [value_quantify_cons keeps, value_quantify_cons keeps]
    refine (rises item nesting lower).bind fun operand => ?_
    refine (Evaluated.SameUnlessTooDeep.same _).bind fun truth => ?_
    cases truth with
    | none => exact ih true nesting lower
    | some decided =>
      dsimp only
      split
      · exact ih unknown nesting lower
      · exact .same _

section

variable {left right : Evaluation Operand} (firstKeeps : left.Keeps) (secondKeeps : right.Keeps)
  (first : left.RisesFrom context) (second : right.RisesFrom context)

include firstKeeps secondKeeps first second

theorem RisesFrom.connect (keyword : String) (deciding : Bool)
    (combine : Option Bool → Option Bool → Option Bool) :
    (connect keyword deciding combine left right).RisesFrom context := by
  rw [Evaluation.connect]
  refine first.bind firstKeeps fun x => (risesFrom_done _).bind (keeps_done _) fun truth => ?_
  split
  · exact risesFrom_pure _
  · exact second.bind secondKeeps fun y => (risesFrom_done _).bind (keeps_done _) fun _ =>
      risesFrom_pure _

theorem RisesFrom.binary (operator : BinaryOperator) :
    (binary operator left right).RisesFrom context := by
  unfold Evaluation.binary
  split
  · exact first.connect firstKeeps secondKeeps second _ _ _
  · exact first.connect firstKeeps secondKeeps second _ _ _
  · exact first.bind firstKeeps fun x => second.bind secondKeeps fun y => risesFrom_done _
  · refine first.bind firstKeeps fun x => second.bind secondKeeps fun y => ?_
    split <;> exact risesFrom_done _

end

end Evaluation

namespace Node

open Evaluation

mutual

/-- An expression gives the same at lower depths, unless it fails for its depth. -/
theorem risesFrom_evaluate {registry : FunctionRegistry} (ignores : registry.IgnoresNesting)
    (node : Node) (context : EvaluationContext) : (node.evaluate registry).RisesFrom context := by
  cases node with
  | null => exact (risesFrom_done _).deeper
  | literal value => exact (risesFrom_done _).deeper
  | list items =>
    exact ((risesFrom_evaluateAll ignores items _).bind (keeps_evaluateAll registry items)
      fun _ => risesFrom_pure _).deeper
  | property path => exact Evaluation.RisesFrom.deeper fun _ _ => .same _
  | ofVariable name path => exact Evaluation.RisesFrom.deeper fun _ _ => .same _
  | binary operator left right =>
    exact ((risesFrom_evaluate ignores left _).binary (keeps_evaluate registry left)
      (keeps_evaluate registry right) (risesFrom_evaluate ignores right _) operator).deeper
  | unary operator operand =>
    have keeps := keeps_evaluate registry operand
    have rises (context : EvaluationContext) := risesFrom_evaluate ignores operand context
    cases operator with
    | not =>
      exact ((rises _).bind keeps fun _ => (risesFrom_done _).bind (keeps_done _) fun _ =>
        risesFrom_pure _).deeper
    | negate => exact ((rises _).bind keeps fun _ => risesFrom_done _).deeper
  | call name arguments =>
    refine Evaluation.RisesFrom.deeper ?_
    cases called : calledFunction registry name arguments.length with
    | error error => exact fun _ _ => .same _
    | ok function =>
      have blind := ignores function (FunctionRegistry.mem_of_calledFunction called)
      intro nesting lower
      have operands := risesFrom_evaluateAll ignores arguments context.deepened nesting lower
      rw [value_bind (keeps_done _), value_bind (keeps_done _)]
      show (Evaluation.value _ _).SameUnlessTooDeep (Evaluation.value _ _)
      rw [value_bind (keeps_evaluateAll registry arguments),
        value_bind (keeps_evaluateAll registry arguments)]
      refine operands.bind fun values => ?_
      rw [value_ofContext, value_ofContext, blind.call_eq]
      exact .same _
  | lambda operator collection parameter predicate =>
    have collections := risesFrom_evaluate ignores collection context.deepened
    refine (collections.bind (keeps_evaluate registry collection) fun _ =>
      (risesFrom_done _).bind (keeps_done _) fun items? => ?_).deeper
    cases items? with
    | none => exact risesFrom_pure _
    | some items =>
      exact .quantify (keeps_evaluate registry predicate) operator parameter
        (fun item => risesFrom_evaluate ignores predicate _) false
  | bareLambda operator collection =>
    exact ((risesFrom_evaluate ignores collection _).bind (keeps_evaluate registry collection)
      fun _ => (risesFrom_done _).bind (keeps_done _) fun _ => risesFrom_pure _).deeper

theorem risesFrom_evaluateAll {registry : FunctionRegistry} (ignores : registry.IgnoresNesting)
    (nodes : List Node) (context : EvaluationContext) :
    (evaluateAll registry nodes).RisesFrom context := by
  cases nodes with
  | nil => exact risesFrom_done _
  | cons node rest =>
    exact (risesFrom_evaluate ignores node context).bind (keeps_evaluate registry node) fun _ =>
      (risesFrom_evaluateAll ignores rest context).bind (keeps_evaluateAll registry rest)
        fun _ => risesFrom_pure _

end

end Node

end EdmQuery
