import EdmQuery.Evaluation.Engine

set_option autoImplicit false

namespace EdmQuery

namespace EvaluationContext

/-- The context one level deeper in the expression. -/
def deepened (context : EvaluationContext) : EvaluationContext :=
  { context with nesting := context.nesting + 1 }

end EvaluationContext

namespace Evaluation

variable {α β : Type}

/-- The context after the step is the one before. -/
def Keeps (step : Evaluation α) : Prop := ∀ context, (step context).2 = context

/-- What a step gives in a context. -/
def value (step : Evaluation α) (context : EvaluationContext) : Evaluated α := (step context).1

theorem Keeps.run_eq {step : Evaluation α} (keeps : step.Keeps) (context : EvaluationContext) :
    step context = (step.value context, context) :=
  Prod.ext rfl (keeps context)

theorem keeps_done (evaluated : Evaluated α) : (done evaluated).Keeps := fun _ => rfl

@[simp] theorem value_done (evaluated : Evaluated α) (context : EvaluationContext) :
    (done evaluated).value context = evaluated := rfl

theorem keeps_ofContext (compute : EvaluationContext → Evaluated α) : (ofContext compute).Keeps :=
  fun _ => rfl

@[simp] theorem value_ofContext (compute : EvaluationContext → Evaluated α)
    (context : EvaluationContext) : (ofContext compute).value context = compute context := rfl

theorem keeps_pure (result : α) : (pure result : Evaluation α).Keeps := fun _ => rfl

@[simp] theorem value_pure (result : α) (context : EvaluationContext) :
    (pure result : Evaluation α).value context = .ok result := rfl

theorem run_bind {first : Evaluation α} (keeps : first.Keeps) (next : α → Evaluation β)
    (context : EvaluationContext) : (first >>= next) context =
      match first.value context with
      | .ok result => next result context
      | .error error => (.error error, context) := by
  show andThen first next context = _
  rw [andThen, keeps.run_eq]
  cases first.value context <;> rfl

theorem Keeps.bind {first : Evaluation α} {next : α → Evaluation β} (keeps : first.Keeps)
    (later : ∀ result, (next result).Keeps) : (first >>= next).Keeps := by
  intro context
  rw [run_bind keeps]
  cases first.value context with
  | error error => rfl
  | ok result => exact later result context

theorem value_bind {first : Evaluation α} (keeps : first.Keeps) (next : α → Evaluation β)
    (context : EvaluationContext) : (first >>= next).value context =
      first.value context >>= fun result => (next result).value context := by
  rw [value, run_bind keeps]
  cases first.value context <;> rfl

theorem Keeps.deeper {step : Evaluation α} (keeps : step.Keeps) : (deeper step).Keeps := by
  intro context
  rw [Evaluation.deeper]
  split
  · rfl
  · rw [keeps.run_eq]
    show { context with nesting := context.nesting + 1 - 1 } = context
    rw [Nat.add_sub_cancel]

theorem value_deeper (step : Evaluation α) (context : EvaluationContext) :
    (deeper step).value context =
      if EvaluationContext.maxNesting ≤ context.nesting then
        .error (.tooDeep EvaluationContext.maxNesting)
      else step.value context.deepened := by
  rw [value, deeper]
  split <;> rfl

theorem Keeps.withVariable {step : Evaluation α} (keeps : step.Keeps) (name : String)
    (held : Operand) : (withVariable name held step).Keeps := by
  intro context
  rw [Evaluation.withVariable, keeps.run_eq]
  rfl

@[simp] theorem value_withVariable (step : Evaluation α) (name : String) (held : Operand)
    (context : EvaluationContext) :
    (withVariable name held step).value context = step.value (context.bind name held) := rfl

theorem Keeps.quantify {predicate : Evaluation Operand} (keeps : predicate.Keeps)
    (operator : LambdaOperator) (parameter : String) (unknown : Bool) (items : List Value) :
    (quantify operator parameter predicate unknown items).Keeps := by
  induction items generalizing unknown with
  | nil => exact keeps_done _
  | cons item rest ih =>
    rw [Evaluation.quantify]
    refine Keeps.bind (Keeps.withVariable (keeps.bind fun _ => keeps_done _) _ _) ?_
    intro truth
    cases truth with
    | none => exact ih true
    | some decided =>
      show Keeps (if decided = undecided operator then _ else _)
      split
      · exact ih unknown
      · exact keeps_pure _

theorem Keeps.connect {left right : Evaluation Operand} (first : left.Keeps) (second : right.Keeps)
    (keyword : String) (deciding : Bool)
    (combine : Option Bool → Option Bool → Option Bool) :
    (connect keyword deciding combine left right).Keeps := by
  rw [Evaluation.connect]
  refine first.bind fun _ => (keeps_done _).bind fun truth => ?_
  split
  · exact keeps_pure _
  · exact second.bind fun _ => (keeps_done _).bind fun _ => keeps_pure _

theorem Keeps.binary {left right : Evaluation Operand} (first : left.Keeps) (second : right.Keeps)
    (operator : BinaryOperator) : (binary operator left right).Keeps := by
  unfold Evaluation.binary
  split
  · exact first.connect second _ _ _
  · exact first.connect second _ _ _
  · exact first.bind fun _ => second.bind fun _ => keeps_done _
  · refine first.bind fun _ => second.bind fun _ => ?_
    split <;> exact keeps_done _

theorem value_quantify_nil (operator : LambdaOperator) (parameter : String)
    (predicate : Evaluation Operand) (unknown : Bool) (context : EvaluationContext) :
    (quantify operator parameter predicate unknown []).value context =
      .ok (if unknown then .null else .ofBool (undecided operator)) := rfl

theorem value_quantify_cons {predicate : Evaluation Operand} (keeps : predicate.Keeps)
    (operator : LambdaOperator) (parameter : String) (unknown : Bool) (item : Value)
    (rest : List Value) (context : EvaluationContext) :
    (quantify operator parameter predicate unknown (item :: rest)).value context =
      predicate.value (context.bind parameter (.ofValue item)) >>= fun operand =>
        operand.truth operator.keyword >>= fun truth =>
          match truth with
          | none => (quantify operator parameter predicate true rest).value context
          | some decided =>
            if decided = undecided operator then
              (quantify operator parameter predicate unknown rest).value context
            else .ok (.ofBool decided) := by
  have inner : (predicate >>= fun operand => done (operand.truth operator.keyword)).Keeps :=
    keeps.bind fun _ => keeps_done _
  rw [quantify, value_bind (inner.withVariable _ _), value_withVariable, value_bind keeps]
  cases predicate.value (context.bind parameter (.ofValue item)) with
  | error error => rfl
  | ok operand =>
    show (operand.truth operator.keyword >>= _) = (operand.truth operator.keyword >>= _)
    cases operand.truth operator.keyword with
    | error error => rfl
    | ok truth =>
      cases truth with
      | none => rfl
      | some decided =>
        show Evaluation.value (if decided = undecided operator then _ else _) context = _
        split
        · rename_i same
          exact (if_pos same).symm
        · rename_i other
          exact (if_neg other).symm

theorem value_connect {left right : Evaluation Operand} (first : left.Keeps)
    (second : right.Keeps) (keyword : String) (deciding : Bool)
    (combine : Option Bool → Option Bool → Option Bool) (context : EvaluationContext) :
    (connect keyword deciding combine left right).value context =
      left.value context >>= fun x => x.truth keyword >>= fun truth =>
        if truth = some deciding then .ok (.ofBool deciding)
        else right.value context >>= fun y => y.truth keyword >>= fun other =>
          .ok (.ofTruth (combine truth other)) := by
  rw [connect, value_bind first]
  congr 1
  funext x
  rw [value_bind (keeps_done _), value_done]
  congr 1
  funext truth
  split
  · rfl
  · simp only [value_bind second, value_bind (keeps_done _), value_done, value_pure]

end Evaluation

namespace Node

open Evaluation

mutual

/-- Evaluating an expression leaves the context as it was. -/
theorem keeps_evaluate (registry : FunctionRegistry) (node : Node) :
    (node.evaluate registry).Keeps := by
  cases node with
  | null => exact (keeps_done _).deeper
  | literal value => exact (keeps_done _).deeper
  | list items => exact ((keeps_evaluateAll registry items).bind fun _ => keeps_pure _).deeper
  | property path => exact (keeps_ofContext _).deeper
  | ofVariable name path => exact (keeps_ofContext _).deeper
  | binary operator left right =>
    exact ((keeps_evaluate registry left).binary (keeps_evaluate registry right) operator).deeper
  | unary operator operand =>
    have operands := keeps_evaluate registry operand
    cases operator with
    | not => exact (operands.bind fun _ => (keeps_done _).bind fun _ => keeps_pure _).deeper
    | negate => exact (operands.bind fun _ => keeps_done _).deeper
  | call name arguments =>
    have operands := keeps_evaluateAll registry arguments
    exact ((keeps_done _).bind fun _ => operands.bind fun _ => keeps_ofContext _).deeper
  | lambda operator collection parameter predicate =>
    have predicates := keeps_evaluate registry predicate
    refine Keeps.deeper ?_
    refine (keeps_evaluate registry collection).bind fun _ => (keeps_done _).bind fun items? => ?_
    cases items? with
    | none => exact keeps_pure _
    | some items => exact predicates.quantify operator parameter false items
  | bareLambda operator collection =>
    have collections := keeps_evaluate registry collection
    exact (collections.bind fun _ => (keeps_done _).bind fun _ => keeps_pure _).deeper

theorem keeps_evaluateAll (registry : FunctionRegistry) (nodes : List Node) :
    (evaluateAll registry nodes).Keeps := by
  cases nodes with
  | nil => exact keeps_done _
  | cons node rest =>
    exact (keeps_evaluate registry node).bind fun _ =>
      (keeps_evaluateAll registry rest).bind fun _ => keeps_pure _

end

end Node

end EdmQuery
