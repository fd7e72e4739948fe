import EdmQuery.Calendar.DateTimeOffset
import EdmQuery.Evaluation.Operand

set_option autoImplicit false

namespace EdmQuery

structure EvaluationContext where
  current : ComplexValue
  now : DateTimeOffset
  scopes : List (String × Operand)
  nesting : Nat

namespace EvaluationContext

def start (current : ComplexValue) (now : DateTimeOffset) : EvaluationContext :=
  ⟨current, now, [], 0⟩

/-- Expressions are followed down to this depth. -/
def maxNesting : Nat := 128

def bind (context : EvaluationContext) (name : String) (value : Operand) : EvaluationContext :=
  { context with scopes := (name, value) :: context.scopes }

def unbind (context : EvaluationContext) : EvaluationContext :=
  { context with scopes := context.scopes.tail }

def lookup? (context : EvaluationContext) (name : String) : Option Operand :=
  context.scopes.lookup name

/-- How many variables are bound. -/
def depth (context : EvaluationContext) : Nat := context.scopes.length

end EvaluationContext

/-- A step of an evaluation. The context that it leaves behind counts also after a failure. -/
abbrev Evaluation (α : Type) := EvaluationContext → Evaluated α × EvaluationContext

namespace Evaluation

section

variable {α β : Type}

def done (evaluated : Evaluated α) : Evaluation α := fun context => (evaluated, context)

def andThen (first : Evaluation α) (next : α → Evaluation β) : Evaluation β := fun context =>
  match first context with
  | (.ok value, after) => next value after
  | (.error error, after) => (.error error, after)

/-- What is computed from the context without changing it. -/
def ofContext (compute : EvaluationContext → Evaluated α) : Evaluation α := fun context =>
  (compute context, context)

/-- A step one level deeper. -/
def deeper (step : Evaluation α) : Evaluation α := fun context =>
  if EvaluationContext.maxNesting ≤ context.nesting then
    (.error (.tooDeep EvaluationContext.maxNesting), context)
  else
    let (evaluated, after) := step { context with nesting := context.nesting + 1 }
    (evaluated, { after with nesting := after.nesting - 1 })

/-- A step under one more variable. -/
def withVariable (name : String) (value : Operand) (step : Evaluation α) : Evaluation α :=
  fun context =>
    let (evaluated, after) := step (context.bind name value)
    (evaluated, after.unbind)

instance : Monad Evaluation where
  pure value := done (.ok value)
  bind first next := andThen first next

end

end Evaluation

end EdmQuery
