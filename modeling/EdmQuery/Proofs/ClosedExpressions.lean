import EdmQuery.Proofs.ErrorOrigins
import EdmQuery.Proofs.ParsedTrees

set_option autoImplicit false

namespace EdmQuery

namespace Node

mutual

/-- Whether every variable that an expression reads is in scope, or that of a lambda around it. -/
def isClosed (scope : List String) : Node → Bool
  | null | literal _ | property _ => true
  | ofVariable name _ => scope.contains name
  | list items => areClosed scope items
  | binary _ left right => left.isClosed scope && right.isClosed scope
  | unary _ operand => operand.isClosed scope
  | call _ arguments => areClosed scope arguments
  | lambda _ collection parameter predicate =>
    collection.isClosed scope && predicate.isClosed (parameter :: scope)
  | bareLambda _ collection => collection.isClosed scope

def areClosed (scope : List String) : List Node → Bool
  | [] => true
  | node :: rest => node.isClosed scope && areClosed scope rest

end

theorem areClosed_iff (scope : List String) (nodes : List Node) :
    areClosed scope nodes = true ↔ ∀ node ∈ nodes, node.isClosed scope = true := by
  induction nodes with
  | nil => simp only [areClosed, List.not_mem_nil, false_implies, implies_true]
  | cons node rest ih => simp only [areClosed, Bool.and_eq_true, ih, List.forall_mem_cons]

end Node

namespace Filter

mutual

/-- Resolving the variables of lambdas leaves an expression closed. -/
theorem isClosed_resolve (scope : List String) (node : Node) (closed : node.isClosed scope = true) :
    (resolve scope node).isClosed scope = true := by
  cases node with
  | null => rfl
  | literal value => rfl
  | ofVariable name path => exact closed
  | property path =>
    unfold resolve
    split
    · split
      · rename_i inScope
        exact inScope
      · rfl
    · rfl
  | list items => exact areClosed_resolveAll scope items closed
  | binary operator left right =>
    rw [Node.isClosed, Bool.and_eq_true] at closed
    rw [resolve, Node.isClosed, isClosed_resolve scope left closed.1,
      isClosed_resolve scope right closed.2]
    rfl
  | unary operator operand => exact isClosed_resolve scope operand closed
  | call name arguments => exact areClosed_resolveAll scope arguments closed
  | lambda operator collection parameter predicate =>
    rw [Node.isClosed, Bool.and_eq_true] at closed
    rw [resolve, Node.isClosed, isClosed_resolve scope collection closed.1,
      isClosed_resolve (parameter :: scope) predicate closed.2]
    rfl
  | bareLambda operator collection => exact isClosed_resolve scope collection closed

theorem areClosed_resolveAll (scope : List String) (nodes : List Node)
    (closed : Node.areClosed scope nodes = true) :
    Node.areClosed scope (resolveAll scope nodes) = true := by
  cases nodes with
  | nil => rfl
  | cons node rest =>
    rw [Node.areClosed, Bool.and_eq_true] at closed
    rw [resolveAll, Node.areClosed, isClosed_resolve scope node closed.1,
      areClosed_resolveAll scope rest closed.2]
    rfl

end

/-- Before variables are resolved, the grammar reads none, so its trees are closed in any scope. -/
theorem keptByGrammar_isClosed :
    KeptByGrammar fun node => ∀ scope, node.isClosed scope = true where
  null _ := rfl
  literal _ _ := rfl
  property _ _ := rfl
  list items all scope := (Node.areClosed_iff scope items).2 fun item inside => all item inside scope
  binary operator left right first second scope := by
    rw [Node.isClosed, first scope, second scope]
    rfl
  unary _ _ inner scope := inner scope
  call _ arguments all scope :=
    (Node.areClosed_iff scope arguments).2 fun argument inside => all argument inside scope
  lambda _ _ parameter _ inner scope := inner (parameter :: scope)
  bareLambda _ _ _ := rfl

end Filter

/-- An expression that a filter or a sort key is read as. -/
def Node.IsParsed (node : Node) : Prop :=
  (∃ source, Filter.ofText source = .ok node) ∨
    ∃ source items, Filter.orderByOfText source = .ok items ∧ ∃ item ∈ items, item.key = node

/-- Parsed expressions are closed. -/
theorem Node.IsParsed.isClosed {node : Node} (parsed : node.IsParsed) :
    node.isClosed [] = true := by
  rcases parsed with ⟨source, read⟩ | ⟨source, items, read, item, inside, rfl⟩
  · obtain ⟨unresolved, closed, rfl⟩ := Filter.holds_of_ofText Filter.keptByGrammar_isClosed read
    exact Filter.isClosed_resolve [] unresolved (closed [])
  · obtain ⟨unresolved, closed, same⟩ :=
      Filter.holds_of_orderByOfText Filter.keptByGrammar_isClosed read item inside
    rw [same]
    exact Filter.isClosed_resolve [] unresolved (closed [])

/-- What is not a failure for a variable that is not bound. -/
def Evaluated.FindsVariables {α : Type} (evaluated : Evaluated α) : Prop :=
  ∀ name, evaluated ≠ .error (.unboundVariable name)

/-- A function that never fails for a variable. -/
def FunctionDefinition.FindsVariables (function : FunctionDefinition) : Prop :=
  ∀ context arguments, (function.run context arguments).FindsVariables

namespace FunctionRegistry

def FindsVariables (registry : FunctionRegistry) : Prop :=
  ∀ function ∈ registry.functions, function.FindsVariables

theorem standard_findsVariables : standard.FindsVariables := by
  intro function inside context arguments name fails
  cases standard_failsForOperands function inside context arguments _ fails

end FunctionRegistry

/-- The variables that are bound, the innermost first. -/
def EvaluationContext.variables (context : EvaluationContext) : List String :=
  context.scopes.map Prod.fst

/-- A variable that is bound is found. -/
theorem EvaluationContext.lookup?_ne_none {context : EvaluationContext} {name : String}
    (bound : context.variables.contains name = true) : context.lookup? name ≠ none := by
  intro missing
  rw [EvaluationContext.variables, List.contains_iff_mem] at bound
  obtain ⟨scope, inside, rfl⟩ := List.mem_map.1 bound
  have other := List.lookup_eq_none_iff.1 missing scope inside
  rw [bne_self_eq_false] at other
  cases other

namespace Node

theorem isClosed_operand {scope : List String} {node operand : Node}
    (closed : node.isClosed scope = true) (below : operand ∈ node.operands) :
    operand.isClosed scope = true := by
  cases node with
  | null => cases below
  | literal value => cases below
  | property path => cases below
  | ofVariable name path => cases below
  | list items => exact (areClosed_iff scope items).1 closed operand below
  | binary operator left right =>
    rw [isClosed, Bool.and_eq_true] at closed
    rcases List.mem_cons.1 below with rfl | second
    · exact closed.1
    · obtain rfl := List.mem_singleton.1 second
      exact closed.2
  | unary operator inner =>
    obtain rfl := List.mem_singleton.1 below
    exact closed
  | call name arguments => exact (areClosed_iff scope arguments).1 closed operand below
  | lambda operator collection parameter predicate =>
    rw [isClosed, Bool.and_eq_true] at closed
    obtain rfl := List.mem_singleton.1 below
    exact closed.1
  | bareLambda operator collection =>
    obtain rfl := List.mem_singleton.1 below
    exact closed

/-- An expression that is closed under the variables that are bound has no error for another. -/
theorem Arises.ne_unboundVariable {registry : FunctionRegistry} (finds : registry.FindsVariables)
    {node : Node} {context : EvaluationContext} {error : EvaluationError}
    (arises : node.Arises registry context error) (closed : node.isClosed context.variables = true)
    (name : String) : error ≠ .unboundVariable name := by
  induction arises with
  | ofOperands operands =>
    rintro rfl
    cases operands
  | atLimit limit =>
    intro same
    cases same
  | ofVariable unbound => exact absurd unbound (EvaluationContext.lookup?_ne_none closed)
  | ofFunction registered fails =>
    rintro rfl
    exact finds _ registered _ _ name fails
  | ofOperand below rest ih => exact ih (isClosed_operand closed below)
  | ofPredicate rest ih =>
    rw [isClosed, Bool.and_eq_true] at closed
    exact ih closed.2

/-- The variables of an expression that is closed under those that are bound are found. -/
theorem findsVariables_evaluate {registry : FunctionRegistry} (finds : registry.FindsVariables)
    (node : Node) (context : EvaluationContext) (closed : node.isClosed context.variables = true) :
    ((node.evaluate registry).value context).FindsVariables := fun name fails =>
  (failsOnly_evaluate registry node context _ fails).ne_unboundVariable finds closed name rfl

/-- A parsed filter or sort key finds every variable that it reads, in whatever instance it is
evaluated. -/
theorem IsParsed.evaluate_ne_unboundVariable {node : Node} (parsed : node.IsParsed)
    (current : ComplexValue) (now : DateTimeOffset) (name : String) :
    (node.evaluate .standard (.start current now)).1 ≠ .error (.unboundVariable name) :=
  findsVariables_evaluate FunctionRegistry.standard_findsVariables node (.start current now)
    parsed.isClosed name

/-- A crew of one, who is on duty once. -/
def manned : ComplexValue :=
  let member : ComplexValue := ⟨⟨1⟩, .untyped, [.unattached (.dynamic "duties" .untyped)
    (some (.collection [.primitive (.boolean true)]))], none, none, false, []⟩
  ⟨⟨0⟩, .untyped, [.unattached (.dynamic "crew" .untyped)
    (some (.collection [.complex member]))], none, none, false, []⟩

/-- A lambda whose collection is found under the variable that its own hides. -/
def shadowing : Node :=
  .lambda .all (.ofVariable "c" ⟨["duties"]⟩) "c" (.ofVariable "c" .root)

def nested : Node :=
  .lambda .any (.property ⟨["crew"]⟩) "c" shadowing

/-- By itself, the inner lambda of the parsed expression is not closed. -/
theorem IsParsed.evaluate_ne_unboundVariable_nested :
    nested.IsParsed ∧
      (nested.evaluate .standard (.start manned default)).1 = .ok (.ofBool true) ∧
      (shadowing.evaluate .standard (.start manned default)).1 = .error (.unboundVariable "c") ∧
      (nested.evaluate .standard (.start manned default)).1 ≠ .error (.unboundVariable "c") := by
  have read : Filter.ofText "crew/any(c:c/duties/all(c:c))" = .ok nested := rfl
  have held : (nested.evaluate .standard (.start manned default)).1 = .ok (.ofBool true) := rfl
  have unbound : (shadowing.evaluate .standard (.start manned default)).1 =
    .error (.unboundVariable "c") := rfl
  have parsed : nested.IsParsed := .inl ⟨_, read⟩
  exact ⟨parsed, held, unbound, parsed.evaluate_ne_unboundVariable manned default "c"⟩

end Node

end EdmQuery
