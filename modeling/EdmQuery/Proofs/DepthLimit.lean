import EdmQuery.Proofs.ErrorOrigins

set_option autoImplicit false

namespace EdmQuery

/-- Some function fails with the error on its own. -/
def FunctionRegistry.Reports (registry : FunctionRegistry) (error : EvaluationError) : Prop :=
  ∃ function ∈ registry.functions, ∃ context arguments,
    function.run context arguments = .error error

theorem FunctionRegistry.standard_not_reports_tooDeep (limit : Nat) :
    ¬ standard.Reports (.tooDeep limit) := by
  rintro ⟨function, inside, context, arguments, fails⟩
  cases standard_failsForOperands function inside context arguments _ fails

namespace Node

/-- The expressions right below, the predicate of a lambda included. -/
def children : Node → List Node
  | lambda _ collection _ predicate => [collection, predicate]
  | other => other.operands

/-- A chain from an expression to one without any below it, each right below the one before. -/
inductive IsChain : Node → List Node → Prop
  | leaf {node : Node} (last : node.children = []) : IsChain node [node]
  | step {node child : Node} {chain : List Node} (below : child ∈ node.children)
      (rest : IsChain child chain) : IsChain node (node :: chain)

theorem mem_children_of_operand {node operand : Node} (below : operand ∈ node.operands) :
    operand ∈ node.children := by
  cases node with
  | lambda operator collection parameter predicate =>
    obtain rfl := List.mem_singleton.1 below
    exact List.mem_cons_self
  | _ => exact below

theorem sizeOf_child {node child : Node} (below : child ∈ node.children) :
    sizeOf child < sizeOf node := by
  cases node with
  | list items =>
    have inside := List.sizeOf_lt_of_mem (show child ∈ items from below)
    rw [list.sizeOf_spec]
    omega
  | call name arguments =>
    have inside := List.sizeOf_lt_of_mem (show child ∈ arguments from below)
    rw [call.sizeOf_spec]
    omega
  | binary operator left right =>
    rw [binary.sizeOf_spec]
    rcases List.mem_cons.1 below with rfl | second
    · omega
    · obtain rfl := List.mem_singleton.1 second
      omega
  | lambda operator collection parameter predicate =>
    rw [lambda.sizeOf_spec]
    rcases List.mem_cons.1 below with rfl | second
    · omega
    · obtain rfl := List.mem_singleton.1 second
      omega
  | unary operator operand =>
    obtain rfl := List.mem_singleton.1 below
    rw [unary.sizeOf_spec]
    omega
  | bareLambda operator collection =>
    obtain rfl := List.mem_singleton.1 below
    rw [bareLambda.sizeOf_spec]
    omega
  | null => cases below
  | literal value => cases below
  | property path => cases below
  | ofVariable name path => cases below

/-- Every expression ends in a leaf. -/
theorem exists_chain (node : Node) : ∃ chain, node.IsChain chain := by
  cases below : node.children with
  | nil => exact ⟨_, .leaf below⟩
  | cons child others =>
    have inside : child ∈ node.children := by
      rw [below]
      exact List.mem_cons_self
    have smaller := sizeOf_child inside
    obtain ⟨chain, rest⟩ := exists_chain child
    exact ⟨_, .step inside rest⟩
termination_by sizeOf node

theorem IsChain.length_pos {node : Node} {chain : List Node} (leads : node.IsChain chain) :
    0 < chain.length := by
  cases leads with
  | leaf last => exact Nat.zero_lt_one
  | step below rest => exact Nat.succ_pos _

/-- Some chain from the expression leads past the limit of the depth. -/
def IsTooDeep (node : Node) (context : EvaluationContext) : Prop :=
  ∃ chain, node.IsChain chain ∧ EvaluationContext.maxNesting < context.nesting + chain.length

/-- What is too deep right below is too deep above. -/
theorem IsTooDeep.of_child {node child : Node} {context deeper : EvaluationContext}
    (below : child ∈ node.children) (next : deeper.nesting = context.nesting + 1)
    (tooDeep : child.IsTooDeep deeper) : node.IsTooDeep context := by
  obtain ⟨chain, rest, past⟩ := tooDeep
  refine ⟨node :: chain, .step below rest, ?_⟩
  rw [List.length_cons]
  omega

theorem Arises.isTooDeep {registry : FunctionRegistry} {node : Node} {context : EvaluationContext}
    {error : EvaluationError} (arises : node.Arises registry context error) {limit : Nat}
    (deep : error = .tooDeep limit) :
    node.IsTooDeep context ∨ registry.Reports (.tooDeep limit) := by
  -- On the way up the nesting falls by one at each level, as the chain gets longer by one.
  induction arises with
  | ofOperands operands =>
    subst deep
    cases operands
  | @atLimit node context reached =>
    -- The limit may be met above a leaf, from where any chain leads on.
    obtain ⟨chain, leads⟩ := node.exists_chain
    have counted := leads.length_pos
    exact .inl ⟨chain, leads, by omega⟩
  | ofVariable unbound => cases deep
  | ofFunction registered fails =>
    subst deep
    exact .inr ⟨_, registered, _, _, fails⟩
  | ofOperand below rest ih =>
    exact (ih deep).imp_left (.of_child (mem_children_of_operand below) rfl)
  | ofPredicate rest ih =>
    exact (ih deep).imp_left (.of_child (List.mem_cons_of_mem _ List.mem_cons_self) rfl)

/-- The evaluation of an expression restores its context, and it fails for its depth only if some
chain below leads past the limit; another such failure is one that a function has on its own. -/
theorem evaluate_restores (registry : FunctionRegistry) (node : Node)
    (context : EvaluationContext) :
    (node.evaluate registry context).2 = context ∧
      ∀ limit, (node.evaluate registry context).1 = .error (.tooDeep limit) →
        node.IsTooDeep context ∨ registry.Reports (.tooDeep limit) :=
  ⟨keeps_evaluate registry node context, fun _ fails =>
    (failsOnly_evaluate registry node context _ fails).isTooDeep rfl⟩

/-- Within two levels of the limit, a lambda fails under the variable that it binds. -/
theorem evaluate_restores_lambda :
    let items : Operand := .collection [.primitive (.boolean true)]
    let context : EvaluationContext :=
      ⟨⟨⟨0⟩, .untyped, [], none, none, false, []⟩, default, [("items", items)], 126⟩
    let node : Node :=
      .lambda .all (.ofVariable "items" .root) "item" (.unary .not (.ofVariable "item" .root))
    (node.evaluate .standard context).1 = .error (.tooDeep 128) ∧
      (node.evaluate .standard context).2 = context ∧ node.IsTooDeep context := by
  intro items context node
  have law := evaluate_restores .standard node context
  have fails : (node.evaluate .standard context).1 = .error (.tooDeep 128) := rfl
  exact ⟨fails, law.1,
    (law.2 128 fails).resolve_right (FunctionRegistry.standard_not_reports_tooDeep 128)⟩

end Node

end EdmQuery
