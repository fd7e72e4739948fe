import EdmQuery.Proofs.Nesting

set_option autoImplicit false

namespace EdmQuery

/-- The error but for the operator at which types did not match. -/
def EvaluationError.withoutOperator : EvaluationError → EvaluationError
  | typeMismatch _ expected found => typeMismatch "" expected found
  | other => other

/-- Two evaluations end in related results, or in the same error up to the operator that it names. -/
inductive Evaluated.Concur {α β : Type} (relation : α → β → Prop) :
    Evaluated α → Evaluated β → Prop
  | ok {result : α} {other : β} (related : relation result other) :
      Concur relation (.ok result) (.ok other)
  | error {error other : EvaluationError} (same : error.withoutOperator = other.withoutOperator) :
      Concur relation (.error error) (.error other)

/-- Both operands are the same truth value, known or not. -/
def Operand.SameTruth (x y : Operand) : Prop :=
  ∃ known? : Option Bool, x = .ofTruth known? ∧ y = .ofTruth known?

/-- Two evaluations end in the same truth value, or in the same error up to the operator that it
names. -/
def Evaluated.Agree : Evaluated Operand → Evaluated Operand → Prop :=
  Evaluated.Concur Operand.SameTruth

namespace Evaluated

variable {α β γ δ : Type} {relation : α → β → Prop} {later : γ → δ → Prop}

theorem Concur.bind {first : Evaluated α} {second : Evaluated β}
    (concur : first.Concur relation second) {next : α → Evaluated γ} {other : β → Evaluated δ}
    (continued : ∀ x y, relation x y → (next x).Concur later (other y)) :
    (first >>= next).Concur later (second >>= other) := by
  cases concur with
  | ok related => exact continued _ _ related
  | error same => exact .error same

theorem Concur.refl {later : γ → γ → Prop} (reflexive : ∀ x, later x x) (evaluated : Evaluated γ) :
    evaluated.Concur later evaluated := by
  cases evaluated with
  | ok result => exact .ok (reflexive result)
  | error error => exact .error rfl

/-- Operators differ in the error alone when they ask for a truth value. -/
theorem concur_truth (operator other : String) (operand : Operand) :
    (operand.truth operator).Concur Eq (operand.truth other) := by
  cases operand with
  | null => exact .ok rfl
  | primitive value =>
    cases value with
    | boolean value => exact .ok rfl
    | _ => exact .error rfl
  | complex value => exact .error rfl
  | collection items => exact .error rfl
  | list items => exact .error rfl

end Evaluated

namespace Evaluation

/-- What the negation of an evaluated operand gives. -/
def negated (evaluated : Evaluated Operand) : Evaluated Operand :=
  evaluated >>= fun operand => operand.truth "not" >>= fun truth =>
    .ok (.ofTruth (Logic.not truth))

/-- What needs the truth value of a negated operand gets it from the operand. -/
theorem negated_bind_truth (operator : String) (evaluated : Evaluated Operand) {α : Type}
    (next : Option Bool → Evaluated α) :
    (negated evaluated >>= fun operand => operand.truth operator >>= next) =
      evaluated >>= fun operand => operand.truth "not" >>= fun truth => next (Logic.not truth) := by
  have known (truth : Option Bool) :
      (Operand.ofTruth (Logic.not truth)).truth operator = .ok (Logic.not truth) :=
    Operand.truth_ofTruth operator _
  rw [negated, bind_assoc]
  congr 1
  funext operand
  rw [bind_assoc]
  congr 1
  funext truth
  show ((Operand.ofTruth (Logic.not truth)).truth operator >>= next) = next (Logic.not truth)
  rw [known]
  rfl

theorem negated_ofTruth (truth : Option Bool) :
    negated (.ok (.ofTruth truth)) = .ok (.ofTruth (Logic.not truth)) := by
  show ((Operand.ofTruth truth).truth "not" >>= _) = _
  rw [Operand.truth_ofTruth]
  rfl

theorem negated_bind {α : Type} (evaluated : Evaluated α) (next : α → Evaluated Operand) :
    negated (evaluated >>= next) = evaluated >>= fun result => negated (next result) :=
  bind_assoc evaluated next _

/-- Where a negated operand is looked at for its truth value, so is the operand itself. -/
theorem agree_bind_truth (operator other : String) (evaluated : Evaluated Operand)
    {next dual : Option Bool → Evaluated Operand}
    (continued : ∀ truth, (negated (next truth)).Agree (dual (Logic.not truth))) :
    (negated (evaluated >>= fun operand => operand.truth operator >>= next)).Agree
      (negated evaluated >>= fun operand => operand.truth other >>= dual) := by
  rw [negated_bind, negated_bind_truth]
  refine Evaluated.Concur.bind (.refl (fun _ => rfl) evaluated) fun operand _ same => ?_
  subst same
  rw [negated_bind]
  refine (Evaluated.concur_truth operator "not" operand).bind fun truth _ same => ?_
  subst same
  exact continued truth

theorem agree_negated_ofTruth (truth : Option Bool) :
    (negated (.ok (.ofTruth truth))).Agree (.ok (.ofTruth (Logic.not truth))) := by
  rw [negated_ofTruth]
  exact .ok ⟨_, rfl, rfl⟩

variable {first second : EvaluationContext}

/-- The negation of a connective is its dual on negated operands. What decides on one side decides
negated on the other, so the second operand is looked at on both sides or on none. -/
theorem agree_connect {left right leftNot rightNot : Evaluation Operand} (leftKeeps : left.Keeps)
    (rightKeeps : right.Keeps) (leftNotKeeps : leftNot.Keeps) (rightNotKeeps : rightNot.Keeps)
    (leftNegated : leftNot.value second = negated (left.value first))
    (rightNegated : rightNot.value second = negated (right.value first))
    (keyword other : String) (deciding : Bool)
    {combine dual : Option Bool → Option Bool → Option Bool}
    (duality : ∀ x y, Logic.not (combine x y) = dual (Logic.not x) (Logic.not y)) :
    (negated ((connect keyword deciding combine left right).value first)).Agree
      ((connect other (!deciding) dual leftNot rightNot).value second) := by
  rw [value_connect leftKeeps rightKeeps, value_connect leftNotKeeps rightNotKeeps, leftNegated,
    rightNegated]
  refine agree_bind_truth keyword other _ fun truth => ?_
  have decides : Logic.not truth = some (!deciding) ↔ truth = some deciding := by
    rcases truth with _ | (_ | _) <;> cases deciding <;> decide
  by_cases decided : truth = some deciding
  · rw [if_pos decided, if_pos (decides.2 decided)]
    exact agree_negated_ofTruth (some deciding)
  · rw [if_neg decided, if_neg (mt decides.1 decided)]
    refine agree_bind_truth keyword other _ fun next => ?_
    rw [← duality]
    exact agree_negated_ofTruth (combine truth next)

end Evaluation

/-- The quantifier for which the other truth value decides. -/
def LambdaOperator.dual : LambdaOperator → LambdaOperator
  | any => all
  | all => any

namespace Evaluation

variable {first second : EvaluationContext}

theorem undecided_dual (operator : LambdaOperator) :
    undecided operator.dual = !undecided operator := by
  cases operator <;> rfl

/-- The negation of a quantifier is the other one over the negated predicate. The item that decides
is the same. -/
theorem agree_quantify {predicate predicateNot : Evaluation Operand} (keeps : predicate.Keeps)
    (keepsNot : predicateNot.Keeps) (operator : LambdaOperator) (parameter : String)
    (dual : ∀ item, predicateNot.value (second.bind parameter (.ofValue item)) =
      negated (predicate.value (first.bind parameter (.ofValue item))))
    (unknown : Bool) (items : List Value) :
    (negated ((quantify operator parameter predicate unknown items).value first)).Agree
      ((quantify operator.dual parameter predicateNot unknown items).value second) := by
  induction items generalizing unknown with
  | nil =>
    rw [value_quantify_nil, value_quantify_nil, undecided_dual]
    cases unknown with
    | true => exact agree_negated_ofTruth none
    | false => exact agree_negated_ofTruth (some (undecided operator))
  | cons item rest ih =>
    rw [value_quantify_cons keeps, value_quantify_cons keepsNot, dual]
    refine agree_bind_truth operator.keyword operator.dual.keyword _ fun truth => ?_
    cases truth with
    | none => exact ih true
    | some decided =>
      show (negated (if decided = undecided operator then _ else _)).Agree
        (if (!decided) = undecided operator.dual then _ else _)
      have decides : (!decided) = undecided operator.dual ↔ decided = undecided operator := by
        rw [undecided_dual, Bool.not_inj_iff]
      by_cases goesOn : decided = undecided operator
      · rw [if_pos goesOn, if_pos (decides.2 goesOn)]
        exact ih unknown
      · rw [if_neg goesOn, if_neg (mt decides.1 goesOn)]
        exact agree_negated_ofTruth (some decided)

/-- The two quantifiers go through the same items. -/
theorem concur_lambdaItems? (operator other : LambdaOperator) (operand : Operand) :
    (lambdaItems? operator operand).Concur Eq (lambdaItems? other operand) := by
  cases operand with
  | null => exact .ok rfl
  | collection items => exact .ok rfl
  | primitive value => exact .error rfl
  | complex value => exact .error rfl
  | list items => exact .error rfl

end Evaluation

namespace Node

open Evaluation

variable {registry : FunctionRegistry} {context : EvaluationContext}

/-- Where the depth allows it, a negated expression is the negation of the expression. -/
theorem value_not (operand : Node) (room : context.nesting < EvaluationContext.maxNesting) :
    ((unary .not operand).evaluate registry).value context =
      negated ((operand.evaluate registry).value context.deepened) := by
  rw [evaluate, value_deeper, if_neg (Nat.not_le_of_lt room), value_bind (keeps_evaluate registry _)]
  congr 1
  funext value
  rw [value_bind (keeps_done _)]
  rfl

theorem value_of_tooDeep (node : Node) (limit : EvaluationContext.maxNesting ≤ context.nesting) :
    (node.evaluate registry).value context =
      .error (.tooDeep EvaluationContext.maxNesting) := by
  have fails {step : Evaluation Operand} : (deeper step).value context =
      .error (.tooDeep EvaluationContext.maxNesting) := by rw [value_deeper, if_pos limit]
  cases node with
  | unary operator operand =>
    cases operator with
    | not =>
      rw [evaluate]
      exact fails
    | negate =>
      rw [evaluate]
      exact fails
  | _ =>
    rw [evaluate]
    exact fails

/-- A negated connective is evaluated like its dual on the negated operands. -/
theorem agree_not_connective {left right : Node} {operator dual : BinaryOperator}
    {keyword other : String} {deciding : Bool}
    {combine combineNot : Option Bool → Option Bool → Option Bool}
    (connects : ∀ x y, Evaluation.binary operator x y = connect keyword deciding combine x y)
    (connectsNot : ∀ x y, Evaluation.binary dual x y = connect other (!deciding) combineNot x y)
    (duality : ∀ x y, Logic.not (combine x y) = combineNot (Logic.not x) (Logic.not y)) :
    (((unary .not (binary operator left right)).evaluate registry).value context).Agree
      (((binary dual (unary .not left) (unary .not right)).evaluate registry).value context) := by
  by_cases limit : EvaluationContext.maxNesting ≤ context.nesting
  · rw [value_of_tooDeep _ limit, value_of_tooDeep _ limit]
    exact .error rfl
  have keeps := keeps_evaluate registry
  rw [value_not _ (Nat.lt_of_not_le limit), evaluate, evaluate, value_deeper, value_deeper,
    if_neg limit, connects, connectsNot]
  by_cases below : EvaluationContext.maxNesting ≤ context.deepened.nesting
  · rw [if_pos below, value_connect (keeps _) (keeps _), value_of_tooDeep _ below]
    exact .error rfl
  · rw [if_neg below]
    have room := Nat.lt_of_not_le below
    exact agree_connect (keeps left) (keeps right) (keeps _) (keeps _) (value_not left room)
      (value_not right room) keyword other deciding duality

/-- What a quantifier gives for the items that it goes through, none for null. -/
def quantified (operator : LambdaOperator) (parameter : String) (predicate : Evaluation Operand)
    (context : EvaluationContext) : Option (List Value) → Evaluated Operand
  | none => .ok (.ofBool (undecided operator))
  | some items => (quantify operator parameter predicate false items).value context

theorem value_lambda (operator : LambdaOperator) (collection predicate : Node) (parameter : String)
    (room : context.nesting < EvaluationContext.maxNesting) :
    ((lambda operator collection parameter predicate).evaluate registry).value context =
      (collection.evaluate registry).value context.deepened >>= fun operand =>
        lambdaItems? operator operand >>=
          quantified operator parameter (predicate.evaluate registry) context.deepened := by
  rw [evaluate, value_deeper, if_neg (Nat.not_le_of_lt room), value_bind (keeps_evaluate registry _)]
  congr 1
  funext operand
  rw [value_bind (keeps_done _), value_done]
  congr 1
  funext items?
  cases items? <;> rfl

/-- A negated quantifier is evaluated like the other one over the negated predicate, unless it is
too deep. -/
theorem agree_not_lambda (ignores : registry.IgnoresNesting) (operator : LambdaOperator)
    {collection predicate : Node} {parameter : String}
    (fits : ((unary .not (lambda operator collection parameter predicate)).evaluate registry).value
      context ≠ .error (.tooDeep EvaluationContext.maxNesting)) :
    (((unary .not (lambda operator collection parameter predicate)).evaluate registry).value
        context).Agree
      (((lambda operator.dual collection parameter (unary .not predicate)).evaluate registry).value
        context) := by
  have room : context.nesting < EvaluationContext.maxNesting :=
    Nat.lt_of_not_le fun limit => fits (value_of_tooDeep _ limit)
  rw [value_not _ room] at fits ⊢
  have below : context.deepened.nesting < EvaluationContext.maxNesting := by
    refine Nat.lt_of_not_le fun limit => fits ?_
    rw [value_of_tooDeep _ limit]
    rfl
  rw [value_lambda _ _ _ _ below] at fits ⊢
  rw [value_lambda _ _ _ _ room]
  -- the negation puts the collection one level deeper
  have shallow : (collection.evaluate registry).value context.deepened =
      (collection.evaluate registry).value context.deepened.deepened := by
    refine (risesFrom_evaluate ignores collection context.deepened.deepened
      context.deepened.nesting (Nat.le_succ _)).eq_of_ne fun tooDeep => fits ?_
    rw [tooDeep]
    rfl
  rw [shallow, negated_bind]
  refine Evaluated.Concur.bind (.refl (fun _ => rfl) _) fun operand _ same => ?_
  subst same
  rw [negated_bind]
  refine (concur_lambdaItems? operator operator.dual operand).bind fun items? _ same => ?_
  subst same
  cases items? with
  | none =>
    rw [quantified, quantified, undecided_dual]
    exact agree_negated_ofTruth (some (undecided operator))
  | some items =>
    have dual (item : Value) :
        ((unary .not predicate).evaluate registry).value
            (context.deepened.bind parameter (.ofValue item)) =
          negated ((predicate.evaluate registry).value
            (context.deepened.deepened.bind parameter (.ofValue item))) := by
      have same : (context.deepened.bind parameter (.ofValue item)).nesting <
        EvaluationContext.maxNesting := below
      exact value_not predicate same
    have keeps := keeps_evaluate registry
    exact agree_quantify (keeps predicate) (keeps _) operator parameter dual false items

/-- De Morgan's laws, for connectives without a condition and for quantifiers as long as the negated
one is not too deep; its collection stands one level deeper than that of the other. -/
theorem evaluate_deMorgan {registry : FunctionRegistry} (ignores : registry.IgnoresNesting)
    (context : EvaluationContext) (a b collection predicate : Node) (variableName : String) :
    let value (node : Node) := (node.evaluate registry).value context
    let any (body : Node) := lambda .any collection variableName body
    let all (body : Node) := lambda .all collection variableName body
    let tooDeep : Evaluated Operand := .error (.tooDeep EvaluationContext.maxNesting)
    (value (unary .not (binary .and a b))).Agree
        (value (binary .or (unary .not a) (unary .not b))) ∧
      (value (unary .not (binary .or a b))).Agree
        (value (binary .and (unary .not a) (unary .not b))) ∧
      (value (unary .not (any predicate)) ≠ tooDeep →
        (value (unary .not (any predicate))).Agree (value (all (unary .not predicate)))) ∧
      (value (unary .not (all predicate)) ≠ tooDeep →
        (value (unary .not (all predicate))).Agree (value (any (unary .not predicate)))) := by
  refine ⟨?_, ?_, ?_, ?_⟩
  · exact agree_not_connective (fun _ _ => rfl) (fun _ _ => rfl) Logic.not_and
  · exact agree_not_connective (fun _ _ => rfl) (fun _ _ => rfl) Logic.not_or
  · exact agree_not_lambda ignores .any
  · exact agree_not_lambda ignores .all

/-- Two signals, of which one is lit. -/
def signals : ComplexValue :=
  ⟨⟨0⟩, .untyped, [.unattached (.dynamic "lit" .untyped)
    (some (.collection [.primitive (.boolean false), .primitive (.boolean true)]))],
    none, none, false, []⟩

theorem evaluate_deMorgan_signals :
    let value (node : Node) := (node.evaluate .standard).value (.start signals default)
    let lit : Node := .property ⟨["lit"]⟩
    let signal : Node := .ofVariable "s" .root
    let noneLit : Node := unary .not (lambda .any lit "s" signal)
    let notAllLit : Node := unary .not (lambda .all lit "s" signal)
    let tooDeep : Evaluated Operand := .error (.tooDeep EvaluationContext.maxNesting)
    FunctionRegistry.standard.IgnoresNesting ∧
      value noneLit = .ok (.ofBool false) ∧ value noneLit ≠ tooDeep ∧
      value notAllLit = .ok (.ofBool true) ∧ value notAllLit ≠ tooDeep ∧
      (value noneLit).Agree (value (lambda .all lit "s" (unary .not signal))) ∧
      (value notAllLit).Agree (value (lambda .any lit "s" (unary .not signal))) := by
  intro value lit signal noneLit notAllLit tooDeep
  have unlit : value noneLit = .ok (.ofBool false) := rfl
  have someUnlit : value notAllLit = .ok (.ofBool true) := rfl
  have noLimit (answer : Operand) :
      (.ok answer : Evaluated Operand) ≠ .error (.tooDeep EvaluationContext.maxNesting) := by
    simp
  have fits : value noneLit ≠ tooDeep := by
    rw [unlit]
    exact noLimit _
  have fitsToo : value notAllLit ≠ tooDeep := by
    rw [someUnlit]
    exact noLimit _
  have laws := evaluate_deMorgan FunctionRegistry.standard_ignoresNesting (.start signals default)
    lit lit lit signal "s"
  exact ⟨FunctionRegistry.standard_ignoresNesting, unlit, fits, someUnlit, fitsToo,
    laws.2.2.1 fits, laws.2.2.2 fitsToo⟩

end Node

end EdmQuery
