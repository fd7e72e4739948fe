import EdmQuery.Proofs.Duality

set_option autoImplicit false

namespace EdmQuery

namespace LambdaOperator

open Evaluation (undecided)

/-- The connective of which an operator is the repetition. -/
def combine : LambdaOperator → Option Bool → Option Bool → Option Bool
  | any => Logic.or
  | all => Logic.and

/-- The disjunction or the conjunction of truth values, of which some may not be known. -/
def fold : LambdaOperator → List (Option Bool) → Option Bool
  | any, truths => truths.foldr Logic.or (some false)
  | all, truths => truths.foldr Logic.and (some true)

theorem fold_nil (operator : LambdaOperator) : operator.fold [] = some (undecided operator) := by
  cases operator <;> rfl

theorem fold_cons (operator : LambdaOperator) (truth : Option Bool) (rest : List (Option Bool)) :
    operator.fold (truth :: rest) = operator.combine truth (operator.fold rest) := by
  cases operator <;> rfl

theorem combine_assoc (operator : LambdaOperator) (x y z : Option Bool) :
    operator.combine (operator.combine x y) z = operator.combine x (operator.combine y z) := by
  rcases x with _ | (_ | _) <;> rcases y with _ | (_ | _) <;> rcases z with _ | (_ | _) <;>
    cases operator <;> rfl

theorem combine_undecided (operator : LambdaOperator) (x : Option Bool) :
    operator.combine x (some (undecided operator)) = x := by
  rcases x with _ | (_ | _) <;> cases operator <;> rfl

theorem combine_decided (operator : LambdaOperator) (x : Option Bool) :
    operator.combine (some (!undecided operator)) x = some (!undecided operator) := by
  rcases x with _ | (_ | _) <;> cases operator <;> rfl

theorem combine_comm (operator : LambdaOperator) (x y : Option Bool) :
    operator.combine x y = operator.combine y x := by
  cases operator with
  | any => exact Logic.or_comm x y
  | all => exact Logic.and_comm x y

/-- One truth value decides, and if it does not occur an unknown one leaves the result unknown. -/
theorem fold_eq (operator : LambdaOperator) (truths : List (Option Bool)) :
    operator.fold truths =
      if some (!undecided operator) ∈ truths then some (!undecided operator)
      else if none ∈ truths then none else some (undecided operator) := by
  induction truths with
  | nil => exact operator.fold_nil
  | cons truth rest ih =>
    rw [fold_cons, ih]
    by_cases decides : truth = some (!undecided operator)
    · rw [decides, combine_decided, if_pos List.mem_cons_self]
    · have later : some (!undecided operator) ∈ truth :: rest ↔
          some (!undecided operator) ∈ rest := by
        rw [List.mem_cons]
        exact or_iff_right (Ne.symm decides)
      simp only [later]
      split
      · rw [combine_comm, combine_decided]
      · cases truth with
        | none =>
          rw [if_pos List.mem_cons_self]
          split
          · cases operator <;> rfl
          · exact combine_undecided operator none
        | some value =>
          obtain rfl : value = undecided operator := by
            have other : ¬ value = !undecided operator := fun same => decides (congrArg some same)
            exact (Bool.eq_not_of_ne other).trans (Bool.not_not _)
          rw [combine_comm, combine_undecided]
          simp only [List.mem_cons, reduceCtorEq, false_or]

/-- Which truth values occur determines the result. -/
theorem fold_congr (operator : LambdaOperator) {truths others : List (Option Bool)}
    (same : ∀ truth, truth ∈ truths ↔ truth ∈ others) :
    operator.fold truths = operator.fold others := by
  simp only [fold_eq, same]

end LambdaOperator

namespace Evaluation

variable {context : EvaluationContext} {predicate : Evaluation Operand}

/-- What the items that were passed amount to. -/
def passed (operator : LambdaOperator) (unknown : Bool) : Option Bool :=
  if unknown then none else some (undecided operator)

/-- The search through the items is the fold of what the predicate is for them, behind what was
passed before. -/
theorem value_quantify (keeps : predicate.Keeps) (operator : LambdaOperator) (parameter : String)
    {truthOf : Value → Option Bool} {items : List Value}
    (known : ∀ item ∈ items, predicate.value (context.bind parameter (.ofValue item)) =
      .ok (.ofTruth (truthOf item))) (unknown : Bool) :
    (quantify operator parameter predicate unknown items).value context =
      .ok (.ofTruth (operator.combine (passed operator unknown)
        (operator.fold (items.map truthOf)))) := by
  induction items generalizing unknown with
  | nil =>
    rw [value_quantify_nil]
    cases unknown <;> cases operator <;> rfl
  | cons item rest ih =>
    have later := ih fun next inside => known next (List.mem_cons_of_mem _ inside)
    rw [value_quantify_cons keeps, known item List.mem_cons_self, List.map_cons,
      LambdaOperator.fold_cons, ← LambdaOperator.combine_assoc]
    show ((Operand.ofTruth (truthOf item)).truth operator.keyword >>= _) = _
    rw [Operand.truth_ofTruth]
    cases truthOf item with
    | none =>
      show (quantify operator parameter predicate true rest).value context = _
      rw [later]
      cases unknown <;> cases operator <;> rfl
    | some decided =>
      show (if decided = undecided operator then _ else _) = _
      split
      · next goesOn =>
        rw [later, goesOn, LambdaOperator.combine_undecided]
      · next decides =>
        -- The search ends here, and the fold is decided whatever is left.
        obtain rfl : decided = !undecided operator := Bool.eq_not_of_ne decides
        rw [LambdaOperator.combine_comm operator (passed operator unknown),
          LambdaOperator.combine_decided, LambdaOperator.combine_decided]
        rfl

end Evaluation

namespace Node

open Evaluation

variable {registry : FunctionRegistry} {context : EvaluationContext}

theorem room_of_value {node : Node} {result : Operand}
    (evaluated : (node.evaluate registry).value context = .ok result) :
    context.nesting < EvaluationContext.maxNesting := by
  refine Nat.lt_of_not_le fun limit => ?_
  rw [value_of_tooDeep node limit] at evaluated
  cases evaluated

/-- A quantifier is the fold of its predicate over the items. -/
theorem value_lambda_of_known (operator : LambdaOperator) {collection predicate : Node}
    {parameter : String} {items : List Value} {truthOf : Value → Option Bool}
    (collected : (collection.evaluate registry).value context.deepened = .ok (.collection items))
    (known : ∀ item ∈ items, (predicate.evaluate registry).value
      (context.deepened.bind parameter (.ofValue item)) = .ok (.ofTruth (truthOf item))) :
    ((lambda operator collection parameter predicate).evaluate registry).value context =
      .ok (.ofTruth (operator.fold (items.map truthOf))) := by
  have room : context.nesting < EvaluationContext.maxNesting :=
    Nat.lt_of_succ_lt (room_of_value collected)
  rw [value_lambda operator collection predicate parameter room, collected]
  show quantified operator parameter (predicate.evaluate registry) context.deepened (some items) = _
  rw [quantified, value_quantify (keeps_evaluate registry predicate) operator parameter known false]
  congr 2
  rw [LambdaOperator.combine_comm]
  exact LambdaOperator.combine_undecided operator _

/-- A quantifier whose predicate is true, false or unknown for each item is the fold of what it is
for them, and leaves the context as it was. It gives the same wherever the same items stand in
another order or another number of times, as long as the predicate gives the same for each. -/
theorem evaluate_lambda_eq_fold (operator : LambdaOperator) {collection predicate : Node}
    {parameter : String} {items : List Value} {truthOf : Value → Option Bool}
    (collected : (collection.evaluate registry).value context.deepened = .ok (.collection items))
    (known : ∀ item ∈ items, (predicate.evaluate registry).value
      (context.deepened.bind parameter (.ofValue item)) = .ok (.ofTruth (truthOf item))) :
    (lambda operator collection parameter predicate).evaluate registry context =
        (.ok (.ofTruth (operator.fold (items.map truthOf))), context) ∧
      ∀ (elsewhere : EvaluationContext) (other : Node) (others : List Value),
        (other.evaluate registry).value elsewhere.deepened = .ok (.collection others) →
        (∀ item, item ∈ others ↔ item ∈ items) →
        (∀ item ∈ items,
          (predicate.evaluate registry).value (elsewhere.deepened.bind parameter (.ofValue item)) =
            (predicate.evaluate registry).value
              (context.deepened.bind parameter (.ofValue item))) →
        ((lambda operator other parameter predicate).evaluate registry).value elsewhere =
          .ok (.ofTruth (operator.fold (items.map truthOf))) := by
  constructor
  · rw [(keeps_evaluate registry _).run_eq, value_lambda_of_known operator collected known]
  · intro elsewhere other others gathered same agrees
    have knownThere : ∀ item ∈ others, (predicate.evaluate registry).value
        (elsewhere.deepened.bind parameter (.ofValue item)) = .ok (.ofTruth (truthOf item)) :=
      fun item inside => (agrees item ((same item).1 inside)).trans
        (known item ((same item).1 inside))
    rw [value_lambda_of_known operator gathered knownThere]
    congr 2
    refine operator.fold_congr fun truth => ?_
    simp only [List.mem_map, same]

/-- Whether some and whether all of a crew are over thirty. The age of one of them is not known, and
the younger one is listed twice in another order. -/
theorem evaluate_lambda_eq_fold_crew :
    let member (age? : Option Int) : Value := .complex ⟨⟨0⟩, .untyped,
      [.unattached (.dynamic "age" .untyped) ((age?.bind Primitive.int32?).map .primitive)],
      none, none, false, []⟩
    let items := [member none, member (some 20), member (some 40)]
    let others := [member (some 20), member (some 40), member none, member (some 20)]
    let context (crew : List Value) : EvaluationContext :=
      .start ⟨⟨0⟩, .untyped, [.unattached (.dynamic "crew" .untyped) (some (.collection crew))],
        none, none, false, []⟩ default
    let elder : Node :=
      .binary .greater (.ofVariable "c" ⟨["age"]⟩) (.literal (.integer ⟨.int32, 30, by decide⟩))
    let crew : Node := .property ⟨["crew"]⟩
    let value (operator : LambdaOperator) (listed : List Value) :=
      ((lambda operator crew "c" elder).evaluate .standard).value (context listed)
    (LambdaOperator.any.fold [none, some false, some true] = some true ∧
      LambdaOperator.all.fold [none, some false, some true] = some false) ∧
      value .any items = .ok (.ofBool true) ∧ value .any others = .ok (.ofBool true) ∧
      value .all items = .ok (.ofBool false) ∧ value .all others = .ok (.ofBool false) := by
  intro member items others context elder crew value
  let truthOf (item : Value) : Option Bool :=
    ((elder.evaluate .standard).value ((context items).deepened.bind "c" (.ofValue item)) >>=
      (·.truth "any")).toOption.join
  have known (listed : List Value) : ∀ item ∈ items, (elder.evaluate .standard).value
      ((context listed).deepened.bind "c" (.ofValue item)) = .ok (.ofTruth (truthOf item)) := by
    intro item inside
    simp only [items, List.mem_cons, List.not_mem_nil, or_false] at inside
    rcases inside with rfl | rfl | rfl <;> rfl
  have same : ∀ item, item ∈ others ↔ item ∈ items := by
    intro item
    simp only [items, others, List.mem_cons, List.not_mem_nil, or_false]
    grind
  have law (operator : LambdaOperator) :=
    @evaluate_lambda_eq_fold .standard (context items) operator crew elder "c" items truthOf rfl
      (known items)
  have first (operator : LambdaOperator) := congrArg Prod.fst (law operator).1
  have second (operator : LambdaOperator) :=
    (law operator).2 (context others) crew others rfl same fun item inside =>
      (known others item inside).trans (known items item inside).symm
  exact ⟨⟨rfl, rfl⟩, first .any, second .any, first .all, second .all⟩

end Node

end EdmQuery
