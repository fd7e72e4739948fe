import Mathlib.Data.List.Forall2
import EdmQuery.Proofs.Duality

set_option autoImplicit false

namespace EdmQuery

/-- The comparisons with each member, connected by `or` and nested to the left. -/
def Node.equalsAny (needle first : Node) (others : List Node) : Node :=
  others.foldl (fun chain member => .binary .or chain (.binary .equal needle member))
    (.binary .equal needle first)

namespace Comparison

/-- What `or` gives for what its operands give. -/
def disjunction (left right : Evaluated Operand) : Evaluated Operand :=
  left >>= fun x => x.truth "or" >>= fun truth =>
    if truth = some true then .ok (.ofBool true)
    else right >>= fun y => y.truth "or" >>= fun other => .ok (.ofTruth (Logic.or truth other))

/-- What the comparisons of a value with operands give behind what earlier ones gave. -/
def equalsAnyFrom (needle : Operand) (start : Evaluated Operand) (members : List Operand) :
    Evaluated Operand :=
  members.foldl (fun chain member => disjunction chain (compare .equal needle member)) start

/-- Both give the same truth value, or both fail at a member that does not compare. -/
def SameAnswer (listed chained : Evaluated Operand) : Prop :=
  (∃ known? : Option Bool, listed = .ok (.ofTruth known?) ∧ chained = .ok (.ofTruth known?)) ∨
    ∃ expected found, listed = .error (.typeMismatch "in" expected found) ∧
      chained = .error (.typeMismatch "eq" expected found)

theorem equalsAnyFrom_cons (needle : Operand) (start : Evaluated Operand) (member : Operand)
    (rest : List Operand) :
    equalsAnyFrom needle start (member :: rest) =
      equalsAnyFrom needle (disjunction start (compare .equal needle member)) rest := rfl

theorem disjunction_ofTruth {truth : Option Bool} (undecided : truth ≠ some true)
    (other : Option Bool) :
    disjunction (.ok (.ofTruth truth)) (.ok (.ofTruth other)) =
      .ok (.ofTruth (Logic.or truth other)) := by
  rcases truth with _ | (_ | _)
  · cases other <;> rfl
  · cases other <;> rfl
  · exact absurd rfl undecided

theorem disjunction_error {truth : Option Bool} (undecided : truth ≠ some true)
    (error : EvaluationError) :
    disjunction (.ok (.ofTruth truth)) (.error error) = .error error := by
  rcases truth with _ | (_ | _)
  · rfl
  · rfl
  · exact absurd rfl undecided

theorem equalsAnyFrom_null (members : List Operand) :
    equalsAnyFrom .null (.ok .null) members = .ok .null := by
  induction members with
  | nil => rfl
  | cons member rest ih => exact ih

/-- Once a member was equal, the others do not matter. -/
theorem equalsAnyFrom_true (needle : Operand) (members : List Operand) :
    equalsAnyFrom needle (.ok (.ofBool true)) members = .ok (.ofBool true) := by
  induction members with
  | nil => rfl
  | cons member rest ih => exact ih

theorem equalsAnyFrom_error (needle : Operand) (error : EvaluationError) (members : List Operand) :
    equalsAnyFrom needle (.error error) members = .error error := by
  induction members with
  | nil => rfl
  | cons member rest ih => exact ih

/-- The truth value as long as no member was equal. -/
def unmatched (unknown : Bool) : Option Bool :=
  if unknown then none else some false

theorem unmatched_ne_true (unknown : Bool) : unmatched unknown ≠ some true := by
  cases unknown <;> decide

theorem or_unmatched_false (unknown : Bool) :
    Logic.or (unmatched unknown) (some false) = unmatched unknown := by
  cases unknown <;> rfl

/-- A member that does not compare ends both. -/
theorem sameAnswer_mismatch (needle : Operand) (unknown : Bool) (expected found : String)
    (rest : List Operand) :
    SameAnswer (.error (.typeMismatch "in" expected found)) (equalsAnyFrom needle
      (disjunction (.ok (.ofTruth (unmatched unknown)))
        (.error (.typeMismatch "eq" expected found))) rest) := by
  rw [disjunction_error (unmatched_ne_true unknown), equalsAnyFrom_error]
  exact .inr ⟨expected, found, rfl, rfl⟩

/-- Whether two values compare does not depend on the operator that asks. -/
theorem order_cases (x y : Primitive) :
    (∃ ordering?, ∀ operator, order operator x y = .ok ordering?) ∨
      ∀ operator, order operator x y = .error (.typeMismatch operator x.typeName y.typeName) := by
  simp only [order]
  cases x.compare? y with
  | some ordering => exact .inl ⟨some ordering, fun _ => rfl⟩
  | none =>
    dsimp only
    split
    · exact .inl ⟨none, fun _ => rfl⟩
    · exact .inr fun _ => rfl

theorem holdsPartially_equal (ordering? : Option Ordering) :
    holdsPartially .equal ordering? = decide (ordering? = some .eq) := by
  rcases ordering? with _ | (_ | _ | _) <;> rfl

theorem findMember_of_order {needle member : Primitive} {ordering? : Option Ordering}
    (compares : order "in" needle member = .ok ordering?) (unknown : Bool) (rest : List Operand) :
    findMember needle unknown (.primitive member :: rest) =
      if ordering? = some .eq then .ok (.ofBool true) else findMember needle unknown rest := by
  rw [findMember, compares]
  rcases ordering? with _ | (_ | _ | _) <;> rfl

theorem compare_equal_of_order {needle member : Primitive} {ordering? : Option Ordering}
    (compares : order "eq" needle member = .ok ordering?) :
    compare .equal (.primitive needle) (.primitive member) =
      .ok (.ofTruth (some (decide (ordering? = some .eq)))) := by
  have keyword : BinaryOperator.equal.keyword = "eq" := rfl
  rw [compare, keyword, compares, ← holdsPartially_equal]
  rfl

theorem sameAnswer_compared {needle member : Primitive} {ordering? : Option Ordering}
    (compares : ∀ operator, order operator needle member = .ok ordering?) {unknown : Bool}
    {rest : List Operand}
    (later : SameAnswer (findMember needle unknown rest)
      (equalsAnyFrom (.primitive needle) (.ok (.ofTruth (unmatched unknown))) rest)) :
    SameAnswer (findMember needle unknown (.primitive member :: rest))
      (equalsAnyFrom (.primitive needle) (.ok (.ofTruth (unmatched unknown)))
        (.primitive member :: rest)) := by
  rw [findMember_of_order (compares _), equalsAnyFrom_cons, compare_equal_of_order (compares _),
    disjunction_ofTruth (unmatched_ne_true unknown)]
  by_cases equal : ordering? = some .eq
  · have matched : Logic.or (unmatched unknown) (some true) = some true := by
      cases unknown <;> rfl
    rw [if_pos equal, decide_eq_true equal, matched]
    exact .inl ⟨some true, rfl, equalsAnyFrom_true _ rest⟩
  · rw [if_neg equal, decide_eq_false equal, or_unmatched_false]
    exact later

/-- The search goes on from one member to the next as the chain does. -/
theorem sameAnswer_findMember (needle : Primitive) (unknown : Bool) (members : List Operand) :
    SameAnswer (findMember needle unknown members)
      (equalsAnyFrom (.primitive needle) (.ok (.ofTruth (unmatched unknown))) members) := by
  -- While none was equal, the chain is unknown exactly if the search has passed an unknown member.
  induction members generalizing unknown with
  | nil =>
    refine .inl ⟨unmatched unknown, ?_, rfl⟩
    cases unknown <;> rfl
  | cons member rest ih =>
    cases member with
    | null =>
      have next : disjunction (.ok (.ofTruth (unmatched unknown))) (.ok .null) =
          .ok (.ofTruth (unmatched true)) := by
        cases unknown <;> rfl
      show SameAnswer (findMember needle true rest) (equalsAnyFrom (.primitive needle)
        (disjunction (.ok (.ofTruth (unmatched unknown))) (.ok .null)) rest)
      rw [next]
      exact ih true
    | primitive member =>
      rcases order_cases needle member with ⟨ordering?, compares⟩ | mismatches
      · exact sameAnswer_compared compares (ih unknown)
      · have listed : findMember needle unknown (.primitive member :: rest) =
            .error (.typeMismatch "in" needle.typeName member.typeName) := by
          rw [findMember, mismatches]
          rfl
        have compared : compare .equal (.primitive needle) (.primitive member) =
            .error (.typeMismatch "eq" needle.typeName member.typeName) := by
          rw [compare, mismatches]
          rfl
        rw [listed, equalsAnyFrom_cons, compared]
        exact sameAnswer_mismatch _ unknown _ _ rest
    | complex value => exact sameAnswer_mismatch _ unknown _ _ rest
    | collection items => exact sameAnswer_mismatch _ unknown _ _ rest
    | list items => exact sameAnswer_mismatch _ unknown _ _ rest

/-- Membership in a list gives the answer of the chain over its members. -/
theorem sameAnswer_isMember (key : Option Primitive) (first : Operand) (others : List Operand) :
    SameAnswer (isMember (.ofPrimitive? key) (.list (first :: others)))
      (equalsAnyFrom (.ofPrimitive? key) (compare .equal (.ofPrimitive? key) first) others) := by
  cases key with
  | none => exact .inl ⟨none, rfl, equalsAnyFrom_null others⟩
  | some needle =>
    -- The chain starts with a comparison, the search with the truth value of no comparison at all.
    have start : disjunction (.ok (.ofTruth (unmatched false)))
        (compare .equal (.primitive needle) first) = compare .equal (.primitive needle) first := by
      cases first with
      | primitive member =>
        rcases order_cases needle member with ⟨ordering?, compares⟩ | mismatches
        · rw [compare_equal_of_order (compares _), disjunction_ofTruth (unmatched_ne_true false)]
          cases decide (ordering? = some .eq) <;> rfl
        · rw [compare, mismatches]
          rfl
      | _ => rfl
    have answer := sameAnswer_findMember needle false (first :: others)
    rw [equalsAnyFrom_cons, start] at answer
    exact answer

end Comparison

namespace Node

open Evaluation

/-- At the depth of a context or below it, an expression gives a result, unless it fails for its
depth. -/
def GivesFrom (registry : FunctionRegistry) (context : EvaluationContext) (node : Node)
    (result : Evaluated Operand) : Prop :=
  ∀ nesting, context.nesting ≤ nesting →
    ((node.evaluate registry).value (context.atNesting nesting)).SameUnlessTooDeep result

section

variable {registry : FunctionRegistry} {context : EvaluationContext}

theorem givesFrom_of_value (ignores : registry.IgnoresNesting) {node : Node}
    {result : Evaluated Operand} (evaluated : (node.evaluate registry).value context = result) :
    node.GivesFrom registry context result := by
  intro nesting below
  have rises := risesFrom_evaluate ignores node (context.atNesting nesting) context.nesting below
  rw [← evaluated]
  exact rises

theorem GivesFrom.eq_of_ne {node : Node} {result : Evaluated Operand}
    (gives : node.GivesFrom registry context result)
    (fits : (node.evaluate registry).value context ≠
      .error (.tooDeep EvaluationContext.maxNesting)) :
    (node.evaluate registry).value context = result :=
  ((gives context.nesting (Nat.le_refl _)).eq_of_ne fits).symm

/-- One level for the expression itself. -/
theorem sameUnlessTooDeep_deeper {step : Evaluation Operand} {result : Evaluated Operand}
    {nesting : Nat}
    (inner : (step.value (context.atNesting (nesting + 1))).SameUnlessTooDeep result) :
    ((deeper step).value (context.atNesting nesting)).SameUnlessTooDeep result := by
  rw [value_deeper]
  split
  · exact .inl rfl
  · exact inner

section

variable {left right : Node} {first second : Evaluated Operand}
  (givesLeft : left.GivesFrom registry context first)
  (givesRight : right.GivesFrom registry context second)

include givesLeft givesRight

theorem GivesFrom.or :
    (binary .or left right).GivesFrom registry context (Comparison.disjunction first second) := by
  intro nesting below
  have inside := Nat.le_succ_of_le below
  refine @sameUnlessTooDeep_deeper context (Evaluation.binary .or _ _) _ _ ?_
  show ((connect "or" true Logic.or _ _).value _).SameUnlessTooDeep _
  rw [value_connect (keeps_evaluate registry left) (keeps_evaluate registry right)]
  refine (givesLeft _ inside).bind fun x => ?_
  refine (Evaluated.SameUnlessTooDeep.same _).bind fun truth => ?_
  split
  · exact .same _
  · exact (givesRight _ inside).bind fun y => .same _

theorem GivesFrom.binary {operator : BinaryOperator} {apply : Operand → Operand → Evaluated Operand}
    (strict : ∀ x y : Evaluation Operand, Evaluation.binary operator x y =
      x >>= fun first => y >>= fun second => done (apply first second)) :
    (binary operator left right).GivesFrom registry context
      (first >>= fun x => second >>= fun y => apply x y) := by
  intro nesting below
  have inside := Nat.le_succ_of_le below
  refine @sameUnlessTooDeep_deeper context (Evaluation.binary operator _ _) _ _ ?_
  rw [strict, value_bind (keeps_evaluate registry left)]
  refine (givesLeft _ inside).bind fun x => ?_
  rw [value_bind (keeps_evaluate registry right)]
  exact (givesRight _ inside).bind fun y => .same _

end

/-- Each expression of a list gives its operand. -/
def GiveFrom (registry : FunctionRegistry) (context : EvaluationContext) (nodes : List Node)
    (operands : List Operand) : Prop :=
  List.Forall₂ (fun node operand => node.GivesFrom registry context (.ok operand)) nodes operands

theorem exists_giveFrom (ignores : registry.IgnoresNesting) {nodes : List Node}
    (evaluated : ∀ node ∈ nodes, ∃ operand, (node.evaluate registry).value context = .ok operand) :
    ∃ operands, GiveFrom registry context nodes operands := by
  induction nodes with
  | nil => exact ⟨[], .nil⟩
  | cons node rest ih =>
    obtain ⟨operand, first⟩ := evaluated node List.mem_cons_self
    obtain ⟨operands, give⟩ := ih fun later inside =>
      evaluated later (List.mem_cons_of_mem _ inside)
    exact ⟨operand :: operands, .cons (givesFrom_of_value ignores first) give⟩

theorem GiveFrom.list {nodes : List Node} {operands : List Operand}
    (give : GiveFrom registry context nodes operands) :
    (list nodes).GivesFrom registry context (.ok (.list operands)) := by
  have each (nesting : Nat) (below : context.nesting ≤ nesting) :
      ((evaluateAll registry nodes).value (context.atNesting nesting)).SameUnlessTooDeep
        (.ok operands) := by
    induction give with
    | nil => exact .same _
    | @cons node operand rest others gives give ih =>
      rw [evaluateAll, value_bind (keeps_evaluate registry node)]
      rcases gives nesting below with tooDeep | same
      · rw [tooDeep]
        exact .inl rfl
      · rw [← same]
        show (Evaluation.value (evaluateAll registry rest >>= fun operands =>
          pure (operand :: operands)) _).SameUnlessTooDeep _
        rw [value_bind (keeps_evaluateAll registry rest)]
        exact ih.bind fun _ => .same _
  intro nesting below
  refine sameUnlessTooDeep_deeper ?_
  rw [value_bind (keeps_evaluateAll registry nodes)]
  exact (each (nesting + 1) (Nat.le_succ_of_le below)).bind fun _ => .same _

/-- The chain of comparisons gives what the comparisons of the operands give under `or`. -/
theorem GivesFrom.equalsAny {needle first : Node} {sought member : Operand}
    (gives : needle.GivesFrom registry context (.ok sought))
    (start : first.GivesFrom registry context (.ok member)) {others : List Node}
    {operands : List Operand} (give : GiveFrom registry context others operands) :
    (needle.equalsAny first others).GivesFrom registry context
      (Comparison.equalsAnyFrom sought (Comparison.compare .equal sought member) operands) := by
  have compared {node : Node} {operand : Operand}
      (each : node.GivesFrom registry context (.ok operand)) :
      (Node.binary .equal needle node).GivesFrom registry context
        (Comparison.compare .equal sought operand) := by
    have strict (x y : Evaluation Operand) : Evaluation.binary .equal x y =
      x >>= fun first => y >>= fun second => done (Comparison.compare .equal first second) := rfl
    exact gives.binary each strict
  have chained {chain : Node} {result : Evaluated Operand}
      (earlier : chain.GivesFrom registry context result) :
      (others.foldl (fun chain member => Node.binary .or chain (.binary .equal needle member))
        chain).GivesFrom registry context (Comparison.equalsAnyFrom sought result operands) := by
    induction give generalizing chain result with
    | nil => exact earlier
    | cons each give ih => exact ih (earlier.or (compared each))
  exact chained (compared start)

end

/-- Membership in a list of expressions gives the same as the chain of comparisons with them, where
neither meets the limit of the depth. -/
theorem evaluate_isIn_list {registry : FunctionRegistry} (ignores : registry.IgnoresNesting)
    {context : EvaluationContext} {needle first : Node} {others : List Node}
    {key : Option Primitive}
    (sought : (needle.evaluate registry).value context = .ok (.ofPrimitive? key))
    (members : ∀ member ∈ first :: others, ∃ operand,
      (member.evaluate registry).value context = .ok operand)
    {listed chained : Evaluated Operand}
    (inList : ((binary .isIn needle (list (first :: others))).evaluate registry).value context =
      listed)
    (inChain : ((needle.equalsAny first others).evaluate registry).value context = chained)
    (fits : listed ≠ .error (.tooDeep EvaluationContext.maxNesting))
    (chainFits : chained ≠ .error (.tooDeep EvaluationContext.maxNesting)) :
    Comparison.SameAnswer listed chained := by
  subst inList inChain
  have gives := givesFrom_of_value ignores sought
  obtain ⟨operands, give⟩ := exists_giveFrom ignores members
  cases give with
  | @cons _ member _ rest start give =>
    have strict (x y : Evaluation Operand) : Evaluation.binary .isIn x y =
      x >>= fun first => y >>= fun second => done (Comparison.isMember first second) := rfl
    rw [(gives.binary (GiveFrom.list (.cons start give)) strict).eq_of_ne fits,
      (gives.equalsAny start give).eq_of_ne chainFits]
    exact Comparison.sameAnswer_isMember key member rest

/-- A number is found behind a member that is not known. A text there is an error of both. -/
theorem evaluate_isIn_list_numbers :
    let two : Node := .literal (.integer ⟨.int32, 2, by decide⟩)
    let wide : Node := .literal (.integer ⟨.int64, 2, by decide⟩)
    let text : Node := .literal (.string "two")
    let value (node : Node) := (node.evaluate .standard).value (.start signals default)
    let mismatch (operation : String) : EvaluationError :=
      .typeMismatch operation "Edm.Int32" "Edm.String"
    (value (binary .isIn two (list [.null, wide])) = .ok (.ofBool true) ∧
      value (two.equalsAny .null [wide]) = .ok (.ofBool true) ∧
      Comparison.SameAnswer (.ok (.ofBool true)) (.ok (.ofBool true))) ∧
    (value (binary .isIn two (list [.null, text])) = .error (mismatch "in") ∧
      value (two.equalsAny .null [text]) = .error (mismatch "eq") ∧
      Comparison.SameAnswer (.error (mismatch "in")) (.error (mismatch "eq"))) := by
  intro two wide text value mismatch
  have found : value (binary .isIn two (list [.null, wide])) = .ok (.ofBool true) := rfl
  have foundInChain : value (two.equalsAny .null [wide]) = .ok (.ofBool true) := rfl
  have differs : value (binary .isIn two (list [.null, text])) = .error (mismatch "in") := rfl
  have differsInChain : value (two.equalsAny .null [text]) = .error (mismatch "eq") := rfl
  have law (other : Node) (known : ∃ operand, value other = .ok operand) :=
    @evaluate_isIn_list .standard FunctionRegistry.standard_ignoresNesting (.start signals default)
      two .null [other] (some (.integer ⟨.int32, 2, by decide⟩)) rfl
      (List.forall_mem_cons.2 ⟨⟨_, rfl⟩, List.forall_mem_singleton.2 known⟩)
  exact ⟨⟨found, foundInChain, law wide ⟨_, rfl⟩ found foundInChain nofun nofun⟩,
    ⟨differs, differsInChain, law text ⟨_, rfl⟩ differs differsInChain nofun nofun⟩⟩

end Node

end EdmQuery
