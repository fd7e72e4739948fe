import EdmQuery.Proofs.ParsedTrees
import EdmQuery.Proofs.SearchEscapes

set_option autoImplicit false

namespace EdmQuery

open Parsing

namespace Node

mutual

/-- The most operators in front of an operand, calls and lambdas on a way from the root to a leaf. -/
def levels : Node → Nat
  | null | literal _ | property _ | ofVariable _ _ => 0
  | list items => levelsAll items
  | binary _ left right => max left.levels right.levels
  | unary _ operand => operand.levels + 1
  | call _ arguments => levelsAll arguments + 1
  | lambda _ collection _ predicate => max collection.levels predicate.levels + 1
  | bareLambda _ collection => collection.levels + 1

def levelsAll : List Node → Nat
  | [] => 0
  | node :: rest => max node.levels (levelsAll rest)

end

theorem levelsAll_le_iff {nodes : List Node} {bound : Nat} :
    levelsAll nodes ≤ bound ↔ ∀ node ∈ nodes, node.levels ≤ bound := by
  induction nodes with
  | nil => simp only [levelsAll, Nat.zero_le, List.not_mem_nil, false_implies, implies_true]
  | cons node rest ih => rw [levelsAll, Nat.max_le, ih, List.forall_mem_cons]

mutual

/-- What is resolved takes as many levels as before. -/
theorem levels_resolve (scope : List String) (node : Node) :
    (Filter.resolve scope node).levels = node.levels := by
  cases node with
  | property path =>
    unfold Filter.resolve
    split
    · split <;> rfl
    · rfl
  | list items =>
    rw [Filter.resolve, levels, levels, levelsAll_resolveAll scope items]
  | binary operator left right =>
    rw [Filter.resolve, levels, levels, levels_resolve scope left, levels_resolve scope right]
  | unary operator operand => rw [Filter.resolve, levels, levels, levels_resolve scope operand]
  | call name arguments =>
    rw [Filter.resolve, levels, levels, levelsAll_resolveAll scope arguments]
  | lambda operator collection parameter predicate =>
    rw [Filter.resolve, levels, levels, levels_resolve scope collection,
      levels_resolve (parameter :: scope) predicate]
  | bareLambda operator collection =>
    rw [Filter.resolve, levels, levels, levels_resolve scope collection]
  | _ => rfl

theorem levelsAll_resolveAll (scope : List String) (nodes : List Node) :
    levelsAll (Filter.resolveAll scope nodes) = levelsAll nodes := by
  cases nodes with
  | nil => rfl
  | cons node rest =>
    rw [Filter.resolveAll, levelsAll, levelsAll, levels_resolve scope node,
      levelsAll_resolveAll scope rest]

end

end Node

namespace Filter

theorem pos_of_nested {levels : Nat} {inner : Nested} (found : nested levels = some inner) :
    0 < levels := by
  cases levels with
  | zero => cases found
  | succ levels => exact Nat.succ_pos levels

/-- Each level of the grammar adds at most one level to the tree. -/
theorem keptByLevels_levels : KeptByLevels fun bound node => node.levels ≤ bound := by
  intro bound
  have raised {inner : Nested} (found : nested bound = some inner) {count : Nat}
      (below : count ≤ bound - 1) : count + 1 ≤ bound := by
    have positive := pos_of_nested found
    omega
  constructor
  · exact Nat.zero_le bound
  · exact fun _ => Nat.zero_le bound
  · exact fun _ => Nat.zero_le bound
  · intro items all
    exact Node.levelsAll_le_iff.2 all
  · intro operator left right first second
    exact Nat.max_le.2 ⟨first, second⟩
  · intro inner found node below
    exact Nat.le_trans below (Nat.sub_le bound 1)
  · intro inner found operator operand below
    exact raised found below
  · intro inner found name arguments all
    exact raised found (Node.levelsAll_le_iff.2 all)
  · intro inner found operator path parameter predicate below
    exact raised found (Nat.max_le.2 ⟨Nat.zero_le _, below⟩)
  · intro inner found operator path
    exact raised found (Nat.zero_le _)

/-- An expression that is read with a number of levels left nests no deeper. -/
theorem levels_of_expression {bound : Nat} {text rest : List Char} {node : Node}
    (read : expression (nested bound) text = .ok (node, rest)) : node.levels ≤ bound :=
  yields_expression (keptByLevels_levels bound) (nested_yields keptByLevels_levels bound) _ _ _ read

theorem levels_of_orderByOfText {source : String} {items : List OrderByItem}
    (parsed : orderByOfText source = .ok items) : ∀ item ∈ items, item.key.levels ≤ maxDepth := by
  intro item inside
  obtain ⟨unresolved, bounded, same⟩ := keptByLevels_levels.of_orderByOfText parsed item inside
  rw [same, Node.levels_resolve]
  exact bounded

end Filter

/-- The most negations on a way from the root to a term. -/
def SearchExpression.negations : SearchExpression → Nat
  | term _ => 0
  | and left right | or left right => max left.negations right.negations
  | not operand => operand.negations + 1

namespace Search

/-- The trees that a parser makes have no more negations above each other. -/
def Bounded (bound : Nat) (parser : Parser SearchExpression) : Prop :=
  ∀ text tree rest, parser text = .ok (tree, rest) → tree.negations ≤ bound

def Nested.Bounded (bound : Nat) (nested : Nested) : Prop :=
  Search.Bounded bound nested.disjunction ∧ Search.Bounded bound nested.negation

section

variable {bound : Nat}

theorem bounded_moreConjuncts {operand : Parser SearchExpression} (operands : Bounded bound operand)
    {fuel : Nat} {text rest : List Char} {left tree : SearchExpression}
    (first : left.negations ≤ bound)
    (read : moreConjuncts operand fuel left text = .ok (tree, rest)) : tree.negations ≤ bound := by
  induction fuel generalizing left text with
  | zero =>
    cases read
    exact first
  | succ fuel ih =>
    rw [moreConjuncts] at read
    split at read
    · obtain ⟨⟨right, later⟩, second, read⟩ := Parse.bind_eq_ok read
      refine ih ?_ read
      exact Nat.max_le.2 ⟨first, operands _ _ _ second⟩
    · split at read
      · cases read
        exact first
      · obtain ⟨⟨right, later⟩, second, read⟩ := Parse.bind_eq_ok read
        refine ih ?_ read
        exact Nat.max_le.2 ⟨first, operands _ _ _ second⟩

theorem bounded_moreDisjuncts {operand : Parser SearchExpression} (operands : Bounded bound operand)
    {fuel : Nat} {text rest : List Char} {left tree : SearchExpression}
    (first : left.negations ≤ bound)
    (read : moreDisjuncts operand fuel left text = .ok (tree, rest)) : tree.negations ≤ bound := by
  induction fuel generalizing left text with
  | zero =>
    cases read
    exact first
  | succ fuel ih =>
    rw [moreDisjuncts] at read
    split at read
    · obtain ⟨⟨right, later⟩, second, read⟩ := Parse.bind_eq_ok read
      refine ih ?_ read
      exact Nat.max_le.2 ⟨first, operands _ _ _ second⟩
    · cases read
      exact first

variable {deeper : Option Nested}
  (below : ∀ nested, deeper = some nested → ∃ fewer, bound = fewer + 1 ∧ nested.Bounded fewer)

include below

theorem bounded_primary : Bounded bound (primary deeper) := by
  intro text tree rest read
  rw [primary] at read
  split at read
  · obtain ⟨nested, entered, read⟩ := Parse.bind_eq_ok read
    obtain ⟨fewer, rfl, inner⟩ := below nested (descend_eq_ok entered)
    obtain ⟨⟨grouped, later⟩, one, read⟩ := Parse.bind_eq_ok read
    obtain ⟨final, closed, read⟩ := Parse.bind_eq_ok read
    cases read
    exact Nat.le_succ_of_le (inner.1 _ _ _ one)
  · obtain ⟨⟨phrase, left⟩, -, same⟩ := Result.map_eq_ok read
    cases same
    exact Nat.zero_le bound
  · split at read
    · cases read
    · split at read
      · cases read
      · cases read
        exact Nat.zero_le bound

theorem bounded_negation : Bounded bound (negation deeper) := by
  intro text tree rest read
  rw [negation] at read
  split at read
  · obtain ⟨nested, entered, read⟩ := Parse.bind_eq_ok read
    obtain ⟨fewer, rfl, inner⟩ := below nested (descend_eq_ok entered)
    obtain ⟨⟨operand, later⟩, one, read⟩ := Parse.bind_eq_ok read
    cases read
    exact Nat.succ_le_succ (inner.2 _ _ _ one)
  · exact bounded_primary below _ _ _ read

theorem bounded_conjunction : Bounded bound (conjunction deeper) := by
  intro text tree rest read
  have operands := bounded_negation below
  obtain ⟨⟨left, later⟩, first, read⟩ := Parse.bind_eq_ok read
  exact bounded_moreConjuncts operands (operands _ _ _ first) read

theorem bounded_disjunction : Bounded bound (disjunction deeper) := by
  intro text tree rest read
  have operands := bounded_conjunction below
  obtain ⟨⟨left, later⟩, first, read⟩ := Parse.bind_eq_ok read
  exact bounded_moreDisjuncts operands (operands _ _ _ first) read

end

theorem nested_bounded (levels : Nat) :
    ∀ inner, nested levels = some inner → ∃ fewer, levels = fewer + 1 ∧ inner.Bounded fewer := by
  induction levels with
  | zero =>
    intro inner found
    cases found
  | succ levels ih =>
    intro inner found
    cases found
    exact ⟨levels, rfl, bounded_disjunction ih, bounded_negation ih⟩

theorem negations_of_ofText {source : String} {tree : SearchExpression}
    (parsed : ofText source = .ok tree) : tree.negations ≤ maxDepth := by
  obtain ⟨rest, read, -⟩ := complete_eq_ok parsed
  exact bounded_disjunction (nested_bounded maxDepth) _ _ _ read

end Search

end EdmQuery
