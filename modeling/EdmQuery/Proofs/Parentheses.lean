import EdmQuery.Proofs.FewerLevels
import EdmQuery.Proofs.MemberLists
import EdmQuery.Proofs.TreeLevels
import Mathlib.Data.Nat.Find

set_option autoImplicit false

namespace EdmQuery

open Parsing

namespace Filter

/-- The text is an expression with a number of levels of nesting allowed, and with no smaller one. -/
def Uses (levels : Nat) (text : String) : Prop :=
  NestsWithin levels text ∧ ∀ fewer, NestsWithin fewer text → levels ≤ fewer

theorem exists_uses {text : String} {levels : Nat} (nests : NestsWithin levels text) :
    ∃ uses ≤ levels, Uses uses text := by
  classical
  have some : ∃ count, NestsWithin count text := ⟨levels, nests⟩
  exact ⟨Nat.find some, Nat.find_min' some nests, Nat.find_spec some,
    fun fewer => Nat.find_min' some⟩

/-- A text in a number of pairs of parentheses. -/
def parenthesized (count : Nat) (text : String) : String :=
  String.ofList (List.replicate count '(' ++ (text.toList ++ List.replicate count ')'))

theorem delimited_replicate (count : Nat) : Delimited (List.replicate count ')') := by
  cases count with
  | zero => exact delimited_nil
  | succ count => exact delimited_close _

theorem ends_replicate (lowest count : Nat) : Ends lowest (List.replicate count ')') := by
  cases count with
  | zero => exact ends_nil lowest
  | succ count => exact ends_close lowest _

theorem skipGap_replicate (count : Nat) :
    skipGap (List.replicate count ')') = List.replicate count ')' := by
  cases count with
  | zero => rfl
  | succ count => exact skipGap_cons (by decide) _

section

variable {text rest : List Char} {node : Node}

theorem unprefixed_open (text : List Char) : keyword? "not" (skipGap ('(' :: text)) = none := by
  rw [skipGap_cons (by decide), keyword?, name?_eq_none (by decide)]
  rfl

/-- A group is an expression if nothing but closing parentheses follow. -/
theorem expression_open {levels count : Nat}
    (read : group (nested levels) text = .ok (node, List.replicate count ')')) :
    expression (nested levels) ('(' :: text) = .ok (node, List.replicate count ')') := by
  rw [← minus_open] at read
  exact expression_of_comparison (comparison_of_minus read (ends_replicate 3 count))
    (unprefixed_open text) (ends_replicate 1 count)

/-- With as many levels more as there are parentheses, the same tree is read. -/
theorem expression_parenthesized {uses levels opened : Nat}
    (read : expression (nested uses) text = .ok (node, rest)) (blank : skipGap rest = [])
    (enough : uses + opened ≤ levels) (closed : Nat) :
    ∃ left, expression (nested levels) (List.replicate opened '(' ++
        (text ++ List.replicate (opened + closed) ')')) = .ok (node, left) ∧
      skipGap left = List.replicate closed ')' := by
  induction opened generalizing levels closed with
  | zero =>
    have delimited := delimited_replicate (0 + closed)
    refine ⟨_, persists_expression delimited (nested_persists delimited enough) text node rest read
      fun _ => ends_replicate 1 (0 + closed), ?_⟩
    rw [skipGap_blank_before blank, skipGap_replicate, Nat.zero_add]
  | succ opened ih =>
    obtain ⟨levels, rfl⟩ := Nat.exists_eq_add_one_of_ne_zero (show levels ≠ 0 by omega)
    obtain ⟨left, inner, closes⟩ := ih (show uses + opened ≤ levels by omega) (closed + 1)
    have count : opened + 1 + closed = opened + (closed + 1) := by omega
    have grouped : group (nested (levels + 1)) (List.replicate opened '(' ++
        (text ++ List.replicate (opened + (closed + 1)) ')')) =
          .ok (node, List.replicate closed ')') := by
      rw [group_succ, inner]
      simp only [bind_ok, closes, List.replicate_succ]
      rfl
    rw [count]
    exact ⟨_, expression_open grouped, skipGap_replicate closed⟩

/-- With fewer levels the text is too deep, in the parentheses or behind them. -/
theorem isTooDeep_parenthesized {uses levels opened : Nat}
    (read : expression (nested uses) text = .ok (node, rest))
    (least : ∀ fewer, expression (nested fewer) text = .ok (node, rest) → uses ≤ fewer)
    (few : levels < uses + opened) (closing : List Char) :
    IsTooDeep (expression (nested levels)
      (List.replicate opened '(' ++ (text ++ ')' :: closing))) := by
  induction opened generalizing levels with
  | zero =>
    have again := nested_persists (delimited_close closing) (Nat.le_refl levels)
    rcases cuts_expression (nested_cuts closing levels uses) again text node rest read with
      same | deep
    · have enough := least levels same
      omega
    · exact deep
  | succ opened ih =>
    have grouped : IsTooDeep (group (nested levels)
        (List.replicate opened '(' ++ (text ++ ')' :: closing))) := by
      cases levels with
      | zero => exact ⟨_, rfl⟩
      | succ levels =>
        rw [group_succ]
        exact (ih (show levels < uses + opened by omega)).bind _
    obtain ⟨left, fails⟩ := grouped
    rw [← minus_open] at fails
    exact ⟨left, expression_of_error fails (unprefixed_open _)⟩

end

theorem ofText_of_blank {source : String} {node : Node} {rest : List Char}
    (read : topExpression source.toList = .ok (node, rest)) (blank : skipGap rest = []) :
    ofText source = .ok (resolve [] node) := by
  rw [ofText, complete, read]
  simp only [if_pos blank]
  rfl

/-- An accepted filter keeps its tree in as many parentheses as there are levels left, and is too deep
in more of them. -/
theorem ofText_parenthesized {source : String} {node : Node} (parsed : ofText source = .ok node) :
    ∃ uses, Uses uses source ∧ node.levels ≤ uses ∧ uses ≤ maxDepth ∧ ∀ count,
      (count ≤ maxDepth - uses → ofText (parenthesized count source) = .ok node) ∧
      (maxDepth - uses < count → ∃ error, ofText (parenthesized count source) = .error error ∧
        error.code = .expressionTooDeep) := by
  obtain ⟨unresolved, rest, read, blank, rfl⟩ := ofText_eq_ok parsed
  obtain ⟨uses, within, used⟩ := exists_uses ⟨unresolved, rest, read, blank⟩
  obtain ⟨same, left, least, blankLeft⟩ := used.1
  -- the tree that is read with the least number of levels is the accepted one
  have again := persists_expression delimited_nil (nested_persists delimited_nil within) _ _ _ least
    fun _ => ends_nil 1
  rw [List.append_nil, ← topExpression, read] at again
  obtain rfl : unresolved = same := by
    cases again
    rfl
  refine ⟨uses, used, ?_, within, fun count => ⟨fun few => ?_, fun many => ?_⟩⟩
  · rw [Node.levels_resolve]
    exact levels_of_expression least
  · obtain ⟨behind, whole, closed⟩ := expression_parenthesized least blankLeft
      (show uses + count ≤ maxDepth by omega) 0
    have chars : (parenthesized count source).toList = _ := String.toList_ofList
    rw [Nat.add_zero, ← chars] at whole
    exact ofText_of_blank whole closed
  · obtain ⟨fewer, rfl⟩ := Nat.exists_eq_add_one_of_ne_zero (show count ≠ 0 by omega)
    obtain ⟨behind, fails⟩ := isTooDeep_parenthesized least
      (fun fewer nests => used.2 fewer ⟨_, _, nests, blankLeft⟩)
      (show maxDepth < uses + (fewer + 1) by omega) (List.replicate fewer ')')
    have chars : (parenthesized (fewer + 1) source).toList = _ := String.toList_ofList
    rw [← List.replicate_succ, ← chars] at fails
    have refused : ofText (parenthesized (fewer + 1) source) = .error (failureError .syntaxError
        (parenthesized (fewer + 1) source) ⟨.tooDeep, behind⟩) := by
      rw [ofText, complete, topExpression, fails]
      rfl
    exact ⟨_, refused, rfl⟩

end Filter

/-- What is accepted nests no deeper than the limit: filters and sort keys in operators in front of
their operand, calls and lambdas, and searches in negations. A filter uses some number of levels, and
in parentheses one more for each pair; as long as these are within the limit the tree stays the same,
and beyond it there is no tree. -/
theorem nesting_of_accepted (source : String) :
    (∀ node, Filter.ofText source = .ok node →
      ∃ uses, Filter.Uses uses source ∧ node.levels ≤ uses ∧ uses ≤ 50 ∧ ∀ count,
        (count ≤ 50 - uses →
          Filter.ofText (Filter.parenthesized count source) = .ok node) ∧
        (50 - uses < count → ∃ error,
          Filter.ofText (Filter.parenthesized count source) = .error error ∧
            error.code = .expressionTooDeep)) ∧
    (∀ items, Filter.orderByOfText source = .ok items → ∀ item ∈ items, item.key.levels ≤ 50) ∧
    ∀ tree, Search.ofText source = .ok tree → tree.negations ≤ 50 :=
  ⟨fun _ parsed => Filter.ofText_parenthesized parsed,
    fun _ parsed => Filter.levels_of_orderByOfText parsed,
    fun _ parsed => Search.negations_of_ofText parsed⟩

/-- The group in the text uses a level, although there is none of it in the tree. -/
theorem nesting_of_accepted_negation :
    let tree : Node :=
      .unary .not (.binary .equal (.property ⟨["a"]⟩) (.unary .negate (.property ⟨["b"]⟩)))
    Filter.ofText "not (a eq -b)" = .ok tree ∧ tree.levels = 2 ∧ Filter.Uses 3 "not (a eq -b)" ∧
      Filter.ofText (Filter.parenthesized 47 "not (a eq -b)") = .ok tree ∧
      ∃ error, Filter.ofText (Filter.parenthesized 48 "not (a eq -b)") = .error error ∧
        error.code = .expressionTooDeep := by
  intro tree
  have parsed : Filter.ofText "not (a eq -b)" = .ok tree := rfl
  obtain ⟨uses, used, -, -, each⟩ := (nesting_of_accepted "not (a eq -b)").1 tree parsed
  have enough : Filter.NestsWithin 3 "not (a eq -b)" := ⟨tree, [], rfl, rfl⟩
  have atMost := used.2 3 enough
  obtain rfl : uses = 3 := by
    obtain ⟨node, rest, read, -⟩ := used.1
    match uses, atMost with
    | 0, _ | 1, _ | 2, _ => cases read
    | 3, _ => rfl
  exact ⟨parsed, rfl, used, (each 47).1 (by decide), (each 48).2 (by decide)⟩

end EdmQuery
