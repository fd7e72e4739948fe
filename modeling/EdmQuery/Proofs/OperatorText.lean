import EdmQuery.Proofs.PrintableNodes

set_option autoImplicit false

namespace EdmQuery

namespace Filter

open Parsing

/-- A text that continues no expression of a precedence or a looser one. -/
def Ends (lowest : Nat) (rest : List Char) : Prop :=
  ∀ precedence, lowest ≤ precedence → operator? precedence rest = none

theorem Ends.mono {lower higher : Nat} {rest : List Char} (ends : Ends lower rest)
    (above : lower ≤ higher) : Ends higher rest := by
  intro precedence bound
  exact ends precedence (Nat.le_trans above bound)

theorem ends_nil (lowest : Nat) : Ends lowest [] := by
  intro precedence _
  rfl

theorem ends_cons {char : Char} (solid : isGap char = false) (other : isNameStart char = false)
    (lowest : Nat) (rest : List Char) : Ends lowest (char :: rest) := by
  intro precedence _
  rw [operator?, skipGap_cons solid, name?_eq_none other]
  rfl

theorem ends_close (lowest : Nat) (rest : List Char) : Ends lowest (')' :: rest) :=
  ends_cons (by decide) (by decide) lowest rest

theorem precedence_of_logical {operator : BinaryOperator} :
    operator.isLogical = true → operator.precedence < 3 := by
  cases operator <;> decide

theorem precedence_of_not_logical {operator : BinaryOperator} : operator.isLogical = false →
    operator.precedence = 3 ∨ operator.precedence = 4 ∨ operator.precedence = 5 := by
  cases operator <;> decide

theorem isName_keyword (operator : BinaryOperator) : isName operator.keyword = true := by
  cases operator <;> decide

/-- An operator between blanks, as it stands between its operands. -/
theorem operator?_keyword (operator : BinaryOperator) (precedence : Nat) (rest : List Char) :
    operator? precedence (' ' :: (operator.keyword.toList ++ ' ' :: rest)) =
      if operator.precedence = precedence then some (operator, ' ' :: rest) else none := by
  have blank : StopsAt isNamePart (' ' :: rest) := stopsAt_cons (by decide)
  have solid : skipGap (operator.keyword.toList ++ ' ' :: rest) =
      operator.keyword.toList ++ ' ' :: rest := by
    cases operator <;> rfl
  rw [operator?, skipGap_blank, solid, name?_append (isName_keyword operator) blank]
  simp only [Option.bind_some, BinaryOperator.ofKeyword?_keyword]

theorem ends_operator {operator : BinaryOperator} {lowest : Nat}
    (looser : operator.precedence < lowest) (rest : List Char) :
    Ends lowest (' ' :: (operator.keyword.toList ++ ' ' :: rest)) := by
  intro precedence bound
  rw [operator?_keyword, if_neg]
  omega

section

variable {precedence : Nat} {first : Parser Node} {operand : BinaryOperator → Parser Node}
variable {text rest : List Char} {node : Node}

theorem chain_of_none (none : operator? precedence rest = none) (fuel : Nat) :
    chain precedence operand fuel node rest = .ok (node, rest) := by
  cases fuel with
  | zero => rfl
  | succ fuel => rw [chain, none]

/-- An operand without further ones is handed on as it is. -/
theorem leftAssociative_of_none (read : first text = .ok (node, rest))
    (none : operator? precedence rest = none) :
    leftAssociative precedence first operand text = .ok (node, rest) := by
  rw [leftAssociative, read]
  exact chain_of_none none rest.length

/-- Where the first operand fails, no further ones are looked for. -/
theorem leftAssociative_of_error {failure : ParseFailure} (fails : first text = .error failure) :
    leftAssociative precedence first operand text = .error failure := by
  rw [leftAssociative, fails]
  rfl

/-- Two operands with an operator of the precedence between them. -/
theorem leftAssociative_of_some {right : Node} {operator : BinaryOperator}
    {behind last : List Char} (read : first text = .ok (node, rest))
    (some : operator? precedence rest = some (operator, behind))
    (further : operand operator behind = .ok (right, last))
    (none : operator? precedence last = none) :
    leftAssociative precedence first operand text = .ok (.binary operator node right, last) := by
  have step : ∀ fuel, chain precedence operand (fuel + 1) node rest =
      .ok (.binary operator node right, last) := by
    intro fuel
    rw [chain, some]
    show (operand operator behind >>= _) = _
    rw [further]
    exact chain_of_none none fuel
  rw [leftAssociative, read]
  cases rest with
  | nil => cases some
  | cons char others => exact step others.length

end

/-- A parser that skips the gaps in front of what it reads. -/
def IgnoresGap (parser : Parser Node) : Prop := ∀ text, parser (skipGap text) = parser text

theorem IgnoresGap.blank {parser : Parser Node} (ignores : IgnoresGap parser) (text : List Char) :
    parser (' ' :: text) = parser text := by
  rw [← ignores, skipGap_blank, ignores]

theorem IgnoresGap.leftAssociative {first : Parser Node} (ignores : IgnoresGap first)
    (precedence : Nat) (operand : BinaryOperator → Parser Node) :
    IgnoresGap (leftAssociative precedence first operand) := by
  intro text
  rw [Filter.leftAssociative, Filter.leftAssociative, ignores]

section

variable (deeper : Option Nested)

theorem ignoresGap_primary : IgnoresGap (primary deeper) := by
  intro text
  rw [primary, primary, skipGap_skipGap]

theorem ignoresGap_minus : IgnoresGap (minus deeper) := by
  intro text
  rw [minus, minus, skipGap_skipGap]

theorem ignoresGap_members : IgnoresGap (members deeper) := by
  intro text
  rw [members, members, ignoresGap_primary]

theorem ignoresGap_product : IgnoresGap (product deeper) :=
  (ignoresGap_minus deeper).leftAssociative 5 _

theorem ignoresGap_sum : IgnoresGap (sum deeper) := (ignoresGap_product deeper).leftAssociative 4 _

theorem ignoresGap_comparison : IgnoresGap (comparison deeper) :=
  (ignoresGap_sum deeper).leftAssociative 3 _

theorem ignoresGap_negation : IgnoresGap (negation deeper) := by
  intro text
  rw [negation, negation, skipGap_skipGap, ignoresGap_comparison]

theorem ignoresGap_conjunction : IgnoresGap (conjunction deeper) :=
  (ignoresGap_negation deeper).leftAssociative 2 _

end

section

variable {deeper : Option Nested} {text rest : List Char} {node : Node}

theorem product_of_minus (read : minus deeper text = .ok (node, rest)) (ends : Ends 5 rest) :
    product deeper text = .ok (node, rest) :=
  leftAssociative_of_none read (ends 5 (by omega))

theorem sum_of_product (read : product deeper text = .ok (node, rest)) (ends : Ends 4 rest) :
    sum deeper text = .ok (node, rest) :=
  leftAssociative_of_none read (ends 4 (by omega))

theorem comparison_of_sum (read : sum deeper text = .ok (node, rest)) (ends : Ends 3 rest) :
    comparison deeper text = .ok (node, rest) :=
  leftAssociative_of_none read (ends 3 (by omega))

theorem negation_of_comparison (read : comparison deeper text = .ok (node, rest))
    (unprefixed : keyword? "not" (skipGap text) = none) :
    negation deeper text = .ok (node, rest) := by
  rw [negation, unprefixed]
  exact read

theorem conjunction_of_negation (read : negation deeper text = .ok (node, rest))
    (ends : Ends 2 rest) : conjunction deeper text = .ok (node, rest) :=
  leftAssociative_of_none read (ends 2 (by omega))

theorem expression_of_conjunction (read : conjunction deeper text = .ok (node, rest))
    (ends : Ends 1 rest) : expression deeper text = .ok (node, rest) := by
  rw [← ignoresGap_conjunction] at read
  exact leftAssociative_of_none read (ends 1 (by omega))

theorem sum_of_minus (read : minus deeper text = .ok (node, rest)) (ends : Ends 4 rest) :
    sum deeper text = .ok (node, rest) :=
  sum_of_product (product_of_minus read (ends.mono (by omega))) ends

theorem comparison_of_minus (read : minus deeper text = .ok (node, rest)) (ends : Ends 3 rest) :
    comparison deeper text = .ok (node, rest) :=
  comparison_of_sum (sum_of_minus read (ends.mono (by omega))) ends

theorem expression_of_negation (read : negation deeper text = .ok (node, rest))
    (ends : Ends 1 rest) : expression deeper text = .ok (node, rest) :=
  expression_of_conjunction (conjunction_of_negation read (ends.mono (by omega))) ends

theorem expression_of_comparison (read : comparison deeper text = .ok (node, rest))
    (unprefixed : keyword? "not" (skipGap text) = none) (ends : Ends 1 rest) :
    expression deeper text = .ok (node, rest) :=
  expression_of_negation (negation_of_comparison read unprefixed) ends

/-- The failure of an operand is that of every looser level. -/
theorem expression_of_error {failure : ParseFailure} (fails : minus deeper text = .error failure)
    (unprefixed : keyword? "not" (skipGap text) = none) :
    expression deeper text = .error failure := by
  have compared : comparison deeper text = .error failure :=
    leftAssociative_of_error (leftAssociative_of_error (leftAssociative_of_error fails))
  have negated : negation deeper text = .error failure := by
    rw [negation, unprefixed]
    exact compared
  have joined : conjunction deeper (skipGap text) = .error failure := by
    rw [ignoresGap_conjunction]
    exact leftAssociative_of_error negated
  exact leftAssociative_of_error joined

end

section

variable {deeper : Option Nested} {operator : BinaryOperator} {left right : Node}
variable {text behind rest : List Char}

theorem expression_of_logical (logical : operator.isLogical = true)
    (first : negation deeper text =
      .ok (left, ' ' :: (operator.keyword.toList ++ ' ' :: behind)))
    (second : negation deeper behind = .ok (right, rest)) (ends : Ends 1 rest) :
    expression deeper text = .ok (.binary operator left right, rest) := by
  have endsFirst : Ends 3 (' ' :: (operator.keyword.toList ++ ' ' :: behind)) := by
    apply ends_operator
    exact precedence_of_logical logical
  have after := (ignoresGap_negation deeper).blank behind
  rw [second] at after
  cases operator with
  | and =>
    have both : conjunction deeper text = .ok (.binary .and left right, rest) :=
      leftAssociative_of_some first (operator?_keyword .and 2 behind) after (ends 2 (by omega))
    exact expression_of_conjunction both ends
  | or =>
    have before := conjunction_of_negation first (ends_operator (by decide) behind)
    have afterBoth := conjunction_of_negation after (ends.mono (by omega))
    rw [← ignoresGap_conjunction] at before
    exact leftAssociative_of_some before (operator?_keyword .or 1 behind) afterBoth
      (ends 1 (by omega))
  | _ => cases logical

/-- The parser for the second operand of an operator that is not logical. -/
def secondOperand (deeper : Option Nested) (operator : BinaryOperator) : Parser Node :=
  if operator = .isIn then members deeper else minus deeper

theorem comparison_of_operands (other : operator.isLogical = false)
    (first : minus deeper text = .ok (left, ' ' :: (operator.keyword.toList ++ ' ' :: behind)))
    (second : secondOperand deeper operator behind = .ok (right, rest)) (ends : Ends 3 rest) :
    comparison deeper text = .ok (.binary operator left right, rest) := by
  by_cases isIn : operator = .isIn
  · subst isIn
    have after : members deeper (' ' :: behind) = .ok (right, rest) := by
      rw [(ignoresGap_members deeper).blank]
      exact second
    have before := sum_of_minus first (ends_operator (by decide) behind)
    exact leftAssociative_of_some before (operator?_keyword .isIn 3 behind) after
      (ends 3 (by omega))
  · have after : minus deeper (' ' :: behind) = .ok (right, rest) := by
      rw [(ignoresGap_minus deeper).blank]
      rw [secondOperand, if_neg isIn] at second
      exact second
    have found := fun precedence => operator?_keyword operator precedence behind
    rcases precedence_of_not_logical other with level | level | level
    · have before := sum_of_minus first (ends_operator (by omega) behind)
      have afterSum := sum_of_minus after (ends.mono (by omega))
      refine leftAssociative_of_some before ((found 3).trans (if_pos level)) ?_ (ends 3 (by omega))
      rw [if_neg isIn]
      exact afterSum
    · have before := product_of_minus first (ends_operator (by omega) behind)
      have afterProduct := product_of_minus after (ends.mono (by omega))
      have both : sum deeper text = .ok (.binary operator left right, rest) :=
        leftAssociative_of_some before ((found 4).trans (if_pos level)) afterProduct
          (ends 4 (by omega))
      exact comparison_of_sum both ends
    · have both : product deeper text = .ok (.binary operator left right, rest) :=
        leftAssociative_of_some first ((found 5).trans (if_pos level)) after (ends 5 (by omega))
      exact comparison_of_sum (sum_of_product both (ends.mono (by omega))) ends

end

end Filter

end EdmQuery
