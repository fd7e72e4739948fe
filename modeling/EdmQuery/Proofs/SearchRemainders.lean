import EdmQuery.Proofs.Remainders
import EdmQuery.Query.SearchGrammar

set_option autoImplicit false

namespace EdmQuery

namespace Search

open Parsing

theorem word?_suffix {text word rest : List Char} (read : word? text = some (word, rest)) :
    rest <:+ text := by
  rw [word?] at read
  split at read
  · cases read
  · cases read
    exact List.dropWhile_suffix isWordChar

theorem operator?_suffix {operator : String} {text rest : List Char}
    (read : operator? operator text = some rest) : rest <:+ text := by
  obtain ⟨⟨word, behind⟩, found, same⟩ := Option.bind_eq_some_iff.1 read
  dsimp only at same
  split at same
  · cases same
    exact (word?_suffix found).trans (skipGap_suffix text)
  · cases same

theorem leavesSuffix_phraseRest : LeavesSuffix phraseRest := by
  intro text
  fun_induction phraseRest text with
  | case1 => exact List.suffix_rfl
  | case2 rest => exact List.suffix_cons '"' rest
  | case3 => exact List.nil_suffix
  | case4 char rest ih =>
    rw [leftOf_map]
    exact ih.trans ((List.suffix_cons char rest).trans (List.suffix_cons '\\' _))
  | case5 char rest noQuote noEnd noEscape ih =>
    rw [leftOf_map]
    exact ih.trans (List.suffix_cons char rest)

/-- The parsers of a level leave ends of their texts. -/
structure Nested.LeavesSuffix (nested : Nested) : Prop where
  disjunction : Parsing.LeavesSuffix nested.disjunction
  negation : Parsing.LeavesSuffix nested.negation

section

variable {operand : Parser SearchExpression} (operands : LeavesSuffix operand)

include operands

theorem leavesSuffix_moreConjuncts (fuel : Nat) (left : SearchExpression) :
    LeavesSuffix (moreConjuncts operand fuel left) := by
  induction fuel generalizing left with
  | zero =>
    intro text
    exact List.suffix_rfl
  | succ fuel ih =>
    intro text
    rw [moreConjuncts]
    split
    · rename_i rest found
      refine List.IsSuffix.trans ?_ (operator?_suffix found)
      apply suffix_bind (operands rest)
      intro right behind _
      exact ih _ behind
    · split
      · exact List.suffix_rfl
      · apply suffix_bind (operands text)
        intro right behind _
        exact ih _ behind

theorem leavesSuffix_moreDisjuncts (fuel : Nat) (left : SearchExpression) :
    LeavesSuffix (moreDisjuncts operand fuel left) := by
  induction fuel generalizing left with
  | zero =>
    intro text
    exact List.suffix_rfl
  | succ fuel ih =>
    intro text
    rw [moreDisjuncts]
    split
    · rename_i rest found
      refine List.IsSuffix.trans ?_ (operator?_suffix found)
      apply suffix_bind (operands rest)
      intro right behind _
      exact ih _ behind
    · exact List.suffix_rfl

end

section

variable {deeper : Option Nested} (below : ∀ nested, deeper = some nested → nested.LeavesSuffix)

theorem suffix_descend {β : Type} {text : List Char} {next : Nested → Parse (β × List Char)}
    (goes : ∀ nested, deeper = some nested → leftOf (next nested) <:+ text) :
    leftOf (descend deeper text >>= next) <:+ text := by
  cases deeper with
  | none => exact List.suffix_rfl
  | some nested => exact goes nested rfl

include below

theorem leavesSuffix_primary : LeavesSuffix (primary deeper) := by
  intro text
  rw [primary]
  refine List.IsSuffix.trans ?_ (skipGap_suffix text)
  split
  · rename_i rest opened
    rw [opened]
    refine List.IsSuffix.trans ?_ (List.suffix_cons '(' rest)
    apply suffix_descend
    intro nested entered
    apply suffix_bind ((below nested entered).disjunction rest)
    intro inner behind _
    apply suffix_expect
    intro last
    exact List.suffix_rfl
  · rename_i rest opened
    rw [opened, leftOf_map _ fun text => SearchExpression.term (.phrase (String.ofList text))]
    exact (leavesSuffix_phraseRest rest).trans (List.suffix_cons '"' rest)
  · split
    · exact List.suffix_rfl
    · rename_i word rest found
      split
      · exact List.suffix_rfl
      · exact word?_suffix found

theorem leavesSuffix_negation : LeavesSuffix (negation deeper) := by
  intro text
  rw [negation]
  split
  · rename_i rest found
    refine List.IsSuffix.trans ?_ (operator?_suffix found)
    apply suffix_descend
    intro nested entered
    apply suffix_bind ((below nested entered).negation rest)
    intro operand behind _
    exact List.suffix_rfl
  · exact leavesSuffix_primary below text

theorem leavesSuffix_conjunction : LeavesSuffix (conjunction deeper) := by
  have operands := leavesSuffix_negation below
  intro text
  rw [conjunction]
  apply suffix_bind (operands text)
  intro left rest _
  exact leavesSuffix_moreConjuncts operands rest.length left rest

theorem leavesSuffix_disjunction : LeavesSuffix (disjunction deeper) := by
  have operands := leavesSuffix_conjunction below
  intro text
  rw [disjunction]
  apply suffix_bind (operands text)
  intro left rest _
  exact leavesSuffix_moreDisjuncts operands rest.length left rest

end

/-- With any number of levels left, the grammar leaves ends of its texts. -/
theorem nested_leavesSuffix (levels : Nat) :
    ∀ inner, nested levels = some inner → inner.LeavesSuffix := by
  induction levels with
  | zero =>
    intro inner found
    cases found
  | succ levels ih =>
    intro inner found
    cases found
    exact ⟨leavesSuffix_disjunction ih, leavesSuffix_negation ih⟩

end Search

end EdmQuery
