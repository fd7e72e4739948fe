import EdmQuery.Evaluation.StandardFunctions
import EdmQuery.Proofs.StoredOperands

set_option autoImplicit false

namespace EdmQuery

/-- Whether an error is about the place at which an expression stands. -/
def EvaluationError.isOfPlace : EvaluationError → Bool
  | unboundVariable _ | tooDeep _ => true
  | _ => false

namespace Evaluated

variable {α β : Type}

/-- What fails, if it does, with an error that is allowed. -/
def FailsOnly (allowed : EvaluationError → Prop) (evaluated : Evaluated α) : Prop :=
  ∀ error, evaluated = .error error → allowed error

section

variable {allowed other : EvaluationError → Prop}

theorem failsOnly_ok (value : α) : FailsOnly allowed (.ok value : Evaluated α) :=
  fun _ same => by cases same

theorem failsOnly_error {error : EvaluationError} (holds : allowed error) :
    FailsOnly allowed (.error error : Evaluated α) :=
  fun _ same => by
    cases same
    exact holds

theorem FailsOnly.mono {evaluated : Evaluated α} (fails : evaluated.FailsOnly allowed)
    (wider : ∀ error, allowed error → other error) : evaluated.FailsOnly other :=
  fun error same => wider error (fails error same)

theorem FailsOnly.bind {first : Evaluated α} {next : α → Evaluated β}
    (fails : first.FailsOnly allowed)
    (later : ∀ value, first = .ok value → (next value).FailsOnly allowed) :
    FailsOnly allowed (first >>= next) := by
  cases first with
  | error error => exact failsOnly_error (fails error rfl)
  | ok value => exact later value rfl

end

/-- What fails, if it does, for the operands and not for the place of the expression. -/
def FailsForOperands (evaluated : Evaluated α) : Prop :=
  evaluated.FailsOnly fun error => error.isOfPlace = false

theorem failsForOperands_ok (value : α) : FailsForOperands (.ok value : Evaluated α) :=
  failsOnly_ok value

theorem failsForOperands_error {error : EvaluationError} (operands : error.isOfPlace = false) :
    FailsForOperands (.error error : Evaluated α) :=
  failsOnly_error operands

theorem FailsForOperands.bind {first : Evaluated α} {next : α → Evaluated β}
    (fails : first.FailsForOperands) (later : ∀ value, (next value).FailsForOperands) :
    FailsForOperands (first >>= next) :=
  FailsOnly.bind fails fun value _ => later value

end Evaluated

open Evaluated (FailsForOperands failsForOperands_ok failsForOperands_error)

namespace Operand

theorem failsForOperands_truth (operator : String) (operand : Operand) :
    (operand.truth operator).FailsForOperands := by
  intro error same
  unfold truth at same
  split at same <;> cases same <;> rfl

theorem failsForOperands_primitiveOrNull (operator : String) (operand : Operand) :
    (operand.primitiveOrNull operator).FailsForOperands := by
  intro error same
  unfold primitiveOrNull at same
  split at same <;> cases same <;> rfl

end Operand

namespace Comparison

theorem failsForOperands_order (operator : String) (x y : Primitive) :
    (order operator x y).FailsForOperands := by
  intro error same
  unfold order at same
  split at same
  · cases same
  · split at same <;> cases same <;> rfl

theorem failsForOperands_compare (operator : BinaryOperator) (x y : Operand) :
    (compare operator x y).FailsForOperands := by
  unfold compare
  split
  · exact failsForOperands_ok _
  · exact failsForOperands_ok _
  · exact (failsForOperands_order _ _ _).bind fun _ => failsForOperands_ok _
  · exact failsForOperands_error rfl
  · exact failsForOperands_error rfl

theorem failsForOperands_findMember (needle : Primitive) (unknown : Bool) (items : List Operand) :
    (findMember needle unknown items).FailsForOperands := by
  induction items generalizing unknown with
  | nil => exact failsForOperands_ok _
  | cons item rest ih =>
    cases item with
    | null => exact ih true
    | primitive member =>
      refine (failsForOperands_order "in" needle member).bind fun ordering => ?_
      split
      · exact failsForOperands_ok _
      · exact ih unknown
    | complex value => exact failsForOperands_error rfl
    | collection items => exact failsForOperands_error rfl
    | list items => exact failsForOperands_error rfl

theorem failsForOperands_isMember (needle members : Operand) :
    (isMember needle members).FailsForOperands := by
  refine (needle.failsForOperands_primitiveOrNull "in").bind fun value? => ?_
  cases value? with
  | none => exact failsForOperands_ok _
  | some value =>
    have listed : (members? members).FailsForOperands := by
      intro error same
      unfold members? at same
      split at same <;> cases same <;> rfl
    refine listed.bind fun items? => ?_
    cases items? with
    | none => exact failsForOperands_ok _
    | some items => exact failsForOperands_findMember value false items

end Comparison

namespace Arithmetic

theorem failsForOperands_numeric (operator : String) (value : Primitive) :
    (numeric operator value).FailsForOperands := by
  intro error same
  unfold numeric at same
  split at same <;> cases same <;> rfl

theorem failsForOperands_ofIntegers (operator : BinaryOperator) (x y : Int) :
    (ofIntegers operator x y).FailsForOperands := by
  intro error same
  unfold ofIntegers at same
  split at same
  · cases same
    rfl
  · split at same
    · cases same
      rfl
    · split at same
      · cases same
        rfl
      · split at same <;> cases same <;> rfl

theorem failsForOperands_ofDecimals (operator : BinaryOperator) (x y : Decimal) :
    (ofDecimals operator x y).FailsForOperands := by
  intro error same
  unfold ofDecimals at same
  dsimp only at same
  split at same
  · cases same
    rfl
  · split at same
    case h_7 =>
      cases same
      rfl
    all_goals split at same <;> cases same <;> rfl

theorem failsForOperands_ofBinaries (operator : BinaryOperator) (x y : Binary64) :
    (ofBinaries operator x y).FailsForOperands := by
  intro error same
  unfold ofBinaries at same
  split at same
  · cases same
    rfl
  · split at same <;> cases same <;> rfl

theorem failsForOperands_ofPrimitives (operator : BinaryOperator) (left right : Primitive) :
    (ofPrimitives operator left right).FailsForOperands := by
  refine (failsForOperands_numeric _ left).bind fun x => ?_
  refine (failsForOperands_numeric _ right).bind fun y => ?_
  split
  · split
    · exact failsForOperands_ofDecimals _ _ _
    · exact failsForOperands_ofIntegers _ _ _
  · exact failsForOperands_ofDecimals _ _ _
  · exact failsForOperands_ofBinaries _ _ _

theorem failsForOperands_apply (operator : BinaryOperator) (x y : Operand) :
    (apply operator x y).FailsForOperands := by
  unfold apply
  split
  · exact failsForOperands_ok _
  · exact failsForOperands_ok _
  · exact (failsForOperands_ofPrimitives _ _ _).bind fun _ => failsForOperands_ok _
  · exact failsForOperands_error rfl
  · exact failsForOperands_error rfl

theorem failsForOperands_applyNegate (operand : Operand) :
    (applyNegate operand).FailsForOperands := by
  have negates : ∀ value, (negate value).FailsForOperands := by
    intro value
    refine (failsForOperands_numeric "-" value).bind fun number => ?_
    split
    · split
      · exact failsForOperands_ok _
      · exact failsForOperands_error rfl
    · exact failsForOperands_ok _
    · exact failsForOperands_ok _
  unfold applyNegate
  split
  · exact failsForOperands_ok _
  · exact (negates _).bind fun _ => failsForOperands_ok _
  · exact failsForOperands_error rfl

end Arithmetic

theorem failsForOperands_textArgument (function : String) (arguments : List Operand) (index : Nat) :
    (textArgument function arguments index).FailsForOperands := by
  intro error same
  unfold textArgument at same
  split at same <;> cases same <;> rfl

theorem failsForOperands_integerArgument (function : String) (arguments : List Operand)
    (index : Nat) : (integerArgument function arguments index).FailsForOperands := by
  intro error same
  unfold integerArgument at same
  split at same
  · cases same
  · cases same
  · split at same <;> cases same <;> rfl
  · cases same
    rfl

theorem failsForOperands_countResult (function : String) (count : Nat) :
    (countResult function count).FailsForOperands := by
  intro error same
  unfold countResult at same
  split at same <;> cases same <;> rfl

/-- A function that never fails for a variable. -/
def FunctionDefinition.FailsForOperands (function : FunctionDefinition) : Prop :=
  ∀ context arguments, (function.run context arguments).FailsForOperands

namespace TextFunctions

theorem failsForOperands_ofTexts (name : String)
    {result : List Char → List Char → Evaluated Primitive}
    (results : ∀ first second, (result first second).FailsForOperands) :
    (ofTexts name result).FailsForOperands := by
  intro context arguments
  refine (failsForOperands_textArgument name arguments 0).bind fun first? => ?_
  refine (failsForOperands_textArgument name arguments 1).bind fun second? => ?_
  split
  · exact (results _ _).bind fun _ => failsForOperands_ok _
  · exact failsForOperands_ok _

theorem failsForOperands_ofText (name : String) {result : List Char → Evaluated Primitive}
    (results : ∀ text, (result text).FailsForOperands) :
    (ofText name result).FailsForOperands := by
  intro context arguments
  refine (failsForOperands_textArgument name arguments 0).bind fun text? => ?_
  split
  · exact (results _).bind fun _ => failsForOperands_ok _
  · exact failsForOperands_ok _

theorem failsForOperands_indexOf (text needle : List Char) :
    (indexOf text needle).FailsForOperands := by
  unfold indexOf
  split
  · exact failsForOperands_countResult _ _
  · exact failsForOperands_ok _
  · exact failsForOperands_error rfl

theorem failsForOperands_matchesPattern (text pattern : List Char) :
    (matchesPattern text pattern).FailsForOperands := by
  intro error same
  unfold matchesPattern at same
  split at same <;> cases same <;> rfl

theorem failsForOperands_substring : substring.FailsForOperands := by
  intro context arguments
  refine (failsForOperands_textArgument _ arguments 0).bind fun text? => ?_
  refine (failsForOperands_integerArgument _ arguments 1).bind fun start? => ?_
  split
  · split
    · exact failsForOperands_ok _
    · refine (failsForOperands_integerArgument _ arguments 2).bind fun length? => ?_
      split <;> exact failsForOperands_ok _
  · exact failsForOperands_ok _

theorem failsForOperands_of_mem {function : FunctionDefinition} (inside : function ∈ functions) :
    function.FailsForOperands := by
  simp only [functions, List.mem_cons, List.not_mem_nil, or_false] at inside
  rcases inside with rfl | rfl | rfl | rfl | rfl | rfl | rfl | rfl | rfl | rfl | rfl
  · exact failsForOperands_ofTexts _ fun _ _ => failsForOperands_ok _
  · exact failsForOperands_ofTexts _ fun _ _ => failsForOperands_ok _
  · exact failsForOperands_ofTexts _ fun _ _ => failsForOperands_ok _
  · exact failsForOperands_ofText _ fun _ => failsForOperands_countResult _ _
  · exact failsForOperands_ofTexts _ failsForOperands_indexOf
  · exact failsForOperands_substring
  · exact failsForOperands_ofText _ fun _ => failsForOperands_ok _
  · exact failsForOperands_ofText _ fun _ => failsForOperands_ok _
  · exact failsForOperands_ofText _ fun _ => failsForOperands_ok _
  · exact failsForOperands_ofTexts _ fun _ _ => failsForOperands_ok _
  · exact failsForOperands_ofTexts _ failsForOperands_matchesPattern

end TextFunctions

namespace CalendarFunctions

theorem failsForOperands_partResult (name : String) (part : Int) :
    (partResult name part).FailsForOperands := by
  intro error same
  unfold partResult at same
  split at same <;> cases same <;> rfl

theorem failsForOperands_ofDate (name : String) (part : Date → Int) :
    (ofDate name part).FailsForOperands := by
  intro context arguments error same
  simp only [ofDate, FunctionDefinition.fixed] at same
  split at same
  · cases same
  · cases same
  · exact failsForOperands_partResult _ _ _ same
  · exact failsForOperands_partResult _ _ _ same
  · cases same
    rfl

theorem failsForOperands_ofTime (name : String) (part : TimeOfDay → Nat) :
    (ofTime name part).FailsForOperands := by
  intro context arguments error same
  simp only [ofTime, FunctionDefinition.fixed] at same
  split at same
  · cases same
  · cases same
  · exact failsForOperands_partResult _ _ _ same
  · exact failsForOperands_partResult _ _ _ same
  · cases same
    rfl

theorem failsForOperands_of_mem {function : FunctionDefinition} (inside : function ∈ functions) :
    function.FailsForOperands := by
  simp only [functions, List.mem_cons, List.not_mem_nil, or_false] at inside
  rcases inside with rfl | rfl | rfl | rfl | rfl | rfl | rfl
  · exact failsForOperands_ofDate _ _
  · exact failsForOperands_ofDate _ _
  · exact failsForOperands_ofDate _ _
  · exact failsForOperands_ofTime _ _
  · exact failsForOperands_ofTime _ _
  · exact failsForOperands_ofTime _ _
  · exact fun _ _ => failsForOperands_ok _

end CalendarFunctions

namespace RoundingFunctions

theorem failsForOperands_of_mem {function : FunctionDefinition} (inside : function ∈ functions) :
    function.FailsForOperands := by
  have rounds : ∀ name decimal binary, (ofNumber name decimal binary).FailsForOperands := by
    intro name decimal binary context arguments other same
    simp only [ofNumber, FunctionDefinition.fixed] at same
    split at same <;> cases same <;> rfl
  simp only [functions, List.mem_cons, List.not_mem_nil, or_false] at inside
  rcases inside with rfl | rfl | rfl <;> exact rounds _ _ _

end RoundingFunctions

namespace FunctionRegistry

def FailsForOperands (registry : FunctionRegistry) : Prop :=
  ∀ function ∈ registry.functions, function.FailsForOperands

theorem standard_failsForOperands : standard.FailsForOperands := by
  intro function inside
  rcases mem_of_mem_foldl inside with none | listed
  · cases none
  · rcases List.mem_append.1 listed with listed | rounding
    · rcases List.mem_append.1 listed with text | calendar
      · exact TextFunctions.failsForOperands_of_mem text
      · exact CalendarFunctions.failsForOperands_of_mem calendar
    · exact RoundingFunctions.failsForOperands_of_mem rounding

end FunctionRegistry

namespace Evaluation

theorem failsForOperands_navigate (start : Operand) (segments : List String) :
    (navigate start segments).FailsForOperands := by
  induction segments generalizing start with
  | nil =>
    cases start <;> exact failsForOperands_ok _
  | cons segment rest ih =>
    cases start with
    | null => exact failsForOperands_ok _
    | complex value =>
      have members : (member value segment).FailsForOperands := by
        intro error same
        unfold member at same
        split at same
        · cases same
        · split at same <;> cases same <;> rfl
      exact members.bind fun held => ih held
    | primitive value => exact failsForOperands_error rfl
    | collection items => exact failsForOperands_error rfl
    | list items => exact failsForOperands_error rfl

theorem failsForOperands_checkCount (function : FunctionDefinition) (count : Nat) :
    (function.checkCount count).FailsForOperands := by
  intro error same
  unfold FunctionDefinition.checkCount at same
  split at same <;> cases same <;> rfl

theorem failsForOperands_calledFunction (registry : FunctionRegistry) (name : String)
    (count : Nat) : (calledFunction registry name count).FailsForOperands := by
  unfold calledFunction
  split
  · exact (failsForOperands_checkCount _ count).bind fun _ => failsForOperands_ok _
  · exact failsForOperands_error rfl

theorem failsForOperands_lambdaItems? (operator : LambdaOperator) (held : Operand) :
    (lambdaItems? operator held).FailsForOperands := by
  intro error same
  unfold lambdaItems? at same
  split at same <;> cases same <;> rfl

end Evaluation

end EdmQuery
