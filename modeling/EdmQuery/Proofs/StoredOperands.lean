import EdmQuery.Evaluation.Engine
import EdmQuery.Evaluation.StandardFunctions
import EdmQuery.Proofs.Identities

set_option autoImplicit false

namespace EdmQuery

namespace Operand

mutual

/-- An operand up to identities and related entities. -/
def stored : Operand → Operand
  | null => null
  | primitive value => primitive value
  | complex value => complex value.stored
  | collection items => collection (items.map Value.stored)
  | list items => list (storedAll items)

def storedAll : List Operand → List Operand
  | [] => []
  | item :: rest => item.stored :: storedAll rest

end

@[simp] theorem storedAll_eq_map (items : List Operand) : storedAll items = items.map stored := by
  induction items with
  | nil => rfl
  | cons item rest ih => rw [storedAll, ih, List.map_cons]

theorem stored_ofValue (value : Value) : (ofValue value).stored = ofValue value.stored := by
  cases value with
  | primitive value => rfl
  | complex value => rfl
  | collection items =>
    have erased : (Value.collection items).stored = .collection (items.map Value.stored) :=
      congrArg Value.collection (Value.erasedItems_eq_map _ items)
    rw [erased]
    rfl

theorem truth_stored (operator : String) (operand : Operand) :
    operand.stored.truth operator = operand.truth operator := by
  cases operand <;> rfl

theorem primitiveOrNull_stored (operator : String) (operand : Operand) :
    operand.stored.primitiveOrNull operator = operand.primitiveOrNull operator := by
  cases operand <;> rfl

end Operand

namespace Comparison

theorem compare_stored (operator : BinaryOperator) (x y : Operand) :
    compare operator x.stored y.stored = compare operator x y := by
  cases x <;> cases y <;> rfl

theorem findMember_stored (needle : Primitive) (unknown : Bool) (items : List Operand) :
    findMember needle unknown (items.map Operand.stored) = findMember needle unknown items := by
  induction items generalizing unknown with
  | nil => rfl
  | cons item rest ih =>
    rw [List.map_cons]
    cases item with
    | null => exact ih true
    | primitive member =>
      show findMember needle unknown (.primitive member :: rest.map Operand.stored) = _
      simp only [findMember, ih]
    | complex value => rfl
    | collection items => rfl
    | list items => rfl

theorem members?_stored (operand : Operand) :
    members? operand.stored = (members? operand).map (Option.map (List.map Operand.stored)) := by
  cases operand with
  | null => rfl
  | primitive value => rfl
  | complex value => rfl
  | collection items =>
    have values : (items.map Value.stored).map Operand.ofValue =
        (items.map Operand.ofValue).map Operand.stored := by
      rw [List.map_map, List.map_map]
      exact List.map_congr_left fun value _ => (Operand.stored_ofValue value).symm
    exact congrArg (fun members => Except.ok (some members)) values
  | list items =>
    exact congrArg (fun members => Except.ok (some members)) (Operand.storedAll_eq_map items)

theorem isMember_stored (needle members : Operand) :
    isMember needle.stored members.stored = isMember needle members := by
  rw [isMember, isMember, Operand.primitiveOrNull_stored, members?_stored]
  cases needle.primitiveOrNull "in" with
  | error error => rfl
  | ok value? =>
    cases value? with
    | none => rfl
    | some value =>
      cases members? members with
      | error error => rfl
      | ok items? =>
        cases items? with
        | none => rfl
        | some items => exact findMember_stored value false items

end Comparison

namespace Arithmetic

theorem apply_stored (operator : BinaryOperator) (x y : Operand) :
    apply operator x.stored y.stored = apply operator x y := by
  cases x <;> cases y <;> rfl

theorem applyNegate_stored (operand : Operand) :
    applyNegate operand.stored = applyNegate operand := by
  cases operand <;> rfl

end Arithmetic

theorem Evaluation.bareResult_stored (operator : LambdaOperator) (operand : Operand) :
    (lambdaItems? operator operand.stored).map (bareResult operator) =
      (lambdaItems? operator operand).map (bareResult operator) := by
  cases operand with
  | collection items =>
    have emptiness : (items.map Value.stored).isEmpty = items.isEmpty := by
      cases items <;> rfl
    cases operator with
    | any => exact congrArg (fun empty => Except.ok !empty) emptiness
    | all => rfl
  | _ => rfl

theorem textArgument_stored (function : String) (arguments : List Operand) (index : Nat) :
    textArgument function (arguments.map Operand.stored) index =
      textArgument function arguments index := by
  rw [textArgument, textArgument, List.getElem?_map]
  rcases arguments[index]? with _ | (_ | value | _ | _ | _)
  · rfl
  · rfl
  · cases value <;> rfl
  · rfl
  · rfl
  · rfl

theorem integerArgument_stored (function : String) (arguments : List Operand) (index : Nat) :
    integerArgument function (arguments.map Operand.stored) index =
      integerArgument function arguments index := by
  rw [integerArgument, integerArgument, List.getElem?_map]
  rcases arguments[index]? with _ | (_ | _ | _ | _ | _) <;> rfl

/-- A function that reads nothing but its arguments, without looking into containers, and the
current moment. -/
def FunctionDefinition.IsPlain (function : FunctionDefinition) : Prop :=
  ∀ (context other : EvaluationContext) (arguments : List Operand), context.now = other.now →
    function.run context (arguments.map Operand.stored) = function.run other arguments

theorem FunctionDefinition.IsPlain.call_eq {function : FunctionDefinition}
    (plain : function.IsPlain) {context other : EvaluationContext} (now : context.now = other.now)
    {arguments others : List Operand}
    (same : arguments.map Operand.stored = others.map Operand.stored) :
    function.call context arguments = function.call other others := by
  have counts : arguments.length = others.length := by
    have lengths := congrArg List.length same
    rwa [List.length_map, List.length_map] at lengths
  have runs : function.run context arguments = function.run other others := by
    rw [← plain context context arguments rfl, same, plain context other others now]
  rw [call, call, counts, runs]

namespace TextFunctions

theorem ofTexts_isPlain (name : String) (result : List Char → List Char → Evaluated Primitive) :
    (ofTexts name result).IsPlain := by
  intro context other arguments _
  simp only [ofTexts, FunctionDefinition.fixed, textArgument_stored]

theorem ofText_isPlain (name : String) (result : List Char → Evaluated Primitive) :
    (ofText name result).IsPlain := by
  intro context other arguments _
  simp only [ofText, FunctionDefinition.fixed, textArgument_stored]

theorem substring_isPlain : substring.IsPlain := by
  intro context other arguments _
  simp only [substring, textArgument_stored, integerArgument_stored, List.length_map]

theorem isPlain_of_mem {function : FunctionDefinition} (inside : function ∈ functions) :
    function.IsPlain := by
  simp only [functions, List.mem_cons, List.not_mem_nil, or_false] at inside
  rcases inside with rfl | rfl | rfl | rfl | rfl | rfl | rfl | rfl | rfl | rfl | rfl
  all_goals first
    | exact ofTexts_isPlain _ _
    | exact ofText_isPlain _ _
    | exact substring_isPlain

end TextFunctions

namespace CalendarFunctions

theorem ofDate_isPlain (name : String) (part : Date → Int) : (ofDate name part).IsPlain := by
  intro context other arguments _
  simp only [ofDate, FunctionDefinition.fixed, List.head?_map]
  rcases arguments.head? with _ | (_ | value | _ | _ | _)
  · rfl
  · rfl
  · cases value <;> rfl
  · rfl
  · rfl
  · rfl

theorem ofTime_isPlain (name : String) (part : TimeOfDay → Nat) : (ofTime name part).IsPlain := by
  intro context other arguments _
  simp only [ofTime, FunctionDefinition.fixed, List.head?_map]
  rcases arguments.head? with _ | (_ | value | _ | _ | _)
  · rfl
  · rfl
  · cases value <;> rfl
  · rfl
  · rfl
  · rfl

theorem isPlain_of_mem {function : FunctionDefinition} (inside : function ∈ functions) :
    function.IsPlain := by
  simp only [functions, List.mem_cons, List.not_mem_nil, or_false] at inside
  rcases inside with rfl | rfl | rfl | rfl | rfl | rfl | rfl
  · exact ofDate_isPlain _ _
  · exact ofDate_isPlain _ _
  · exact ofDate_isPlain _ _
  · exact ofTime_isPlain _ _
  · exact ofTime_isPlain _ _
  · exact ofTime_isPlain _ _
  · intro context other arguments same
    simp only [FunctionDefinition.fixed, same]

end CalendarFunctions

namespace RoundingFunctions

theorem ofNumber_isPlain (name : String) (decimal : Decimal → Decimal)
    (binary : Binary64 → Binary64) : (ofNumber name decimal binary).IsPlain := by
  intro context other arguments _
  simp only [ofNumber, FunctionDefinition.fixed, List.head?_map]
  rcases arguments.head? with _ | (_ | value | _ | _ | _)
  · rfl
  · rfl
  · cases value <;> rfl
  · rfl
  · rfl
  · rfl

theorem isPlain_of_mem {function : FunctionDefinition} (inside : function ∈ functions) :
    function.IsPlain := by
  simp only [functions, List.mem_cons, List.not_mem_nil, or_false] at inside
  rcases inside with rfl | rfl | rfl <;> exact ofNumber_isPlain _ _ _

end RoundingFunctions

namespace FunctionRegistry

def IsPlain (registry : FunctionRegistry) : Prop :=
  ∀ function ∈ registry.functions, function.IsPlain

theorem mem_of_mem_foldl {function : FunctionDefinition} {functions : List FunctionDefinition}
    {registry : FunctionRegistry}
    (inside : function ∈ (functions.foldl register registry).functions) :
    function ∈ registry.functions ∨ function ∈ functions := by
  induction functions generalizing registry with
  | nil => exact .inl inside
  | cons first rest ih =>
    rcases ih inside with before | later
    · rcases Keyed.mem_put _ before with rfl | held
      · exact .inr List.mem_cons_self
      · exact .inl held
    · exact .inr (List.mem_cons_of_mem _ later)

theorem mem_of_find? {registry : FunctionRegistry} {name : String} {function : FunctionDefinition}
    (found : registry.find? name = some function) : function ∈ registry.functions :=
  (Keyed.keyOf_of_find? _ found).2

/-- A function that can be called is registered. -/
theorem mem_of_calledFunction {registry : FunctionRegistry} {name : String} {count : Nat}
    {function : FunctionDefinition}
    (called : Evaluation.calledFunction registry name count = .ok function) :
    function ∈ registry.functions := by
  rw [Evaluation.calledFunction] at called
  cases found : registry.find? name with
  | none =>
    rw [found] at called
    cases called
  | some held =>
    rw [found] at called
    cases checked : held.checkCount count with
    | error error =>
      simp only [checked] at called
      cases called
    | ok _ =>
      simp only [checked] at called
      cases called
      exact mem_of_find? found

theorem standard_isPlain : standard.IsPlain := by
  intro function inside
  rcases mem_of_mem_foldl inside with none | listed
  · cases none
  · rcases List.mem_append.1 listed with listed | rounding
    · rcases List.mem_append.1 listed with text | calendar
      · exact TextFunctions.isPlain_of_mem text
      · exact CalendarFunctions.isPlain_of_mem calendar
    · exact RoundingFunctions.isPlain_of_mem rounding

end FunctionRegistry

end EdmQuery
