import EdmQuery.Proofs.Completion
import EdmQuery.Proofs.Contexts
import EdmQuery.Proofs.ParsedTrees
import EdmQuery.Proofs.StoredOperands
import EdmQuery.Query.ReferencedPaths

set_option autoImplicit false

namespace EdmQuery

/-- The same error, or related results. -/
inductive Evaluated.Related {α : Type} (relation : α → α → Prop) :
    Evaluated α → Evaluated α → Prop
  | ok {first second : α} (related : relation first second) :
    Related relation (.ok first) (.ok second)
  | error (error : EvaluationError) : Related relation (.error error) (.error error)

namespace Evaluated.Related

variable {α β : Type} {relation : α → α → Prop} {first second : Evaluated α}

theorem bind {other : β → β → Prop} {next later : α → Evaluated β}
    (related : Related relation first second)
    (continued : ∀ x y, relation x y → Related other (next x) (later y)) :
    Related other (first >>= next) (second >>= later) := by
  cases related with
  | ok related => exact continued _ _ related
  | error error => exact .error error

theorem imp {other : α → α → Prop} (related : Related relation first second)
    (implied : ∀ x y, relation x y → other x y) : Related other first second := by
  cases related with
  | ok related => exact .ok (implied _ _ related)
  | error error => exact .error error

theorem map_eq {f : α → β} (related : Related (fun x y => f x = f y) first second) :
    first.map f = second.map f := by
  cases related with
  | ok same => exact congrArg Except.ok same
  | error error => rfl

theorem of_eq (reflexive : ∀ x, relation x x) (same : first = second) :
    Related relation first second := by
  subst same
  cases first with
  | ok result => exact .ok (reflexive result)
  | error error => exact .error error

/-- Relations that all tell failures from results hold together. -/
theorem forall_of_each {ι : Type} {each : ι → α → α → Prop} {admitted : ι → Prop} {start : ι}
    (begins : admitted start)
    (related : ∀ index, admitted index → Related (each index) first second) :
    Related (fun x y => ∀ index, admitted index → each index x y) first second := by
  cases related start begins with
  | ok _ =>
    refine .ok fun index inside => ?_
    cases related index inside with
    | ok held => exact held
  | error error => exact .error error

end Evaluated.Related

namespace Operand

/-- Operands from which the same is found along a path. -/
def Alike (path : List String) : Operand → Operand → Prop
  | null, null => True
  | primitive x, primitive y => x = y
  | complex x, complex y => x.Alike path y
  | collection xs, collection ys => Value.AllRelated (ComplexValue.Alike path) xs ys
  | _, _ => False

def SameStored (x y : Operand) : Prop := x.stored = y.stored

theorem alike_of_related {path : List String} {x y : Value}
    (related : Value.Related (ComplexValue.Alike path) x y) :
    Alike path (ofValue x) (ofValue y) := by
  cases related with
  | primitive value => exact rfl
  | complex related => exact related
  | collection related => exact related

theorem alike_of_optionRelated {path : List String} {x? y? : Option Value}
    (related : Value.OptionRelated (ComplexValue.Alike path) x? y?) :
    Alike path (ofOption x?) (ofOption y?) := by
  cases related with
  | some related => exact alike_of_related related
  | none => exact trivial

theorem Alike.sameStored {path : List String} {x y : Operand} (alike : Alike path x y) :
    SameStored x y := by
  cases x <;> cases y <;> try exact False.elim alike
  · rfl
  · exact congrArg primitive alike
  · exact congrArg complex (ComplexValue.Alike.stored_eq alike)
  · rename_i items others
    have kept : Value.AllRelated (fun x y => x.stored = y.stored) items others :=
      Value.AllRelated.imp (fun x y held => held.stored_eq) alike
    have same := kept.erased_eq
    rw [Value.erasedItems_eq_map, Value.erasedItems_eq_map] at same
    exact congrArg collection same

end Operand

namespace Evaluation

theorem member_eq (value : ComplexValue) (name : String) :
    member value name =
      if value.has name || ((value.type.property? name).isSome || value.type.isOpen) then
        .ok (.ofOption (value.value? name))
      else .error (.unknownProperty name value.type.name) := by
  rw [member, ComplexValue.has_eq_isSome, ComplexValue.value?]
  cases value.get? name with
  | none => rfl
  | some binding => rfl

theorem member_alike {name : String} {rest : List String} {first second : ComplexValue}
    (alike : first.Alike (name :: rest) second) :
    Evaluated.Related (Operand.Alike rest) (member first name) (member second name) := by
  obtain ⟨stored, bound, related⟩ := alike
  have types := ComplexValue.type_eq_of_stored stored
  have reached : (first.has name || ((first.type.property? name).isSome || first.type.isOpen)) =
      (second.has name || ((second.type.property? name).isSome || second.type.isOpen)) := by
    rw [← types]
    cases found : first.type.property? name with
    | none => rw [bound found]
    | some property => simp only [Option.isSome_some, Bool.true_or, Bool.or_true]
  rw [member_eq, member_eq, reached, types]
  split
  · exact .ok (Operand.alike_of_optionRelated related)
  · exact .error _

theorem navigate_alike {path rest : List String} {x y : Operand}
    (alike : Operand.Alike (path ++ rest) x y) :
    Evaluated.Related (Operand.Alike rest) (navigate x path) (navigate y path) := by
  induction path generalizing x y with
  | nil =>
    rw [navigate, navigate]
    exact .ok alike
  | cons name others ih =>
    cases x <;> cases y <;> try exact False.elim alike
    · exact .ok trivial
    · rename_i value other
      have same : value = other := alike
      subst same
      exact .error _
    · exact (member_alike alike).bind fun _ _ found => ih found
    · exact .error _

/-- What is read from an operand without looking into containers is the same. -/
theorem eq_of_sameStored {α : Type} {read : Operand → Evaluated α}
    (plain : ∀ operand, read operand.stored = read operand) {x y : Operand}
    (same : Operand.SameStored x y) : read x = read y := by
  rw [← plain x, same, plain y]

end Evaluation

/-- Two contexts agree along the covered paths, given the paths of the variables in scope. -/
structure EvaluationContext.Agree (covered : List String → Prop) (scope : Node.PathScope)
    (first second : EvaluationContext) : Prop where
  now : first.now = second.now
  nesting : first.nesting = second.nesting
  current : ∀ path, covered path → first.current.Alike path second.current
  unbound : ∀ name, scope.lookup name = none →
    first.lookup? name = none ∧ second.lookup? name = none
  bound : ∀ name base, scope.lookup name = some base →
    ∃ x y, first.lookup? name = some x ∧ second.lookup? name = some y ∧
      ∀ rest, covered (base.segments ++ rest) → Operand.Alike rest x y

namespace EvaluationContext.Agree

variable {covered : List String → Prop} {scope : Node.PathScope}
  {first second : EvaluationContext}

theorem deepened (agree : Agree covered scope first second) :
    Agree covered scope first.deepened second.deepened :=
  ⟨agree.now, congrArg (· + 1) agree.nesting, agree.current, agree.unbound, agree.bound⟩

theorem bind (agree : Agree covered scope first second) (name : String) {base : PropertyPath}
    {x y : Operand} (alike : ∀ rest, covered (base.segments ++ rest) → Operand.Alike rest x y) :
    Agree covered ((name, base) :: scope) (first.bind name x) (second.bind name y) := by
  refine ⟨agree.now, agree.nesting, agree.current, ?_, ?_⟩
  · intro wanted missing
    rw [List.lookup_cons] at missing
    rw [lookup?, lookup?, EvaluationContext.bind, EvaluationContext.bind, List.lookup_cons,
      List.lookup_cons]
    cases found : wanted == name with
    | true =>
      rw [found] at missing
      cases missing
    | false =>
      rw [found] at missing
      exact agree.unbound wanted missing
  · intro wanted path given
    rw [List.lookup_cons] at given
    rw [lookup?, lookup?, EvaluationContext.bind, EvaluationContext.bind, List.lookup_cons,
      List.lookup_cons]
    cases found : wanted == name with
    | true =>
      rw [found] at given
      cases given
      exact ⟨x, y, rfl, rfl, alike⟩
    | false =>
      rw [found] at given
      exact agree.bound wanted path given

/-- Going deeper fails in both contexts or in none. -/
theorem deeper {α : Type} {relation : α → α → Prop} {step later : Evaluation α}
    (agree : Agree covered scope first second)
    (related : Evaluated.Related relation (step.value first.deepened)
      (later.value second.deepened)) :
    Evaluated.Related relation ((Evaluation.deeper step).value first)
      ((Evaluation.deeper later).value second) := by
  rw [Evaluation.value_deeper, Evaluation.value_deeper, agree.nesting]
  split
  · exact .error _
  · exact related

end EvaluationContext.Agree

namespace Evaluation

theorem forall₂_of_allRelated (each : List String → ComplexValue → ComplexValue → Prop)
    (admitted : List String → Prop) {start : List String} (begins : admitted start)
    {items others : List Value}
    (related : ∀ rest, admitted rest → Value.AllRelated (each rest) items others) :
    List.Forall₂ (fun x y => ∀ rest, admitted rest → Value.Related (each rest) x y)
      items others := by
  induction items generalizing others with
  | nil =>
    cases related start begins
    exact .nil
  | cons item items ih =>
    cases others with
    | nil => cases related start begins
    | cons other others =>
      refine .cons (fun rest inside => ?_) (ih fun rest inside => ?_)
      · cases related rest inside with
        | cons first later => exact first
      · cases related rest inside with
        | cons first later => exact later

section

variable {first second : EvaluationContext}

/-- What follows an evaluation sees nothing of the contexts but through its own. -/
theorem related_bind {α β : Type} {relation : α → α → Prop} {other : β → β → Prop}
    {step : Evaluation α} {next later : α → Evaluation β} (keeps : step.Keeps)
    (related : Evaluated.Related relation (step.value first) (step.value second))
    (continued : ∀ x y, relation x y →
      Evaluated.Related other ((next x).value first) ((later y).value second)) :
    Evaluated.Related other ((step >>= next).value first) ((step >>= later).value second) := by
  rw [value_bind keeps, value_bind keeps]
  exact related.bind continued

/-- What is computed without a context is the same, or fails in the same way. -/
theorem related_done {α β : Type} {other : β → β → Prop} {next : α → Evaluation β}
    {computed again : Evaluated α} (same : computed = again)
    (continued : ∀ result, computed = .ok result →
      Evaluated.Related other ((next result).value first) ((next result).value second)) :
    Evaluated.Related other ((done computed >>= next).value first)
      ((done again >>= next).value second) := by
  subst same
  rw [value_bind (keeps_done _), value_bind (keeps_done _), value_done, value_done]
  cases computed with
  | error error => exact .error error
  | ok result => exact continued result rfl

theorem related_quantify {pairs : Value → Value → Prop} {predicate : Evaluation Operand}
    (keeps : predicate.Keeps) (operator : LambdaOperator) {parameter : String}
    (body : ∀ x y, pairs x y → Evaluated.Related Operand.SameStored
      (predicate.value (first.bind parameter (.ofValue x)))
      (predicate.value (second.bind parameter (.ofValue y))))
    {items others : List Value} (related : List.Forall₂ pairs items others) (unknown : Bool) :
    Evaluated.Related Operand.SameStored
      ((quantify operator parameter predicate unknown items).value first)
      ((quantify operator parameter predicate unknown others).value second) := by
  induction related generalizing unknown with
  | nil =>
    rw [value_quantify_nil, value_quantify_nil]
    exact .ok rfl
  | @cons item other items others paired _ ih =>
    rw [value_quantify_cons keeps, value_quantify_cons keeps]
    refine (body item other paired).bind fun x y same => ?_
    rw [eq_of_sameStored (Operand.truth_stored operator.keyword) same]
    cases y.truth operator.keyword with
    | error error => exact .error error
    | ok truth =>
      cases truth with
      | none => exact ih true
      | some decided =>
        show Evaluated.Related _ (if decided = undecided operator then _ else _)
          (if decided = undecided operator then _ else _)
        split
        · exact ih unknown
        · exact .ok rfl

variable {left right : Evaluation Operand}
  (firstKeeps : left.Keeps) (secondKeeps : right.Keeps)
  (firstRelated : Evaluated.Related Operand.SameStored (left.value first) (left.value second))
  (secondRelated : Evaluated.Related Operand.SameStored (right.value first) (right.value second))

include firstKeeps secondKeeps firstRelated secondRelated

theorem related_connect (keyword : String) (deciding : Bool)
    (combine : Option Bool → Option Bool → Option Bool) :
    Evaluated.Related Operand.SameStored
      ((connect keyword deciding combine left right).value first)
      ((connect keyword deciding combine left right).value second) := by
  rw [value_connect firstKeeps secondKeeps, value_connect firstKeeps secondKeeps]
  refine firstRelated.bind fun x y same => ?_
  rw [eq_of_sameStored (Operand.truth_stored keyword) same]
  cases y.truth keyword with
  | error error => exact .error error
  | ok truth =>
    show Evaluated.Related _ (if truth = some deciding then _ else _)
      (if truth = some deciding then _ else _)
    split
    · exact .ok rfl
    · refine secondRelated.bind fun x y same => ?_
      rw [eq_of_sameStored (Operand.truth_stored keyword) same]
      exact .of_eq (fun _ => rfl) rfl

theorem related_binary (operator : BinaryOperator) :
    Evaluated.Related Operand.SameStored ((binary operator left right).value first)
      ((binary operator left right).value second) := by
  have both : ∀ combine : Operand → Operand → Evaluated Operand,
      (∀ x y, combine x.stored y.stored = combine x y) →
        Evaluated.Related Operand.SameStored
          ((left >>= fun x => right >>= fun y => done (combine x y)).value first)
          ((left >>= fun x => right >>= fun y => done (combine x y)).value second) := by
    intro combine plain
    refine related_bind firstKeeps firstRelated fun x u same => ?_
    refine related_bind secondKeeps secondRelated fun y v equal => ?_
    rw [value_done, value_done]
    refine .of_eq (fun _ => rfl) ?_
    rw [← plain x y, same, equal, plain u v]
  unfold binary
  split
  · exact related_connect firstKeeps secondKeeps firstRelated secondRelated _ _ _
  · exact related_connect firstKeeps secondKeeps firstRelated secondRelated _ _ _
  · exact both _ Comparison.isMember_stored
  · split
    · exact both _ (Comparison.compare_stored operator)
    · exact both _ (Arithmetic.apply_stored operator)

end

end Evaluation

end EdmQuery
