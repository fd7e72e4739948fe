import EdmQuery.Emission.Preparation
import EdmQuery.Proofs.Related
import EdmQuery.Proofs.Runs

set_option autoImplicit false

namespace EdmQuery

/-- The answers depend on what the parent holds by itself, up to identities, and not on which
navigation properties are bound in it. -/
def NavigationResolver.IsSteady (resolver : NavigationResolver) : Prop :=
  ∀ (first second : ComplexValue) (property : Property) (request : NavigationRequest)
    (early late : Supply), first.stored = second.stored →
      ((resolver first property request).run early).1.map (Option.map Value.anonymous) =
        ((resolver second property request).run late).1.map (Option.map Value.anonymous)

namespace Emitter

def IsSteady (emitter : Emitter) : Prop :=
  ∀ resolver, emitter.resolver? = some resolver → resolver.IsSteady

/-- Binds the navigation properties along several paths, one path after the other. -/
def loadPaths (emitter : Emitter) (paths : List PropertyPath) : Edit ComplexValue :=
  Edit.inTurn (paths.map fun path => emitter.loadPath path.segments)

/-- Whether a property is bound where a path leads through it. -/
def follows (emitter : Emitter) (property : Property) : Bool :=
  property.isNavigation && emitter.resolver?.isSome

/-- No related entity is an empty collection, or null. -/
def orEmpty (property : Property) : Option Value → Option Value
  | none =>
    if property.kind.navigation?.any (·.isCollection) then some (.collection []) else none
  | some value => some value

/-- What a navigation property is bound to. -/
def answer (emitter : Emitter) (property : Property) (container : ComplexValue)
    (supply : Supply) : Result (Option Value) :=
  match emitter.resolver? with
  | none => .ok none
  | some resolver =>
    ((resolver container property ⟨property.name, .default⟩).run supply).1.map (orEmpty property)

/-- What is found under a declared name once the path through it is loaded. -/
def fetch (emitter : Emitter) (property : Property) (container : ComplexValue) :
    Result (Option Value) :=
  if emitter.follows property && !container.has property.name then
    (emitter.answer property container ⟨0⟩).map (Option.map (Value.adopt ⟨⟨0⟩, property.name⟩))
  else .ok (container.value? property.name)

/-- The first step of loading a path: one property is bound, if the path leads through it. -/
def Binds (emitter : Emitter) (property : Property) (before after : ComplexValue) : Prop :=
  if emitter.follows property && !before.has property.name then
    ∃ supply value?, emitter.answer property before supply = .ok value? ∧
      after = before.bind property value?
  else after = before

/-- Loading a path takes a container to another one. -/
def Loads (emitter : Emitter) (path : List String) (before after : ComplexValue) : Prop :=
  ∃ supply rest, emitter.loadPath path before supply = ((after, .ok ()), rest)

end Emitter

/-- The containers under one name change by a relation, and nothing else does. -/
def PropertyValue.Descends (name : String) (relation : ComplexValue → ComplexValue → Prop)
    (before after : PropertyValue) : Prop :=
  if before.name = name then
    ∃ value?, after = { before with value? := value? } ∧
      Value.OptionRelated relation before.value? value?
  else after = before

def ComplexValue.Descends (name : String) (relation : ComplexValue → ComplexValue → Prop)
    (before after : ComplexValue) : Prop :=
  ∃ bindings, after = { before with bindings := bindings } ∧
    List.Forall₂ (PropertyValue.Descends name relation) before.bindings bindings

theorem ComplexValue.set_declared {container : ComplexValue} {property : Property}
    (declared : container.type.property? property.name = some property) (value? : Option Value) :
    container.set property.name (.ofOption value?) = pure (container.bind property value?) := by
  rw [set, propertyFor, declared]
  cases value? <;> rfl

theorem ComplexValue.descends_self {relation : ComplexValue → ComplexValue → Prop}
    (container : ComplexValue) (name : String)
    (reflexive : ∀ container, relation container container) :
    container.Descends name relation container := by
  refine ⟨container.bindings, by cases container; rfl, List.forall₂_same.2 fun binding _ => ?_⟩
  rw [PropertyValue.Descends]
  by_cases named : binding.name = name
  · rw [if_pos named]
    refine ⟨binding.value?, by cases binding; rfl, ?_⟩
    cases binding.value? with
    | none => exact .none
    | some value => exact .some (.refl reflexive value)
  · rw [if_neg named]

namespace Emitter

variable {emitter : Emitter}

/-- Resolving a declared property changes nothing without a resolver, and binds what the resolver
answers otherwise. -/
theorem bound_of_resolve {property : Property} {request : NavigationRequest}
    {before after : ComplexValue} {supply rest : Supply}
    (declared : before.type.property? property.name = some property)
    (done : emitter.resolve property request before supply = ((after, .ok ()), rest)) :
    (emitter.resolver? = none ∧ after = before) ∨
      ∃ resolver found? middle, emitter.resolver? = some resolver ∧
        (resolver before property request).run supply = (.ok found?, middle) ∧
          after = before.bind property (orEmpty property found?) := by
  rw [resolve] at done
  cases resolving : emitter.resolver? with
  | none =>
    rw [resolving] at done
    cases done
    exact .inl ⟨rfl, rfl⟩
  | some resolver =>
    rw [resolving] at done
    obtain ⟨found?, middle, found, set⟩ := Build.bind_eq_ok (Edit.run_of_ofBuild done)
    have chosen : (before.set property.name (.ofOption (orEmpty property found?))).run middle =
        (.ok after, rest) := by
      cases found? with
      | none =>
        by_cases several : property.kind.navigation?.any (·.isCollection) = true
        · simp only [orEmpty, if_pos several] at set ⊢
          exact set
        · simp only [orEmpty, if_neg several] at set ⊢
          exact set
      | some value => exact set
    rw [ComplexValue.set_declared declared] at chosen
    cases chosen
    exact .inr ⟨resolver, found?, _, rfl, found, rfl⟩

theorem binds_of_resolve {property : Property} {before after : ComplexValue}
    {supply rest : Supply} (declared : before.type.property? property.name = some property)
    (done : (if property.isNavigation && !before.has property.name then
      emitter.resolve property ⟨property.name, .default⟩ else Edit.skip) before supply =
        ((after, .ok ()), rest)) : emitter.Binds property before after := by
  rw [Binds, follows]
  split at done
  · rename_i open_
    rcases bound_of_resolve declared done with ⟨none, rfl⟩ | ⟨resolver, found?, _, some, found, rfl⟩
    · simp only [none, Option.isSome_none, Bool.and_false, Bool.false_and, Bool.false_eq_true,
        if_false]
    · rw [some, Option.isSome_some, Bool.and_true, if_pos open_]
      refine ⟨supply, orEmpty property found?, ?_, rfl⟩
      rw [answer, some]
      simp only [found, Except.map]
  · rename_i closed
    cases done
    have unbound : ¬ (property.isNavigation && emitter.resolver?.isSome &&
        !before.has property.name) = true := by
      rw [Bool.and_right_comm, Bool.and_eq_true]
      exact fun both => closed both.1
    rw [if_neg unbound]

theorem descends_of_editContainers {relation : ComplexValue → ComplexValue → Prop}
    {edit : Edit ComplexValue} {before after : PropertyValue} {supply rest : Supply}
    (edited : ∀ before after supply rest, edit before supply = ((after, .ok ()), rest) →
      relation before after)
    (done : before.editContainers edit supply = ((after, .ok ()), rest)) :
    ∃ value?, after = { before with value? := value? } ∧
      Value.OptionRelated relation before.value? value? := by
  cases held : before.value? with
  | none =>
    simp only [PropertyValue.editContainers, held] at done
    cases done
    exact ⟨none, by cases before; cases held; rfl, .none⟩
  | some value =>
    rcases ran : value.editContainers edit supply with ⟨⟨changed, outcome⟩, middle⟩
    simp only [PropertyValue.editContainers, held, bind, StateT.bind, ran] at done
    cases done
    exact ⟨some changed, rfl, .some (Value.related_of_editContainers edited ran)⟩

theorem descends_of_edit {name : String} {relation : ComplexValue → ComplexValue → Prop}
    {edit : Edit ComplexValue} {before after : ComplexValue} {supply rest : Supply}
    (edited : ∀ before after supply rest, edit before supply = ((after, .ok ()), rest) →
      relation before after)
    (done : ComplexValue.editBindings (fun binding =>
      if binding.name = name then binding.editContainers edit else pure (binding, .ok ()))
        before supply = ((after, .ok ()), rest)) : before.Descends name relation after := by
  refine ComplexValue.parts_of_editBindings ?_ done
  intro before after supply rest changed
  rw [PropertyValue.Descends]
  by_cases named : before.name = name
  · rw [if_pos named] at changed ⊢
    exact descends_of_editContainers edited changed
  · rw [if_neg named] at changed ⊢
    cases changed
    rfl

theorem loadPath_undeclared {name : String} {rest : List String} {container : ComplexValue}
    (undeclared : container.type.property? name = none) :
    emitter.loadPath (name :: rest) container = pure (container, .ok ()) := by
  simp only [loadPath, undeclared]

theorem loadPath_declared {property : Property} {rest : List String} {container : ComplexValue}
    (declared : container.type.property? property.name = some property) :
    emitter.loadPath (property.name :: rest) container =
      Edit.andThen (if property.isNavigation && !container.has property.name then
          emitter.resolve property ⟨property.name, .default⟩ else Edit.skip)
        (if rest.isEmpty then Edit.skip
          else ComplexValue.editBindings fun binding =>
            if binding.name = property.name then binding.editContainers (emitter.loadPath rest)
            else pure (binding, .ok ())) container := by
  simp only [loadPath, declared]

theorem Loads.cases {name : String} {rest : List String} {before after : ComplexValue}
    (loads : emitter.Loads (name :: rest) before after) :
    (before.type.property? name = none ∧ after = before) ∨
      ∃ property bound, before.type.property? name = some property ∧ property.name = name ∧
        emitter.Binds property before bound ∧ bound.Descends name (emitter.Loads rest) after := by
  obtain ⟨supply, left, done⟩ := loads
  cases found : before.type.property? name with
  | none =>
    rw [loadPath_undeclared found] at done
    cases done
    exact .inl ⟨rfl, rfl⟩
  | some property =>
    have named : property.name = name := (Keyed.keyOf_of_find? _ found).1
    subst named
    rw [loadPath_declared found] at done
    obtain ⟨bound, middle, binding, descending⟩ := Edit.andThen_eq_ok done
    refine .inr ⟨property, bound, rfl, rfl, binds_of_resolve found binding, ?_⟩
    split at descending
    · rename_i ended
      cases descending
      rw [List.isEmpty_iff] at ended
      subst ended
      exact after.descends_self property.name fun container => ⟨⟨0⟩, ⟨0⟩, rfl⟩
    · exact descends_of_edit (fun _ _ _ _ ran => ⟨_, _, ran⟩) descending

end Emitter

namespace ComplexValue

theorem has_eq_isSome (container : ComplexValue) (name : String) :
    container.has name = (container.get? name).isSome :=
  Keyed.contains_eq_isSome PropertyValue.name name container.bindings

theorem get?_bind (container : ComplexValue) (property : Property) (value? : Option Value)
    (name : String) : (container.bind property value?).get? name =
      if property.name = name then
        some ((PropertyValue.unattached property value?).attach container.id)
      else container.get? name :=
  Keyed.find?_put PropertyValue.name name _ container.bindings

theorem stored_bind {container : ComplexValue} {property : Property} (value? : Option Value)
    (navigation : property.isNavigation = true) (open_ : container.has property.name = false) :
    (container.bind property value?).stored = container.stored := by
  have absent : property.name ∉ container.bindings.map PropertyValue.name := by
    intro inside
    rw [has, (Keyed.contains_iff PropertyValue.name _ _).2 inside] at open_
    cases open_
  have appended := Keyed.put_of_not_mem PropertyValue.name
    ((PropertyValue.unattached property value?).attach container.id) container.bindings absent
  have dropped : (!((PropertyValue.unattached property value?).attach
      container.id).property.isNavigation) = false := by
    show (!property.isNavigation) = false
    rw [navigation]
    rfl
  rw [stored, stored, erased_eq, erased_eq, bind, appended, List.filter_append,
    List.filter_cons, dropped]
  simp only [Bool.false_eq_true, if_false, List.filter_nil, List.append_nil]

end ComplexValue

namespace Emitter.Binds

variable {emitter : Emitter} {property : Property} {before after : ComplexValue}

theorem eq_or_bind (binds : emitter.Binds property before after) :
    ((emitter.follows property = true → before.has property.name = true) ∧ after = before) ∨
      (emitter.follows property = true ∧ before.has property.name = false ∧
        ∃ supply value?, emitter.answer property before supply = .ok value? ∧
          after = before.bind property value?) := by
  rw [Binds] at binds
  cases follows : emitter.follows property with
  | false =>
    rw [follows] at binds
    exact .inl ⟨fun absurd => (by cases absurd), binds⟩
  | true =>
    cases held : before.has property.name with
    | true =>
      rw [follows, held] at binds
      exact .inl ⟨fun _ => rfl, binds⟩
    | false =>
      rw [follows, held] at binds
      exact .inr ⟨rfl, rfl, binds⟩

theorem stored_eq (binds : emitter.Binds property before after) :
    after.stored = before.stored := by
  rcases binds.eq_or_bind with ⟨-, rfl⟩ | ⟨follows, open_, supply, value?, -, rfl⟩
  · rfl
  · rw [Emitter.follows, Bool.and_eq_true] at follows
    exact ComplexValue.stored_bind value? follows.1 open_

theorem get?_eq (binds : emitter.Binds property before after) {name : String}
    (other : property.name ≠ name) : after.get? name = before.get? name := by
  rcases binds.eq_or_bind with ⟨-, rfl⟩ | ⟨-, -, supply, value?, -, rfl⟩
  · rfl
  · rw [ComplexValue.get?_bind, if_neg other]

theorem has_of_follows (binds : emitter.Binds property before after)
    (follows : emitter.follows property = true) : after.has property.name = true := by
  rcases binds.eq_or_bind with ⟨held, rfl⟩ | ⟨-, -, supply, value?, -, rfl⟩
  · exact held follows
  · rw [ComplexValue.has_eq_isSome, ComplexValue.get?_bind, if_pos rfl]
    rfl

/-- A property that is bound, or that no path leads through, stays as it is. -/
theorem eq_self (binds : emitter.Binds property before after)
    (held : emitter.follows property = true → before.has property.name = true) :
    after = before := by
  rcases binds.eq_or_bind with ⟨-, rfl⟩ | ⟨follows, open_, -⟩
  · rfl
  · rw [held follows] at open_
    cases open_

end Emitter.Binds

namespace PropertyValue.Descends

variable {name : String} {relation : ComplexValue → ComplexValue → Prop}
  {before after : PropertyValue}

theorem property_eq (descends : before.Descends name relation after) :
    after.property = before.property := by
  rw [PropertyValue.Descends] at descends
  split at descends
  · obtain ⟨value?, rfl, -⟩ := descends
    rfl
  · rw [descends]

theorem erased_eq {keeps : Property → Bool} (descends : before.Descends name relation after)
    (keeping : ∀ x y, relation x y → x.erased keeps = y.erased keeps) :
    before.erased keeps = after.erased keeps := by
  rw [PropertyValue.Descends] at descends
  split at descends
  · obtain ⟨value?, rfl, related⟩ := descends
    rw [PropertyValue.erased_eq, PropertyValue.erased_eq, (related.imp keeping).erased_eq]
  · rw [descends]

end PropertyValue.Descends

namespace ComplexValue.Descends

variable {name : String} {relation : ComplexValue → ComplexValue → Prop}
  {before after : ComplexValue}

/-- The bindings that are found under any name, before and after. -/
theorem get?_related (descends : before.Descends name relation after) (wanted : String) :
    Option.Rel (PropertyValue.Descends name relation) (before.get? wanted) (after.get? wanted) := by
  obtain ⟨bindings, rfl, held⟩ := descends
  show Option.Rel _ (Keyed.find? PropertyValue.name wanted before.bindings)
    (Keyed.find? PropertyValue.name wanted bindings)
  generalize before.bindings = olds at held
  induction held with
  | nil => exact .none
  | @cons first second rest others changed _ ih =>
    have named : second.name = first.name := congrArg Property.name changed.property_eq
    rw [Keyed.find?_cons, Keyed.find?_cons, named]
    by_cases found : first.name = wanted
    · rw [if_pos found, if_pos found]
      exact .some changed
    · rw [if_neg found, if_neg found]
      exact ih

theorem has_eq (descends : before.Descends name relation after) (wanted : String) :
    after.has wanted = before.has wanted := by
  have related := descends.get?_related wanted
  rw [has_eq_isSome, has_eq_isSome]
  generalize before.get? wanted = first at related
  generalize after.get? wanted = second at related
  cases related <;> rfl

theorem get?_eq (descends : before.Descends name relation after) {wanted : String}
    (other : name ≠ wanted) : after.get? wanted = before.get? wanted := by
  have related := descends.get?_related wanted
  rcases found : before.get? wanted with _ | binding
  · rw [found] at related
    cases later : after.get? wanted with
    | none => rfl
    | some changed =>
      rw [later] at related
      cases related
  · have named : binding.name = wanted := (Keyed.keyOf_of_find? _ found).1
    rw [found] at related
    cases later : after.get? wanted with
    | none =>
      rw [later] at related
      cases related
    | some changed =>
      rw [later] at related
      cases related with
      | some same =>
        rw [PropertyValue.Descends, if_neg (named ▸ fun equal => other equal.symm)] at same
        rw [same]

theorem value?_related (descends : before.Descends name relation after) :
    Value.OptionRelated relation (before.value? name) (after.value? name) := by
  have related := descends.get?_related name
  rw [value?, value?]
  rcases found : before.get? name with _ | binding
  · rw [found] at related
    cases later : after.get? name with
    | none => exact .none
    | some changed =>
      rw [later] at related
      cases related
  · have named : binding.name = name := (Keyed.keyOf_of_find? _ found).1
    rw [found] at related
    cases later : after.get? name with
    | none =>
      rw [later] at related
      cases related
    | some changed =>
      rw [later] at related
      cases related with
      | some same =>
        rw [PropertyValue.Descends, if_pos named] at same
        obtain ⟨value?, rfl, values⟩ := same
        exact values

theorem erased_eq {keeps : Property → Bool} (descends : before.Descends name relation after)
    (keeping : ∀ x y, relation x y → x.erased keeps = y.erased keeps) :
    before.erased keeps = after.erased keeps := by
  obtain ⟨bindings, rfl, held⟩ := descends
  have same : erasedBindings keeps before.bindings = erasedBindings keeps bindings := by
    generalize before.bindings = olds at held
    induction held with
    | nil => rfl
    | cons changed _ ih =>
      rw [erasedBindings, erasedBindings, changed.property_eq, changed.erased_eq keeping, ih]
  rw [erasedBindings_eq, erasedBindings_eq] at same
  rw [ComplexValue.erased_eq, ComplexValue.erased_eq, same]

end ComplexValue.Descends

namespace Emitter.Loads

variable {emitter : Emitter} {path : List String} {before after : ComplexValue}

theorem cases_declared {property : Property} {rest : List String}
    (loads : emitter.Loads (property.name :: rest) before after)
    (declared : before.type.property? property.name = some property) :
    ∃ bound, emitter.Binds property before bound ∧
      bound.Descends property.name (emitter.Loads rest) after := by
  rcases loads.cases with ⟨undeclared, -⟩ | ⟨other, bound, found, -, binds, descends⟩
  · rw [declared] at undeclared
    cases undeclared
  · rw [declared] at found
    cases found
    exact ⟨bound, binds, descends⟩

/-- Nothing changes under a name that does not begin the path, or that is not declared. -/
theorem get?_eq {name : String} (loads : emitter.Loads path before after)
    (other : path.head? = some name → before.type.property? name = none) :
    after.get? name = before.get? name := by
  cases path with
  | nil =>
    obtain ⟨supply, rest, done⟩ := loads
    cases done
    rfl
  | cons first rest =>
    rcases loads.cases with ⟨-, rfl⟩ | ⟨property, bound, declared, rfl, binds, descends⟩
    · rfl
    · have different : property.name ≠ name := by
        rintro rfl
        rw [other rfl] at declared
        cases declared
      rw [descends.get?_eq different, binds.get?_eq different]

/-- Loading a path keeps what the container holds by itself. -/
theorem stored_eq (loads : emitter.Loads path before after) : before.stored = after.stored := by
  induction path generalizing before after with
  | nil =>
    obtain ⟨supply, rest, done⟩ := loads
    cases done
    rfl
  | cons name rest ih =>
    rcases loads.cases with ⟨-, rfl⟩ | ⟨property, bound, -, -, binds, descends⟩
    · rfl
    · rw [← binds.stored_eq]
      exact descends.erased_eq fun x y inner => ih inner

end Emitter.Loads

end EdmQuery
