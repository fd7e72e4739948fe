import EdmQuery.Proofs.Loading

set_option autoImplicit false

namespace EdmQuery.Emitter

variable {emitter : Emitter}

/-- Preparing under a context takes a container to another one. -/
def Prepares (emitter : Emitter) (depth : Nat) (context : RequestContext)
    (before after : ComplexValue) : Prop :=
  ∃ supply rest, emitter.prepareWithin depth context before supply = ((after, .ok ()), rest)

/-- What a binding holds is prepared under its own options, unless it holds related entities that
were not requested. -/
def PreparesBinding (emitter : Emitter) (depth : Nat) (context : RequestContext)
    (before after : PropertyValue) : Prop :=
  if before.property.isNavigation && (context.navigationRequest? before.name).isNone then
    after = before
  else
    ∃ value?, after = { before with value? := value? } ∧
      Value.OptionRelated (emitter.Prepares depth (context.optionsFor before.property))
        before.value? value?

/-- Binding what a request asks for, where it is not bound. -/
inductive Expands (emitter : Emitter) (request : NavigationRequest) (before : ComplexValue) :
    ComplexValue → Prop
  | same (property : Property)
      (declared : before.type.property? request.path = some property)
      (navigation : property.isNavigation = true)
      (bound : before.has request.path = true ∨ emitter.resolver? = none) :
      Expands emitter request before before
  | bound (property : Property) (resolver : NavigationResolver) (found? : Option Value)
      (supply rest : Supply)
      (declared : before.type.property? request.path = some property)
      (navigation : property.isNavigation = true)
      (unbound : before.has request.path = false)
      (resolves : emitter.resolver? = some resolver)
      (found : (resolver before property request).run supply = (.ok found?, rest)) :
      Expands emitter request before (before.bind property (orEmpty property found?))

theorem ComplexType.expandable_eq_ok {type : ComplexType} {path : String}
    {property : Property} (found : type.expandable path = .ok property) :
    type.property? path = some property ∧ property.isNavigation = true := by
  rw [ComplexType.expandable] at found
  cases declared : type.navigationProperty? path with
  | none =>
    rw [declared] at found
    cases found
  | some other =>
    rw [declared] at found
    have same : other = property := by
      dsimp only at found
      split at found
      · exact Except.ok.inj found
      · cases found
    subst same
    rw [ComplexType.navigationProperty?] at declared
    exact Option.filter_eq_some_iff.1 declared

theorem expands_of_expand {request : NavigationRequest} {before after : ComplexValue}
    {supply rest : Supply}
    (done : emitter.expand request before supply = ((after, .ok ()), rest)) :
    emitter.Expands request before after := by
  rw [expand] at done
  cases found : before.type.expandable request.path with
  | error error =>
    rw [found] at done
    cases done
  | ok property =>
    rw [found] at done
    obtain ⟨declared, navigation⟩ := ComplexType.expandable_eq_ok found
    have named : property.name = request.path := (Keyed.keyOf_of_find? _ declared).1
    dsimp only at done
    split at done
    · rename_i bound
      cases done
      exact .same property declared navigation (.inl bound)
    · rename_i unbound
      have own : before.type.property? property.name = some property := by rw [named, declared]
      rcases bound_of_resolve own done with ⟨none, rfl⟩ | ⟨resolver, found?, _, some, found, rfl⟩
      · exact .same property declared navigation (.inr none)
      · exact .bound property resolver found? _ _ declared navigation
          (Bool.eq_false_iff.2 unbound) some found

theorem preparesBinding_of_edit {depth : Nat} {context : RequestContext}
    {before after : PropertyValue} {supply rest : Supply}
    (done : prepareBinding (emitter.prepareWithin depth) context before supply =
      ((after, .ok ()), rest)) : emitter.PreparesBinding depth context before after := by
  rw [prepareBinding] at done
  rw [PreparesBinding]
  split at done
  · rename_i skipped
    rw [if_pos skipped]
    cases done
    rfl
  · rename_i taken
    rw [if_neg taken]
    exact descends_of_editContainers (fun _ _ supply rest ran => ⟨supply, rest, ran⟩) done

/-- The stages of preparing. -/
theorem Prepares.cases {depth : Nat} {context : RequestContext} {before after : ComplexValue}
    (prepares : emitter.Prepares depth context before after) :
    ∃ below computed expanded bindings early middle late rest, depth = below + 1 ∧
      emitter.generate before early = ((computed, .ok ()), middle) ∧
        Edit.inTurn (context.expand.map emitter.expand) computed late =
            ((expanded, .ok ()), rest) ∧
          after = { expanded with bindings := bindings } ∧
            List.Forall₂ (emitter.PreparesBinding below context) expanded.bindings bindings := by
  obtain ⟨supply, rest, done⟩ := prepares
  cases depth with
  | zero => cases done
  | succ below =>
    rw [prepareWithin, List.append_assoc, List.cons_append, List.cons_append,
      List.nil_append] at done
    obtain ⟨computed, middle, generated, later⟩ := Edit.andThen_eq_ok done
    obtain ⟨checked, second, check, remaining⟩ := Edit.andThen_eq_ok later
    have same : checked = computed := congrArg (fun result => result.1.1) check.symm
    subst same
    obtain ⟨expanded, third, expansion, last⟩ := Edit.inTurn_append_eq_ok remaining
    obtain ⟨prepared, final, editing, skipping⟩ := Edit.andThen_eq_ok last
    cases skipping
    have binding : ∀ old new first last, prepareBinding (emitter.prepareWithin below) context old
        first = ((new, .ok ()), last) → emitter.PreparesBinding below context old new :=
      fun _ _ _ _ ran => preparesBinding_of_edit ran
    obtain ⟨bindings, parts, each⟩ := ComplexValue.parts_of_editBindings binding editing
    exact ⟨below, checked, expanded, bindings, supply, middle, second, third, rfl, generated,
      expansion, parts, each⟩

end EdmQuery.Emitter
