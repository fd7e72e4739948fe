import EdmQuery.Proofs.Loading
import EdmQuery.Proofs.Refusals

set_option autoImplicit false

namespace EdmQuery

/-- Navigation properties hold instances of the types that they lead to, all the way down. What
other properties hold does not count. -/
inductive ComplexValue.IsAligned (schema : Schema) : ComplexValue → Prop
  | intro {container : ComplexValue} (apart : container.type.NamesApart)
      (own : ∀ binding ∈ container.bindings, binding.property.isNavigation = true →
        container.type.property? binding.name = some binding.property)
      (typed : ∀ binding ∈ container.bindings, binding.property.isNavigation = true →
        ∀ inner ∈ binding.held, schema.target? binding.property = some inner.type)
      (below : ∀ binding ∈ container.bindings, binding.property.isNavigation = true →
        ∀ inner ∈ binding.held, IsAligned schema inner) : IsAligned schema container

theorem PropertyValue.held_attach (owner : ContainerId) (binding : PropertyValue) :
    (binding.attach owner).held =
      binding.held.map (ComplexValue.linked ⟨owner, binding.name⟩) := by
  rw [PropertyValue.held, PropertyValue.held, PropertyValue.attach]
  cases binding.value? with
  | none => rfl
  | some value => exact value.held_adopt _

/-- What a property leads to are aligned entities of its target type. -/
def Schema.LeadsTo (schema : Schema) (property : Property) (found? : Option Value) : Prop :=
  ∀ inner ∈ Value.heldByOption found?,
    schema.target? property = some inner.type ∧ inner.IsAligned schema

/-- What a container's type and the schema ask of one of its bindings. -/
def PropertyValue.IsAligned (schema : Schema) (type : ComplexType) (binding : PropertyValue) :
    Prop :=
  binding.property.isNavigation = true →
    type.property? binding.name = some binding.property ∧
      schema.LeadsTo binding.property binding.value?

/-- An aligned instance of a type. -/
def ComplexValue.IsAlignedOf (schema : Schema) (type : ComplexType) (container : ComplexValue) :
    Prop :=
  container.type = type ∧ container.IsAligned schema

namespace ComplexValue

variable {schema : Schema} {container : ComplexValue}

theorem isAligned_iff : container.IsAligned schema ↔ container.type.NamesApart ∧
    ∀ binding ∈ container.bindings, binding.IsAligned schema container.type := by
  constructor
  · rintro ⟨apart, own, typed, below⟩
    exact ⟨apart, fun binding inside navigation => ⟨own binding inside navigation,
      fun inner held => ⟨typed binding inside navigation inner held,
        below binding inside navigation inner held⟩⟩⟩
  · rintro ⟨apart, each⟩
    exact .intro apart (fun binding inside navigation => (each binding inside navigation).1)
      (fun binding inside navigation inner held =>
        ((each binding inside navigation).2 inner held).1)
      fun binding inside navigation inner held =>
        ((each binding inside navigation).2 inner held).2

theorem IsUnrelated.isAligned (unrelated : container.IsUnrelated)
    (apart : container.type.NamesApart) : container.IsAligned schema := by
  refine isAligned_iff.2 ⟨apart, fun binding inside navigation => ?_⟩
  rw [unrelated binding inside] at navigation
  cases navigation

theorem IsAligned.linked (aligned : container.IsAligned schema) (link : ParentLink) :
    (container.linked link).IsAligned schema := by
  obtain ⟨apart, each⟩ := isAligned_iff.1 aligned
  exact isAligned_iff.2 ⟨apart, each⟩

theorem IsAligned.bind (aligned : container.IsAligned schema) {property : Property}
    {value? : Option Value}
    (fits : (PropertyValue.unattached property value?).IsAligned schema container.type) :
    (container.bind property value?).IsAligned schema := by
  obtain ⟨apart, each⟩ := isAligned_iff.1 aligned
  refine isAligned_iff.2 ⟨apart, fun binding inside => ?_⟩
  rcases Keyed.mem_put _ inside with rfl | old
  · intro navigation
    obtain ⟨own, all⟩ := fits navigation
    refine ⟨own, fun inner held => ?_⟩
    change inner ∈ ((PropertyValue.unattached property value?).attach container.id).held at held
    rw [PropertyValue.held_attach, List.mem_map] at held
    obtain ⟨before, present, rfl⟩ := held
    obtain ⟨typed, below⟩ := all before present
    exact ⟨typed, below.linked _⟩
  · exact each binding old

end ComplexValue

/-- Editing what a binding holds keeps it aligned, where related entities stay aligned entities of
their type. -/
theorem PropertyValue.IsAligned.ensures_editContainers {schema : Schema} {type : ComplexType}
    {fails : Error → Prop} {edit : Edit ComplexValue} {binding : PropertyValue}
    (aligned : binding.IsAligned schema type)
    (related : binding.property.isNavigation = true → ∀ target,
      schema.target? binding.property = some target →
        edit.Keeps fails fun inner => inner.type = target ∧ inner.IsAligned schema)
    (others : binding.property.isNavigation = false → edit.Keeps fails fun _ => True) :
    ((PropertyValue.editContainers edit).toBuild binding).Ensures fails fun changed =>
      changed.IsAligned schema type := by
  cases navigation : binding.property.isNavigation with
  | false =>
    have edited := PropertyValue.keeps_editContainers (others navigation) binding.property binding
      ⟨rfl, fun _ _ => trivial⟩
    refine edited.imp fun changed both leads => ?_
    rw [both.1, navigation] at leads
    cases leads
  | true =>
    obtain ⟨own, all⟩ := aligned navigation
    have kept : edit.Keeps fails fun inner =>
        schema.target? binding.property = some inner.type ∧ inner.IsAligned schema := by
      intro inner both
      refine (related navigation inner.type both.1 inner ⟨rfl, both.2⟩).imp fun changed same => ?_
      exact ⟨same.1 ▸ both.1, same.2⟩
    have edited := PropertyValue.keeps_editContainers kept binding.property binding ⟨rfl, all⟩
    refine edited.imp fun changed both _ => ?_
    rw [PropertyValue.name, both.1]
    exact ⟨own, both.2⟩

namespace Emitter

variable {schema : Schema} {emitter : Emitter} {type : ComplexType} {fails : Error → Prop}

/-- Where the bindings stay aligned, so does what binds them. -/
theorem keeps_editBindings {edit : Edit PropertyValue}
    (each : edit.Keeps fails (PropertyValue.IsAligned schema type)) :
    Edit.Keeps fails (ComplexValue.IsAlignedOf schema type) (ComplexValue.editBindings edit) := by
  refine ComplexValue.keeps_editBindings each (fun container both binding inside => ?_)
    fun container bindings both all => ⟨both.1, ?_⟩
  · exact both.1 ▸ (ComplexValue.isAligned_iff.1 both.2).2 binding inside
  · obtain ⟨rfl, aligned⟩ := both
    exact ComplexValue.isAligned_iff.2 ⟨(ComplexValue.isAligned_iff.1 aligned).1, all⟩

theorem keeps_resolve {resolver : NavigationResolver} (resolves : emitter.resolver? = some resolver)
    {property : Property} {request : NavigationRequest}
    (declared : type.property? property.name = some property)
    (finds : ∀ parent, (resolver parent property request).Ensures fails (schema.LeadsTo property)) :
    Edit.Keeps fails (ComplexValue.IsAlignedOf schema type) (emitter.resolve property request) := by
  rw [resolve, resolves]
  refine .ofBuild fun container both => ?_
  obtain ⟨rfl, aligned⟩ := both
  have bound (value? : Option Value) (all : schema.LeadsTo property value?) :
      (container.set property.name (.ofOption value?)).Ensures fails
        (ComplexValue.IsAlignedOf schema container.type) := by
    rw [ComplexValue.set_declared declared]
    exact .pure ⟨rfl, aligned.bind fun _ => ⟨declared, all⟩⟩
  refine (finds container).bind fun found? all => ?_
  have nothing : ∀ inner ∈ ([] : List ComplexValue),
      schema.target? property = some inner.type ∧ inner.IsAligned schema :=
    fun inner inside => by cases inside
  cases found? with
  | some value => exact bound (some value) all
  | none =>
    dsimp only
    split
    · exact bound (some (.collection [])) nothing
    · exact bound none nothing

theorem keeps_loadPath {resolver : NavigationResolver}
    (resolves : emitter.resolver? = some resolver)
    (finds : ∀ property parent request, (resolver parent property request).Ensures
      (fun _ => True) (schema.LeadsTo property)) (path : List String) :
    Edit.Keeps (fun _ => True) (ComplexValue.IsAlignedOf schema type) (emitter.loadPath path) := by
  induction path generalizing type with
  | nil => exact .skip
  | cons name rest ih =>
    intro container both
    cases found : container.type.property? name with
    | none =>
      have same : emitter.loadPath (name :: rest) container = Edit.skip container :=
        loadPath_undeclared found
      rw [Edit.toBuild_congr same]
      exact .pure both
    | some property =>
      have named : property.name = name := (Keyed.keyOf_of_find? _ found).1
      subst named
      rw [Edit.toBuild_congr (loadPath_declared found)]
      obtain ⟨rfl, aligned⟩ := both
      have binds : Edit.Keeps (fun _ => True) (ComplexValue.IsAlignedOf schema container.type)
          (if property.isNavigation && !container.has property.name then
            emitter.resolve property ⟨property.name, .default⟩ else Edit.skip) := by
        split
        · exact keeps_resolve resolves found fun parent => finds property parent _
        · exact .skip
      have each : Edit.Keeps (fun _ => True) (PropertyValue.IsAligned schema container.type)
          (fun binding => if binding.name = property.name then
            binding.editContainers (emitter.loadPath rest) else pure (binding, .ok ())) := by
        intro binding aligned
        by_cases same : binding.name = property.name
        · have descends := aligned.ensures_editContainers (fun _ target _ => @ih target)
            fun _ => Edit.Keeps.unconstrained
          refine Eq.subst (Edit.toBuild_congr ?_) descends
          exact (if_pos same).symm
        · have skips : (if binding.name = property.name then
              binding.editContainers (emitter.loadPath rest) else pure (binding, .ok ())) =
                Edit.skip binding := if_neg same
          rw [Edit.toBuild_congr skips]
          exact .pure aligned
      refine binds.andThen ?_ container ⟨rfl, aligned⟩
      split
      · exact .skip
      · exact keeps_editBindings each

end Emitter

end EdmQuery
