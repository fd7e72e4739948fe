import EdmQuery.Proofs.Registration

set_option autoImplicit false

namespace EdmQuery.SchemaBuilder

/-- The navigation property leads to a registered type, and into a registered entity set. -/
def Resolves (builder : SchemaBuilder) (binding : NavigationBinding) : Prop :=
  ∃ target, builder.type? binding.targetType = some target ∧
    ∀ name, binding.targetSet? = some name → ∃ set, builder.entitySet? name = some set

theorem checkNavigation_eq_ok {builder : SchemaBuilder} {binding : NavigationBinding} :
    builder.checkNavigation binding = .ok () ↔ builder.Resolves binding := by
  rw [checkNavigation, Resolves]
  cases known : builder.type? binding.targetType with
  | none =>
    refine ⟨fun done => (by cases done), ?_⟩
    rintro ⟨target, found, -⟩
    cases found
  | some target =>
    simp only [Option.isNone_some, Bool.false_eq_true, if_false, Option.some.injEq,
      exists_eq_left']
    cases binding.targetSet? with
    | none => exact ⟨fun _ name named => (by cases named), fun _ => rfl⟩
    | some name =>
      cases registered : builder.entitySet? name with
      | none =>
        refine ⟨fun done => (by simp [registered] at done), fun all => ?_⟩
        obtain ⟨set, found⟩ := all name rfl
        rw [registered] at found
        cases found
      | some set =>
        refine ⟨fun _ other named => ?_, fun _ => by simp [registered]⟩
        cases named
        exact ⟨set, registered⟩

theorem mem_navigations {builder : SchemaBuilder} {binding : NavigationBinding} :
    binding ∈ builder.navigations ↔ ∃ type ∈ builder.types, ∃ property ∈ type.properties,
      property.kind.navigation? = some binding := by
  simp only [navigations, List.mem_flatMap, List.mem_filterMap]

theorem forM_eq_ok {α : Type} {check : α → Result Unit} {items : List α} :
    items.forM check = .ok () ↔ ∀ item ∈ items, check item = .ok () := by
  induction items with
  | nil => exact ⟨fun _ _ inside => (by cases inside), fun _ => rfl⟩
  | cons item rest ih =>
    have step : (item :: rest).forM check = (check item >>= fun _ => rest.forM check) := rfl
    rw [step, List.forall_mem_cons, ← ih]
    cases check item with
    | error error =>
      refine ⟨fun done => (by cases done), fun both => ?_⟩
      cases both.1
    | ok done => exact ⟨fun later => ⟨rfl, later⟩, fun both => both.2⟩

/-- A builder gives a schema exactly if all its navigation properties lead to registered types and
into registered entity sets. -/
theorem build_eq_ok {builder : SchemaBuilder} {schema : Schema} : builder.build = .ok schema ↔
    schema = ⟨builder⟩ ∧ ∀ binding ∈ builder.navigations, builder.Resolves binding := by
  have checks : builder.navigations.forM builder.checkNavigation = .ok () ↔
      ∀ binding ∈ builder.navigations, builder.Resolves binding := by
    rw [forM_eq_ok]
    exact forall₂_congr fun _ _ => checkNavigation_eq_ok
  rw [build, ← checks]
  cases builder.navigations.forM builder.checkNavigation with
  | error error =>
    refine ⟨fun done => (by cases done), fun both => ?_⟩
    cases both.2
  | ok _ => exact ⟨fun done => ⟨(Except.ok.inj done).symm, rfl⟩, fun both => by rw [both.1]; rfl⟩

/-- The navigation property leads to an entity type, and into an entity set of that type. -/
def LeadsToEntities (builder : SchemaBuilder) (binding : NavigationBinding) : Prop :=
  ∃ target, builder.type? binding.targetType = some target ∧ target.isEntity = true ∧
    ∀ name, binding.targetSet? = some name →
      ∃ set, builder.entitySet? name = some set ∧ set.type = target

/-- The navigation property leads to a type without a key, or into an entity set of another type. -/
def Misleads (builder : SchemaBuilder) (binding : NavigationBinding) : Prop :=
  ∃ target, builder.type? binding.targetType = some target ∧ (target.isEntity = false ∨
    ∃ name set, binding.targetSet? = some name ∧ builder.entitySet? name = some set ∧
      set.type ≠ target)

theorem Resolves.leadsToEntities_iff {builder : SchemaBuilder} {binding : NavigationBinding}
    (resolves : builder.Resolves binding) :
    builder.LeadsToEntities binding ↔ ¬ builder.Misleads binding := by
  obtain ⟨target, known, registered⟩ := resolves
  constructor
  · rintro ⟨entity, found, isEntity, sets⟩ ⟨other, found', wrong⟩
    cases found.symm.trans found'
    rcases wrong with complex | ⟨name, set, named, into, different⟩
    · cases isEntity.symm.trans complex
    · obtain ⟨own, into', same⟩ := sets name named
      cases into.symm.trans into'
      exact different same
  · intro right
    refine ⟨target, known, ?_, fun name named => ?_⟩
    · cases isEntity : target.isEntity with
      | true => rfl
      | false => exact absurd ⟨target, known, .inl isEntity⟩ right
    · obtain ⟨set, into⟩ := registered name named
      by_cases same : set.type = target
      · exact ⟨set, into, same⟩
      · exact absurd ⟨target, known, .inr ⟨name, set, named, into, same⟩⟩ right

/-- However a builder was called, a schema that it gives refers to what is registered: entity sets
are of sealed entity types that are found under their names, annotations are those of its elements,
and navigation properties lead to registered types and into registered entity sets. They lead to
entities of the type of their set exactly if none leads to a type without a key, or into a set of
another type. -/
theorem build_resolves (namespaceName : String) (calls : List Registration) {schema : Schema}
    (done : ((empty namespaceName).after calls).build = .ok schema) :
    (∀ set ∈ schema.entitySets, set.type ∈ schema.types ∧
      schema.type? set.type.name = some set.type ∧ set.type.isSealed = true ∧
        set.type.isEntity = true) ∧
    (∀ entry ∈ schema.contents.annotations, entry.1 ∈ schema.targets) ∧
    (∀ type ∈ schema.types, ∀ property ∈ type.properties, ∀ binding,
      property.kind.navigation? = some binding → schema.contents.Resolves binding) ∧
    ((∀ type ∈ schema.types, ∀ property ∈ type.properties, ∀ binding,
        property.kind.navigation? = some binding → schema.contents.LeadsToEntities binding) ↔
      ∀ type ∈ schema.types, ∀ property ∈ type.properties, ∀ binding,
        property.kind.navigation? = some binding → ¬ schema.contents.Misleads binding) := by
  have consistent := isConsistent_of_calls namespaceName calls
  obtain ⟨rfl, resolved⟩ := build_eq_ok.1 done
  have resolves : ∀ type ∈ ((empty namespaceName).after calls).types,
      ∀ property ∈ type.properties, ∀ binding, property.kind.navigation? = some binding →
        ((empty namespaceName).after calls).Resolves binding :=
    fun type registered property inside binding leads =>
      resolved binding (mem_navigations.2 ⟨type, registered, property, inside, leads⟩)
  refine ⟨fun set inside => ?_, consistent.targets, resolves, ⟨?_, ?_⟩⟩
  · obtain ⟨registered, isEntity⟩ := consistent.sets set inside
    exact ⟨registered, consistent.type?_of_mem registered, consistent.areSealed _ registered,
      isEntity⟩
  · intro right type registered property inside binding leads
    have found := resolves type registered property inside binding leads
    exact found.leadsToEntities_iff.1 (right type registered property inside binding leads)
  · intro right type registered property inside binding leads
    have found := resolves type registered property inside binding leads
    exact found.leadsToEntities_iff.2 (right type registered property inside binding leads)

/-- A flight with a property that leads somewhere. -/
def leadingType (binding : NavigationBinding) : ComplexType :=
  keyedType "air.Flight" [.navigation "leads" binding]

/-- Calls with a property that leads to a type, and into a set. -/
def leadingCalls (binding : NavigationBinding) : List Registration :=
  [.addType (.empty "air.Gate"), .addType (keyedType "air.Pilot" []),
    .addType (leadingType binding), .addEntitySet "pilots" "Pilot",
    .addEntitySet "flights" "Flight",
    .annotate (.property "Flight" "leads") (.description "where it leads")]

def leading (binding : NavigationBinding) : SchemaBuilder :=
  (empty "air").after (leadingCalls binding)

def toPilots : NavigationBinding := ⟨"Pilot", true, some "pilots", true⟩

theorem build_resolves_pilots :
    (leading toPilots).build = .ok ⟨leading toPilots⟩ ∧
      (∀ set ∈ (leading toPilots).entitySets, set.type ∈ (leading toPilots).types ∧
        (leading toPilots).type? set.type.name = some set.type ∧ set.type.isSealed = true ∧
          set.type.isEntity = true) ∧
      (leading toPilots).Resolves toPilots ∧ (leading toPilots).LeadsToEntities toPilots := by
  have done : (leading toPilots).build = .ok ⟨leading toPilots⟩ := rfl
  obtain ⟨sets, -, resolves, right⟩ := build_resolves "air" (leadingCalls toPilots) done
  have only : ∀ binding ∈ (leading toPilots).navigations, binding = toPilots :=
    fun binding inside => List.mem_singleton.1 inside
  have registered : toPilots ∈ (leading toPilots).navigations := List.mem_singleton.2 rfl
  obtain ⟨type, inside, property, declared, leads⟩ := mem_navigations.1 registered
  refine ⟨done, sets, resolves type inside property declared _ leads,
    right.2 ?_ type inside property declared _ leads⟩
  rintro other inside' property' declared' binding leads' ⟨target, known, wrong⟩
  cases only binding (mem_navigations.2 ⟨other, inside', property', declared', leads'⟩)
  cases known
  rcases wrong with complex | ⟨name, set, named, into, different⟩
  · cases complex
  · cases named
    cases into
    exact different rfl

/-- Properties that lead to a type without a key, and into a set of another type, are built. -/
theorem build_misleads :
    let toGate : NavigationBinding := ⟨"Gate", false, none, true⟩
    let toFlights : NavigationBinding := ⟨"Pilot", false, some "flights", true⟩
    ((leading toGate).build = .ok ⟨leading toGate⟩ ∧ toGate ∈ (leading toGate).navigations ∧
      ¬ (leading toGate).LeadsToEntities toGate) ∧
    ((leading toFlights).build = .ok ⟨leading toFlights⟩ ∧
      toFlights ∈ (leading toFlights).navigations ∧
      ¬ (leading toFlights).LeadsToEntities toFlights) := by
  refine ⟨⟨rfl, List.mem_singleton.2 rfl, ?_⟩, rfl, List.mem_singleton.2 rfl, ?_⟩
  · rintro ⟨target, known, isEntity, -⟩
    cases known
    cases isEntity
  · rintro ⟨target, known, -, sets⟩
    obtain ⟨set, into, same⟩ := sets "flights" rfl
    cases known
    cases into
    have named : "air.Flight" = "air.Pilot" := congrArg ComplexType.name same
    exact absurd named (by decide)

end EdmQuery.SchemaBuilder
