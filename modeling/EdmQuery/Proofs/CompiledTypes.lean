import EdmQuery.Proofs.Reading
import EdmQuery.Schema.Compile

set_option autoImplicit false

namespace EdmQuery

mutual

/-- Nothing is computed in values of a type. -/
def ValueType.StoresAll : ValueType → Prop
  | .complex type => type.StoresAll
  | .collection element => element.StoresAll
  | _ => True

/-- No property of a type is computed, nor one of the types of its properties. -/
def ComplexType.StoresAll : ComplexType → Prop
  | ⟨_, _, _, _, _, properties⟩ => Property.AllStored properties

def Property.AllStored : List Property → Prop
  | [] => True
  | ⟨_, type, _, kind⟩ :: rest =>
    kind.rule? = none ∧ type.StoresAll ∧ Property.AllStored rest

end

theorem Property.allStored_iff (properties : List Property) :
    Property.AllStored properties ↔
      ∀ property ∈ properties, property.kind.rule? = none ∧ property.type.StoresAll := by
  induction properties with
  | nil => exact ⟨fun _ _ inside => (by cases inside), fun _ => trivial⟩
  | cons property rest ih =>
    obtain ⟨name, type, isNullable, kind⟩ := property
    rw [Property.AllStored, List.forall_mem_cons, ih, and_assoc]

theorem ComplexType.storesAll_iff (type : ComplexType) : type.StoresAll ↔
    ∀ property ∈ type.properties, property.kind.rule? = none ∧ property.type.StoresAll := by
  obtain ⟨name, isEntity, key?, isOpen, isSealed, properties⟩ := type
  exact Property.allStored_iff properties

theorem ValueType.every_of_storesAll (type : ValueType) (stores : type.StoresAll) :
    type.Every ComplexType.StoresAll := by
  cases type with
  | complex type => exact stores
  | collection element => exact ValueType.every_of_storesAll element stores
  | _ => trivial

theorem ComplexType.hereditary_storesAll : Hereditary ComplexType.StoresAll where
  untyped := trivial
  properties type stores property inside :=
    property.type.every_of_storesAll ((type.storesAll_iff.1 stores) property inside).2

/-- Nothing is computed in instances of registered types, nor in entities of registered sets. -/
structure SchemaBuilder.StoresAll (builder : SchemaBuilder) : Prop where
  types : ∀ type ∈ builder.types, type.StoresAll
  entitySets : ∀ set ∈ builder.entitySets, set.type.StoresAll

theorem ComplexType.storesAll_of_addProperty {type changed : ComplexType} {property : Property}
    (stores : type.StoresAll) (stored : property.kind.rule? = none ∧ property.type.StoresAll)
    (done : type.addProperty property = .ok changed) : changed.StoresAll := by
  obtain ⟨-, rfl⟩ := eq_of_addProperty done
  rw [storesAll_iff] at stores ⊢
  intro other inside
  rcases List.mem_append.1 inside with old | new
  · exact stores other old
  · rw [List.mem_singleton] at new
    exact new ▸ stored

theorem ComplexType.storesAll_of_addProperties {type changed : ComplexType}
    {properties : List Property} (stores : type.StoresAll)
    (stored : ∀ property ∈ properties, property.kind.rule? = none ∧ property.type.StoresAll)
    (done : type.addProperties properties = .ok changed) : changed.StoresAll :=
  Result.keeps_foldlM
    (fun _ property inside _ before => storesAll_of_addProperty before (stored property inside))
    stores done

namespace SchemaBuilder

variable {builder changed : SchemaBuilder}

theorem mem_of_type? {name : String} {type : ComplexType}
    (found : builder.type? name = some type) : type ∈ builder.types := by
  rw [type?, Option.or_eq_some_iff] at found
  rcases found with one | ⟨-, other⟩
  · exact (Keyed.keyOf_of_find? _ one).2
  · exact (Keyed.keyOf_of_find? _ other).2

theorem eq_of_addType {type : ComplexType} (done : builder.addType type = .ok changed) :
    changed = { builder with types := builder.types ++ [type.toSealed] } := by
  rw [addType] at done
  split at done
  · cases done
  · exact (Except.ok.inj done).symm

/-- An entity set is one of a type that was registered before. -/
theorem eq_of_addEntitySet {name typeName : String}
    (done : builder.addEntitySet name typeName = .ok changed) :
    ∃ type ∈ builder.types, changed =
      { builder with entitySets := Keyed.put EntitySet.name ⟨name, type⟩ builder.entitySets } := by
  rw [addEntitySet] at done
  cases found : (builder.type? typeName).filter ComplexType.isEntity with
  | none =>
    rw [found] at done
    cases done
  | some type =>
    rw [found] at done
    exact ⟨type, mem_of_type? (Option.filter_eq_some_iff.1 found).1, (Except.ok.inj done).symm⟩

theorem StoresAll.of_type? (stores : builder.StoresAll) {name : String} {type : ComplexType}
    (found : builder.type? name = some type) : type.StoresAll :=
  stores.types type (mem_of_type? found)

theorem StoresAll.addType (stores : builder.StoresAll) {type : ComplexType}
    (stored : type.StoresAll) (done : builder.addType type = .ok changed) : changed.StoresAll := by
  rw [eq_of_addType done]
  refine ⟨fun other inside => ?_, stores.entitySets⟩
  rcases List.mem_append.1 inside with old | new
  · exact stores.types other old
  · rw [List.mem_singleton] at new
    subst new
    rw [ComplexType.storesAll_iff] at stored ⊢
    exact stored

theorem StoresAll.addEntitySet (stores : builder.StoresAll) {name typeName : String}
    (done : builder.addEntitySet name typeName = .ok changed) : changed.StoresAll := by
  obtain ⟨type, registered, rfl⟩ := eq_of_addEntitySet done
  refine ⟨stores.types, fun set inside => ?_⟩
  rcases Keyed.mem_put _ inside with rfl | old
  · exact stores.types type registered
  · exact stores.entitySets set old

theorem StoresAll.annotate (stores : builder.StoresAll) {target : AnnotationTarget}
    {note : Annotation} (done : builder.annotate target note = .ok changed) :
    changed.StoresAll := by
  obtain ⟨resolved, -, result⟩ := Result.bind_eq_ok done
  cases result
  exact ⟨stores.types, stores.entitySets⟩

end SchemaBuilder

theorem TypeReference.storesAll_of_resolve {ofName : String → Result ValueType}
    (named : ∀ name type, ofName name = .ok type → type.StoresAll) {reference : TypeReference}
    {type : ValueType} (done : reference.resolve ofName = .ok type) : type.StoresAll := by
  induction reference generalizing type with
  | named name => exact named name type done
  | collection element ih =>
    obtain ⟨inner, resolved, result⟩ := Result.bind_eq_ok done
    have stores := ih resolved
    cases result
    exact stores

namespace SchemaDocument

variable {document : SchemaDocument} {builder changed : SchemaBuilder}

/-- A type before its properties are compiled. -/
def draft (document : SchemaDocument) (isEntity : Bool) (declared : TypeDocument) : ComplexType :=
  ⟨document.qualify declared.name, isEntity, if isEntity then declared.key? else none,
    declared.isOpen, false, []⟩

/-- A type is compiled property by property, and the key of an entity type is one of them. -/
theorem compileType_eq_ok {isEntity : Bool} {declared : TypeDocument} {compiled : ComplexType} :
    document.compileType builder isEntity declared = .ok compiled ↔
      ∃ stored, declared.properties.foldlM (document.addCompiled builder)
          (document.draft isEntity declared) = .ok stored ∧
        stored.addProperties (declared.navigations.map document.compileNavigation) =
          .ok compiled ∧
        (isEntity = true →
          ∃ key, declared.key? = some key ∧ (compiled.property? key).isSome = true) := by
  rw [compileType]
  constructor
  · intro done
    dsimp only at done
    split at done
    · cases done
    · rename_i keyed
      obtain ⟨stored, properties, later⟩ := Result.bind_eq_ok done
      obtain ⟨complete, navigations, last⟩ := Result.bind_eq_ok later
      cases isEntity with
      | false =>
        cases last
        exact ⟨stored, properties, navigations, fun entity => (by cases entity)⟩
      | true =>
        cases key : declared.key? with
        | none =>
          rw [key] at keyed
          exact absurd rfl keyed
        | some name =>
          rw [if_pos rfl, key] at last
          dsimp only at last
          split at last
          · rename_i declares
            cases last
            exact ⟨stored, properties, navigations, fun _ => ⟨name, rfl, declares⟩⟩
          · cases last
  · rintro ⟨stored, properties, navigations, declares⟩
    unfold draft at properties
    dsimp only
    cases isEntity with
    | false =>
      rw [properties]
      dsimp only [bind, Except.bind]
      rw [navigations]
      rfl
    | true =>
      obtain ⟨key, named, declares⟩ := declares rfl
      rw [named] at properties ⊢
      have keyed : ¬ (true && (some key).isNone) = true := Bool.false_ne_true
      rw [if_neg keyed, properties]
      dsimp only [bind, Except.bind]
      rw [navigations]
      exact if_pos declares
/-- Compiling is compiling the complex types, and then the rest. -/
theorem compile_eq_ok {supply rest : Supply} {schema : Schema} :
    document.compile.run supply = (.ok schema, rest) ↔
      ∃ complex typed withSets annotated,
        document.compileComplex (document.complexTypes.length + 1) document.complexTypes
          (.empty document.namespaceName) = .ok complex ∧
        document.entityTypes.foldlM document.compileEntityType complex = .ok typed ∧
        document.entitySets.foldlM document.compileEntitySet typed = .ok withSets ∧
        (document.annotations.foldlM document.compileAnnotation withSets).run supply =
          (.ok annotated, rest) ∧
        annotated.build = .ok schema := by
  constructor
  · intro done
    obtain ⟨complex, first, ranComplex, afterComplex⟩ := Build.bind_eq_ok done
    obtain ⟨typed, second, ranTypes, afterTypes⟩ := Build.bind_eq_ok afterComplex
    obtain ⟨withSets, third, ranSets, afterSets⟩ := Build.bind_eq_ok afterTypes
    obtain ⟨annotated, fourth, annotates, ranBuild⟩ := Build.bind_eq_ok afterSets
    obtain ⟨compiles, rfl⟩ := Build.ofResult_eq_ok.1 ranComplex
    obtain ⟨registers, rfl⟩ := Build.ofResult_eq_ok.1 ranTypes
    obtain ⟨opens, rfl⟩ := Build.ofResult_eq_ok.1 ranSets
    obtain ⟨builds, rfl⟩ := Build.ofResult_eq_ok.1 ranBuild
    exact ⟨complex, typed, withSets, annotated, compiles, registers, opens, annotates, builds⟩
  · rintro ⟨complex, typed, withSets, annotated, compiles, registers, opens, annotates, builds⟩
    rw [compile, Build.bind_of_ok (Build.ofResult_eq_ok.2 ⟨compiles, rfl⟩),
      Build.bind_of_ok (Build.ofResult_eq_ok.2 ⟨registers, rfl⟩),
      Build.bind_of_ok (Build.ofResult_eq_ok.2 ⟨opens, rfl⟩), Build.bind_of_ok annotates]
    exact Build.ofResult_eq_ok.2 ⟨builds, rfl⟩

theorem storesAll_of_resolveName (stores : builder.StoresAll) {name : String} {type : ValueType}
    (done : document.resolveName builder name = .ok type) : type.StoresAll := by
  rw [resolveName] at done
  split at done
  · cases done
    trivial
  · split at done
    · cases done
      trivial
    · cases found : (builder.type? (document.qualify name)).filter (!·.isEntity) with
      | none =>
        rw [found] at done
        cases done
      | some complex =>
        rw [found] at done
        cases done
        exact stores.of_type? (Option.filter_eq_some_iff.1 found).1

theorem stored_of_compileProperty (stores : builder.StoresAll) {property : PropertyDocument}
    {compiled : Property} (done : document.compileProperty builder property = .ok compiled) :
    compiled.kind.rule? = none ∧ compiled.type.StoresAll := by
  obtain ⟨type, resolved, result⟩ := Result.bind_eq_ok done
  cases result
  exact ⟨rfl, TypeReference.storesAll_of_resolve (fun _ _ => storesAll_of_resolveName stores)
    resolved⟩

theorem stored_compileNavigation (navigation : NavigationDocument) :
    (document.compileNavigation navigation).kind.rule? = none ∧
      (document.compileNavigation navigation).type.StoresAll := by
  rw [compileNavigation]
  cases TypeReference.element? navigation.typeName.toList with
  | none => exact ⟨rfl, trivial⟩
  | some element => exact ⟨rfl, trivial⟩

theorem storesAll_of_addCompiled (stores : builder.StoresAll) {property : PropertyDocument}
    {type extended : ComplexType} (stored : type.StoresAll)
    (done : document.addCompiled builder type property = .ok extended) : extended.StoresAll := by
  obtain ⟨compiled, compiles, adds⟩ := Result.bind_eq_ok done
  exact ComplexType.storesAll_of_addProperty stored (stored_of_compileProperty stores compiles) adds

theorem storesAll_of_compileType (stores : builder.StoresAll) {isEntity : Bool}
    {type : TypeDocument} {compiled : ComplexType}
    (done : document.compileType builder isEntity type = .ok compiled) : compiled.StoresAll := by
  obtain ⟨stored, properties, navigations, -⟩ := compileType_eq_ok.1 done
  have storedAll := Result.keeps_foldlM (fun _ _ _ _ => storesAll_of_addCompiled stores)
    (by exact trivial) properties
  exact ComplexType.storesAll_of_addProperties storedAll (fun property inside => by
    obtain ⟨navigation, -, rfl⟩ := List.mem_map.1 inside
    exact stored_compileNavigation navigation) navigations

theorem storesAll_of_compilePending {pending : List TypeDocument}
    {deferred : List (TypeDocument × Error)} (stores : builder.StoresAll)
    (done : document.compilePending pending builder = .ok (changed, deferred)) :
    changed.StoresAll := by
  induction pending generalizing builder changed deferred with
  | nil =>
    cases done
    exact stores
  | cons type rest ih =>
    rw [compilePending] at done
    cases compiles : document.compileType builder false type with
    | ok compiled =>
      rw [compiles] at done
      obtain ⟨extended, adds, later⟩ := Result.bind_eq_ok done
      exact ih (stores.addType (storesAll_of_compileType stores compiles) adds) later
    | error error =>
      rw [compiles] at done
      dsimp only at done
      split at done
      · obtain ⟨between, compilesRest, result⟩ := Result.bind_eq_ok done
        have kept := ih stores compilesRest
        cases result
        exact kept
      · cases done

theorem storesAll_of_compileComplex {rounds : Nat} {pending : List TypeDocument}
    (stores : builder.StoresAll)
    (done : document.compileComplex rounds pending builder = .ok changed) :
    changed.StoresAll := by
  induction rounds generalizing pending builder with
  | zero =>
    cases done
    exact stores
  | succ rounds ih =>
    obtain ⟨⟨extended, deferred⟩, round, later⟩ := Result.bind_eq_ok done
    have kept := storesAll_of_compilePending stores round
    cases deferred with
    | nil =>
      cases later
      exact kept
    | cons first others =>
      dsimp only at later
      split at later
      · cases later
      · exact ih kept later

theorem storesAll_of_compileEntityType (stores : builder.StoresAll) {type : TypeDocument}
    (done : document.compileEntityType builder type = .ok changed) : changed.StoresAll := by
  obtain ⟨compiled, compiles, adds⟩ := Result.bind_eq_ok done
  exact stores.addType (storesAll_of_compileType stores compiles) adds

theorem storesAll_of_compileAnnotation (stores : builder.StoresAll) {note : AnnotationDocument}
    {supply rest : Supply}
    (done : (document.compileAnnotation builder note).run supply = (.ok changed, rest)) :
    changed.StoresAll := by
  obtain ⟨value?, middle, -, later⟩ := Build.bind_eq_ok done
  cases value? with
  | none => cases later
  | some value => exact stores.annotate (congrArg Prod.fst later)

end SchemaDocument

/-- A schema that a document describes. -/
def Schema.IsCompiled (schema : Schema) : Prop :=
  ∃ (document : SchemaDocument) (supply rest : Supply),
    document.compile.run supply = (.ok schema, rest)

/-- Nothing is computed in instances of the types of a compiled schema. -/
theorem Schema.IsCompiled.storesAll {schema : Schema} (compiled : schema.IsCompiled) :
    schema.contents.StoresAll := by
  obtain ⟨document, supply, rest, done⟩ := compiled
  obtain ⟨complex, typed, withSets, annotated, compiles, registers, opens, annotates, builds⟩ :=
    SchemaDocument.compile_eq_ok.1 done
  obtain ⟨-, -, result⟩ := Result.bind_eq_ok builds
  cases result
  have empty : (SchemaBuilder.empty document.namespaceName).StoresAll :=
    ⟨fun _ inside => (by cases inside), fun _ inside => (by cases inside)⟩
  have complexStores := SchemaDocument.storesAll_of_compileComplex empty compiles
  have typedStores := Result.keeps_foldlM
    (fun _ _ _ _ stores => SchemaDocument.storesAll_of_compileEntityType stores) complexStores
    registers
  have setStores := Result.keeps_foldlM
    (fun _ _ _ _ stores => SchemaBuilder.StoresAll.addEntitySet stores) typedStores opens
  exact Build.keeps_foldlM
    (fun _ _ _ _ _ _ stores => SchemaDocument.storesAll_of_compileAnnotation stores) setStores
    annotates

namespace Schema.IsCompiled

variable {schema : Schema} {name : String}

theorem storesAll_type? (compiled : schema.IsCompiled) {type : ComplexType}
    (found : schema.type? name = some type) : type.StoresAll :=
  compiled.storesAll.of_type? found

theorem storesAll_entitySet (compiled : schema.IsCompiled) {set : EntitySet}
    (found : schema.requireEntitySet name = .ok set) : set.type.StoresAll := by
  rw [requireEntitySet] at found
  cases registered : schema.entitySet? name with
  | none =>
    rw [registered] at found
    cases found
  | some other =>
    rw [registered] at found
    cases found
    exact compiled.storesAll.entitySets _ (Keyed.keyOf_of_find? _ registered).2

end Schema.IsCompiled

end EdmQuery
