import EdmQuery.Proofs.Registration

set_option autoImplicit false

namespace EdmQuery

theorem Result.foldlM_of_imp {α β : Type} {step other : β → α → Result β} {items : List α}
    (imp : ∀ state, ∀ item ∈ items, ∀ next, step state item = .ok next →
      other state item = .ok next)
    {state last : β} (done : items.foldlM step state = .ok last) :
    items.foldlM other state = .ok last := by
  obtain ⟨_, doneToo, rfl⟩ := Result.foldlM_related
    (fun item inside state _ next same one => ⟨next, same ▸ imp state item inside next one, rfl⟩)
    rfl done
  exact doneToo

theorem Result.exists_of_foldlM {α β : Type} {step : β → α → Result β} {items : List α}
    {state last : β} (done : items.foldlM step state = .ok last) :
    ∀ item ∈ items, ∃ before next, step before item = .ok next := by
  induction items generalizing state with
  | nil => exact fun _ inside => (by cases inside)
  | cons item rest ih =>
    rw [List.foldlM_cons] at done
    obtain ⟨next, one, later⟩ := Result.bind_eq_ok done
    intro other inside
    rcases List.mem_cons.1 inside with rfl | inside
    · exact ⟨state, next, one⟩
    · exact ih later other inside

/-- The name inside all collections. -/
def TypeReference.name : TypeReference → String
  | .named name => name
  | .collection element => element.name

theorem TypeReference.resolve_of_imp {ofName other : String → Result ValueType}
    {reference : TypeReference}
    (imp : ∀ type, ofName reference.name = .ok type → other reference.name = .ok type)
    {type : ValueType} (done : reference.resolve ofName = .ok type) :
    reference.resolve other = .ok type := by
  induction reference generalizing type with
  | named name => exact imp type done
  | collection element ih =>
    obtain ⟨inner, resolved, result⟩ := Result.bind_eq_ok done
    rw [resolve, ih imp resolved]
    exact result

theorem TypeReference.exists_of_resolve {ofName : String → Result ValueType}
    {reference : TypeReference} {type : ValueType} (done : reference.resolve ofName = .ok type) :
    ∃ named, ofName reference.name = .ok named := by
  induction reference generalizing type with
  | named name => exact ⟨type, done⟩
  | collection element ih =>
    obtain ⟨inner, resolved, -⟩ := Result.bind_eq_ok done
    exact ih resolved

/-- The names that the properties of a type refer to. -/
def TypeDocument.referredNames (type : TypeDocument) : List String :=
  type.properties.map fun property => (TypeReference.ofText property.typeName).name

namespace SchemaDocument

/-- What a name stands for without any schema. -/
def builtIn? (name : String) : Option ValueType :=
  if name = untypedName then some .untyped
  else if "Edm.".toList.isPrefixOf name.toList then
    (PrimitiveType.ofName? (PrimitiveType.stripNamespace name)).map ValueType.primitive
  else none

variable {document : SchemaDocument} {builder changed : SchemaBuilder} {name : String}
  {type : ValueType}

theorem resolveName_of_builtIn (builder : SchemaBuilder) (known : builtIn? name = some type) :
    document.resolveName builder name = .ok type := by
  unfold builtIn? at known
  rw [resolveName]
  by_cases untyped : name = untypedName
  · rw [if_pos untyped] at known ⊢
    rw [Option.some.inj known]
  · rw [if_neg untyped] at known ⊢
    split at known
    · rename_i reserved
      obtain ⟨primitive, found, rfl⟩ := Option.map_eq_some_iff.1 known
      rw [if_pos reserved, found]
    · cases known

theorem resolveName_eq_ok (foreign : builtIn? name = none) :
    document.resolveName builder name = .ok type ↔
      ∃ complex, builder.type? (document.qualify name) = some complex ∧
        complex.isEntity = false ∧ type = .complex complex := by
  unfold builtIn? at foreign
  rw [resolveName]
  by_cases untyped : name = untypedName
  · rw [if_pos untyped] at foreign
    cases foreign
  · rw [if_neg untyped] at foreign ⊢
    have noPrimitive : (if "Edm.".toList.isPrefixOf name.toList then
        PrimitiveType.ofName? (PrimitiveType.stripNamespace name) else none) = none := by
      split at foreign
      · rename_i reserved
        rw [if_pos reserved]
        exact Option.map_eq_none_iff.1 foreign
      · rename_i unreserved
        rw [if_neg unreserved]
    rw [noPrimitive]
    dsimp only
    cases known : (builder.type? (document.qualify name)).filter (!·.isEntity) with
    | none =>
      refine ⟨fun done => (by cases done), ?_⟩
      rintro ⟨complex, found, isComplex, -⟩
      rw [Option.filter_eq_none_iff] at known
      exact absurd (by rw [isComplex]; rfl) (known complex found)
    | some complex =>
      obtain ⟨found, isComplex⟩ := Option.filter_eq_some_iff.1 known
      rw [Bool.not_eq_true'] at isComplex
      constructor
      · intro done
        exact ⟨complex, found, isComplex, (Except.ok.inj done).symm⟩
      · rintro ⟨other, found', -, rfl⟩
        rw [Option.some.inj (found.symm.trans found')]

theorem compileProperty_of_imp {property : PropertyDocument} {compiled : Property}
    (imp : ∀ named, document.resolveName builder (TypeReference.ofText property.typeName).name =
        .ok named →
      document.resolveName changed (TypeReference.ofText property.typeName).name = .ok named)
    (done : document.compileProperty builder property = .ok compiled) :
    document.compileProperty changed property = .ok compiled := by
  obtain ⟨type, resolved, result⟩ := Result.bind_eq_ok done
  rw [compileProperty, TypeReference.resolve_of_imp imp resolved]
  exact result

theorem addCompiled_of_imp {property : PropertyDocument} {stored next : ComplexType}
    (imp : ∀ named, document.resolveName builder (TypeReference.ofText property.typeName).name =
        .ok named →
      document.resolveName changed (TypeReference.ofText property.typeName).name = .ok named)
    (done : document.addCompiled builder stored property = .ok next) :
    document.addCompiled changed stored property = .ok next := by
  obtain ⟨compiled, compiles, adds⟩ := Result.bind_eq_ok done
  rw [addCompiled, compileProperty_of_imp imp compiles]
  exact adds

/-- A type is compiled to the same wherever its names mean the same. -/
theorem compileType_of_imp {isEntity : Bool} {declared : TypeDocument} {compiled : ComplexType}
    (imp : ∀ name ∈ declared.referredNames, ∀ named,
      document.resolveName builder name = .ok named →
        document.resolveName changed name = .ok named)
    (done : document.compileType builder isEntity declared = .ok compiled) :
    document.compileType changed isEntity declared = .ok compiled := by
  obtain ⟨stored, properties, others⟩ := compileType_eq_ok.1 done
  refine compileType_eq_ok.2 ⟨stored, ?_, others⟩
  exact Result.foldlM_of_imp
    (fun _ _ inside _ => addCompiled_of_imp (imp _ (List.mem_map_of_mem inside))) properties

/-- In a type that is compiled every name is resolved. -/
theorem exists_of_compileType {isEntity : Bool} {declared : TypeDocument} {compiled : ComplexType}
    (done : document.compileType builder isEntity declared = .ok compiled) :
    ∀ name ∈ declared.referredNames, ∃ named, document.resolveName builder name = .ok named := by
  obtain ⟨stored, properties, -⟩ := compileType_eq_ok.1 done
  intro name inside
  obtain ⟨property, among, rfl⟩ := List.mem_map.1 inside
  obtain ⟨before, next, added⟩ := Result.exists_of_foldlM properties property among
  obtain ⟨one, compiles, -⟩ := Result.bind_eq_ok added
  obtain ⟨named, resolved, -⟩ := Result.bind_eq_ok compiles
  exact TypeReference.exists_of_resolve resolved

theorem name_of_compileType {isEntity : Bool} {declared : TypeDocument} {compiled : ComplexType}
    (done : document.compileType builder isEntity declared = .ok compiled) :
    compiled.name = document.qualify declared.name ∧ compiled.isEntity = isEntity := by
  have kept : ∀ (type : ComplexType) (property : Property) (next : ComplexType),
      type.name = document.qualify declared.name ∧ type.isEntity = isEntity →
        type.addProperty property = .ok next →
          next.name = document.qualify declared.name ∧ next.isEntity = isEntity := by
    intro type property next before added
    obtain ⟨-, rfl⟩ := ComplexType.eq_of_addProperty added
    exact before
  obtain ⟨stored, properties, navigations, -⟩ := compileType_eq_ok.1 done
  have storedNamed : stored.name = document.qualify declared.name ∧ stored.isEntity = isEntity := by
    apply Result.keeps_foldlM ?_ ⟨rfl, rfl⟩ properties
    intro type property inside next before added
    obtain ⟨one, -, adds⟩ := Result.bind_eq_ok added
    exact kept type one next before adds
  exact Result.keeps_foldlM (fun type property _ next => kept type property next) storedNamed
    navigations

end SchemaDocument

theorem SchemaBuilder.mem_names {builder : SchemaBuilder} {type : ComplexType}
    (registered : type ∈ builder.types) : type.name ∈ builder.types.map ComplexType.name :=
  List.mem_map_of_mem registered

/-- What a name finds it finds among more types too, if these are not registered under the name and
under the name within the namespace as well. -/
theorem SchemaBuilder.type?_of_subset {builder changed : SchemaBuilder} {name : String}
    {type : ComplexType} (sameNamespace : changed.namespaceName = builder.namespaceName)
    (apart : (changed.types.map ComplexType.name).Nodup) (subset : builder.types ⊆ changed.types)
    (one : ¬ (name ∈ changed.types.map ComplexType.name ∧
      changed.namespaceName ++ "." ++ name ∈ changed.types.map ComplexType.name))
    (found : builder.type? name = some type) : changed.type? name = some type := by
  rw [type?, Option.or_eq_some_iff] at found ⊢
  rcases found with direct | ⟨-, relative⟩
  · obtain ⟨rfl, registered⟩ := Keyed.keyOf_of_find? _ direct
    exact .inl (Keyed.find?_of_mem _ apart (subset registered))
  · obtain ⟨named, registered⟩ := Keyed.keyOf_of_find? _ relative
    rw [← sameNamespace] at named
    have inside := subset registered
    refine .inr ⟨?_, ?_⟩
    · cases direct : Keyed.find? ComplexType.name name changed.types with
      | none => rfl
      | some other =>
        obtain ⟨rfl, among⟩ := Keyed.keyOf_of_find? _ direct
        exact absurd ⟨mem_names among, named ▸ mem_names inside⟩ one
    · rw [← named]
      exact Keyed.find?_of_mem _ apart inside

namespace SchemaDocument

/-- The names under which the complex types of a document are registered. -/
def complexNames (document : SchemaDocument) : List String :=
  document.complexTypes.map fun type => document.qualify type.name

/-- The names that a name is looked for under. -/
def readings (document : SchemaDocument) (name : String) : List String :=
  [document.qualify name, document.namespaceName ++ "." ++ document.qualify name]

/-- No name in a complex type fits two complex types. -/
def IsUnambiguous (document : SchemaDocument) : Prop :=
  ∀ type ∈ document.complexTypes, ∀ name ∈ type.referredNames, builtIn? name = none →
    ¬ ∀ reading ∈ document.readings name, reading ∈ document.complexNames

/-- A complex type with a name that fits a complex type is one that compiling may put off. -/
def ShowsReferences (document : SchemaDocument) : Prop :=
  ∀ type ∈ document.complexTypes, ∀ name ∈ type.referredNames, builtIn? name = none →
    ∀ reading ∈ document.readings name, reading ∈ document.complexNames →
      document.refersToComplex type = true

instance (document : SchemaDocument) : Decidable document.IsUnambiguous :=
  inferInstanceAs (Decidable (∀ type ∈ document.complexTypes, ∀ name ∈ type.referredNames,
    builtIn? name = none → ¬ ∀ reading ∈ document.readings name, reading ∈ document.complexNames))

instance (document : SchemaDocument) : Decidable document.ShowsReferences :=
  inferInstanceAs (Decidable (∀ type ∈ document.complexTypes, ∀ name ∈ type.referredNames,
    builtIn? name = none → ∀ reading ∈ document.readings name, reading ∈ document.complexNames →
      document.refersToComplex type = true))

/-- Nothing but complex types of the document is registered, each name once. -/
structure HoldsComplex (document : SchemaDocument) (builder : SchemaBuilder) : Prop where
  namespaceName : builder.namespaceName = document.namespaceName
  complex : ∀ type ∈ builder.types, type.isEntity = false
  apart : (builder.types.map ComplexType.name).Nodup
  named : ∀ type ∈ builder.types, type.name ∈ document.complexNames

variable {document : SchemaDocument} {builder changed : SchemaBuilder} {name : String}

theorem mem_readings_of_type? (sameNamespace : builder.namespaceName = document.namespaceName)
    {type : ComplexType} (found : builder.type? (document.qualify name) = some type) :
    type.name ∈ document.readings name := by
  rw [SchemaBuilder.type?, Option.or_eq_some_iff, sameNamespace] at found
  rw [readings, List.mem_cons, List.mem_singleton]
  rcases found with direct | ⟨-, relative⟩
  · exact .inl (Keyed.keyOf_of_find? _ direct).1
  · exact .inr (Keyed.keyOf_of_find? _ relative).1

theorem HoldsComplex.resolves_iff (holds : document.HoldsComplex builder)
    (foreign : builtIn? name = none) :
    (∃ named, document.resolveName builder name = .ok named) ↔
      ∃ reading ∈ document.readings name, reading ∈ builder.types.map ComplexType.name := by
  constructor
  · rintro ⟨named, resolved⟩
    obtain ⟨complex, found, -⟩ := (resolveName_eq_ok foreign).1 resolved
    exact ⟨complex.name, mem_readings_of_type? holds.namespaceName found,
      SchemaBuilder.mem_names (SchemaBuilder.mem_of_type? found)⟩
  · rintro ⟨reading, among, registered⟩
    have known : (builder.type? (document.qualify name)).isSome = true := by
      rw [SchemaBuilder.type?, Option.isSome_or, Bool.or_eq_true, Keyed.find?_isSome,
        Keyed.find?_isSome, holds.namespaceName]
      rw [readings, List.mem_cons, List.mem_singleton] at among
      rcases among with rfl | rfl
      · exact .inl registered
      · exact .inr registered
    obtain ⟨complex, found⟩ := Option.isSome_iff_exists.1 known
    exact ⟨.complex complex, (resolveName_eq_ok foreign).2
      ⟨complex, found, holds.complex complex (SchemaBuilder.mem_of_type? found), rfl⟩⟩

/-- What is resolved once is resolved among more names as well. -/
theorem HoldsComplex.resolves_of_names (holds : document.HoldsComplex builder)
    (more : document.HoldsComplex changed)
    (names : builder.types.map ComplexType.name ⊆ changed.types.map ComplexType.name)
    (resolves : ∃ named, document.resolveName builder name = .ok named) :
    ∃ named, document.resolveName changed name = .ok named := by
  cases known : builtIn? name with
  | some type => exact ⟨type, resolveName_of_builtIn changed known⟩
  | none =>
    rw [holds.resolves_iff known] at resolves
    obtain ⟨reading, among, registered⟩ := resolves
    exact (more.resolves_iff known).2 ⟨reading, among, names registered⟩

/-- In an unambiguous document a name of a complex type keeps its meaning. -/
theorem IsUnambiguous.resolveName_of_subset (unambiguous : document.IsUnambiguous)
    {declared : TypeDocument} (among : declared ∈ document.complexTypes)
    (refers : name ∈ declared.referredNames)
    (sameNamespace : builder.namespaceName = document.namespaceName)
    (holds : document.HoldsComplex changed) (subset : builder.types ⊆ changed.types)
    {named : ValueType} (resolved : document.resolveName builder name = .ok named) :
    document.resolveName changed name = .ok named := by
  cases known : builtIn? name with
  | some type =>
    rw [resolveName_of_builtIn builder known] at resolved
    rw [resolveName_of_builtIn changed known]
    exact resolved
  | none =>
    obtain ⟨complex, found, isComplex, rfl⟩ := (resolveName_eq_ok known).1 resolved
    refine (resolveName_eq_ok known).2 ⟨complex, ?_, isComplex, rfl⟩
    refine SchemaBuilder.type?_of_subset (holds.namespaceName.trans sameNamespace.symm) holds.apart
      subset ?_ found
    have registered : ∀ reading ∈ changed.types.map ComplexType.name,
        reading ∈ document.complexNames := by
      intro reading inside
      obtain ⟨type, held, rfl⟩ := List.mem_map.1 inside
      exact holds.named type held
    rintro ⟨direct, relative⟩
    rw [holds.namespaceName] at relative
    apply unambiguous declared among name refers known
    rw [readings, List.forall_mem_cons, List.forall_mem_singleton]
    exact ⟨registered _ direct, registered _ relative⟩

/-- So a type that is compiled is compiled to the same later. -/
theorem IsUnambiguous.compileType_of_subset (unambiguous : document.IsUnambiguous)
    {declared : TypeDocument} (among : declared ∈ document.complexTypes)
    (sameNamespace : builder.namespaceName = document.namespaceName)
    (holds : document.HoldsComplex changed) (subset : builder.types ⊆ changed.types)
    {compiled : ComplexType} (done : document.compileType builder false declared = .ok compiled) :
    document.compileType changed false declared = .ok compiled :=
  compileType_of_imp (fun _ refers _ =>
    unambiguous.resolveName_of_subset among refers sameNamespace holds subset) done

/-- A type that cannot be compiled yet, but among more complex types of the document, is put off. -/
theorem ShowsReferences.refersToComplex (visible : document.ShowsReferences)
    {declared : TypeDocument} (among : declared ∈ document.complexTypes)
    (holds : document.HoldsComplex changed) {compiled : ComplexType}
    (done : document.compileType changed false declared = .ok compiled)
    (fails : document.compileType builder false declared ≠ .ok compiled) :
    document.refersToComplex declared = true := by
  cases refers : document.refersToComplex declared with
  | true => rfl
  | false =>
    refine absurd (compileType_of_imp (fun name inside named resolved => ?_) done) fails
    cases known : builtIn? name with
    | some type =>
      rw [resolveName_of_builtIn changed known] at resolved
      rw [resolveName_of_builtIn builder known]
      exact resolved
    | none =>
      obtain ⟨complex, found, -⟩ := (resolveName_eq_ok known).1 resolved
      have shown := visible declared among name inside known complex.name
        (mem_readings_of_type? holds.namespaceName found)
        (holds.named complex (SchemaBuilder.mem_of_type? found))
      rw [refers] at shown
      cases shown

end SchemaDocument

end EdmQuery
