import EdmQuery.Proofs.CompilationOrder
import EdmQuery.Proofs.SealedSchemas

set_option autoImplicit false

namespace EdmQuery

/-- A view of types in which their outlines can be told. -/
structure ComplexType.IsView (view : ComplexType → ComplexType) : Prop where
  outline : ∀ type, (view type).outline = type.outline
  toSealed : ∀ type, view type.toSealed = (view type).toSealed

theorem ComplexType.isView_id : ComplexType.IsView id := ⟨fun _ => rfl, fun _ => rfl⟩

theorem ComplexType.isView_outline : ComplexType.IsView ComplexType.outline :=
  ⟨ComplexType.outline_outline, fun _ => rfl⟩

theorem ComplexType.IsView.outline_eq {view : ComplexType → ComplexType}
    (isView : ComplexType.IsView view) {type twin : ComplexType} (same : view type = view twin) :
    type.outline = twin.outline := by
  rw [← isView.outline type, same, isView.outline]

def EntitySet.viewed (view : ComplexType → ComplexType) (set : EntitySet) : EntitySet :=
  { set with type := view set.type }

namespace SchemaBuilder

/-- The same elements, the types in any order, as far as a view of types tells. -/
structure AgreesIn (view : ComplexType → ComplexType) (builder twin : SchemaBuilder) : Prop where
  namespaceName : twin.namespaceName = builder.namespaceName
  types : (twin.types.map view).Perm (builder.types.map view)
  entitySets : twin.entitySets.map (EntitySet.viewed view) =
    builder.entitySets.map (EntitySet.viewed view)
  annotations : twin.annotations = builder.annotations
  consistent : builder.IsConsistent

namespace AgreesIn

variable {view : ComplexType → ComplexType} {builder twin changed : SchemaBuilder} {name : String}

theorem map_names (isView : ComplexType.IsView view) (types : List ComplexType) :
    (types.map view).map ComplexType.name = types.map ComplexType.name := by
  rw [List.map_map]
  exact List.map_congr_left fun type _ => ComplexType.name_of_outline (isView.outline type)

theorem names (agrees : builder.AgreesIn view twin) (isView : ComplexType.IsView view) :
    (twin.types.map ComplexType.name).Perm (builder.types.map ComplexType.name) := by
  rw [← map_names isView twin.types, ← map_names isView builder.types]
  exact agrees.types.map _

theorem type?_eq (agrees : builder.AgreesIn view twin) (isView : ComplexType.IsView view)
    (name : String) : (twin.type? name).map view = (builder.type? name).map view := by
  have apart : ((builder.types.map view).map ComplexType.name).Nodup := by
    rw [map_names isView]
    exact agrees.consistent.typesApart
  have sameName : ∀ type, (view type).name = type.name :=
    fun type => ComplexType.name_of_outline (isView.outline type)
  have found : ∀ key, (Keyed.find? ComplexType.name key twin.types).map view =
      (Keyed.find? ComplexType.name key builder.types).map view := by
    intro key
    rw [← Keyed.find?_map _ _ _ sameName, ← Keyed.find?_map _ _ _ sameName,
      Keyed.find?_of_perm _ apart agrees.types]
  rw [type?, type?, Option.map_or, Option.map_or, found, found, agrees.namespaceName]

theorem exists_type? (agrees : builder.AgreesIn view twin) (isView : ComplexType.IsView view)
    {type : ComplexType} (found : builder.type? name = some type) :
    ∃ typeTwin, twin.type? name = some typeTwin ∧ view typeTwin = view type := by
  have equal := agrees.type?_eq isView name
  rw [found] at equal
  exact Option.map_eq_some_iff.1 equal

theorem isSome_entitySet? (agrees : builder.AgreesIn view twin) (name : String) :
    (twin.entitySet? name).isSome = (builder.entitySet? name).isSome := by
  have found : ∀ sets : List EntitySet, (Keyed.find? EntitySet.name name sets).isSome =
      (Keyed.find? EntitySet.name name (sets.map (EntitySet.viewed view))).isSome := by
    intro sets
    rw [Keyed.find?_map EntitySet.name EntitySet.name (EntitySet.viewed view) (fun _ => rfl),
      Option.isSome_map]
  rw [entitySet?, entitySet?, found, found builder.entitySets, agrees.entitySets]

theorem addType (agrees : builder.AgreesIn view twin) (isView : ComplexType.IsView view)
    {type typeTwin : ComplexType} (same : view typeTwin = view type)
    (done : builder.addType type = .ok changed) :
    ∃ changedTwin, twin.addType typeTwin = .ok changedTwin ∧
      changed.AgreesIn view changedTwin := by
  have consistent := agrees.consistent.addType done
  obtain ⟨new, rfl⟩ := addType_eq_ok.1 done
  have named : typeTwin.name = type.name := ComplexType.name_of_outline (isView.outline_eq same)
  rw [← named, ← (agrees.names isView).mem_iff] at new
  refine ⟨_, addType_eq_ok.2 ⟨new, rfl⟩, agrees.namespaceName, ?_, agrees.entitySets,
    agrees.annotations, consistent⟩
  rw [List.map_append, List.map_append, List.map_singleton, List.map_singleton, isView.toSealed,
    isView.toSealed, same]
  exact agrees.types.append_right _

theorem addEntitySet (agrees : builder.AgreesIn view twin) (isView : ComplexType.IsView view)
    {typeName : String} (done : builder.addEntitySet name typeName = .ok changed) :
    ∃ changedTwin, twin.addEntitySet name typeName = .ok changedTwin ∧
      changed.AgreesIn view changedTwin := by
  have consistent := agrees.consistent.addEntitySet done
  rw [SchemaBuilder.addEntitySet] at done
  cases known : (builder.type? typeName).filter ComplexType.isEntity with
  | none =>
    rw [known] at done
    cases done
  | some type =>
    rw [known] at done
    cases done
    obtain ⟨found, isEntity⟩ := Option.filter_eq_some_iff.1 known
    obtain ⟨typeTwin, foundTwin, same⟩ := agrees.exists_type? isView found
    have entityTwin : typeTwin.isEntity = true :=
      (ComplexType.isEntity_of_outline (isView.outline_eq same)).trans isEntity
    have knownTwin : (twin.type? typeName).filter ComplexType.isEntity = some typeTwin :=
      Option.filter_eq_some_iff.2 ⟨foundTwin, entityTwin⟩
    have puts : ∀ (type : ComplexType) (sets : List EntitySet),
        (Keyed.put EntitySet.name ⟨name, type⟩ sets).map (EntitySet.viewed view) =
          Keyed.put EntitySet.name ⟨name, view type⟩ (sets.map (EntitySet.viewed view)) :=
      fun type sets => Keyed.map_put EntitySet.name EntitySet.name (EntitySet.viewed view)
        (fun _ => rfl) ⟨name, type⟩ sets
    rw [SchemaBuilder.addEntitySet, knownTwin]
    refine ⟨_, rfl, agrees.namespaceName, agrees.types, ?_, agrees.annotations, consistent⟩
    rw [puts, puts, same, agrees.entitySets]

theorem resolveTarget_of_ok (agrees : builder.AgreesIn view twin)
    (isView : ComplexType.IsView view) {target resolved : AnnotationTarget}
    (found : builder.resolveTarget target = .ok resolved) :
    twin.resolveTarget target = .ok resolved := by
  cases target with
  | service => exact found
  | type name =>
    obtain ⟨type, known, rfl⟩ := resolveTarget_type_eq_ok.1 found
    obtain ⟨typeTwin, knownTwin, same⟩ := agrees.exists_type? isView known
    have outlines := isView.outline_eq same
    exact resolveTarget_type_eq_ok.2
      ⟨typeTwin, knownTwin, by rw [ComplexType.name_of_outline outlines]⟩
  | property typeName name =>
    obtain ⟨type, known, declared, rfl⟩ := resolveTarget_property_eq_ok.1 found
    obtain ⟨typeTwin, knownTwin, same⟩ := agrees.exists_type? isView known
    have outlines := isView.outline_eq same
    rw [← ComplexType.isSome_property?_of_outline outlines] at declared
    exact resolveTarget_property_eq_ok.2
      ⟨typeTwin, knownTwin, declared, by rw [ComplexType.name_of_outline outlines]⟩

theorem annotate (agrees : builder.AgreesIn view twin) (isView : ComplexType.IsView view)
    {target : AnnotationTarget} {note : Annotation}
    (done : builder.annotate target note = .ok changed) :
    ∃ changedTwin, twin.annotate target note = .ok changedTwin ∧
      changed.AgreesIn view changedTwin := by
  have consistent := agrees.consistent.annotate done
  obtain ⟨resolved, found, rfl⟩ := eq_of_annotate done
  have notes : twin.annotationsOf resolved = builder.annotationsOf resolved := by
    rw [annotationsOf, annotationsOf, agrees.annotations]
  rw [SchemaBuilder.annotate, agrees.resolveTarget_of_ok isView found]
  exact ⟨_, rfl, agrees.namespaceName, agrees.types, agrees.entitySets,
    by rw [notes, agrees.annotations], consistent⟩

/-- Navigation properties are part of the outlines. -/
theorem navigations (agrees : builder.AgreesIn view twin) (isView : ComplexType.IsView view)
    {binding : NavigationBinding} (inside : binding ∈ twin.navigations) :
    binding ∈ builder.navigations := by
  obtain ⟨typeTwin, registeredTwin, propertyTwin, declaredTwin, leads⟩ := mem_navigations.1 inside
  obtain ⟨type, registered, same⟩ :=
    List.mem_map.1 (agrees.types.mem_iff.1 (List.mem_map_of_mem registeredTwin))
  have outlines := (ComplexType.outline_eq_iff.1 (isView.outline_eq same)).2
  have among : propertyTwin.outline ∈ type.properties.map Property.outline := by
    rw [outlines]
    exact List.mem_map_of_mem declaredTwin
  obtain ⟨property, declared, sameOutline⟩ := List.mem_map.1 among
  have sameKind : property.outline.kind = propertyTwin.outline.kind := by rw [sameOutline]
  have leadsToo : property.kind.navigation? = some binding :=
    (congrArg PropertyKind.navigation? sameKind).trans leads
  exact mem_navigations.2 ⟨type, registered, property, declared, leadsToo⟩

theorem build (agrees : builder.AgreesIn view twin) (isView : ComplexType.IsView view)
    {schema : Schema} (done : builder.build = .ok schema) :
    schema = ⟨builder⟩ ∧ twin.build = .ok ⟨twin⟩ := by
  obtain ⟨rfl, resolves⟩ := build_eq_ok.1 done
  refine ⟨rfl, build_eq_ok.2 ⟨rfl, fun binding inside => ?_⟩⟩
  obtain ⟨target, found, sets⟩ := resolves binding (agrees.navigations isView inside)
  obtain ⟨targetTwin, foundTwin, -⟩ := agrees.exists_type? isView found
  refine ⟨targetTwin, foundTwin, fun name named => ?_⟩
  rw [← Option.isSome_iff_exists, agrees.isSome_entitySet?, Option.isSome_iff_exists]
  exact sets name named

end AgreesIn

end SchemaBuilder

namespace SchemaDocument

variable {document : SchemaDocument} {view : ComplexType → ComplexType}
  {builder twin changed : SchemaBuilder}

/-- Wherever a type compiles, it compiles on builders that agree, and to what the view shows alike. -/
def CompilesIn (document : SchemaDocument) (view : ComplexType → ComplexType) : Prop :=
  ∀ builder twin declared compiled, builder.AgreesIn view twin →
    document.compileType builder true declared = .ok compiled →
      ∃ compiledTwin, document.compileType twin true declared = .ok compiledTwin ∧
        view compiledTwin = view compiled

/-- A name that is resolved is resolved on builders that agree, if to another type then to one that
the view shows alike. -/
theorem resolveName_of_agrees (agrees : builder.AgreesIn view twin)
    (isView : ComplexType.IsView view) {name : String} {named : ValueType}
    (resolved : document.resolveName builder name = .ok named) :
    document.resolveName twin name = .ok named ∨ ∃ complex complexTwin,
      named = .complex complex ∧ document.resolveName twin name = .ok (.complex complexTwin) ∧
        view complexTwin = view complex := by
  cases known : builtIn? name with
  | some type =>
    rw [resolveName_of_builtIn builder known] at resolved
    rw [resolveName_of_builtIn twin known]
    exact .inl resolved
  | none =>
    obtain ⟨complex, found, isComplex, rfl⟩ := (resolveName_eq_ok known).1 resolved
    obtain ⟨complexTwin, foundTwin, same⟩ := agrees.exists_type? isView found
    have complexToo : complexTwin.isEntity = false :=
      (ComplexType.isEntity_of_outline (isView.outline_eq same)).trans isComplex
    exact .inr ⟨complex, complexTwin, rfl,
      (resolveName_eq_ok known).2 ⟨complexTwin, foundTwin, complexToo, rfl⟩, same⟩

theorem compilesIn_id (document : SchemaDocument) : document.CompilesIn id := by
  intro builder twin declared compiled agrees done
  refine ⟨compiled, compileType_of_imp (fun name _ named resolved => ?_) done, rfl⟩
  rcases resolveName_of_agrees agrees ComplexType.isView_id resolved with equal | other
  · exact equal
  · obtain ⟨complex, _, rfl, resolvedToo, rfl⟩ := other
    exact resolvedToo

theorem compilesIn_outline (document : SchemaDocument) :
    document.CompilesIn ComplexType.outline := by
  intro builder twin declared compiled agrees done
  obtain ⟨compiledTwin, doneToo, same⟩ := compileType_of_resolves (fun name inside => by
    obtain ⟨named, resolved⟩ := exists_of_compileType done name inside
    rcases resolveName_of_agrees agrees ComplexType.isView_outline resolved with equal | other
    · exact ⟨named, equal⟩
    · obtain ⟨_, complexTwin, -, resolvedToo, -⟩ := other
      exact ⟨.complex complexTwin, resolvedToo⟩) done
  exact ⟨compiledTwin, doneToo, same.symm⟩

theorem agrees_compileEntityType (document : SchemaDocument) (isView : ComplexType.IsView view)
    (compiles : document.CompilesIn view) (type : TypeDocument)
    (builder twin changed : SchemaBuilder) (agrees : builder.AgreesIn view twin)
    (done : document.compileEntityType builder type = .ok changed) :
    ∃ changedTwin, document.compileEntityType twin type = .ok changedTwin ∧
      changed.AgreesIn view changedTwin := by
  obtain ⟨compiled, compilesType, adds⟩ := Result.bind_eq_ok done
  obtain ⟨compiledTwin, compilesTwin, same⟩ := compiles builder twin type compiled agrees compilesType
  obtain ⟨changedTwin, addsTwin, after⟩ := agrees.addType isView same adds
  refine ⟨changedTwin, ?_, after⟩
  rw [compileEntityType, compilesTwin]
  exact addsTwin

theorem agrees_compileAnnotation (document : SchemaDocument) (isView : ComplexType.IsView view)
    (note : AnnotationDocument) (builder twin changed : SchemaBuilder) (supply rest : Supply)
    (agrees : builder.AgreesIn view twin)
    (done : (document.compileAnnotation builder note).run supply = (.ok changed, rest)) :
    ∃ changedTwin, (document.compileAnnotation twin note).run supply = (.ok changedTwin, rest) ∧
      changed.AgreesIn view changedTwin := by
  obtain ⟨value?, middle, infers, later⟩ := Build.bind_eq_ok done
  rw [ compileAnnotation, Build.bind_of_ok infers]
  cases value? with
  | none => cases later
  | some value =>
    obtain ⟨attaches, rfl⟩ := Build.ofResult_eq_ok.1 later
    obtain ⟨changedTwin, attachesTwin, after⟩ := agrees.annotate isView attaches
    exact ⟨changedTwin, Build.ofResult_eq_ok.2 ⟨attachesTwin, rfl⟩, after⟩

def reordered (document : SchemaDocument) (types : List TypeDocument) : SchemaDocument :=
  { document with complexTypes := types }

variable {types : List TypeDocument}

theorem refersToComplex_reordered (same : types.Perm document.complexTypes)
    (type : TypeDocument) :
    (document.reordered types).refersToComplex type = document.refersToComplex type := by
  have anyOf : ∀ test : TypeDocument → Bool,
      types.any test = document.complexTypes.any test := by
    intro test
    rw [Bool.eq_iff_iff, List.any_eq_true, List.any_eq_true]
    simp only [same.mem_iff]
  exact congrArg type.properties.any (funext fun property => anyOf _)

theorem ShowsReferences.reordered (visible : document.ShowsReferences)
    (same : types.Perm document.complexTypes) : (document.reordered types).ShowsReferences := by
  intro type inside name refers foreign reading among named
  rw [refersToComplex_reordered same]
  exact visible type (same.mem_iff.1 inside) name refers foreign reading among
    ((same.map _).mem_iff.1 named)

theorem Reaches.reordered (reaches : document.Reaches builder)
    (same : types.Perm document.complexTypes) : (document.reordered types).Reaches builder := by
  obtain ⟨order, along, done⟩ := reaches
  exact ⟨order, along.trans same.symm, done⟩

theorem Reaches.isConsistent {final : SchemaBuilder} (reaches : document.Reaches final) :
    final.IsConsistent := by
  obtain ⟨order, -, done⟩ := reaches
  apply Result.keeps_foldlM ?_ (SchemaBuilder.IsConsistent.empty document.namespaceName) done
  intro builder type _ changed before registers
  obtain ⟨compiled, -, adds⟩ := Result.bind_eq_ok registers
  exact before.addType adds

theorem Reaches.agreesIn (reaches : document.Reaches builder) (reachesTwin : document.Reaches twin)
    (types : (twin.types.map view).Perm (builder.types.map view)) : builder.AgreesIn view twin := by
  have consistent := reaches.isConsistent
  obtain ⟨_, added, -, rfl, -⟩ := reaches.exists_declared
  obtain ⟨_, addedTwin, -, rfl, -⟩ := reachesTwin.exists_declared
  exact ⟨rfl, types, rfl, rfl, consistent⟩

/-- On complex types that agree the later stages go through alike. -/
theorem exists_compile_of_agrees (isView : ComplexType.IsView view)
    (compiles : document.CompilesIn view) (agrees : builder.AgreesIn view twin)
    (compilesTo : document.compileComplex (document.complexTypes.length + 1) document.complexTypes
      (.empty document.namespaceName) = .ok builder)
    (compilesTwin : (document.reordered types).compileComplex (types.length + 1) types
      (.empty document.namespaceName) = .ok twin)
    {supply rest : Supply} {schema : Schema}
    (done : document.compile.run supply = (.ok schema, rest)) :
    ∃ schemaTwin, (document.reordered types).compile.run supply = (.ok schemaTwin, rest) ∧
      schema.contents.AgreesIn view schemaTwin.contents := by
  obtain ⟨_, typed, withSets, annotated, again, registers, opens, annotates, builds⟩ :=
    compile_eq_ok.1 done
  cases again.symm.trans compilesTo
  obtain ⟨typedTwin, registersTwin, typedAgree⟩ := Result.foldlM_related
    (fun type _ => agrees_compileEntityType document isView compiles type) agrees registers
  obtain ⟨withSetsTwin, opensTwin, setsAgree⟩ := Result.foldlM_related
    (fun set _ builder twin changed agrees => agrees.addEntitySet isView) typedAgree opens
  obtain ⟨annotatedTwin, annotatesTwin, agreesLast⟩ := Build.foldlM_related
    (fun note _ => agrees_compileAnnotation document isView note) setsAgree annotates
  obtain ⟨rfl, buildsTwin⟩ := agreesLast.build isView builds
  exact ⟨⟨annotatedTwin⟩, compile_eq_ok.2 ⟨twin, typedTwin, withSetsTwin, annotatedTwin,
    compilesTwin, registersTwin, opensTwin, annotatesTwin, buildsTwin⟩, agreesLast⟩

def Compiles (document : SchemaDocument) (supply : Supply) : Prop :=
  ∃ schema rest, document.compile.run supply = (.ok schema, rest)

/-- A document that compiles also compiles in an order in which no reference is overlooked. -/
theorem Compiles.reordered {supply : Supply} (compiles : document.Compiles supply)
    (same : types.Perm document.complexTypes)
    (visible : (document.reordered types).ShowsReferences) :
    (document.reordered types).Compiles supply := by
  obtain ⟨schema, rest, done⟩ := compiles
  obtain ⟨complex, -, -, -, compilesTo, -⟩ := compile_eq_ok.1 done
  have reaches := (reaches_of_compileComplex compilesTo).reordered same
  obtain ⟨complexTwin, compilesTwin, reachesTwin⟩ := reaches.compileComplex visible
  obtain ⟨twin, doneTwin, -⟩ := exists_compile_of_agrees ComplexType.isView_outline
    (compilesIn_outline document) (reaches.agreesIn reachesTwin (reaches.outlines_perm reachesTwin))
    compilesTo compilesTwin done
  exact ⟨twin, rest, doneTwin⟩

theorem refused_of_hidden {type : TypeDocument} {name : String} (refers : name ∈ type.referredNames)
    (foreign : builtIn? name = none) (hidden : document.refersToComplex type = false)
    {others : List TypeDocument} (first : document.complexTypes = type :: others)
    (supply : Supply) : ¬ document.Compiles supply := by
  rintro ⟨schema, rest, done⟩
  obtain ⟨complex, -, -, -, compiles, -⟩ := compile_eq_ok.1 done
  rw [first, compileComplex, compilePending] at compiles
  cases attempt : document.compileType (.empty document.namespaceName) false type with
  | ok compiled =>
    obtain ⟨named, resolved⟩ := exists_of_compileType attempt name refers
    obtain ⟨registered, found, -⟩ := (resolveName_eq_ok foreign).1 resolved
    cases SchemaBuilder.mem_of_type? found
  | error error =>
    rw [attempt] at compiles
    dsimp only at compiles
    rw [if_neg (by rw [hidden]; exact Bool.false_ne_true)] at compiles
    cases compiles

end SchemaDocument

/-- The same elements, the types in any order. -/
structure Schema.SameElements (schema twin : Schema) : Prop where
  namespaceName : twin.namespaceName = schema.namespaceName
  types : twin.types.Perm schema.types
  type?_eq : ∀ name, twin.type? name = schema.type? name
  entitySets : twin.entitySets = schema.entitySets
  annotations : twin.contents.annotations = schema.contents.annotations

theorem Schema.SameElements.of_agrees {schema twin : Schema}
    (agrees : schema.contents.AgreesIn id twin.contents) : schema.SameElements twin where
  namespaceName := agrees.namespaceName
  types := by
    have types := agrees.types
    rw [List.map_id, List.map_id] at types
    exact types
  type?_eq name := by
    have found := agrees.type?_eq ComplexType.isView_id name
    rw [Option.map_id] at found
    exact found
  entitySets := by
    have viewed : EntitySet.viewed id = id := rfl
    have sets := agrees.entitySets
    rw [viewed, List.map_id, List.map_id] at sets
    exact sets
  annotations := agrees.annotations

namespace SchemaDocument

variable {document : SchemaDocument} {types : List TypeDocument}

/-- An unambiguous document gives the same elements in each order in which it compiles. -/
theorem IsUnambiguous.sameElements (unambiguous : document.IsUnambiguous)
    (same : types.Perm document.complexTypes) {supply rest restTwin : Supply}
    {schema twin : Schema} (done : document.compile.run supply = (.ok schema, rest))
    (doneTwin : (document.reordered types).compile.run supply = (.ok twin, restTwin)) :
    restTwin = rest ∧ schema.SameElements twin := by
  obtain ⟨complex, -, -, -, compilesTo, -⟩ := compile_eq_ok.1 done
  obtain ⟨complexTwin, -, -, -, compilesTwin, -⟩ := compile_eq_ok.1 doneTwin
  have reaches := reaches_of_compileComplex compilesTo
  have reachesTwin : document.Reaches complexTwin :=
    (reaches_of_compileComplex compilesTwin).reordered same.symm
  have perm : (complexTwin.types.map id).Perm (complex.types.map id) := by
    rw [List.map_id, List.map_id]
    exact unambiguous.types_perm reaches reachesTwin
  obtain ⟨schemaTwin, again, agrees⟩ := exists_compile_of_agrees ComplexType.isView_id
    (compilesIn_id document) (reaches.agreesIn reachesTwin perm) compilesTo compilesTwin done
  cases again.symm.trans doneTwin
  exact ⟨rfl, .of_agrees agrees⟩

/-- Whether a document compiles does not depend on the order of its complex types exactly if none of
their references is overlooked, or it compiles in no order at all. And an unambiguous document gives
the same elements in each order in which it compiles. -/
theorem compile_reordered (document : SchemaDocument) :
    ((∀ types, types.Perm document.complexTypes → ∀ supply,
        document.Compiles supply ↔ (document.reordered types).Compiles supply) ↔
      document.ShowsReferences ∨ ∀ types, types.Perm document.complexTypes → ∀ supply,
        ¬ (document.reordered types).Compiles supply) ∧
    (document.IsUnambiguous → ∀ types, types.Perm document.complexTypes →
      ∀ supply schema twin rest restTwin, document.compile.run supply = (.ok schema, rest) →
        (document.reordered types).compile.run supply = (.ok twin, restTwin) →
          restTwin = rest ∧ schema.SameElements twin) := by
  refine ⟨⟨fun alike => ?_, ?_⟩, fun unambiguous types same supply schema twin rest restTwin =>
    unambiguous.sameElements same⟩
  · by_cases visible : document.ShowsReferences
    · exact .inl visible
    · refine .inr fun types same supply compiles => visible ?_
      intro type inside name refers foreign reading among named
      cases shown : document.refersToComplex type with
      | true => rfl
      | false =>
        obtain ⟨before, after, split⟩ := List.append_of_mem inside
        have toFront : (type :: (before ++ after)).Perm document.complexTypes := by
          rw [split]
          exact List.perm_middle.symm
        have hidden := (refersToComplex_reordered toFront type).trans shown
        have compilesFirst := (alike _ toFront supply).1 ((alike types same supply).2 compiles)
        exact absurd compilesFirst (refused_of_hidden refers foreign hidden rfl supply)
  · rintro (visible | refused) types same supply
    · refine ⟨fun compiles => compiles.reordered same (visible.reordered same), fun compiles => ?_⟩
      have back : document.complexTypes.Perm (document.reordered types).complexTypes := same.symm
      exact compiles.reordered back visible
    · exact ⟨fun compiles => absurd compiles (refused document.complexTypes (.refl _) supply),
        fun compiles => absurd compiles (refused types same supply)⟩

def complexOnly (types : List TypeDocument) : SchemaDocument := ⟨"air", types, [], [], []⟩

/-- A complex type with one property. -/
def oneProperty (name property typeName : String) : TypeDocument :=
  ⟨name, none, false, [⟨property, typeName, true⟩], []⟩

def stop (name : String) : TypeDocument := oneProperty name "code" "Edm.String"

def route (typeName : String) : TypeDocument := oneProperty "Route" "via" typeName

/-- The types of the properties of the route, if the document compiles. -/
def compiledRoute? (types : List TypeDocument) : Option (List String) :=
  ((complexOnly types).compile.run ⟨0⟩).1.toOption.bind fun schema =>
    (schema.type? "Route").map fun type => type.properties.map fun property => property.type.name

theorem compile_reordered_forward :
    let forward := complexOnly [route "Collection(Stop)", stop "Stop"]
    let backward := complexOnly [stop "Stop", route "Collection(Stop)"]
    forward.ShowsReferences ∧ forward.IsUnambiguous ∧
      (∀ supply, forward.Compiles supply ↔ backward.Compiles supply) ∧
      (∀ supply schema twin rest restTwin, forward.compile.run supply = (.ok schema, rest) →
        backward.compile.run supply = (.ok twin, restTwin) → schema.SameElements twin) ∧
      compiledRoute? [route "Collection(Stop)", stop "Stop"] = some ["Collection(air.Stop)"] := by
  intro forward backward
  have visible : forward.ShowsReferences := by decide +kernel
  have unambiguous : forward.IsUnambiguous := by decide +kernel
  obtain ⟨succeeds, gives⟩ := compile_reordered forward
  refine ⟨visible, unambiguous, succeeds.2 (.inl visible) _ (.swap _ _ _), ?_, by decide +kernel⟩
  exact fun supply schema twin rest restTwin done doneTwin =>
    (gives unambiguous _ (.swap _ _ _) supply schema twin rest restTwin done doneTwin).2

/-- References that are overlooked, in a collection of collections and under a name within the
namespace, and a name that fits two complex types, which stands for the one in front. -/
theorem compiledRoute?_reordered :
    compiledRoute? [stop "Stop", route "Collection(Collection(Stop))"] =
        some ["Collection(Collection(air.Stop))"] ∧
      compiledRoute? [route "Collection(Collection(Stop))", stop "Stop"] = none ∧
    compiledRoute? [stop "air.line.Stop", route "line.Stop"] = some ["air.line.Stop"] ∧
      compiledRoute? [route "line.Stop", stop "air.line.Stop"] = none ∧
    compiledRoute? [stop "air.line.Stop", route "line.Stop", stop "line.Stop"] =
        some ["air.line.Stop"] ∧
      compiledRoute? [stop "line.Stop", route "line.Stop", stop "air.line.Stop"] =
        some ["line.Stop"] := by
  decide +kernel

end SchemaDocument

end EdmQuery
