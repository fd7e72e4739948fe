import EdmQuery.Proofs.ReorderedDocuments

set_option autoImplicit false

namespace EdmQuery

theorem ComplexType.eq_of_addProperties {type changed : ComplexType}
    {properties : List Property} (done : type.addProperties properties = .ok changed) :
    changed = { type with properties := type.properties ++ properties } := by
  rw [ComplexType.addProperties] at done
  induction properties generalizing type with
  | nil =>
    cases done
    rw [List.append_nil]
    cases changed
    rfl
  | cons property rest ih =>
    rw [List.foldlM_cons] at done
    obtain ⟨between, one, later⟩ := Result.bind_eq_ok done
    obtain ⟨-, -, rfl⟩ := ComplexType.addProperty_eq_ok.1 one
    rw [ih later, List.append_assoc]
    rfl

namespace SchemaDocument

variable {document : SchemaDocument} {builder last : SchemaBuilder}

/-- Rounds of compiling that go on as long as anything is left, how many they are and what they end
with: a failure in a round, a round that registers nothing, or nothing left. -/
inductive Rounds (document : SchemaDocument) :
    Nat → List TypeDocument → SchemaBuilder → Result SchemaBuilder → Prop
  | done (builder : SchemaBuilder) : Rounds document 0 [] builder (.ok builder)
  | failed {pending : List TypeDocument} {builder : SchemaBuilder} {error : Error}
      (round : document.compilePending pending builder = .error error) :
      Rounds document 1 pending builder (.error error)
  | stuck {pending : List TypeDocument} {builder extended : SchemaBuilder} {first : TypeDocument}
      {error : Error} {others : List (TypeDocument × Error)}
      (round : document.compilePending pending builder = .ok (extended, (first, error) :: others))
      (same : others.length + 1 = pending.length) : Rounds document 1 pending builder (.error error)
  | next {count : Nat} {pending : List TypeDocument} {builder extended : SchemaBuilder}
      {deferred : List (TypeDocument × Error)} {result : Result SchemaBuilder}
      (round : document.compilePending pending builder = .ok (extended, deferred))
      (fewer : deferred.length < pending.length)
      (later : Rounds document count (deferred.map Prod.fst) extended result) :
      Rounds document (count + 1) pending builder result

/-- A round puts off no more than was left. -/
theorem length_deferred_le {pending : List TypeDocument} {extended : SchemaBuilder}
    {deferred : List (TypeDocument × Error)}
    (round : document.compilePending pending builder = .ok (extended, deferred)) :
    deferred.length ≤ pending.length := by
  obtain ⟨order, -, same⟩ := exists_registers_of_compilePending round
  have lengths := same.length_eq
  rw [List.length_append, List.length_map] at lengths
  omega

/-- The number of rounds that are allowed is never what ends them. -/
theorem exists_rounds (document : SchemaDocument) (builder : SchemaBuilder) {fuel : Nat}
    {pending : List TypeDocument} (enough : pending.length < fuel) :
    ∃ count ≤ pending.length,
      document.Rounds count pending builder (document.compileComplex fuel pending builder) := by
  induction fuel generalizing pending builder with
  | zero => omega
  | succ fuel ih =>
    cases pending with
    | nil => exact ⟨0, Nat.le_refl 0, .done builder⟩
    | cons declared rest =>
      have some : 1 ≤ (declared :: rest).length := Nat.succ_le_succ (Nat.zero_le _)
      cases round : document.compilePending (declared :: rest) builder with
      | error error =>
        refine ⟨1, some, ?_⟩
        rw [compileComplex, round]
        exact .failed round
      | ok found =>
        obtain ⟨extended, deferred⟩ := found
        have notMore := length_deferred_le round
        cases deferred with
        | nil =>
          refine ⟨1, some, ?_⟩
          rw [compileComplex, round]
          exact .next round some (.done extended)
        | cons first others =>
          by_cases same : (first :: others).length = (declared :: rest).length
          · have ends : document.compileComplex (fuel + 1) (declared :: rest) builder =
                .error first.2 := by
              rw [compileComplex, round]
              exact if_pos same
            rw [ends]
            exact ⟨1, some, .stuck round same⟩
          · have goes : document.compileComplex (fuel + 1) (declared :: rest) builder =
                document.compileComplex fuel ((first :: others).map Prod.fst) extended := by
              rw [compileComplex, round]
              exact if_neg same
            have fewer := Nat.lt_of_le_of_ne notMore same
            have left : ((first :: others).map Prod.fst).length = (first :: others).length :=
              List.length_map Prod.fst
            have below : ((first :: others).map Prod.fst).length < fuel := by omega
            obtain ⟨count, bound, later⟩ := ih extended below
            rw [goes]
            exact ⟨count + 1, by omega, .next round fewer later⟩

/-- What a text means among some types: any number of collections around a type of the library or
around one of the complex types, which has the name that is given or that name in the namespace. -/
inductive Means (document : SchemaDocument) (types : List ComplexType) :
    List Char → ValueType → Prop
  | collection {text inner : List Char} {type : ValueType}
      (spelled : TypeReference.element? text = some inner)
      (element : Means document types inner type) : Means document types text (.collection type)
  | builtIn {text : List Char} {type : ValueType} (single : TypeReference.element? text = none)
      (known : builtIn? (String.ofList text) = some type) : Means document types text type
  | complex {text : List Char} {type : ComplexType} (single : TypeReference.element? text = none)
      (foreign : builtIn? (String.ofList text) = none) (registered : type ∈ types)
      (isComplex : type.isEntity = false)
      (named : type.name ∈ document.readings (String.ofList text)) :
      Means document types text (.complex type)

/-- A property is what a document declares. -/
structure DeclaresProperty (document : SchemaDocument) (types : List ComplexType)
    (declared : PropertyDocument) (property : Property) : Prop where
  name : property.name = declared.name
  isNullable : property.isNullable = declared.isNullable
  kind : property.kind = .declared
  type : document.Means types declared.typeName.toList property.type

/-- The entity type that a text names, and whether the text stands for a collection of it. -/
inductive LeadsTo (document : SchemaDocument) (text : List Char) : String → Bool → Prop
  | many {inner : List Char} (spelled : TypeReference.element? text = some inner) :
      LeadsTo document text (document.qualify (String.ofList inner)) true
  | one (single : TypeReference.element? text = none) :
      LeadsTo document text (document.qualify (String.ofList text)) false

/-- A navigation property is what a document declares. -/
structure DeclaresNavigation (document : SchemaDocument) (declared : NavigationDocument)
    (property : Property) : Prop where
  name : property.name = declared.name
  isNullable : property.isNullable = true
  leads : ∃ target isCollection, document.LeadsTo declared.typeName.toList target isCollection ∧
    property.kind =
      .navigation ⟨target, isCollection, declared.targetSet?, declared.isExpandable⟩ ∧
    property.type = if isCollection then .collection (.entity target) else .entity target

/-- A type is what a document declares, sealed, with its navigation properties behind the others. -/
structure Declares (document : SchemaDocument) (types : List ComplexType) (entity : Bool)
    (declared : TypeDocument) (type : ComplexType) : Prop where
  name : type.name = document.qualify declared.name
  isEntity : type.isEntity = entity
  key? : type.key? = if entity then declared.key? else none
  isOpen : type.isOpen = declared.isOpen
  isSealed : type.isSealed = true
  properties : ∃ stored leading,
    List.Forall₂ (document.DeclaresProperty types) declared.properties stored ∧
    List.Forall₂ document.DeclaresNavigation declared.navigations leading ∧
    type.properties = stored ++ leading

section

variable {types more : List ComplexType}

theorem Means.mono (subset : types ⊆ more) {text : List Char} {type : ValueType}
    (means : document.Means types text type) : document.Means more text type := by
  induction means with
  | collection spelled _ ih => exact .collection spelled ih
  | builtIn single known => exact .builtIn single known
  | complex single foreign registered isComplex named =>
    exact .complex single foreign (subset registered) isComplex named

theorem Declares.mono (subset : types ⊆ more) {isEntity : Bool} {declared : TypeDocument}
    {type : ComplexType} (declares : document.Declares types isEntity declared type) :
    document.Declares more isEntity declared type := by
  obtain ⟨stored, leading, properties, navigations, all⟩ := declares.properties
  have raised : List.Forall₂ (document.DeclaresProperty more) declared.properties stored :=
    properties.imp fun _ _ same => { same with type := same.type.mono subset }
  exact { declares with properties := ⟨stored, leading, raised, navigations, all⟩ }

end

/-- What a text is resolved to is what it means. -/
theorem means_of_resolve (sameNamespace : builder.namespaceName = document.namespaceName)
    {fuel : Nat} {text : List Char} (enough : text.length ≤ fuel) {type : ValueType}
    (done : (TypeReference.read fuel text).resolve (document.resolveName builder) = .ok type) :
    document.Means builder.types text type := by
  have named {text : List Char} {type : ValueType} (single : TypeReference.element? text = none)
      (resolved : document.resolveName builder (String.ofList text) = .ok type) :
      document.Means builder.types text type := by
    cases known : builtIn? (String.ofList text) with
    | some other =>
      rw [resolveName_of_builtIn builder known] at resolved
      cases resolved
      exact .builtIn single known
    | none =>
      obtain ⟨complex, found, isComplex, rfl⟩ := (resolveName_eq_ok known).1 resolved
      exact .complex single known (SchemaBuilder.mem_of_type? found) isComplex
        (mem_readings_of_type? sameNamespace found)
  induction fuel generalizing text type with
  | zero =>
    obtain rfl := List.eq_nil_of_length_eq_zero (Nat.le_zero.1 enough)
    exact named rfl done
  | succ fuel ih =>
    rw [TypeReference.read] at done
    cases spelled : TypeReference.element? text with
    | none =>
      rw [spelled] at done
      exact named spelled done
    | some inner =>
      rw [spelled] at done
      obtain ⟨element, resolved, result⟩ := Result.bind_eq_ok done
      cases result
      have shorter := TypeReference.length_element? spelled
      exact .collection spelled (ih (by omega) resolved)

theorem declares_of_compileProperty (sameNamespace : builder.namespaceName = document.namespaceName)
    {declared : PropertyDocument} {property : Property}
    (done : document.compileProperty builder declared = .ok property) :
    document.DeclaresProperty builder.types declared property := by
  obtain ⟨type, resolved, result⟩ := Result.bind_eq_ok done
  cases result
  exact ⟨rfl, rfl, rfl, means_of_resolve sameNamespace (Nat.le_refl _) resolved⟩

theorem declares_compileNavigation (document : SchemaDocument) (declared : NavigationDocument) :
    document.DeclaresNavigation declared (document.compileNavigation declared) := by
  have whole : declared.typeName = String.ofList declared.typeName.toList :=
    String.ofList_toList.symm
  cases spelled : TypeReference.element? declared.typeName.toList with
  | some inner =>
    have compiled : document.compileNavigation declared = .navigation declared.name
        ⟨document.qualify (String.ofList inner), true, declared.targetSet?,
          declared.isExpandable⟩ := by
      rw [compileNavigation, spelled]
    rw [compiled]
    exact ⟨rfl, rfl, _, true, .many spelled, rfl, rfl⟩
  | none =>
    have compiled : document.compileNavigation declared = .navigation declared.name
        ⟨document.qualify (String.ofList declared.typeName.toList), false, declared.targetSet?,
          declared.isExpandable⟩ := by
      rw [compileNavigation, spelled, ← whole]
    rw [compiled]
    exact ⟨rfl, rfl, _, false, .one spelled, rfl, rfl⟩

/-- The properties are added one behind the other. -/
theorem declares_of_addCompiled (sameNamespace : builder.namespaceName = document.namespaceName)
    {properties : List PropertyDocument} {type changed : ComplexType}
    (done : properties.foldlM (document.addCompiled builder) type = .ok changed) :
    ∃ stored, List.Forall₂ (document.DeclaresProperty builder.types) properties stored ∧
      changed = { type with properties := type.properties ++ stored } := by
  induction properties generalizing type with
  | nil =>
    cases done
    refine ⟨[], .nil, ?_⟩
    rw [List.append_nil]
    cases changed
    rfl
  | cons declared rest ih =>
    rw [List.foldlM_cons] at done
    obtain ⟨between, one, later⟩ := Result.bind_eq_ok done
    obtain ⟨property, compiles, adds⟩ := Result.bind_eq_ok one
    obtain ⟨-, -, rfl⟩ := ComplexType.addProperty_eq_ok.1 adds
    obtain ⟨stored, declares, rfl⟩ := ih later
    refine ⟨property :: stored, .cons (declares_of_compileProperty sameNamespace compiles) declares,
      ?_⟩
    rw [List.append_assoc]
    rfl

theorem declares_of_compileType (sameNamespace : builder.namespaceName = document.namespaceName)
    {isEntity : Bool} {declared : TypeDocument} {compiled : ComplexType}
    (done : document.compileType builder isEntity declared = .ok compiled) :
    document.Declares builder.types isEntity declared compiled.toSealed := by
  obtain ⟨stored, properties, navigations, -⟩ := compileType_eq_ok.1 done
  obtain ⟨own, declares, rfl⟩ := declares_of_addCompiled sameNamespace properties
  rw [ComplexType.eq_of_addProperties navigations]
  have leading : List.Forall₂ document.DeclaresNavigation declared.navigations
      (declared.navigations.map document.compileNavigation) := by
    rw [List.forall₂_map_right_iff, List.forall₂_same]
    exact fun navigation _ => document.declares_compileNavigation navigation
  exact ⟨rfl, rfl, rfl, rfl, rfl, own, _, declares, leading, rfl⟩

/-- Registers an entity type or a complex type. -/
def enter (document : SchemaDocument) (builder : SchemaBuilder) (entry : Bool × TypeDocument) :
    Result SchemaBuilder := do
  builder.addType (← document.compileType builder entry.1 entry.2)

/-- The types are added one behind the other, and what they mean they mean in the end. -/
theorem declares_of_enters (sameNamespace : builder.namespaceName = document.namespaceName)
    {entries : List (Bool × TypeDocument)}
    (done : entries.foldlM document.enter builder = .ok last) :
    ∃ added, last = { builder with types := builder.types ++ added } ∧
      List.Forall₂ (fun entry => document.Declares last.types entry.1 entry.2) entries added := by
  induction entries generalizing builder with
  | nil =>
    cases done
    exact ⟨[], by rw [List.append_nil], .nil⟩
  | cons entry rest ih =>
    rw [List.foldlM_cons] at done
    obtain ⟨between, one, later⟩ := Result.bind_eq_ok done
    obtain ⟨compiled, compiles, adds⟩ := Result.bind_eq_ok one
    obtain ⟨-, rfl⟩ := SchemaBuilder.addType_eq_ok.1 adds
    obtain ⟨added, rfl, declares⟩ := ih (by exact sameNamespace) later
    have all : builder.types ++ [compiled.toSealed] ++ added =
        builder.types ++ compiled.toSealed :: added := List.append_assoc _ _ _
    have first := (declares_of_compileType sameNamespace compiles).mono
      (List.subset_append_left builder.types (compiled.toSealed :: added))
    dsimp only at declares ⊢
    rw [all] at declares ⊢
    exact ⟨compiled.toSealed :: added, rfl, .cons first declares⟩

theorem isConsistent_of_enters {entries : List (Bool × TypeDocument)}
    (consistent : builder.IsConsistent) (done : entries.foldlM document.enter builder = .ok last) :
    last.IsConsistent := by
  apply Result.keeps_foldlM ?_ consistent done
  intro before entry _ after holds enters
  obtain ⟨compiled, -, adds⟩ := Result.bind_eq_ok enters
  exact holds.addType adds

/-- What is compiled once the complex types are. -/
def compileRest (document : SchemaDocument) (complex : SchemaBuilder) : Build Schema := do
  let typed ← Build.ofResult (document.entityTypes.foldlM document.compileEntityType complex)
  let withSets ← Build.ofResult (document.entitySets.foldlM document.compileEntitySet typed)
  let annotated ← document.annotations.foldlM document.compileAnnotation withSets
  Build.ofResult annotated.build

/-- Entity sets and annotations come to the types. -/
theorem types_of_compile {supply rest : Supply} {schema : Schema}
    (done : document.compile.run supply = (.ok schema, rest)) :
    ∃ complex typed,
      document.compileComplex (document.complexTypes.length + 1) document.complexTypes
        (.empty document.namespaceName) = .ok complex ∧
      document.entityTypes.foldlM document.compileEntityType complex = .ok typed ∧
      schema.types = typed.types := by
  obtain ⟨complex, typed, withSets, annotated, compiles, enters, opens, annotates, builds⟩ :=
    compile_eq_ok.1 done
  obtain ⟨rfl, -⟩ := SchemaBuilder.build_eq_ok.1 builds
  have opening : ∀ before, ∀ set ∈ document.entitySets, ∀ after, before.types = typed.types →
      document.compileEntitySet before set = .ok after → after.types = typed.types := by
    intro before set _ after same opened
    obtain ⟨type, -, rfl⟩ := SchemaBuilder.eq_of_addEntitySet opened
    exact same
  have annotating : ∀ before, ∀ note ∈ document.annotations, ∀ after supply rest,
      before.types = typed.types →
        (document.compileAnnotation before note).run supply = (.ok after, rest) →
          after.types = typed.types := by
    intro before note _ after supply rest same annotated
    obtain ⟨value?, middle, -, later⟩ := Build.bind_eq_ok annotated
    cases value? with
    | none => cases later
    | some value =>
      obtain ⟨resolved, -, rfl⟩ := SchemaBuilder.eq_of_annotate (congrArg Prod.fst later)
      exact same
  exact ⟨complex, typed, compiles, enters,
    Build.keeps_foldlM annotating (Result.keeps_foldlM opening rfl opens) annotates⟩

/-- A document is compiled in as many rounds as it takes, no more than it has complex types. The types
of the schema that it gives are those of the document, each once and under a name of its own, and
nothing else: the complex types in some order and then the entity types. -/
theorem compile_declares (document : SchemaDocument) :
    (∃ count result, count ≤ document.complexTypes.length ∧
      document.Rounds count document.complexTypes (.empty document.namespaceName) result ∧
      document.compile = Build.ofResult result >>= document.compileRest) ∧
    ∀ supply schema rest, document.compile.run supply = (.ok schema, rest) →
      (schema.types.map ComplexType.name).Nodup ∧
      ∃ order : List TypeDocument, order.Perm document.complexTypes ∧
        List.Forall₂ (fun entry => document.Declares schema.types entry.1 entry.2)
          (order.map (false, ·) ++ document.entityTypes.map (true, ·)) schema.types := by
  constructor
  · obtain ⟨count, bound, ends⟩ := document.exists_rounds (.empty document.namespaceName)
      (Nat.lt_succ_self document.complexTypes.length)
    exact ⟨count, _, bound, ends, rfl⟩
  · intro supply schema rest done
    obtain ⟨complex, typed, compiles, enters, same⟩ := types_of_compile done
    obtain ⟨order, rearranged, registers⟩ := reaches_of_compileComplex compiles
    have all : (order.map (false, ·) ++ document.entityTypes.map (true, ·)).foldlM document.enter
        (.empty document.namespaceName) = .ok typed := by
      simp only [List.foldlM_append, List.foldlM_map]
      have first : order.foldlM (fun builder type => document.enter builder (false, type))
          (.empty document.namespaceName) = .ok complex := registers
      rw [first]
      exact enters
    obtain ⟨added, rfl, declares⟩ := declares_of_enters (by rfl) all
    have consistent := isConsistent_of_enters (.empty document.namespaceName) all
    rw [same]
    exact ⟨consistent.typesApart, order, rearranged, declares⟩

/-- The route is put off until the stop is registered, which comes behind it. -/
theorem compile_declares_forward :
    let flight : TypeDocument := ⟨"Flight", some "id", true,
      [⟨"id", "Edm.Int32", false⟩, ⟨"route", "Route", true⟩],
      [⟨"next", "Flight", none, true⟩, ⟨"legs", "Collection(air.Flight)", none, false⟩]⟩
    let document : SchemaDocument := ⟨"air", [route "Collection(Stop)", stop "air.Stop",
      oneProperty "Grid" "cells" "Collection(Collection(Stop))"], [flight], [], []⟩
    ∃ schema rest, document.compile.run ⟨0⟩ = (.ok schema, rest) ∧
      schema.types.map ComplexType.name = ["air.Stop", "air.Grid", "air.Route", "air.Flight"] ∧
      ∃ order : List TypeDocument, order.Perm document.complexTypes ∧
        List.Forall₂ (fun entry => document.Declares schema.types entry.1 entry.2)
          (order.map (false, ·) ++ document.entityTypes.map (true, ·)) schema.types := by
  intro flight document
  have names : (document.compile.run ⟨0⟩).1.toOption.map (fun schema =>
      schema.types.map ComplexType.name) =
        some ["air.Stop", "air.Grid", "air.Route", "air.Flight"] := by
    decide +kernel
  cases done : document.compile.run ⟨0⟩ with
  | mk result rest =>
    rw [done] at names
    cases result with
    | error error => cases names
    | ok schema => exact ⟨schema, rest, rfl, Option.some.inj names,
        ((compile_declares document).2 ⟨0⟩ schema rest done).2⟩

/-- Of two types that contain each other the first round registers neither, and there is no other. -/
example :
    let route : TypeDocument := ⟨"Route", none, false, [⟨"via", "Collection(Stop)", true⟩], []⟩
    let stop : TypeDocument := ⟨"Stop", none, false, [⟨"routes", "Route", true⟩], []⟩
    let document : SchemaDocument := ⟨"air", [route, stop], [], [], []⟩
    (document.compile.run ⟨0⟩).1 = .error (.unknownType "Stop") := rfl

end SchemaDocument

end EdmQuery
