import EdmQuery.Annotation.Terms
import EdmQuery.Proofs.CompiledTypes

set_option autoImplicit false

namespace EdmQuery

/-- A call of a builder. -/
inductive Registration
  | addType (type : ComplexType)
  | addEntitySet (name typeName : String)
  | annotate (target : AnnotationTarget) (note : Annotation)

namespace Registration

def run : Registration → SchemaBuilder → Result SchemaBuilder
  | addType type, builder => builder.addType type
  | addEntitySet name typeName, builder => builder.addEntitySet name typeName
  | annotate target note, builder => builder.annotate target note

/-- The builder that a call leaves, and how the call ended. -/
def perform (call : Registration) (builder : SchemaBuilder) : SchemaBuilder × Result Unit :=
  match call.run builder with
  | .ok changed => (changed, .ok ())
  | .error error => (builder, .error error)

/-- An entity set that is accepted under the name of one over another type. -/
def Overwrites : Registration → SchemaBuilder → Prop
  | addEntitySet name typeName, builder => ∃ type set,
      (builder.type? typeName).filter ComplexType.isEntity = some type ∧
        builder.entitySet? name = some set ∧ set.type ≠ type
  | _, _ => False

theorem perform_of_ok {call : Registration} {builder changed : SchemaBuilder}
    (done : call.run builder = .ok changed) : call.perform builder = (changed, .ok ()) := by
  rw [perform, done]

theorem perform_of_error {call : Registration} {builder : SchemaBuilder} {error : Error}
    (failed : call.run builder = .error error) :
    call.perform builder = (builder, .error error) := by
  rw [perform, failed]

end Registration

namespace SchemaBuilder

/-- The builder after calls of which some may fail. -/
def after : SchemaBuilder → List Registration → SchemaBuilder
  | builder, [] => builder
  | builder, call :: rest => (call.perform builder).1.after rest

/-- No call, at its turn, puts an entity set over another type. -/
def KeepsSets : SchemaBuilder → List Registration → Prop
  | _, [] => True
  | builder, call :: rest => ¬ call.Overwrites builder ∧ (call.perform builder).1.KeepsSets rest

/-- What accepted calls keep holds after all calls. -/
theorem keeps_after {holds : SchemaBuilder → Prop}
    (kept : ∀ builder (call : Registration) changed, holds builder →
      call.run builder = .ok changed → holds changed)
    {builder : SchemaBuilder} (before : holds builder) (calls : List Registration) :
    holds (builder.after calls) := by
  induction calls generalizing builder with
  | nil => exact before
  | cons call rest ih =>
    rw [after]
    cases ran : call.run builder with
    | error error =>
      rw [Registration.perform_of_error ran]
      exact ih before
    | ok changed =>
      rw [Registration.perform_of_ok ran]
      exact ih (kept builder call changed before ran)

theorem addType_eq_ok {builder changed : SchemaBuilder} {type : ComplexType} :
    builder.addType type = .ok changed ↔ type.name ∉ builder.types.map ComplexType.name ∧
      changed = { builder with types := builder.types ++ [type.toSealed] } := by
  rw [addType, ← Keyed.contains_iff]
  split
  · rename_i taken
    exact ⟨fun done => (by cases done), fun both => absurd taken both.1⟩
  · rename_i new
    exact ⟨fun done => ⟨new, (Except.ok.inj done).symm⟩, fun both => by rw [both.2]⟩

/-- A type under a new name leaves the names apart. -/
theorem nodup_addType {builder : SchemaBuilder} {type : ComplexType}
    (apart : (builder.types.map ComplexType.name).Nodup)
    (new : type.name ∉ builder.types.map ComplexType.name) :
    ((builder.types ++ [type.toSealed]).map ComplexType.name).Nodup := by
  rw [List.map_append, List.nodup_append]
  refine ⟨apart, List.pairwise_singleton _ _, ?_⟩
  rintro name old other single rfl
  rw [List.map_singleton, List.mem_singleton] at single
  exact new (single ▸ old)

/-- Types stay as they are and where they are, entity sets and annotated elements under their names
where they are, and the annotations of an element in front of later ones. -/
structure Extends (builder changed : SchemaBuilder) : Prop where
  namespaceName : changed.namespaceName = builder.namespaceName
  types : builder.types <+: changed.types
  setNames : builder.entitySets.map EntitySet.name <+: changed.entitySets.map EntitySet.name
  targets : builder.annotations.map Prod.fst <+: changed.annotations.map Prod.fst
  notes : ∀ target, builder.annotationsOf target <+: changed.annotationsOf target

namespace Extends

variable {builder changed last : SchemaBuilder}

theorem refl (builder : SchemaBuilder) : builder.Extends builder :=
  ⟨rfl, List.prefix_refl _, List.prefix_refl _, List.prefix_refl _, fun _ => List.prefix_refl _⟩

theorem trans (first : builder.Extends changed) (second : changed.Extends last) :
    builder.Extends last :=
  ⟨second.namespaceName.trans first.namespaceName, first.types.trans second.types,
    first.setNames.trans second.setNames, first.targets.trans second.targets,
    fun target => (first.notes target).trans (second.notes target)⟩

end Extends

/-- Putting an item under a key keeps the keys in their places. -/
theorem prefix_map_put {α κ : Type} [DecidableEq κ] (keyOf : α → κ) (item : α) (items : List α) :
    items.map keyOf <+: (Keyed.put keyOf item items).map keyOf := by
  rw [Keyed.map_keyOf_put]
  split
  · exact List.prefix_refl _
  · exact List.prefix_append _ _

theorem lookup_eq_find? {κ α : Type} [DecidableEq κ] (key : κ) (items : List (κ × α)) :
    items.lookup key = (Keyed.find? Prod.fst key items).map Prod.snd := by
  induction items with
  | nil => rfl
  | cons item rest ih =>
    rw [List.lookup_cons, Keyed.find?_cons, ih]
    by_cases same : item.1 = key
    · rw [if_pos same, beq_iff_eq.2 same.symm]
      rfl
    · have other : (key == item.1) = false := beq_eq_false_iff_ne.2 fun equal => same equal.symm
      rw [if_neg same, other]

/-- The annotations of an element after one more is attached. -/
theorem annotationsOf_put (builder : SchemaBuilder) (resolved target : AnnotationTarget)
    (notes : List Annotation) :
    ({ builder with
      annotations := Keyed.put Prod.fst (resolved, notes) builder.annotations } :
        SchemaBuilder).annotationsOf target =
      if resolved = target then notes else builder.annotationsOf target := by
  simp only [annotationsOf, lookup_eq_find?, Keyed.find?_put]
  by_cases same : resolved = target
  · rw [if_pos same, if_pos same]
    rfl
  · rw [if_neg same, if_neg same]

theorem eq_of_annotate {builder changed : SchemaBuilder} {target : AnnotationTarget}
    {note : Annotation} (done : builder.annotate target note = .ok changed) :
    ∃ resolved, builder.resolveTarget target = .ok resolved ∧ changed = { builder with
      annotations := Keyed.put Prod.fst (resolved, builder.annotationsOf resolved ++ [note])
        builder.annotations } := by
  obtain ⟨resolved, found, result⟩ := Result.bind_eq_ok done
  exact ⟨resolved, found, (Except.ok.inj result).symm⟩

theorem extends_of_run {call : Registration} {builder changed : SchemaBuilder}
    (done : call.run builder = .ok changed) : builder.Extends changed := by
  cases call with
  | addType type =>
    rw [eq_of_addType done]
    exact { Extends.refl builder with types := List.prefix_append _ _ }
  | addEntitySet name typeName =>
    obtain ⟨type, -, rfl⟩ := eq_of_addEntitySet done
    exact { Extends.refl builder with setNames := prefix_map_put _ _ _ }
  | annotate target note =>
    obtain ⟨resolved, -, rfl⟩ := eq_of_annotate done
    refine { Extends.refl builder with targets := prefix_map_put _ _ _, notes := ?_ }
    intro other
    rw [annotationsOf_put]
    split
    · rename_i same
      rw [same]
      exact List.prefix_append _ _
    · exact List.prefix_refl _

theorem extends_after (builder : SchemaBuilder) (calls : List Registration) :
    builder.Extends (builder.after calls) :=
  keeps_after (fun _ _ _ before done => before.trans (extends_of_run done)) (.refl builder) calls

/-- Items stay in front of what comes of putting another one exactly if it takes no place of an item
that it is different from. -/
theorem prefix_put_iff {α κ : Type} [DecidableEq κ] (keyOf : α → κ) (item : α) (items : List α) :
    items <+: Keyed.put keyOf item items ↔
      ∀ held, Keyed.find? keyOf (keyOf item) items = some held → held = item := by
  induction items with
  | nil =>
    refine ⟨fun _ held found => ?_, fun _ => List.nil_prefix⟩
    cases found
  | cons first rest ih =>
    rw [Keyed.put, Keyed.find?_cons]
    by_cases same : keyOf first = keyOf item
    · rw [if_pos same, if_pos same, List.cons_prefix_cons]
      refine ⟨fun both held found => ?_, fun only => ⟨only first rfl, List.prefix_refl _⟩⟩
      exact (Option.some.inj found).symm.trans both.1
    · rw [if_neg same, if_neg same, List.cons_prefix_cons, ih]
      exact ⟨fun both => both.2, fun only => ⟨rfl, only⟩⟩

/-- An accepted call keeps the entity sets exactly if it overwrites none. -/
theorem prefix_entitySets_iff {call : Registration} {builder changed : SchemaBuilder}
    (done : call.run builder = .ok changed) :
    builder.entitySets <+: changed.entitySets ↔ ¬ call.Overwrites builder := by
  cases call with
  | addType type =>
    rw [eq_of_addType done]
    exact ⟨fun _ => id, fun _ => List.prefix_refl _⟩
  | annotate target note =>
    obtain ⟨resolved, -, rfl⟩ := eq_of_annotate done
    exact ⟨fun _ => id, fun _ => List.prefix_refl _⟩
  | addEntitySet name typeName =>
    rw [Registration.run, addEntitySet] at done
    cases known : (builder.type? typeName).filter ComplexType.isEntity with
    | none =>
      rw [known] at done
      cases done
    | some type =>
      rw [known] at done
      cases done
      refine (prefix_put_iff EntitySet.name ⟨name, type⟩ builder.entitySets).trans ⟨?_, ?_⟩
      · rintro only ⟨other, set, found, taken, different⟩
        have equal : type = other := Option.some.inj (known.symm.trans found)
        exact different ((congrArg EntitySet.type (only set taken)).trans equal)
      · intro spares held taken
        have named : held.name = name := (Keyed.keyOf_of_find? _ taken).1
        by_cases same : held.type = type
        · rw [← named, ← same]
        · exact absurd ⟨type, held, known, taken, same⟩ spares

theorem prefix_entitySets_perform_iff (call : Registration) (builder : SchemaBuilder) :
    builder.entitySets <+: (call.perform builder).1.entitySets ↔ ¬ call.Overwrites builder := by
  cases ran : call.run builder with
  | ok changed =>
    rw [Registration.perform_of_ok ran]
    exact prefix_entitySets_iff ran
  | error error =>
    rw [Registration.perform_of_error ran]
    refine ⟨fun _ overwrites => ?_, fun _ => List.prefix_refl _⟩
    cases call with
    | addEntitySet name typeName =>
      obtain ⟨type, -, known, -⟩ := overwrites
      rw [Registration.run, addEntitySet, known] at ran
      cases ran
    | addType type => exact overwrites
    | annotate target note => exact overwrites

theorem prefix_entitySets_after {builder : SchemaBuilder} {calls : List Registration}
    (keeps : builder.KeepsSets calls) : builder.entitySets <+: (builder.after calls).entitySets := by
  induction calls generalizing builder with
  | nil => exact List.prefix_refl _
  | cons call rest ih =>
    obtain ⟨spares, later⟩ := keeps
    exact ((prefix_entitySets_perform_iff call builder).2 spares).trans (ih later)

/-- Names stand for one type or entity set each, types are sealed, the sets are over registered
entity types, and what is annotated is registered. -/
structure IsConsistent (builder : SchemaBuilder) : Prop where
  typesApart : (builder.types.map ComplexType.name).Nodup
  areSealed : ∀ type ∈ builder.types, type.isSealed = true
  setsApart : (builder.entitySets.map EntitySet.name).Nodup
  sets : ∀ set ∈ builder.entitySets, set.type ∈ builder.types ∧ set.type.isEntity = true
  targets : ∀ entry ∈ builder.annotations, entry.1 ∈ (⟨builder⟩ : Schema).targets

theorem mem_targets {schema : Schema} {target : AnnotationTarget} : target ∈ schema.targets ↔
    target = .service ∨ ∃ type ∈ schema.types, target = .type type.name ∨
      ∃ property ∈ type.properties, target = .property type.name property.name := by
  simp only [Schema.targets, List.mem_cons, List.mem_flatMap, List.mem_map, eq_comm]

theorem resolveTarget_type_eq_ok {builder : SchemaBuilder} {name : String}
    {resolved : AnnotationTarget} : builder.resolveTarget (.type name) = .ok resolved ↔
      ∃ type, builder.type? name = some type ∧ resolved = .type type.name := by
  rw [resolveTarget]
  cases known : builder.type? name with
  | none =>
    refine ⟨fun found => (by cases found), ?_⟩
    rintro ⟨type, found, -⟩
    cases found
  | some type =>
    refine ⟨fun found => ⟨type, rfl, (Except.ok.inj found).symm⟩, ?_⟩
    rintro ⟨other, found, rfl⟩
    cases found
    rfl

theorem resolveTarget_property_eq_ok {builder : SchemaBuilder} {typeName name : String}
    {resolved : AnnotationTarget} : builder.resolveTarget (.property typeName name) = .ok resolved ↔
      ∃ type, builder.type? typeName = some type ∧ (type.property? name).isSome = true ∧
        resolved = .property type.name name := by
  rw [resolveTarget]
  cases known : builder.type? typeName with
  | none =>
    refine ⟨fun found => (by cases found), ?_⟩
    rintro ⟨type, found, -⟩
    cases found
  | some type =>
    dsimp only
    by_cases declared : (type.property? name).isSome
    · rw [if_pos declared]
      refine ⟨fun found => ⟨type, rfl, declared, (Except.ok.inj found).symm⟩, ?_⟩
      rintro ⟨other, found, -, rfl⟩
      cases found
      rfl
    · rw [if_neg declared]
      refine ⟨fun found => (by cases found), ?_⟩
      rintro ⟨other, found, there, -⟩
      cases found
      exact absurd there declared

/-- A target that is resolved is one of the elements. -/
theorem mem_targets_of_resolveTarget {builder : SchemaBuilder} {target resolved : AnnotationTarget}
    (found : builder.resolveTarget target = .ok resolved) :
    resolved ∈ (⟨builder⟩ : Schema).targets := by
  rw [mem_targets]
  cases target with
  | service =>
    cases found
    exact .inl rfl
  | type name =>
    obtain ⟨type, known, rfl⟩ := resolveTarget_type_eq_ok.1 found
    exact .inr ⟨type, mem_of_type? known, .inl rfl⟩
  | property typeName name =>
    obtain ⟨type, known, declared, rfl⟩ := resolveTarget_property_eq_ok.1 found
    obtain ⟨property, inside⟩ := Option.isSome_iff_exists.1 declared
    obtain ⟨named, among⟩ := Keyed.keyOf_of_find? _ inside
    exact .inr ⟨type, mem_of_type? known, .inr ⟨property, among, by rw [named]⟩⟩

namespace IsConsistent

variable {builder changed : SchemaBuilder}

theorem empty (namespaceName : String) : (SchemaBuilder.empty namespaceName).IsConsistent :=
  ⟨List.nodup_nil, fun _ inside => (by cases inside), List.nodup_nil,
    fun _ inside => (by cases inside), fun _ inside => (by cases inside)⟩

theorem addType (consistent : builder.IsConsistent) {type : ComplexType}
    (done : builder.addType type = .ok changed) : changed.IsConsistent := by
  obtain ⟨new, rfl⟩ := addType_eq_ok.1 done
  refine ⟨nodup_addType consistent.typesApart new, ?_, consistent.setsApart, fun set inside => ?_,
    fun entry inside => ?_⟩
  · intro other inside
    rcases List.mem_append.1 inside with old | added
    · exact consistent.areSealed other old
    · rw [List.mem_singleton.1 added]
      rfl
  · exact ⟨List.mem_append_left _ (consistent.sets set inside).1, (consistent.sets set inside).2⟩
  · rw [mem_targets]
    rcases mem_targets.1 (consistent.targets entry inside) with service | ⟨other, old, named⟩
    · exact .inl service
    · exact .inr ⟨other, List.mem_append_left _ old, named⟩

theorem addEntitySet (consistent : builder.IsConsistent) {name typeName : String}
    (done : builder.addEntitySet name typeName = .ok changed) : changed.IsConsistent := by
  rw [SchemaBuilder.addEntitySet] at done
  cases known : (builder.type? typeName).filter ComplexType.isEntity with
  | none =>
    rw [known] at done
    cases done
  | some type =>
    rw [known] at done
    cases done
    obtain ⟨found, isEntity⟩ := Option.filter_eq_some_iff.1 known
    refine ⟨consistent.typesApart, consistent.areSealed,
      Keyed.nodup_put _ _ _ consistent.setsApart, fun set inside => ?_, consistent.targets⟩
    rcases Keyed.mem_put _ inside with rfl | old
    · exact ⟨mem_of_type? found, isEntity⟩
    · exact consistent.sets set old

theorem annotate (consistent : builder.IsConsistent) {target : AnnotationTarget}
    {note : Annotation} (done : builder.annotate target note = .ok changed) :
    changed.IsConsistent := by
  obtain ⟨resolved, found, rfl⟩ := eq_of_annotate done
  refine ⟨consistent.typesApart, consistent.areSealed, consistent.setsApart, consistent.sets,
    fun entry inside => ?_⟩
  rcases Keyed.mem_put _ inside with rfl | old
  · exact mem_targets_of_resolveTarget found
  · exact consistent.targets entry old

theorem run (consistent : builder.IsConsistent) {call : Registration}
    (done : call.run builder = .ok changed) : changed.IsConsistent := by
  cases call with
  | addType type => exact consistent.addType done
  | addEntitySet name typeName => exact consistent.addEntitySet done
  | annotate target note => exact consistent.annotate done

/-- A registered type is found under its name. -/
theorem type?_of_mem (consistent : builder.IsConsistent) {type : ComplexType}
    (registered : type ∈ builder.types) : builder.type? type.name = some type := by
  rw [type?, Keyed.find?_of_mem _ consistent.typesApart registered]
  rfl

end IsConsistent

theorem isConsistent_of_calls (namespaceName : String) (calls : List Registration) :
    ((empty namespaceName).after calls).IsConsistent :=
  keeps_after (fun _ _ _ consistent done => consistent.run done) (.empty namespaceName) calls

/-- However a builder is called, what is registered stays: types and annotations whatever is called
later, and entity sets as long as no call puts one over another type under a name that is taken. A
call that fails changes nothing, and one that is accepted loses an entity set exactly if it overwrites
one. -/
theorem registered_stays (namespaceName : String) (earlier later : List Registration) :
    let builder := (empty namespaceName).after earlier
    let changed := builder.after later
    builder.Extends changed ∧
      (∀ type ∈ builder.types, changed.type? type.name = some type) ∧
      (builder.KeepsSets later → builder.entitySets <+: changed.entitySets ∧
        ∀ set ∈ builder.entitySets, changed.entitySet? set.name = some set) ∧
      ∀ call : Registration,
        (∀ error, (call.perform builder).2 = .error error →
          (call.perform builder).1 = builder) ∧
        (builder.entitySets <+: (call.perform builder).1.entitySets ↔
          ¬ call.Overwrites builder) := by
  intro builder changed
  have consistent : changed.IsConsistent :=
    keeps_after (fun _ _ _ before done => before.run done)
      (isConsistent_of_calls namespaceName earlier) later
  have extension : builder.Extends changed := extends_after builder later
  refine ⟨extension, fun type registered => ?_, fun keeps => ?_, fun call => ⟨?_, ?_⟩⟩
  · exact consistent.type?_of_mem (extension.types.subset registered)
  · have stay := prefix_entitySets_after keeps
    exact ⟨stay, fun set registered =>
      Keyed.find?_of_mem _ consistent.setsApart (stay.subset registered)⟩
  · intro error failed
    cases ran : call.run builder with
    | error error => rw [Registration.perform_of_error ran]
    | ok changed =>
      rw [Registration.perform_of_ok ran] at failed
      cases failed
  · exact prefix_entitySets_perform_iff call builder

/-- An entity type with a text for its key. -/
def keyedType (name : String) (others : List Property) : ComplexType :=
  ⟨name, true, some "id", false, false, .declared "id" (.primitive .string) :: others⟩

def crewCalls : List Registration :=
  [.addType (keyedType "air.Pilot" []), .addType (keyedType "air.Flight" []),
    .addEntitySet "crew" "Pilot"]

/-- A type is refused that is registered, a set is put again as it is, and an annotation is added. -/
theorem registered_stays_crew :
    let builder := (empty "air").after crewCalls
    let later : List Registration := [.addType (keyedType "air.Pilot" []),
      .addEntitySet "crew" "air.Pilot", .annotate (.type "Flight") (.description "a flight")]
    builder.KeepsSets later ∧ builder.Extends (builder.after later) ∧
      builder.entitySets <+: (builder.after later).entitySets ∧
      ((Registration.addEntitySet "crew" "Gate").perform builder).1 = builder ∧
      builder.entitySets <+:
        ((Registration.addEntitySet "flights" "Flight").perform builder).1.entitySets := by
  intro builder later
  have keeps : builder.KeepsSets later := by
    refine ⟨id, ?_, id, trivial⟩
    rintro ⟨type, set, known, taken, different⟩
    cases known
    cases taken
    exact different rfl
  have fresh : ¬ (Registration.addEntitySet "flights" "Flight").Overwrites builder := by
    rintro ⟨type, set, -, taken, -⟩
    cases taken
  obtain ⟨extension, -, sets, calls⟩ := registered_stays "air" crewCalls later
  exact ⟨keeps, extension, (sets keeps).1,
    (calls (.addEntitySet "crew" "Gate")).1 (.unknownType "Gate") rfl, (calls _).2.2 fresh⟩

/-- A set of pilots that becomes one of flights. -/
theorem entitySet_overwritten :
    let builder := (empty "air").after crewCalls
    let call := Registration.addEntitySet "crew" "Flight"
    (builder.entitySet? "crew").map (·.type.name) = some "air.Pilot" ∧
      (call.perform builder).2 = .ok () ∧
      ((call.perform builder).1.entitySet? "crew").map (·.type.name) = some "air.Flight" :=
  ⟨rfl, rfl, rfl⟩

end SchemaBuilder

end EdmQuery
