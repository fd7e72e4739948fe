import Mathlib.Data.List.Nodup
import EdmQuery.Proofs.KeyedValues
import EdmQuery.Proofs.LaidOutValues

set_option autoImplicit false

namespace EdmQuery

/-- Entries have different keys, each of them the subject, the sign and something else, and values
without repeated names. -/
structure Metadata.IsKeyed (metadata : Metadata) : Prop where
  apart : (metadata.entries.map Prod.fst).Nodup
  spelled : ∀ entry ∈ metadata.entries, ∃ rest, entry.1 = metadata.subject ++ "@" ++ rest
  values : ∀ entry ∈ metadata.entries, entry.2.namesApart = true

namespace Metadata

variable {metadata : Metadata}

theorem isKeyed_empty (level : MetadataLevel) (subject : String) :
    (empty level subject).IsKeyed :=
  ⟨.nil, fun _ none => (by cases none), fun _ none => (by cases none)⟩

theorem IsKeyed.put (keyed : metadata.IsKeyed) (rest : String) {value : Json}
    (apart : value.namesApart = true) :
    ({ metadata with
      entries := Keyed.putPair (metadata.subject ++ "@" ++ rest) value metadata.entries } :
        Metadata).IsKeyed := by
  refine ⟨Keyed.nodup_put _ _ _ keyed.apart, fun entry inside => ?_, fun entry inside => ?_⟩
  · rcases Keyed.mem_put _ inside with rfl | old
    · exact ⟨rest, rfl⟩
    · exact keyed.spelled entry old
  · rcases Keyed.mem_put _ inside with rfl | old
    · exact apart
    · exact keyed.values entry old

/-- Adding to control information keeps the keys apart and the subject. -/
structure Extends (before after : Metadata) : Prop where
  subject_eq : after.subject = before.subject
  isKeyed : before.IsKeyed → after.IsKeyed

theorem Extends.refl (metadata : Metadata) : metadata.Extends metadata :=
  ⟨rfl, fun keyed => keyed⟩

theorem Extends.trans {first second third : Metadata} (early : first.Extends second)
    (late : second.Extends third) : first.Extends third :=
  ⟨late.subject_eq.trans early.subject_eq, fun keyed => late.isKeyed (early.isKeyed keyed)⟩

theorem extends_insert (word : String) (text : String) (required : MetadataLevel) :
    metadata.Extends (metadata.insert word (.string text) required) := by
  rw [insert]
  split
  · refine ⟨rfl, fun keyed => ?_⟩
    have key : metadata.subject ++ "@odata." ++ word =
        metadata.subject ++ "@" ++ ("odata." ++ word) := by
      simp only [String.append_assoc]
      rfl
    rw [key]
    exact keyed.put _ rfl
  · exact .refl _

theorem extends_insertCustom (key : String) {value : Json} (apart : value.namesApart = true) :
    metadata.Extends (metadata.insertCustom key value) :=
  ⟨rfl, fun keyed => keyed.put _ apart⟩

theorem extends_insertCustoms {entries : List (String × Json)}
    (apart : ∀ entry ∈ entries, entry.2.namesApart = true) :
    metadata.Extends (metadata.insertCustoms entries) := by
  induction entries generalizing metadata with
  | nil => exact .refl _
  | cons entry rest ih =>
    rw [List.forall_mem_cons] at apart
    exact (extends_insertCustom entry.1 apart.1).trans (ih apart.2)

/-- What stands in front of the first sign in a key. -/
def front (key : String) : List Char := key.toList.takeWhile fun char => char != '@'

/-- A key tells its subject, if there is no sign in the subject itself. -/
theorem IsKeyed.front_eq (keyed : metadata.IsKeyed) (plain : '@' ∉ metadata.subject.toList)
    {key : String} (among : key ∈ metadata.entries.map Prod.fst) :
    front key = metadata.subject.toList ∧ '@' ∈ key.toList := by
  obtain ⟨entry, present, rfl⟩ := List.mem_map.1 among
  obtain ⟨rest, spelled⟩ := keyed.spelled entry present
  have ahead : ∀ char ∈ metadata.subject.toList, (char != '@') = true :=
    fun char inside => bne_iff_ne.2 fun sign => plain (sign ▸ inside)
  have text : entry.1.toList = metadata.subject.toList ++ '@' :: rest.toList := by
    rw [spelled, String.toList_append, String.toList_append, List.append_assoc]
    rfl
  rw [front, text, List.takeWhile_append_of_pos ahead]
  exact ⟨List.append_nil _, List.mem_append_right _ List.mem_cons_self⟩

end Metadata

namespace ComplexValue

variable {container : ComplexValue}

/-- The control information of an instance has no name in front of the sign. -/
theorem extends_controlInfo (level : MetadataLevel) (keyed : container.IsKeyed) :
    (Metadata.empty level "").Extends (container.controlInfo level) := by
  rw [controlInfo]
  refine Metadata.Extends.trans ?_ (Metadata.extends_insertCustoms keyed.metadata)
  have named : (Metadata.empty level "").Extends
      (if container.type.isUntyped then Metadata.empty level ""
        else (Metadata.empty level "").insert "type" (.string ("#" ++ container.type.name))
          .full) := by
    split
    · exact .refl _
    · exact Metadata.extends_insert ..
  generalize (if container.type.isUntyped then _ else _ : Metadata) = before at named ⊢
  refine named.trans ?_
  have tagged : ∀ after : Metadata, before.Extends after →
      before.Extends (if container.isReference then after
        else after.insert "etag" (.string container.etag) .minimal) := by
    intro after identified
    split
    · exact identified
    · exact identified.trans (Metadata.extends_insert ..)
  split
  · cases container.entityId? with
    | none => exact tagged _ (.refl _)
    | some id => exact tagged _ (Metadata.extends_insert ..)
  · exact .refl _

end ComplexValue

/-- The control information of a property has its name in front of the sign. -/
theorem PropertyValue.extends_controlInfo {binding : PropertyValue} (level : MetadataLevel)
    (apart : ∀ entry ∈ binding.metadata, entry.2.namesApart = true) :
    (Metadata.empty level binding.name).Extends (binding.controlInfo level) := by
  rw [controlInfo]
  refine Metadata.Extends.trans ?_ (Metadata.extends_insertCustoms apart)
  split
  · split
    · exact .refl _
    · exact Metadata.extends_insert ..
  · exact .refl _

/-- The keys of the control information of a property. -/
def PropertyValue.controlKeys (level : MetadataLevel) (binding : PropertyValue) : List String :=
  (binding.controlInfo level).entries.map Prod.fst

/-- A name that is not empty and has no sign of control information in it. -/
def PropertyValue.IsPlain (binding : PropertyValue) : Prop :=
  binding.name ≠ "" ∧ '@' ∉ binding.name.toList

namespace ComplexValue

/-- The keys of the control information of an instance. -/
def controlKeys (level : MetadataLevel) (container : ComplexValue) : List String :=
  (container.controlInfo level).entries.map Prod.fst

/-- What stands in an object beside control information: nothing of a reference, and of other
instances what the request asks for. -/
def writtenBindings (context : RequestContext) (container : ComplexValue) : List PropertyValue :=
  if container.isReference then []
  else container.bindings.filter fun binding => context.writes binding.property

/-- No name of a written property is a key in the same object, and no key belongs to two sources. -/
structure SourcesApart (level : MetadataLevel) (context : RequestContext)
    (container : ComplexValue) : Prop where
  fromInstance : ∀ key ∈ container.controlKeys level,
    ∀ binding ∈ container.writtenBindings context,
      key ≠ binding.name ∧ key ∉ binding.controlKeys level
  eachOther : (container.writtenBindings context).Pairwise fun binding other =>
    binding.name ∉ other.controlKeys level ∧ other.name ∉ binding.controlKeys level ∧
      ∀ key ∈ binding.controlKeys level, key ∉ other.controlKeys level

section

variable {level : MetadataLevel} {context : RequestContext} {container : ComplexValue}

theorem mem_bindings_of_written {binding : PropertyValue}
    (asked : binding ∈ container.writtenBindings context) :
    binding ∈ container.bindings ∧ context.writes binding.property = true := by
  rw [writtenBindings] at asked
  split at asked
  · cases asked
  · exact List.mem_filter.1 asked

/-- Different properties that are written have different names. -/
theorem IsKeyed.written_apart (keyed : container.IsKeyed) :
    (container.writtenBindings context).Pairwise fun binding other =>
      binding.name ≠ other.name := by
  rw [writtenBindings]
  split
  · exact .nil
  · exact (List.pairwise_map.1 keyed.apart).filter _

theorem tree_eq_written :
    container.tree level context = .object ((container.controlInfo level).entries ++
      (container.writtenBindings context).flatMap (PropertyValue.members level context)) := by
  rw [tree_eq, writtenBindings]
  split
  · rfl
  · rw [flatMap_members_filter]

theorem names_members {binding : PropertyValue} (writes : context.writes binding.property = true) :
    (binding.members level context).map Prod.fst = binding.name :: binding.controlKeys level := by
  rw [PropertyValue.members, if_pos writes]
  rfl

/-- A name is no key of its own control information. -/
theorem IsKeyed.nodup_members (keyed : container.IsKeyed) {binding : PropertyValue}
    (asked : binding ∈ container.writtenBindings context) :
    ((binding.members level context).map Prod.fst).Nodup := by
  obtain ⟨inside, writes⟩ := mem_bindings_of_written asked
  have control := binding.extends_controlInfo level (keyed.bindings binding inside)
  have own := control.isKeyed (Metadata.isKeyed_empty level binding.name)
  rw [names_members writes, List.nodup_cons]
  refine ⟨fun among => ?_, own.apart⟩
  obtain ⟨entry, present, named⟩ := List.mem_map.1 among
  obtain ⟨rest, spelled⟩ := own.spelled entry present
  rw [control.subject_eq, named] at spelled
  have lengths := congrArg String.length spelled
  rw [String.length_append, String.length_append] at lengths
  change _ = binding.name.length + 1 + _ at lengths
  omega

theorem disjoint_members {binding other : PropertyValue}
    (writes : context.writes binding.property = true)
    (writes' : context.writes other.property = true) :
    List.Disjoint ((binding.members level context).map Prod.fst)
        ((other.members level context).map Prod.fst) ↔
      binding.name ≠ other.name ∧ binding.name ∉ other.controlKeys level ∧
        other.name ∉ binding.controlKeys level ∧
          ∀ key ∈ binding.controlKeys level, key ∉ other.controlKeys level := by
  rw [names_members writes, names_members writes', List.disjoint_cons_left,
    List.disjoint_cons_right, List.mem_cons, not_or, and_assoc]
  exact .rfl

/-- The names in an object are apart where its sources are. -/
theorem IsKeyed.nodup_names (keyed : container.IsKeyed) :
    (((container.controlInfo level).entries ++ (container.writtenBindings context).flatMap
        (PropertyValue.members level context)).map Prod.fst).Nodup ↔
      container.SourcesApart level context := by
  have own := (container.extends_controlInfo level keyed).isKeyed (Metadata.isKeyed_empty level "")
  rw [List.map_append, List.map_flatMap, List.nodup_append, List.nodup_flatMap]
  constructor
  · rintro ⟨-, ⟨-, pairs⟩, front⟩
    refine ⟨fun key control binding asked => ?_, ?_⟩
    · have among : ∀ name ∈ binding.name :: binding.controlKeys level, key ≠ name := by
        intro name among
        rw [← names_members (mem_bindings_of_written asked).2] at among
        exact front key control name (List.mem_flatMap.2 ⟨binding, asked, among⟩)
      rw [List.forall_mem_cons] at among
      exact ⟨among.1, fun shared => among.2 key shared rfl⟩
    · refine pairs.imp_of_mem fun {binding other} asked asked' apart => ?_
      exact ((disjoint_members (mem_bindings_of_written asked).2
        (mem_bindings_of_written asked').2).1 apart).2
  · intro sources
    refine ⟨own.apart, ⟨fun binding asked => keyed.nodup_members asked, ?_⟩, ?_⟩
    · refine (keyed.written_apart.and sources.eachOther).imp_of_mem
        fun {binding other} asked asked' apart => ?_
      exact (disjoint_members (mem_bindings_of_written asked).2
        (mem_bindings_of_written asked').2).2 apart
    · intro key control name among
      obtain ⟨binding, asked, among⟩ := List.mem_flatMap.1 among
      rw [names_members (mem_bindings_of_written asked).2] at among
      obtain ⟨named, keys⟩ := sources.fromInstance key control binding asked
      rcases List.mem_cons.1 among with rfl | shared
      · exact named
      · exact fun same => keys (same ▸ shared)

theorem IsKeyed.front_controlKeys (keyed : container.IsKeyed) {key : String}
    (control : key ∈ container.controlKeys level) :
    Metadata.front key = [] ∧ '@' ∈ key.toList := by
  have information := container.extends_controlInfo level keyed
  have spelled := information.isKeyed (Metadata.isKeyed_empty level "")
  have bare : '@' ∉ (container.controlInfo level).subject.toList := by
    rw [information.subject_eq]
    exact List.not_mem_nil
  have found := spelled.front_eq bare control
  rwa [information.subject_eq] at found

theorem IsKeyed.front_propertyKeys (keyed : container.IsKeyed) {binding : PropertyValue}
    (inside : binding ∈ container.bindings) (plain : binding.IsPlain) {key : String}
    (control : key ∈ binding.controlKeys level) :
    Metadata.front key = binding.name.toList ∧ '@' ∈ key.toList := by
  have information := binding.extends_controlInfo level (keyed.bindings binding inside)
  have spelled := information.isKeyed (Metadata.isKeyed_empty level binding.name)
  have bare : '@' ∉ (binding.controlInfo level).subject.toList := by
    rw [information.subject_eq]
    exact plain.2
  have found := spelled.front_eq bare control
  rwa [information.subject_eq] at found

/-- Plain names are no keys, and keys about properties with plain names tell their properties. -/
theorem IsKeyed.sourcesApart_of_plain (keyed : container.IsKeyed)
    (plain : ∀ binding ∈ container.writtenBindings context, binding.IsPlain) :
    container.SourcesApart level context := by
  have keys : ∀ binding ∈ container.writtenBindings context, ∀ key ∈ binding.controlKeys level,
      Metadata.front key = binding.name.toList ∧ '@' ∈ key.toList := fun binding asked _ =>
    keyed.front_propertyKeys (mem_bindings_of_written asked).1 (plain binding asked)
  have unnamed : ∀ binding ∈ container.writtenBindings context,
      ∀ other ∈ container.writtenBindings context, binding.name ∉ other.controlKeys level :=
    fun binding asked other asked' among =>
      (plain binding asked).2 (keys other asked' binding.name among).2
  refine ⟨fun key control binding asked => ⟨?_, fun shared => ?_⟩, ?_⟩
  · rintro rfl
    exact (plain binding asked).2 (keyed.front_controlKeys control).2
  · have empty := (keys binding asked key shared).1
    rw [(keyed.front_controlKeys control).1] at empty
    exact (plain binding asked).1 (String.toList_eq_nil_iff.1 empty.symm)
  · refine keyed.written_apart.imp_of_mem fun {binding other} asked asked' different => ?_
    refine ⟨unnamed binding asked other asked', unnamed other asked' binding asked, ?_⟩
    intro key control shared
    have same := (keys binding asked key control).1.symm.trans (keys other asked' key shared).1
    exact different (String.toList_inj.1 same)

end

end ComplexValue

section

variable {level : MetadataLevel}

mutual

/-- The names in a document for a value are apart where they are for what it holds. -/
theorem Value.namesApart_tree (context : RequestContext) (value : Value) :
    (value.tree level context).namesApart = true ↔
      ∀ inner ∈ value.held, (inner.tree level context).namesApart = true := by
  cases value with
  | primitive value =>
    refine iff_of_true ?_ fun _ none => by cases none
    rw [Value.tree]
    exact value.namesApart_toJson
  | complex value => rw [Value.tree, Value.held, List.forall_mem_singleton]
  | collection items =>
    rw [Value.tree, Json.namesApart_array]
    exact Value.namesApart_itemTrees context items

theorem Value.namesApart_itemTrees (context : RequestContext) (items : List Value) :
    (∀ item ∈ Value.itemTrees level context items, item.namesApart = true) ↔
      ∀ inner ∈ Value.heldByItems items, (inner.tree level context).namesApart = true := by
  cases items with
  | nil => exact iff_of_true (fun _ none => by cases none) fun _ none => by cases none
  | cons item rest =>
    rw [Value.itemTrees, Value.heldByItems, List.forall_mem_cons, List.forall_mem_append,
      Value.namesApart_tree context item, Value.namesApart_itemTrees context rest]

end

theorem PropertyValue.namesApart_optionTree (context : RequestContext) (binding : PropertyValue) :
    (Value.optionTree level context binding.value?).namesApart = true ↔
      ∀ inner ∈ binding.held, (inner.tree level context).namesApart = true := by
  rw [PropertyValue.held]
  cases binding.value? with
  | none => exact iff_of_true rfl fun _ none => by cases none
  | some value => exact value.namesApart_tree context

namespace ComplexValue

/-- One object, by its sources and by what it holds. -/
theorem IsKeyed.namesApart_tree {context : RequestContext} {container : ComplexValue}
    (keyed : container.IsKeyed) :
    (container.tree level context).namesApart = true ↔
      container.SourcesApart level context ∧
        ∀ binding ∈ container.writtenBindings context, ∀ inner ∈ binding.held,
          (inner.tree level (context.optionsFor binding.property)).namesApart = true := by
  have own := (container.extends_controlInfo level keyed).isKeyed (Metadata.isKeyed_empty level "")
  have members : ∀ binding ∈ container.writtenBindings context,
      ((∀ member ∈ binding.members level context, member.2.namesApart = true) ↔
        ∀ inner ∈ binding.held,
          (inner.tree level (context.optionsFor binding.property)).namesApart = true) := by
    intro binding asked
    obtain ⟨inside, writes⟩ := mem_bindings_of_written asked
    have information := (binding.extends_controlInfo level
      (keyed.bindings binding inside)).isKeyed (Metadata.isKeyed_empty level binding.name)
    rw [PropertyValue.members, if_pos writes, List.forall_mem_cons,
      PropertyValue.namesApart_optionTree]
    exact and_iff_left information.values
  rw [tree_eq_written, Json.namesApart_object, keyed.nodup_names, List.forall_mem_append]
  refine and_congr_right fun _ => ⟨fun all binding asked => ?_, fun all => ⟨own.values, ?_⟩⟩
  · refine (members binding asked).1 fun member among => ?_
    exact all.2 member (List.mem_flatMap.2 ⟨binding, asked, among⟩)
  · intro member among
    obtain ⟨binding, asked, among⟩ := List.mem_flatMap.1 among
    exact (members binding asked).2 (all binding asked) member among

/-- The instances that are written with an instance, itself among them, each with the request that
it is written for. -/
inductive Writes : RequestContext → ComplexValue → RequestContext → ComplexValue → Prop
  | self (context : RequestContext) (container : ComplexValue) :
      Writes context container context container
  | nested {context options : RequestContext} {container inner object : ComplexValue}
      {binding : PropertyValue} (asked : binding ∈ container.writtenBindings context)
      (held : inner ∈ binding.held)
      (within : Writes (context.optionsFor binding.property) inner options object) :
      Writes context container options object

end ComplexValue

end

mutual

theorem Value.sizeOf_held {value : Value} {inner : ComplexValue} (held : inner ∈ value.held) :
    sizeOf inner < sizeOf value := by
  cases value with
  | primitive value => cases held
  | complex value =>
    rw [Value.held, List.mem_singleton] at held
    subst held
    rw [Value.complex.sizeOf_spec]
    omega
  | collection items =>
    have smaller := Value.sizeOf_heldByItems held
    rw [Value.collection.sizeOf_spec]
    omega

theorem Value.sizeOf_heldByItems {items : List Value} {inner : ComplexValue}
    (held : inner ∈ Value.heldByItems items) : sizeOf inner < sizeOf items := by
  cases items with
  | nil => cases held
  | cons item rest =>
    rw [List.cons.sizeOf_spec]
    rw [Value.heldByItems, List.mem_append] at held
    rcases held with first | later
    · have smaller := Value.sizeOf_held first
      omega
    · have smaller := Value.sizeOf_heldByItems later
      omega

end

namespace ComplexValue

theorem sizeOf_held {container inner : ComplexValue} {binding : PropertyValue}
    (inside : binding ∈ container.bindings) (held : inner ∈ binding.held) :
    sizeOf inner < sizeOf container := by
  obtain ⟨id, type, bindings, parent?, entitySet?, isReference, metadata⟩ := container
  obtain ⟨property, value?, owner?, entries⟩ := binding
  have outer := List.sizeOf_lt_of_mem inside
  cases value? with
  | none => cases held
  | some value =>
    have inner := Value.sizeOf_held held
    rw [PropertyValue.mk.sizeOf_spec, Option.some.sizeOf_spec] at outer
    dsimp only at outer
    rw [ComplexValue.mk.sizeOf_spec]
    omega

/-- Induction on what is held at any depth. -/
theorem induction_held {holds : ComplexValue → Prop}
    (step : ∀ container, (∀ binding ∈ container.bindings, ∀ inner ∈ binding.held, holds inner) →
      holds container) (container : ComplexValue) : holds container :=
  step container fun _ inside inner held =>
    have _smaller := sizeOf_held inside held
    induction_held step inner
termination_by sizeOf container

theorem IsKeyedThroughout.of_held {container inner : ComplexValue} {binding : PropertyValue}
    (keyed : container.IsKeyedThroughout) (inside : binding ∈ container.bindings)
    (held : inner ∈ binding.held) : inner.IsKeyedThroughout := by
  intro object below
  refine keyed object (PropertyValue.mem_containers_of_mem inside ?_)
  exact PropertyValue.mem_containers_trans (PropertyValue.mem_containers_of_held held) below

/-- The names in a document are apart where the sources of every object are. -/
theorem IsKeyedThroughout.namesApart_tree {level : MetadataLevel} {context : RequestContext}
    {container : ComplexValue} (keyed : container.IsKeyedThroughout) :
    (container.tree level context).namesApart = true ↔
      ∀ options object, Writes context container options object →
        object.SourcesApart level options := by
  induction container using induction_held generalizing context with
  | step container ih =>
    rw [keyed.self.namesApart_tree]
    constructor
    · rintro ⟨own, each⟩ options object writes
      cases writes with
      | self => exact own
      | nested asked held within =>
        have inside := (mem_bindings_of_written asked).1
        have inner := each _ asked _ held
        exact (ih _ inside _ held (keyed.of_held inside held)).1 inner options object within
    · intro all
      refine ⟨all context container (.self context container), fun binding asked inner held => ?_⟩
      have inside := (mem_bindings_of_written asked).1
      refine (ih _ inside _ held (keyed.of_held inside held)).2 fun options object within => ?_
      exact all options object (.nested asked held within)

theorem Writes.isKeyed {context options : RequestContext} {container object : ComplexValue}
    (writes : Writes context container options object) (keyed : container.IsKeyedThroughout) :
    object.IsKeyed := by
  induction writes with
  | self => exact keyed.self
  | nested asked held within ih => exact ih (keyed.of_held (mem_bindings_of_written asked).1 held)

end ComplexValue

/-- What is emitted is one document, and the names in it are apart exactly if no object has a member
or a key of control information from two sources under one name. Plain names of properties are
enough. -/
theorem Emitter.emit_namesApart {emitter : Emitter} {context : RequestContext} {layout : Layout}
    {output written : Output} {container prepared : ComplexValue} {supply after : Supply}
    (makes : emitter.MakesKeyed) (keyed : container.IsKeyedThroughout)
    (done : emitter.emit context layout output container supply =
      ((prepared, written, .ok ()), after)) :
    let document := prepared.tree context.level context
    written = output.append (String.join layout.beginValue.2 ++
        document.laidOut layout.isPretty layout.level) ∧
      (document.namesApart = true ↔
        ∀ options object, ComplexValue.Writes context prepared options object →
          object.SourcesApart context.level options) ∧
      ((∀ options object, ComplexValue.Writes context prepared options object →
          ∀ binding ∈ object.writtenBindings options, binding.IsPlain) →
        document.namesApart = true) := by
  intro document
  have prepares : emitter.Prepares maxDepth context container prepared :=
    ⟨supply, after, prepare_of_emit done⟩
  have throughout := prepares.isKeyedThroughout makes keyed
  refine ⟨emit_laidOut done, throughout.namesApart_tree, fun plain => ?_⟩
  refine throughout.namesApart_tree.2 fun options object writes => ?_
  exact (writes.isKeyed throughout).sourcesApart_of_plain (plain options object writes)

theorem Emitter.emit_namesApart_seats :
    let emitter : Emitter := ⟨fun _ _ => pure none, none⟩
    let rows := PropertyValue.unattached (.dynamic "rows" (.primitive (.integer .int64)))
      (some (.primitive (.integer ⟨.int64, 30, by decide⟩)))
    let cabin : ComplexValue := ⟨⟨1⟩, .untyped, [rows.attach ⟨1⟩], none, none, false, []⟩
    let seats := PropertyValue.unattached (.dynamic "seats" (.primitive (.integer .int64)))
      (some (.primitive (.integer ⟨.int64, 180, by decide⟩)))
    let held := PropertyValue.unattached (.dynamic "cabin" (.complex .untyped))
      (some (.complex cabin))
    let container : ComplexValue :=
      ⟨⟨0⟩, .untyped, [seats.attach ⟨0⟩, held.attach ⟨0⟩], none, none, false, []⟩
    let whole : Output := ⟨none, "\x7b\"seats\":180,\"seats@odata.type\":\"#Int64\",\"cabin\":" ++
      "\x7b\"rows\":30,\"rows@odata.type\":\"#Int64\"\x7d\x7d", 88⟩
    emitter.MakesKeyed ∧ container.IsKeyedThroughout ∧
      emitter.emit .default .compact .unlimited container ⟨2⟩ =
        ((container, whole, .ok ()), ⟨2⟩) ∧
      whole = Output.unlimited.append ((container.tree .minimal .default).laidOut false 0) ∧
      ∀ options object, ComplexValue.Writes .default container options object →
        object.SourcesApart .minimal options := by
  intro emitter rows cabin seats held container whole
  have makes : emitter.MakesKeyed := makesKeyed_of_nothing
  have keyed : container.IsKeyedThroughout := by
    refine List.forall_mem_cons.2 ⟨?_, List.forall_mem_singleton.2 ?_⟩
    · exact ComplexValue.isKeyed_of_bare (by decide) rfl rfl
    · exact ComplexValue.isKeyed_of_bare (by decide) rfl rfl
  have ready : emitter.prepare .default container ⟨2⟩ = ((container, .ok ()), ⟨2⟩) := rfl
  have written : Output.unlimited.writeTokens .compact (container.representation .default) =
      (whole, .ok ()) := by
    decide +kernel
  have done : emitter.emit .default .compact .unlimited container ⟨2⟩ =
      ((container, whole, .ok ()), ⟨2⟩) := by
    rw [emit_of_prepare ready, written]
  obtain ⟨text, apart, -⟩ := emit_namesApart makes keyed done
  have begun : String.join Layout.compact.beginValue.2 = "" := rfl
  rw [begun, String.empty_append] at text
  exact ⟨makes, keyed, done, text, apart.1 (by decide +kernel)⟩

/-- A property whose name is that of control information repeats it. -/
theorem Emitter.emit_repeats_name :
    let emitter : Emitter := ⟨fun _ _ => pure none, none⟩
    let seats := PropertyValue.unattached (.dynamic "seats" (.primitive (.integer .int64)))
      (some (.primitive (.integer ⟨.int64, 5000000000, by decide⟩)))
    let other := PropertyValue.unattached (.dynamic "seats@odata.type" (.primitive .string))
      (some (.primitive (.string "x")))
    let container : ComplexValue :=
      ⟨⟨0⟩, .untyped, [seats.attach ⟨0⟩, other.attach ⟨0⟩], none, none, false, []⟩
    let whole : Output := ⟨none, "\x7b\"seats\":5000000000,\"seats@odata.type\":\"#Int64\"," ++
      "\"seats@odata.type\":\"x\"\x7d", 71⟩
    (do
      let empty ← (ComplexValue.ofType .untyped : Build ComplexValue)
      let first ← empty.set "seats" (.raw (.int 5000000000))
      first.set "seats@odata.type" (.raw (.string "x"))).run ⟨0⟩ = (.ok container, ⟨1⟩) ∧
      emitter.MakesKeyed ∧ container.IsKeyedThroughout ∧
      emitter.emit .default .compact .unlimited container ⟨1⟩ =
        ((container, whole, .ok ()), ⟨1⟩) ∧
      whole = Output.unlimited.append ((container.tree .minimal .default).laidOut false 0) ∧
      (container.tree .minimal .default).namesApart = false := by
  intro emitter seats other container whole
  have built : (do
      let empty ← (ComplexValue.ofType .untyped : Build ComplexValue)
      let first ← empty.set "seats" (.raw (.int 5000000000))
      first.set "seats@odata.type" (.raw (.string "x"))).run ⟨0⟩ = (.ok container, ⟨1⟩) := rfl
  have keyed : container.IsKeyedThroughout := List.forall_mem_singleton.2
    (ComplexValue.isKeyed_of_bare (by decide) rfl rfl)
  have ready : emitter.prepare .default container ⟨1⟩ = ((container, .ok ()), ⟨1⟩) := rfl
  have written : Output.unlimited.writeTokens .compact (container.representation .default) =
      (whole, .ok ()) := by
    decide +kernel
  have done : emitter.emit .default .compact .unlimited container ⟨1⟩ =
      ((container, whole, .ok ()), ⟨1⟩) := by
    rw [emit_of_prepare ready, written]
  have text := emit_laidOut done
  have begun : String.join Layout.compact.beginValue.2 = "" := rfl
  rw [begun, String.empty_append] at text
  exact ⟨built, makesKeyed_of_nothing, keyed, done, text, by decide +kernel⟩

end EdmQuery
