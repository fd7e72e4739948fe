import EdmQuery.Proofs.LaidOutValues

set_option autoImplicit false

namespace EdmQuery

namespace Json

def IsScalar (value : Json) : Prop := value.array? = none ∧ value.object? = none

mutual

/-- A document is within another one that adds nothing but members of objects. -/
inductive Within : Json → Json → Prop
  | scalar {value : Json} (isScalar : value.IsScalar) : Within value value
  | array {items others : List Json} (within : ItemsWithin items others) :
      Within (.array items) (.array others)
  | object {members others : Members} (within : MembersWithin members others) :
      Within (.object members) (.object others)

/-- Items are within those at the same positions. -/
inductive ItemsWithin : List Json → List Json → Prop
  | nil : ItemsWithin [] []
  | cons {item other : Json} {rest others : List Json} (first : Within item other)
      (later : ItemsWithin rest others) : ItemsWithin (item :: rest) (other :: others)

/-- Each member is within one of the same name, and different members are within different ones. -/
inductive MembersWithin : Members → Members → Prop
  | nil (others : Members) : MembersWithin [] others
  | cons {name : String} {value other : Json} {rest others left : Members}
      (occurs : others.Perm ((name, other) :: left)) (first : Within value other)
      (later : MembersWithin rest left) : MembersWithin ((name, value) :: rest) others

end

section

variable {members others : Members}

/-- More members may stand in front. -/
theorem MembersWithin.behind (front : Members) (within : MembersWithin members others) :
    MembersWithin members (front ++ others) := by
  induction members generalizing others with
  | nil => exact .nil _
  | cons member rest ih =>
    cases within with
    | cons occurs first later =>
      exact .cons ((occurs.append_left front).trans List.perm_middle) first (ih later)

theorem MembersWithin.append {members' others' : Members} (within : MembersWithin members others)
    (behind : MembersWithin members' others') :
    MembersWithin (members ++ members') (others ++ others') := by
  induction members generalizing others with
  | nil => exact behind.behind others
  | cons member rest ih =>
    cases within with
    | cons occurs first later => exact .cons (occurs.append_right others') first (ih later)

end

mutual

theorem Within.refl (value : Json) : Within value value := by
  cases value with
  | array items => exact .array (ItemsWithin.refl items)
  | object members => exact .object (MembersWithin.refl members)
  | _ => exact .scalar ⟨rfl, rfl⟩

theorem ItemsWithin.refl (items : List Json) : ItemsWithin items items := by
  cases items with
  | nil => exact .nil
  | cons item rest => exact .cons (Within.refl item) (ItemsWithin.refl rest)

theorem MembersWithin.refl (members : Members) : MembersWithin members members := by
  match members with
  | [] => exact .nil []
  | (name, value) :: rest => exact .cons (.refl _) (Within.refl value) (MembersWithin.refl rest)

end

/-- Members of different names that are all among others. -/
theorem MembersWithin.of_subset {members others : Members} (apart : (members.map Prod.fst).Nodup)
    (subset : members ⊆ others) : MembersWithin members others := by
  induction members generalizing others with
  | nil => exact .nil others
  | cons member rest ih =>
    obtain ⟨front, back, rfl⟩ := List.append_of_mem (subset List.mem_cons_self)
    rw [List.map_cons, List.nodup_cons] at apart
    refine .cons List.perm_middle (.refl member.2) (ih apart.2 fun other inside => ?_)
    have among := subset (List.mem_cons_of_mem member inside)
    have different : other ≠ member := fun same => apart.1 (same ▸ List.mem_map_of_mem inside)
    rw [List.mem_append, List.mem_cons] at among
    rw [List.mem_append]
    exact among.imp_right (Or.resolve_left · different)

end Json

/-- Where each key stands once, putting an item takes away what was under its key. -/
theorem Keyed.mem_put_iff {α κ : Type} [DecidableEq κ] (keyOf : α → κ) {item other : α}
    {items : List α} (distinct : (items.map keyOf).Nodup) :
    other ∈ put keyOf item items ↔ other = item ∨ (other ∈ items ∧ keyOf other ≠ keyOf item) := by
  induction items with
  | nil => simp only [put, List.mem_singleton, List.not_mem_nil, false_and, or_false]
  | cons held rest ih =>
    rw [List.map_cons, List.nodup_cons] at distinct
    have later : other ∈ rest → keyOf other ≠ keyOf held :=
      fun inside same => distinct.1 (same ▸ List.mem_map_of_mem inside)
    rw [put]
    split
    · rename_i same
      rw [List.mem_cons, List.mem_cons, ← same]
      refine or_congr_right ⟨fun inside => ⟨.inr inside, later inside⟩, ?_⟩
      rintro ⟨rfl | inside, different⟩
      · exact absurd rfl different
      · exact inside
    · rename_i different
      rw [List.mem_cons, List.mem_cons, ih distinct.2]
      constructor
      · rintro (rfl | rfl | ⟨inside, other⟩)
        · exact .inr ⟨.inl rfl, different⟩
        · exact .inl rfl
        · exact .inr ⟨.inr inside, other⟩
      · rintro (rfl | ⟨rfl | inside, other⟩)
        · exact .inr (.inl rfl)
        · exact .inl rfl
        · exact .inr (.inr ⟨inside, other⟩)

namespace Metadata

variable {lower upper : Metadata}

def keys (metadata : Metadata) : List String := metadata.entries.map Prod.fst

/-- The same information at a lower and at a higher level. -/
structure Grows (lower upper : Metadata) : Prop where
  raised : lower.level.rank ≤ upper.level.rank
  subject_eq : upper.subject = lower.subject
  apart : lower.keys.Nodup
  apartUpper : upper.keys.Nodup
  subset : lower.entries ⊆ upper.entries

theorem grows_empty {level higher : MetadataLevel} (raised : level.rank ≤ higher.rank)
    (subject : String) : (empty level subject).Grows (empty higher subject) :=
  ⟨raised, rfl, .nil, .nil, List.nil_subset _⟩

/-- A custom entry is written at both levels, whatever it takes the place of. -/
theorem Grows.insertCustom (grows : lower.Grows upper) (key : String) (value : Json) :
    (lower.insertCustom key value).Grows (upper.insertCustom key value) := by
  refine ⟨grows.raised, grows.subject_eq, Keyed.nodup_put _ _ _ grows.apart,
    Keyed.nodup_put _ _ _ grows.apartUpper, fun entry inside => ?_⟩
  rw [Metadata.insertCustom, grows.subject_eq]
  refine (Keyed.mem_put_iff _ grows.apartUpper).2 ?_
  exact ((Keyed.mem_put_iff _ grows.apart).1 inside).imp_right
    fun kept => ⟨grows.subset kept.1, kept.2⟩

theorem Grows.insertCustoms (grows : lower.Grows upper) (entries : List (String × Json)) :
    (lower.insertCustoms entries).Grows (upper.insertCustoms entries) := by
  induction entries generalizing lower upper with
  | nil => exact grows
  | cons entry rest ih => exact ih (grows.insertCustom entry.1 entry.2)

/-- A word is written at the higher level if it is at the lower one. If it is at the higher one alone
it must not take the place of what the lower one has. -/
theorem Grows.insert (grows : lower.Grows upper) {word : String} (value : Json)
    (required : MetadataLevel) (new : lower.subject ++ "@odata." ++ word ∉ lower.keys) :
    (lower.insert word value required).Grows (upper.insert word value required) := by
  have different : ∀ entry ∈ lower.entries, entry.1 ≠ lower.subject ++ "@odata." ++ word :=
    fun entry inside same => new (same ▸ List.mem_map_of_mem inside)
  have stays : lower.entries ⊆
      Keyed.putPair (lower.subject ++ "@odata." ++ word) value upper.entries :=
    fun entry inside => (Keyed.mem_put_iff _ grows.apartUpper).2
      (.inr ⟨grows.subset inside, different entry inside⟩)
  rw [Metadata.insert, Metadata.insert, grows.subject_eq]
  by_cases early : lower.level.includes required = true
  · rw [if_pos early, if_pos (MetadataLevel.includes_mono grows.raised early)]
    refine ⟨grows.raised, rfl, Keyed.nodup_put _ _ _ grows.apart,
      Keyed.nodup_put _ _ _ grows.apartUpper, fun entry inside => ?_⟩
    rcases (Keyed.mem_put_iff _ grows.apart).1 inside with rfl | ⟨old, -⟩
    · exact (Keyed.mem_put_iff _ grows.apartUpper).2 (.inl rfl)
    · exact stays old
  · rw [if_neg early]
    split
    · exact ⟨grows.raised, rfl, grows.apart, Keyed.nodup_put _ _ _ grows.apartUpper, stays⟩
    · exact grows

/-- What is to be added unless the level is too low: words with their values and lowest levels. -/
abbrev Words := List (String × Json × MetadataLevel)

def insertWords (metadata : Metadata) (words : Words) : Metadata :=
  words.foldl (fun collected (word, value, required) => collected.insert word value required)
    metadata

theorem mem_keys_insert {metadata : Metadata} {word key : String} {value : Json}
    {required : MetadataLevel} (taken : key ∈ (metadata.insert word value required).keys) :
    key = metadata.subject ++ "@odata." ++ word ∨ key ∈ metadata.keys := by
  rw [Metadata.insert] at taken
  split at taken
  · obtain ⟨entry, inside, rfl⟩ := List.mem_map.1 taken
    rcases Keyed.mem_put _ inside with rfl | old
    · exact .inl rfl
    · exact .inr (List.mem_map_of_mem old)
  · exact .inr taken

theorem subject_insert (metadata : Metadata) (word : String) (value : Json)
    (required : MetadataLevel) :
    (metadata.insert word value required).subject = metadata.subject := by
  rw [Metadata.insert]
  split <;> rfl

/-- Different words do not take the place of each other. -/
theorem Grows.insertWords (grows : lower.Grows upper) {words : Words}
    (apart : (words.map Prod.fst).Nodup)
    (new : ∀ word ∈ words, lower.subject ++ "@odata." ++ word.1 ∉ lower.keys) :
    (lower.insertWords words).Grows (upper.insertWords words) := by
  induction words generalizing lower upper with
  | nil => exact grows
  | cons word rest ih =>
    rw [List.map_cons, List.nodup_cons] at apart
    rw [List.forall_mem_cons] at new
    refine ih (grows.insert word.2.1 word.2.2 new.1) apart.2 fun other inside taken => ?_
    rw [subject_insert] at taken
    rcases mem_keys_insert taken with same | old
    · rw [String.append_right_inj] at same
      exact apart.1 (same ▸ List.mem_map_of_mem inside)
    · exact new.2 other inside old

/-- What is written at a lower level is written at a higher one. -/
theorem entries_within {level higher : MetadataLevel} (raised : level.rank ≤ higher.rank)
    (subject : String) {words : Words} (apart : (words.map Prod.fst).Nodup)
    (customs : List (String × Json)) :
    Json.MembersWithin (((empty level subject).insertWords words).insertCustoms customs).entries
      (((empty higher subject).insertWords words).insertCustoms customs).entries := by
  have grows := (grows_empty raised subject).insertWords apart fun _ _ => List.not_mem_nil
  have all := grows.insertCustoms customs
  exact .of_subset all.apart all.subset

end Metadata

/-- The control information of an instance, apart from custom entries. -/
def ComplexValue.controlWords (container : ComplexValue) : Metadata.Words :=
  (if container.type.isUntyped then [] else
    [("type", .string ("#" ++ container.type.name), .full)]) ++
  if container.type.isEntity then
    (container.entityId?.map fun id =>
      ("id", Json.string id, if container.isReference then .none else .minimal)).toList ++
    if container.isReference then [] else [("etag", .string container.etag, .minimal)]
  else []

theorem ComplexValue.apart_controlWords (container : ComplexValue) :
    (container.controlWords.map Prod.fst).Nodup := by
  have among : (container.controlWords.map Prod.fst).Sublist ["type", "id", "etag"] := by
    rw [controlWords]
    cases container.type.isUntyped <;> cases container.type.isEntity <;>
      cases container.entityId? <;> cases container.isReference <;>
      exact List.isSublist_iff_sublist.1 rfl
  exact among.nodup (by decide)

theorem ComplexValue.controlInfo_eq (container : ComplexValue) (level : MetadataLevel) :
    container.controlInfo level =
      ((Metadata.empty level "").insertWords container.controlWords).insertCustoms
        container.metadata := by
  rw [controlInfo, controlWords]
  cases container.type.isUntyped <;> cases container.type.isEntity <;>
    cases container.entityId? <;> cases container.isReference <;> rfl

/-- The control information of a property, apart from custom entries. -/
def PropertyValue.controlWords (binding : PropertyValue) : Metadata.Words :=
  match binding.primitive? with
  | some value =>
    if value.type.isJsonNative then []
    else [("type", .string ("#" ++ value.type.simpleName),
      if binding.property.isDynamic then .minimal else .full)]
  | none => []

theorem PropertyValue.apart_controlWords (binding : PropertyValue) :
    (binding.controlWords.map Prod.fst).Nodup := by
  rw [controlWords]
  split
  · split
    · exact .nil
    · exact List.nodup_cons.2 ⟨List.not_mem_nil, .nil⟩
  · exact .nil

theorem PropertyValue.controlInfo_eq (binding : PropertyValue) (level : MetadataLevel) :
    binding.controlInfo level =
      ((Metadata.empty level binding.name).insertWords binding.controlWords).insertCustoms
        binding.metadata := by
  rw [controlInfo, controlWords, primitive?]
  cases binding.value? with
  | none => rfl
  | some value =>
    cases value with
    | primitive value =>
      dsimp only [Option.bind_some, Value.primitive?]
      split <;> rfl
    | complex value => rfl
    | collection items => rfl

section

variable {lower upper : MetadataLevel}

mutual

/-- A document at a lower level is within the one at a higher level. -/
theorem Value.within_tree (raised : lower.rank ≤ upper.rank) (context : RequestContext)
    (value : Value) : Json.Within (value.tree lower context) (value.tree upper context) := by
  cases value with
  | primitive value =>
    rw [Value.tree, Value.tree]
    exact .refl _
  | complex value =>
    rw [Value.tree, Value.tree]
    exact ComplexValue.within_tree raised context value
  | collection items =>
    rw [Value.tree, Value.tree]
    exact .array (Value.within_itemTrees raised context items)

theorem Value.within_itemTrees (raised : lower.rank ≤ upper.rank) (context : RequestContext)
    (items : List Value) :
    Json.ItemsWithin (Value.itemTrees lower context items)
      (Value.itemTrees upper context items) := by
  cases items with
  | nil => exact .nil
  | cons item rest =>
    exact .cons (Value.within_tree raised context item)
      (Value.within_itemTrees raised context rest)

theorem Value.within_optionTree (raised : lower.rank ≤ upper.rank) (context : RequestContext)
    (value? : Option Value) :
    Json.Within (Value.optionTree lower context value?)
      (Value.optionTree upper context value?) := by
  cases value? with
  | none => exact .refl .null
  | some value => exact Value.within_tree raised context value

theorem ComplexValue.within_tree (raised : lower.rank ≤ upper.rank) (context : RequestContext)
    (container : ComplexValue) :
    Json.Within (container.tree lower context) (container.tree upper context) := by
  obtain ⟨id, type, bindings, parent?, entitySet?, isReference, metadata⟩ := container
  rw [ComplexValue.tree, ComplexValue.tree]
  refine .object (.append ?_ ?_)
  · rw [ComplexValue.controlInfo_eq, ComplexValue.controlInfo_eq]
    exact Metadata.entries_within raised "" (ComplexValue.apart_controlWords _) _
  · split
    · exact .nil []
    · exact ComplexValue.within_memberTrees raised context bindings

theorem ComplexValue.within_memberTrees (raised : lower.rank ≤ upper.rank)
    (context : RequestContext) (bindings : List PropertyValue) :
    Json.MembersWithin (ComplexValue.memberTrees lower context bindings)
      (ComplexValue.memberTrees upper context bindings) := by
  match bindings with
  | [] => exact .nil []
  | ⟨property, value?, owner?, metadata⟩ :: rest =>
    have others := ComplexValue.within_memberTrees raised context rest
    rw [ComplexValue.memberTrees, ComplexValue.memberTrees]
    split
    · have value := Value.within_optionTree raised (context.optionsFor property) value?
      refine .cons (.refl _) value (.append ?_ others)
      rw [PropertyValue.controlInfo_eq, PropertyValue.controlInfo_eq]
      exact Metadata.entries_within raised _ (PropertyValue.apart_controlWords _) _
    · exact others

end

end

/-- The level is no part of what a document consists of, but what it is built with. -/
theorem ComplexValue.tree_withLevel (level other : MetadataLevel) (context : RequestContext)
    (container : ComplexValue) :
    container.tree level (context.withLevel other) = container.tree level context := by
  obtain ⟨id, type, bindings, parent?, entitySet?, isReference, metadata⟩ := container
  have members : ComplexValue.memberTrees level (context.withLevel other) bindings =
      ComplexValue.memberTrees level context bindings := by
    induction bindings with
    | nil => rfl
    | cons binding rest ih =>
      obtain ⟨property, value?, owner?, metadata⟩ := binding
      rw [ComplexValue.memberTrees, ComplexValue.memberTrees, ih]
      rfl
  rw [ComplexValue.tree, ComplexValue.tree, members]

namespace Emitter

/-- The level has no part in preparing. -/
theorem prepareWithin_withLevel (emitter : Emitter) (depth : Nat) (context : RequestContext)
    (level : MetadataLevel) :
    emitter.prepareWithin depth (context.withLevel level) = emitter.prepareWithin depth context := by
  cases depth with
  | zero => rfl
  | succ depth => rfl

/-- A value that is prepared for a request is written at every level, and what is written at a lower
level is within what is written at a higher one. -/
theorem emit_within {emitter : Emitter} {context : RequestContext} {container prepared : ComplexValue}
    {supply after : Supply} (layout : Layout) {output : Output} (unlimited : output.limit? = none)
    (ready : emitter.prepare context container supply = ((prepared, .ok ()), after)) :
    (∀ level, emitter.emit (context.withLevel level) layout output container supply =
      ((prepared, output.append (String.join layout.beginValue.2 ++
        (prepared.tree level context).laidOut layout.isPretty layout.level), .ok ()), after)) ∧
    ∀ lower upper : MetadataLevel, lower.rank ≤ upper.rank →
      Json.Within (prepared.tree lower context) (prepared.tree upper context) := by
  refine ⟨fun level => ?_, fun lower upper raised => prepared.within_tree raised context⟩
  have readyToo : emitter.prepare (context.withLevel level) container supply =
      ((prepared, .ok ()), after) := by
    rw [prepare, prepareWithin_withLevel]
    exact ready
  have written := emit_of_unlimited readyToo layout unlimited
  rwa [ComplexValue.tree_withLevel] at written

theorem emit_within_seats :
    let emitter : Emitter := ⟨fun _ _ => pure none, none⟩
    let seats := PropertyValue.unattached (.dynamic "seats" (.primitive (.integer .int64)))
      (some (.primitive (.integer ⟨.int64, 180, by decide⟩)))
    let container : ComplexValue := ⟨⟨0⟩, .empty "air.Cabin", [seats.attach ⟨0⟩], none, none, false,
      [("odata.type", .string "#Cabin"), ("seen", .bool true)]⟩
    let bare : Output :=
      ⟨none, "\x7b\"@odata.type\":\"#Cabin\",\"@seen\":true,\"seats\":180\x7d", 49⟩
    let whole : Output := ⟨none, "\x7b\"@odata.type\":\"#Cabin\",\"@seen\":true,\"seats\":180," ++
      "\"seats@odata.type\":\"#Int64\"\x7d", 77⟩
    emitter.prepare .default container ⟨1⟩ = ((container, .ok ()), ⟨1⟩) ∧
      emitter.emit (RequestContext.default.withLevel .none) .compact .unlimited container ⟨1⟩ =
        ((container, bare, .ok ()), ⟨1⟩) ∧
      emitter.emit (RequestContext.default.withLevel .full) .compact .unlimited container ⟨1⟩ =
        ((container, whole, .ok ()), ⟨1⟩) ∧
      Json.Within (container.tree .none .default) (container.tree .full .default) := by
  intro emitter seats container bare whole
  have ready : emitter.prepare .default container ⟨1⟩ = ((container, .ok ()), ⟨1⟩) := rfl
  have unlimited : Output.unlimited.limit? = none := rfl
  obtain ⟨emits, within⟩ := emit_within .compact unlimited ready
  have bareText : Output.unlimited.append (String.join Layout.compact.beginValue.2 ++
      (container.tree .none .default).laidOut false 0) = bare := by
    decide +kernel
  have wholeText : Output.unlimited.append (String.join Layout.compact.beginValue.2 ++
      (container.tree .full .default).laidOut false 0) = whole := by
    decide +kernel
  exact ⟨ready, bareText ▸ emits .none, wholeText ▸ emits .full, within .none .full (by decide)⟩

end Emitter

end EdmQuery
