import EdmQuery.Proofs.Coercions
import EdmQuery.Proofs.Filling
import EdmQuery.Proofs.QuotedText
import EdmQuery.Value.Entity
import Mathlib.Data.List.Nodup
import Mathlib.Data.List.Perm.Basic

set_option autoImplicit false

namespace EdmQuery

/-- The bytes of a string, from some place on. -/
theorem loop_toList_bytes (bytes : ByteArray) (index : Nat) (before : List UInt8) :
    ByteArray.toList.loop bytes index before =
      before.reverse ++ bytes.data.toList.drop index := by
  induction index, before using ByteArray.toList.loop.induct bytes with
  | case1 index before inside ih =>
    have within : index < bytes.data.toList.length := by
      rw [Array.length_toList]
      exact inside
    have byte : bytes.get! index = bytes.data.toList[index] := by
      rw [Array.getElem_toList]
      exact getElem!_pos bytes.data index inside
    rw [ByteArray.toList.loop, if_pos inside, ih, List.reverse_cons, List.append_assoc,
      List.singleton_append, byte, ← List.drop_eq_getElem_cons]
  | case2 index before outside =>
    have beyond : bytes.data.toList.length ≤ index := by
      rw [Array.length_toList]
      exact Nat.not_lt.1 outside
    rw [ByteArray.toList.loop, if_neg outside, List.drop_eq_nil_of_le beyond, List.append_nil]

/-- Strings of the same bytes are the same. -/
theorem toUTF8_toList_inj {first second : String}
    (same : first.toUTF8.toList = second.toUTF8.toList) : first = second := by
  rw [ByteArray.toList, ByteArray.toList, loop_toList_bytes, loop_toList_bytes, List.drop_zero,
    List.drop_zero] at same
  have data := Array.toList_inj.1 (List.append_cancel_left same)
  exact String.toByteArray_inj.1 (ByteArray.ext data)

namespace ComplexValue

/-- How one entry of the digested text is written. -/
def etagItem (entry : String × Option String) : Json :=
  .array [.string entry.1, (entry.2.map Json.string).getD .null]

theorem toList_etagItem (name : String) (text? : Option String) (after : List Char) :
    (etagItem (name, text?)).compact.toList ++ after =
      '[' :: ((Json.quote name).toList ++
        ',' :: (((text?.map Json.string).getD .null).compact.toList ++ ']' :: after)) := by
  show ("[" ++ Json.quote name ++ ("," ++ ((text?.map Json.string).getD .null).compact ++
    "]")).toList ++ after = _
  have opening : "[".toList = ['['] := rfl
  have comma : ",".toList = [','] := rfl
  have closing : "]".toList = [']'] := rfl
  simp only [String.toList_append, List.append_assoc, opening, comma, closing, List.cons_append,
    List.nil_append]

theorem etagItem_append_inj {first second : String × Option String} {rest others : List Char}
    (same : (etagItem first).compact.toList ++ rest =
      (etagItem second).compact.toList ++ others) : first = second ∧ rest = others := by
  obtain ⟨name, text?⟩ := first
  obtain ⟨otherName, otherText?⟩ := second
  rw [toList_etagItem, toList_etagItem, List.cons.injEq] at same
  obtain ⟨named, same⟩ := Json.quote_append_inj same.2
  replace same := (List.cons.inj same).2
  have null : Json.null.compact.toList = ['n', 'u', 'l', 'l'] := rfl
  -- a text is quoted, so it is not taken for null
  have quoted : ∀ (text : String) (after : List Char),
      (Json.string text).compact.toList ++ after ≠ Json.null.compact.toList ++ ']' :: rest ∧
        (Json.string text).compact.toList ++ after ≠ Json.null.compact.toList ++ ']' :: others := by
    intro text after
    have opened : (Json.string text).compact.toList ++ after =
        '"' :: (text.toList.flatMap Json.escapeChar ++ ['"'] ++ after) := by
      show (Json.quote text).toList ++ after = _
      rw [Json.quote, String.toList_ofList]
      rfl
    rw [opened, null]
    constructor <;> exact fun clash => by cases clash
  cases text? with
  | none =>
    cases otherText? with
    | none => exact ⟨congrArg (·, none) named, (List.cons.inj (List.append_cancel_left same)).2⟩
    | some other => exact absurd same.symm (quoted other _).1
  | some text =>
    cases otherText? with
    | none => exact absurd same (quoted text _).2
    | some other =>
      obtain ⟨equal, after⟩ := Json.quote_append_inj same
      rw [named, equal]
      exact ⟨rfl, (List.cons.inj after).2⟩

/-- The items of the digested text and its closing bracket. -/
theorem etagItems_inj {first second : List (String × Option String)}
    (same : Json.compactItems (first.map etagItem) = Json.compactItems (second.map etagItem)) :
    first = second := by
  induction first generalizing second with
  | nil =>
    cases second with
    | nil => rfl
    | cons entry others =>
      have chars := congrArg String.toList same
      rw [List.map_cons, Json.compactItems, String.append_assoc, String.toList_append] at chars
      cases chars
  | cons entry rest ih =>
    cases second with
    | nil =>
      have chars := congrArg String.toList same
      rw [List.map_cons, Json.compactItems, String.append_assoc, String.toList_append] at chars
      cases chars
    | cons other others =>
      have chars := congrArg String.toList same
      simp only [List.map_cons, Json.compactItems, String.toList_append, List.append_assoc] at chars
      obtain ⟨head, tail⟩ := etagItem_append_inj (List.append_cancel_left chars)
      rw [head, ih (String.toList_inj.1 tail)]

/-- The digested text tells what enters it. -/
theorem etagText_inj {first second : List (String × Option String)}
    (same : etagText first = etagText second) : first = second := by
  have written : ∀ entries : List (String × Option String),
      etagText entries = (Json.array (entries.map etagItem)).compact := fun _ => rfl
  rw [written, written] at same
  have chars := congrArg String.toList same
  have nonempty : ∀ (entry : String × Option String) (rest : List (String × Option String)),
      (Json.array ((entry :: rest).map etagItem)).compact.toList ≠
        (Json.array ([].map etagItem)).compact.toList := by
    intro entry rest clash
    simp only [List.map_cons, Json.compact, String.toList_append, List.append_assoc] at clash
    rw [toList_etagItem] at clash
    cases clash
  cases first with
  | nil =>
    cases second with
    | nil => rfl
    | cons other others => exact absurd chars.symm (nonempty other others)
  | cons entry rest =>
    cases second with
    | nil => exact absurd chars (nonempty entry rest)
    | cons other others =>
      simp only [List.map_cons, Json.compact, String.toList_append, List.append_assoc] at chars
      obtain ⟨head, tail⟩ := etagItem_append_inj (List.append_cancel_left chars)
      rw [head, etagItems_inj (String.toList_inj.1 tail)]

end ComplexValue

namespace ComplexValue

/-- What the bindings of a container that was read are like: their names are told apart, their
properties are those of the type, and what enters the ETag is null or a primitive of the property's
type. -/
structure ReadsTags (type : ComplexType) (value : ComplexValue) : Prop where
  apart : (value.bindings.map PropertyValue.name).Nodup
  suits : ∀ binding ∈ value.bindings, type.Suits binding.property
  tags : ∀ binding ∈ value.bindings, binding.property.isETagEligible = true →
    binding.value? = none ∨ ∃ held, binding.value? = some (.primitive held) ∧
      held.type.isETagEligible = true ∧ binding.property.type = .primitive held.type

end ComplexValue

/-- An eligible property is of a primitive type that enters ETags. -/
theorem Property.exists_of_isETagEligible {property : Property}
    (eligible : property.isETagEligible = true) :
    property.isDeclared = true ∧
      ∃ type : PrimitiveType, property.type = .primitive type ∧ type.isETagEligible = true := by
  rw [isETagEligible, Bool.and_eq_true] at eligible
  obtain ⟨type, typed, enters⟩ := (Option.any_eq_true _ _).1 eligible.2
  cases held : property.type with
  | primitive type =>
    rw [held] at typed
    cases typed
    exact ⟨eligible.1, type, rfl, enters⟩
  | _ =>
    rw [held] at typed
    cases typed

theorem ComplexType.Binds.tags {type : ComplexType} {owner : ContainerId} {member : String × Json}
    {binding : PropertyValue} (binds : type.Binds owner member binding)
    (eligible : binding.property.isETagEligible = true) :
    binding.value? = none ∨ ∃ held, binding.value? = some (.primitive held) ∧
      held.type.isETagEligible = true ∧ binding.property.type = .primitive held.type := by
  obtain ⟨isDeclared, primitive, typed, enters⟩ := Property.exists_of_isETagEligible eligible
  cases binds with
  | @declared name raw property value? early late found read =>
    have held : property.type = .primitive primitive := typed
    rw [held] at read
    obtain ⟨instance?, middle, given, result⟩ := Build.bind_eq_ok read
    have converted : primitive.instance? raw = .ok instance? := congrArg Prod.fst given
    cases result
    cases instance? with
    | none => exact .inl rfl
    | some value =>
      have same := PrimitiveType.type_of_instance? converted
      rw [← same] at enters held
      exact .inr ⟨value, rfl, enters, held⟩
  | dynamic undeclared isOpen => cases isDeclared

theorem Source.Gives.readsTags {source : Source} {type : ComplexType} {value : ComplexValue}
    (gives : source.Gives type value) (apart : type.NamesApart) (kept : source.IsKept) :
    value.ReadsTags type := by
  obtain ⟨-, binds⟩ := gives.parts (nodup_taken apart kept)
  refine ⟨?_, fun binding inside => ?_, fun binding inside eligible => ?_⟩
  · rw [ComplexType.names_eq_of_binds binds]
    exact nodup_taken apart kept
  · obtain ⟨member, -, bound⟩ := exists_of_forall₂ binds inside
    exact bound.suits
  · obtain ⟨member, -, bound⟩ := exists_of_forall₂ binds inside
    exact bound.tags eligible

namespace ComplexValue

/-- Two containers agree about a property: both leave it unbound, both bind it to null, or both bind
it to values of the same text. -/
inductive AgreeOn (first second : ComplexValue) (name : String) : Prop
  | unbound (left : first.get? name = none) (right : second.get? name = none)
  | null {x y : PropertyValue} (left : first.get? name = some x) (right : second.get? name = some y)
      (leftNull : x.value? = none) (rightNull : y.value? = none)
  | text {x y : Primitive} (left : first.value? name = some (.primitive x))
      (right : second.value? name = some (.primitive y)) (same : x.render = y.render)

/-- What enters the ETag for a name, if it is bound. -/
def tag? (container : ComplexValue) (name : String) : Option (Option String) :=
  (container.get? name).map fun binding => binding.primitive?.bind Primitive.etagText?

namespace ReadsTags

variable {type : ComplexType} {value first second : ComplexValue}

theorem property_eq (reads : value.ReadsTags type) {binding : PropertyValue} {property : Property}
    (inside : binding ∈ value.bindings) (declared : type.property? binding.name = some property) :
    binding.property = property := by
  rcases reads.suits binding inside with own | ⟨undeclared, -⟩
  · exact Option.some.inj (own.symm.trans declared)
  · have none : type.property? binding.name = none := undeclared
    rw [none] at declared
    cases declared

theorem mem_etagEntries_iff (reads : value.ReadsTags type) (name : String) (text? : Option String) :
    (name, text?) ∈ value.etagEntries ↔ ∃ property, type.property? name = some property ∧
      property.isETagEligible = true ∧ value.tag? name = some text? := by
  rw [etagEntries, List.mem_map]
  constructor
  · rintro ⟨binding, inside, same⟩
    obtain ⟨inside, eligible⟩ := List.mem_filter.1 inside
    cases same
    rcases reads.suits binding inside with own | ⟨-, dynamic, -⟩
    · refine ⟨binding.property, own, eligible, ?_⟩
      rw [tag?, get?, Keyed.find?_of_mem PropertyValue.name reads.apart inside]
      rfl
    · obtain ⟨declared, -⟩ := Property.exists_of_isETagEligible eligible
      rw [Property.isDeclared] at declared
      rw [Property.isDynamic] at dynamic
      cases kind : binding.property.kind with
      | declared =>
        rw [kind] at dynamic
        cases dynamic
      | _ =>
        rw [kind] at declared
        cases declared
  · rintro ⟨property, declared, eligible, entry⟩
    obtain ⟨binding, found, rfl⟩ := Option.map_eq_some_iff.1 entry
    obtain ⟨rfl, inside⟩ := Keyed.keyOf_of_find? _ found
    refine ⟨binding, List.mem_filter.2 ⟨inside, ?_⟩, rfl⟩
    rwa [reads.property_eq inside declared]

section

variable {name : String} {property : Property} (declared : type.property? name = some property)
  (eligible : property.isETagEligible = true)

include declared eligible

theorem tag?_eq_null_iff (reads : value.ReadsTags type) :
    value.tag? name = some none ↔
      ∃ binding, value.get? name = some binding ∧ binding.value? = none := by
  rw [tag?, Option.map_eq_some_iff]
  constructor
  · rintro ⟨binding, found, untold⟩
    refine ⟨binding, found, ?_⟩
    obtain ⟨rfl, inside⟩ := Keyed.keyOf_of_find? _ found
    have same := reads.property_eq inside declared
    rcases reads.tags binding inside (same ▸ eligible) with null | ⟨held, bound, enters, -⟩
    · exact null
    · rw [PropertyValue.primitive?, bound] at untold
      have told : held.etagText? = none := untold
      rw [Primitive.etagText?, if_pos enters] at told
      cases told
  · rintro ⟨binding, found, null⟩
    refine ⟨binding, found, ?_⟩
    rw [PropertyValue.primitive?, null]
    rfl

/-- A value that is bound under an eligible property is of its type, and it enters the ETag. -/
theorem type_eq (reads : value.ReadsTags type) {held : Primitive}
    (bound : value.value? name = some (.primitive held)) :
    property.type = .primitive held.type ∧
      value.tag? name = some (some (held.typeName ++ ":" ++ held.render)) := by
  obtain ⟨binding, found, holds⟩ := Option.bind_eq_some_iff.1 bound
  obtain ⟨rfl, inside⟩ := Keyed.keyOf_of_find? _ found
  have same := reads.property_eq inside declared
  rcases reads.tags binding inside (same ▸ eligible) with null | ⟨other, given, enters, typed⟩
  · rw [holds] at null
    cases null
  · rw [holds] at given
    cases given
    refine ⟨same ▸ typed, ?_⟩
    rw [tag?, found, Option.map_some, PropertyValue.primitive?, holds]
    show some held.etagText? = _
    rw [Primitive.etagText?, if_pos enters]

theorem exists_of_tag? (reads : value.ReadsTags type) {text : String}
    (entry : value.tag? name = some (some text)) :
    ∃ held, value.value? name = some (.primitive held) := by
  obtain ⟨binding, found, told⟩ := Option.map_eq_some_iff.1 entry
  obtain ⟨rfl, inside⟩ := Keyed.keyOf_of_find? _ found
  have same := reads.property_eq inside declared
  rcases reads.tags binding inside (same ▸ eligible) with null | ⟨held, bound, -⟩
  · rw [PropertyValue.primitive?, null] at told
    cases told
  · exact ⟨held, by rw [value?, found, Option.bind_some, bound]⟩

/-- Containers agree about an eligible property if and only if the same enters their ETags for it. -/
theorem agreeOn_iff (left : first.ReadsTags type) (right : second.ReadsTags type) :
    first.AgreeOn second name ↔ first.tag? name = second.tag? name := by
  have unbound : ∀ container : ComplexValue, container.tag? name = none ↔
      container.get? name = none := fun container => Option.map_eq_none_iff
  constructor
  · intro agree
    cases agree with
    | unbound absent missing => rw [(unbound first).2 absent, (unbound second).2 missing]
    | null found other empty vacant =>
      rw [(left.tag?_eq_null_iff declared eligible).2 ⟨_, found, empty⟩,
        (right.tag?_eq_null_iff declared eligible).2 ⟨_, other, vacant⟩]
    | @text x y found other same =>
      obtain ⟨typed, entry⟩ := left.type_eq declared eligible found
      obtain ⟨typed', entry'⟩ := right.type_eq declared eligible other
      rw [typed] at typed'
      have types : x.type = y.type := ValueType.primitive.inj typed'
      rw [entry, entry', Primitive.typeName, Primitive.typeName, types, same]
  · intro same
    cases entry : second.tag? name with
    | none =>
      rw [entry] at same
      exact .unbound ((unbound first).1 same) ((unbound second).1 entry)
    | some text? =>
      rw [entry] at same
      cases text? with
      | none =>
        obtain ⟨x, found, empty⟩ := (left.tag?_eq_null_iff declared eligible).1 same
        obtain ⟨y, other, vacant⟩ := (right.tag?_eq_null_iff declared eligible).1 entry
        exact .null found other empty vacant
      | some text =>
        obtain ⟨x, found⟩ := left.exists_of_tag? declared eligible same
        obtain ⟨y, other⟩ := right.exists_of_tag? declared eligible entry
        obtain ⟨typed, told⟩ := left.type_eq declared eligible found
        obtain ⟨typed', told'⟩ := right.type_eq declared eligible other
        rw [typed] at typed'
        have types : x.type = y.type := ValueType.primitive.inj typed'
        have texts := told.symm.trans (same.trans (entry.symm.trans told'))
        rw [Primitive.typeName, Primitive.typeName, types, Option.some.injEq, Option.some.injEq,
          String.append_right_inj] at texts
        exact .text found other texts

end

/-- Where names are bound in one order, the same enters the ETags of two containers if and only if
they agree about every eligible property. -/
theorem etagEntries_eq_iff (apart : type.NamesApart) (left : first.ReadsTags type)
    (right : second.ReadsTags type) {before : String → String → Prop}
    (asymmetric : ∀ x y, before x y → ¬ before y x)
    (leftOrder : (first.bindings.map PropertyValue.name).Pairwise before)
    (rightOrder : (second.bindings.map PropertyValue.name).Pairwise before) :
    first.etagEntries = second.etagEntries ↔
      ∀ property ∈ type.properties, property.isETagEligible = true →
        first.AgreeOn second property.name := by
  have declared : ∀ property ∈ type.properties, type.property? property.name = some property :=
    fun property inside => Keyed.find?_of_mem Property.name apart inside
  constructor
  · intro same property inside eligible
    rw [agreeOn_iff (declared property inside) eligible left right]
    refine Option.ext fun text? => ?_
    have entry := left.mem_etagEntries_iff property.name text?
    rw [same, right.mem_etagEntries_iff property.name text?] at entry
    constructor
    · intro bound
      obtain ⟨-, -, -, bound'⟩ := entry.2 ⟨property, declared property inside, eligible, bound⟩
      exact bound'
    · intro bound
      obtain ⟨-, -, -, bound'⟩ := entry.1 ⟨property, declared property inside, eligible, bound⟩
      exact bound'
  · intro agree
    have ordered : ∀ value : ComplexValue, (value.bindings.map PropertyValue.name).Pairwise before →
        value.etagEntries.Pairwise fun x y => before x.1 y.1 := by
      intro value order
      rw [etagEntries, List.pairwise_map]
      exact (List.pairwise_map.1 order).sublist List.filter_sublist
    have distinct : ∀ value : ComplexValue, value.ReadsTags type → value.etagEntries.Nodup := by
      intro value reads
      refine List.Nodup.of_map Prod.fst ?_
      rw [etagEntries, List.map_map]
      exact reads.apart.sublist (List.filter_sublist.map _)
    refine List.Perm.eq_of_pairwise (fun x y _ _ less greater => absurd greater (asymmetric x.1 y.1 less))
      (ordered first leftOrder) (ordered second rightOrder) ?_
    rw [List.perm_ext_iff_of_nodup (distinct first left) (distinct second right)]
    rintro ⟨name, text?⟩
    rw [left.mem_etagEntries_iff, right.mem_etagEntries_iff]
    refine exists_congr fun property => and_congr_right fun found => and_congr_right fun eligible => ?_
    obtain ⟨named, inside⟩ := Keyed.keyOf_of_find? _ found
    rw [(agreeOn_iff found eligible left right).1 (named ▸ agree property inside eligible)]

end ReadsTags

end ComplexValue

/-- A digest that tells two texts apart, if they differ. -/
def Sha256.Distinguishes (first second : List UInt8) : Prop :=
  hexDigest first = hexDigest second → first = second

namespace ComplexValue

/-- What is digested for the ETag. -/
def etagBytes (container : ComplexValue) : List UInt8 :=
  (etagText container.etagEntries).toUTF8.toList

theorem etag_eq_iff_etagEntries {first second : ComplexValue}
    (distinguishes : Sha256.Distinguishes first.etagBytes second.etagBytes) :
    first.etag = second.etag ↔ first.etagEntries = second.etagEntries := by
  constructor
  · intro same
    rw [etag, etag, String.append_left_inj, String.append_right_inj] at same
    exact etagText_inj (toUTF8_toList_inj (distinguishes same))
  · intro same
    rw [etag, etag, same]

end ComplexValue

namespace Source

/-- Records of one kind, and all records of a type that picks what it declares, are taken in one
order. -/
theorem exists_order {type : ComplexType} {left right : Source} (apart : type.NamesApart)
    (leftKept : left.IsKept) (rightKept : right.IsKept)
    (alike : type.isUntyped = true → left.isMapping = right.isMapping) :
    ∃ before : String → String → Prop, (∀ x y, before x y → ¬ before y x) ∧
      ((left.taken type).map Prod.fst).Pairwise before ∧
      ((right.taken type).map Prod.fst).Pairwise before := by
  cases picks : left.isMapping && type.isUntyped with
  | false =>
    let declared := type.declaredProperties.map Property.name
    have positions : declared.Pairwise fun x y => declared.idxOf x < declared.idxOf y := by
      rw [List.pairwise_iff_getElem]
      intro i j inside within less
      rw [apart.declared.idxOf_getElem i inside, apart.declared.idxOf_getElem j within]
      exact less
    have others : (right.isMapping && type.isUntyped) = false := by
      cases untyped : type.isUntyped with
      | false => exact Bool.and_false _
      | true => rwa [untyped, alike untyped] at picks
    exact ⟨fun x y => declared.idxOf x < declared.idxOf y, fun _ _ less => Nat.lt_asymm less,
      positions.sublist (taken_sublist picks), positions.sublist (taken_sublist others)⟩
  | true =>
    obtain ⟨isMapping, untyped⟩ := Bool.and_eq_true_iff.1 picks
    have same := alike untyped
    cases left with
    | object members => cases isMapping
    | mapping members =>
      cases right with
      | object others => cases same
      | mapping others =>
        rw [taken_untyped untyped, taken_untyped untyped]
        exact ⟨(· < ·), fun _ _ less => String.lt_asymm less, leftKept, rightKept⟩

/-- The ETags of two entities that were read are equal if and only if the entities agree about every
property that enters them. -/
theorem etag_eq_iff {type : ComplexType} (apart : type.NamesApart) {left right : Source}
    (leftKept : left.IsKept) (rightKept : right.IsKept) {first second : ComplexValue}
    (gives : left.Gives type first) (gives' : right.Gives type second)
    (alike : type.isUntyped = true → left.isMapping = right.isMapping)
    (distinguishes : Sha256.Distinguishes first.etagBytes second.etagBytes) :
    first.etag = second.etag ↔ ∀ property ∈ type.properties, property.isETagEligible = true →
      first.AgreeOn second property.name := by
  obtain ⟨before, asymmetric, leftOrder, rightOrder⟩ :=
    exists_order apart leftKept rightKept alike
  rw [ComplexValue.etag_eq_iff_etagEntries distinguishes]
  refine (gives.readsTags apart leftKept).etagEntries_eq_iff apart
    (gives'.readsTags apart rightKept) asymmetric ?_ ?_
  · rwa [ComplexType.names_eq_of_binds (gives.parts (nodup_taken apart leftKept)).2]
  · rwa [ComplexType.names_eq_of_binds (gives'.parts (nodup_taken apart rightKept)).2]

/-- An entity type with two properties, the key behind the other one. -/
def journey (name : String) : ComplexType :=
  ⟨name, true, some "number", false, true,
    [.declared "origin" (.primitive .string), .declared "number" (.primitive (.integer .int32))]⟩

/-- A null that an object has in place of an absent property enters the ETag. -/
theorem etag_eq_iff_journey :
    let left : Source := .mapping [("number", .int 1)]
    let right : Source := .object [("number", .int 1)]
    (journey "airline.Journey").NamesApart ∧ left.IsKept ∧ right.IsKept ∧
      left.Gives (journey "airline.Journey") (left.given (journey "airline.Journey")) ∧
      right.Gives (journey "airline.Journey") (right.given (journey "airline.Journey")) ∧
      (left.given (journey "airline.Journey")).etag ≠
        (right.given (journey "airline.Journey")).etag ∧
      ¬ ∀ property ∈ (journey "airline.Journey").properties, property.isETagEligible = true →
        (left.given (journey "airline.Journey")).AgreeOn
          (right.given (journey "airline.Journey")) property.name := by
  intro left right
  have apart : (journey "airline.Journey").NamesApart := by decide
  have kept : left.IsKept := List.pairwise_singleton _ _
  have other : right.IsKept := trivial
  have gives : left.Gives (journey "airline.Journey") (left.given (journey "airline.Journey")) :=
    gives_given (by decide +kernel)
  have gives' : right.Gives (journey "airline.Journey")
      (right.given (journey "airline.Journey")) := gives_given (by decide +kernel)
  have differ : (left.given (journey "airline.Journey")).etag ≠
      (right.given (journey "airline.Journey")).etag := by decide +kernel
  have told : Sha256.Distinguishes (left.given (journey "airline.Journey")).etagBytes
      (right.given (journey "airline.Journey")).etagBytes :=
    fun same => absurd (congrArg (fun digest => "W/\"" ++ digest ++ "\"") same) differ
  exact ⟨apart, kept, other, gives, gives', differ, fun agree =>
    differ ((etag_eq_iff apart kept other gives gives' (fun untyped => by cases untyped)
      told).2 agree)⟩

/-- A type that has the name of the untyped one takes the members of a mapping in the order of their
keys and those of an object in the order of the declaration, which the ETag shows. -/
theorem etag_differs_of_untyped_name :
    let record : Json.Members := [("number", .int 1), ("origin", .string "LHR")]
    let first := (Source.mapping record).given (journey untypedName)
    let second := (Source.object record).given (journey untypedName)
    (journey untypedName).NamesApart ∧ (journey untypedName).isEntity = true ∧
      (Source.mapping record).IsKept ∧ (Source.mapping record).Gives (journey untypedName) first ∧
      (Source.object record).Gives (journey untypedName) second ∧
      Sha256.Distinguishes first.etagBytes second.etagBytes ∧
      (∀ property ∈ (journey untypedName).properties, property.isETagEligible = true →
        property.type ≠ .primitive .single ∧ property.type ≠ .primitive .double ∧
          first.AgreeOn second property.name) ∧
      first.etag ≠ second.etag := by
  intro record first second
  have differ : first.etag ≠ second.etag := by decide +kernel
  have kept : ["number", "origin"].Pairwise (· < ·) := by decide
  refine ⟨by decide, rfl, kept, gives_given (by decide +kernel), gives_given (by decide +kernel),
    fun same => absurd (congrArg (fun digest => "W/\"" ++ digest ++ "\"") same) differ,
    fun property inside _ => ?_, differ⟩
  have either : property = .declared "origin" (.primitive .string) ∨
      property = .declared "number" (.primitive (.integer .int32)) := by
    rwa [journey, List.mem_cons, List.mem_singleton] at inside
  rcases either with rfl | rfl
  · exact ⟨fun same => (by cases same), fun same => (by cases same), .text rfl rfl rfl⟩
  · exact ⟨fun same => (by cases same), fun same => (by cases same), .text rfl rfl rfl⟩

end Source

end EdmQuery
