import EdmQuery.Proofs.Runs
import EdmQuery.Proofs.Supplies

set_option autoImplicit false

namespace EdmQuery

/-- A property that instances of a type bind: the one that the type declares under the name, or, on
an open type, a dynamic one under a name that is not declared. -/
def ComplexType.Suits (type : ComplexType) (property : Property) : Prop :=
  type.property? property.name = some property ∨
    (type.property? property.name = none ∧ property.isDynamic = true ∧ type.isOpen = true)

/-- A property of containers that reading keeps, for instances of some types. -/
structure KeptByReading (ofType : ComplexType → Prop) (holds : ComplexValue → Prop) : Prop where
  empty : ∀ id type, ofType type → holds ⟨id, type, [], none, none, false, []⟩
  bind : ∀ (container : ComplexValue) property value?, holds container →
    container.type.Suits property → holds (container.bind property value?)
  relinked : ∀ (container : ComplexValue) link, holds container → holds (container.linked link)

/-- All complex types that a type of values is built from directly are of a kind. -/
def ValueType.Every (kind : ComplexType → Prop) : ValueType → Prop
  | .complex type => kind type
  | .collection element => element.Every kind
  | _ => True

theorem ValueType.every_true : ∀ type : ValueType, type.Every fun _ => True
  | .primitive _ => trivial
  | .complex _ => trivial
  | .entity _ => trivial
  | .collection element => element.every_true
  | .untyped => trivial

/-- A kind of types whose instances are built from instances of such types, the untyped one among
them. -/
structure Hereditary (kind : ComplexType → Prop) : Prop where
  untyped : kind .untyped
  properties : ∀ type, kind type → ∀ property ∈ type.properties, property.type.Every kind

theorem hereditary_true : Hereditary fun _ => True :=
  ⟨trivial, fun _ _ property _ => property.type.every_true⟩

section

variable {ofType : ComplexType → Prop} {holds : ComplexValue → Prop}

theorem ComplexValue.count_put (id : ContainerId) (binding : PropertyValue)
    (bindings : List PropertyValue) :
    (identities (containersBelow (Keyed.put PropertyValue.name binding bindings))).count id ≤
      (identities binding.containers).count id +
        (identities (containersBelow bindings)).count id := by
  induction bindings with
  | nil =>
    simp only [Keyed.put, containersBelow, identities_nil, List.append_nil]
    exact Nat.le_add_right _ _
  | cons held rest ih =>
    rw [Keyed.put]
    split
    · simp only [containersBelow, identities_append, List.count_append]
      omega
    · simp only [containersBelow, identities_append, List.count_append] at ih ⊢
      omega

theorem ComplexValue.count_bind (container : ComplexValue) (property : Property)
    (value? : Option Value) (id : ContainerId) :
    (identities (container.bind property value?).containers).count id ≤
      (identities (Value.optionContainers value? ++ container.containers)).count id := by
  have bound := count_put id ((PropertyValue.unattached property value?).attach container.id)
    container.bindings
  rw [PropertyValue.identities_attach, PropertyValue.containers_eq] at bound
  simp only [containers_eq, bind, identities_cons, identities_append, List.count_append,
    List.count_cons, PropertyValue.unattached] at bound ⊢
  omega

theorem ComplexValue.forall_bind (kept : KeptByReading ofType holds) {container : ComplexValue}
    {property : Property} {value? : Option Value} (suits : container.type.Suits property)
    (all : ∀ inner ∈ Value.optionContainers value? ++ container.containers, holds inner) :
    ∀ inner ∈ (container.bind property value?).containers, holds inner := by
  have value : ∀ inner ∈ Value.optionContainers value?, holds inner :=
    fun inner inside => all inner (List.mem_append_left _ inside)
  have before : ∀ inner ∈ container.containers, holds inner :=
    fun inner inside => all inner (List.mem_append_right _ inside)
  rw [forall_containers] at before ⊢
  refine ⟨kept.bind container property value? before.1 suits, fun binding inside => ?_⟩
  rcases Keyed.mem_put _ inside with rfl | old
  · apply PropertyValue.forall_attach _ kept.relinked
    rw [PropertyValue.containers_eq]
    exact value
  · exact before.2 binding old

theorem Build.makes_bind (kept : KeptByReading ofType holds) {container : ComplexValue}
    {property : Property} (suits : container.type.Suits property)
    (all : ∀ inner ∈ container.containers, holds inner) {read : Build (Option Value)}
    (reads : read.Makes holds [] Value.optionContainers) :
    Build.Makes holds (do return container.bind property (← read))
      (identities container.containers) ComplexValue.containers := by
  refine (reads.frame all).bind fun value? both => ?_
  exact .pure (ComplexValue.forall_bind kept suits both) fun id => container.count_bind _ _ id

end

/-- An edit that leaves the type and makes containers of a kind. -/
structure Edit.Grows (holds : ComplexValue → Prop) (type : ComplexType)
    (edit : Edit ComplexValue) : Prop where
  makes : ∀ container : ComplexValue, container.type = type →
    (∀ inner ∈ container.containers, holds inner) →
      Building.Makes holds (edit container) (identities container.containers)
        fun done => done.1.containers
  type_eq : ∀ (container : ComplexValue) supply, container.type = type →
    (edit container supply).1.1.type = type

namespace Edit.Grows

variable {holds : ComplexValue → Prop} {type : ComplexType}

theorem skip : Edit.Grows holds type Edit.skip :=
  ⟨fun _ _ all => .pure all fun _ => Nat.le_refl _, fun _ _ same => same⟩

theorem ofBuild {change : ComplexValue → Build ComplexValue}
    (makes : ∀ container : ComplexValue, container.type = type →
      (∀ inner ∈ container.containers, holds inner) →
        (change container).Makes holds (identities container.containers) ComplexValue.containers)
    (keeps : ∀ (container changed : ComplexValue) supply rest, container.type = type →
      (change container).run supply = (.ok changed, rest) → changed.type = type) :
    Edit.Grows holds type (Edit.ofBuild change) := by
  refine ⟨fun container same all supply => ?_, fun container supply same => ?_⟩
  · obtain ⟨allMade, draws⟩ := makes container same all supply
    rcases ran : (change container).run supply with ⟨outcome, rest⟩
    rw [ran] at allMade draws
    cases outcome with
    | error error =>
      rw [ofBuild_of_error ran]
      exact ⟨all, draws.keep _⟩
    | ok changed =>
      rw [ofBuild_of_ok ran]
      exact ⟨allMade, draws⟩
  · rcases ran : (change container).run supply with ⟨outcome, rest⟩
    cases outcome with
    | error error =>
      rw [ofBuild_of_error ran]
      exact same
    | ok changed =>
      rw [ofBuild_of_ok ran]
      exact keeps container changed supply rest same ran

theorem andThen {first second : Edit ComplexValue} (early : Edit.Grows holds type first)
    (late : Edit.Grows holds type second) : Edit.Grows holds type (first.andThen second) := by
  refine ⟨fun container same all supply => ?_, fun container supply same => ?_⟩
  · obtain ⟨allMade, draws⟩ := early.makes container same all supply
    have typed := early.type_eq container supply same
    rcases ran : first container supply with ⟨⟨between, outcome⟩, rest⟩
    rw [ran] at allMade draws typed
    cases outcome with
    | error error =>
      rw [andThen_of_error ran]
      exact ⟨allMade, draws⟩
    | ok done =>
      obtain ⟨allLater, drawsLater⟩ := late.makes between typed allMade rest
      rw [andThen_of_ok ran]
      exact ⟨allLater, draws.trans drawsLater⟩
  · have typed := early.type_eq container supply same
    rcases ran : first container supply with ⟨⟨between, outcome⟩, rest⟩
    rw [ran] at typed
    cases outcome with
    | error error =>
      rw [andThen_of_error ran]
      exact typed
    | ok done =>
      rw [andThen_of_ok ran]
      exact late.type_eq between rest typed

theorem inTurn {edits : List (Edit ComplexValue)}
    (each : ∀ edit ∈ edits, Edit.Grows holds type edit) :
    Edit.Grows holds type (Edit.inTurn edits) := by
  induction edits with
  | nil => exact skip
  | cons edit rest ih =>
    exact (each edit List.mem_cons_self).andThen
      (ih fun other inside => each other (List.mem_cons_of_mem _ inside))

theorem toBuild {edit : Edit ComplexValue} (grows : Edit.Grows holds type edit)
    {container : ComplexValue} (same : container.type = type)
    (all : ∀ inner ∈ container.containers, holds inner) :
    (edit.toBuild container).Makes holds (identities container.containers)
      ComplexValue.containers := by
  intro supply
  obtain ⟨allMade, draws⟩ := grows.makes container same all supply
  rw [run_toBuild]
  cases (edit container supply).1.2 with
  | error error =>
    refine ⟨fun inner inside => (by cases inside), draws.of_count_le fun id => ?_⟩
    exact Nat.zero_le _
  | ok done => exact ⟨allMade, draws⟩

end Edit.Grows

section

variable {ofType : ComplexType → Prop} {holds : ComplexValue → Prop}

theorem ComplexValue.containers_empty (id : ContainerId) (type : ComplexType) :
    (⟨id, type, [], none, none, false, []⟩ : ComplexValue).containers =
      [⟨id, type, [], none, none, false, []⟩] := by
  rw [containers, containersBelow]

/-- What begins with an empty container of a type. -/
theorem Build.makes_ofType {α : Type} {type : ComplexType} {next : ComplexValue → Build α}
    {containersOf : α → List ComplexValue}
    (later : ∀ id, (next ⟨id, type, [], none, none, false, []⟩).Makes holds [id] containersOf) :
    Build.Makes holds (liftM (ComplexValue.ofType type) >>= next) [] containersOf := by
  intro supply
  obtain ⟨all, draws⟩ := later ⟨supply.next⟩ ⟨supply.next + 1⟩
  exact ⟨all, supply.draws_fresh.trans draws⟩

theorem Value.makes_ofItems {typeName : String} {reads : List (Json × Build (Option Value))}
    (each : ∀ entry ∈ reads, entry.2.Makes holds [] optionContainers) :
    Build.Makes holds (ofItems typeName reads) [] itemContainers := by
  induction reads with
  | nil =>
    exact .pure (fun container inside => by cases inside) fun id => Nat.le_refl _
  | cons entry rest ih =>
    refine (each entry List.mem_cons_self).bind fun item? item => ?_
    cases item? with
    | none => exact .throw _
    | some value =>
      have others := ih fun other inside => each other (List.mem_cons_of_mem _ inside)
      refine (others.frame item).bind fun items all => .pure ?_ fun id => ?_
      · intro container inside
        rw [itemContainers, List.mem_append] at inside
        exact all container (List.mem_append.2 inside.symm)
      · rw [itemContainers, identities_append, identities_append, List.count_append,
          List.count_append, Nat.add_comm]
        exact Nat.le_refl _

theorem Value.makes_inferred (raw : Json) :
    Build.Makes holds (pure ((Primitive.infer? raw).map Value.primitive)) []
      Value.optionContainers := by
  cases Primitive.infer? raw <;>
    exact .pure (fun container inside => by cases inside) fun id => Nat.le_refl _

theorem ComplexType.suits_dynamic_untyped (name : String) (type : ValueType) :
    ComplexType.untyped.Suits (.dynamic name type) := .inr ⟨rfl, rfl, rfl⟩

mutual

theorem Value.makes_infer (kept : KeptByReading ofType holds) (untyped : ofType .untyped)
    (raw : Json) : Build.Makes holds (Value.infer raw) [] Value.optionContainers := by
  cases raw with
  | array items =>
    rw [Value.infer]
    refine (Value.makes_ofItems (Value.makes_inferItems kept untyped items)).bind
      fun values all => .pure all fun id => Nat.le_refl _
  | object members =>
    rw [Value.infer]
    have empty : ∀ (id : ContainerId) (inner : ComplexValue),
        inner ∈ (⟨id, .untyped, [], none, none, false, []⟩ : ComplexValue).containers →
          holds inner := by
      intro id inner inside
      rw [ComplexValue.containers_empty, List.mem_singleton] at inside
      subst inside
      exact kept.empty id .untyped untyped
    refine Build.makes_ofType fun id => ?_
    refine (Value.makes_inferMembers kept untyped members _ rfl (empty id)).bind fun value all => ?_
    exact .pure all fun id => Nat.le_refl _
  | null => exact .pure (fun container inside => by cases inside) fun id => Nat.le_refl _
  | bool value => exact Value.makes_inferred (.bool value)
  | int value => exact Value.makes_inferred (.int value)
  | double value => exact Value.makes_inferred (.double value)
  | string value => exact Value.makes_inferred (.string value)

theorem Value.makes_inferItems (kept : KeptByReading ofType holds) (untyped : ofType .untyped)
    (items : List Json) :
    ∀ entry ∈ Value.inferItems items, entry.2.Makes holds [] Value.optionContainers := by
  cases items with
  | nil => exact fun entry inside => by cases inside
  | cons item rest =>
    rw [Value.inferItems, List.forall_mem_cons]
    exact ⟨Value.makes_infer kept untyped item, Value.makes_inferItems kept untyped rest⟩

theorem Value.makes_inferMembers (kept : KeptByReading ofType holds) (untyped : ofType .untyped)
    (members : Json.Members) (container : ComplexValue) (typed : container.type = .untyped)
    (all : ∀ inner ∈ container.containers, holds inner) :
    (Value.inferMembers members container).Makes holds (identities container.containers)
      ComplexValue.containers := by
  match members with
  | [] => exact .pure all fun id => Nat.le_refl _
  | (key, raw) :: rest =>
    rw [Value.inferMembers]
    refine ((Value.makes_infer kept untyped raw).frame all).bind fun value? both => ?_
    have suits : container.type.Suits (.dynamic key (.ofRaw raw)) :=
      typed ▸ ComplexType.suits_dynamic_untyped key _
    refine (Value.makes_inferMembers kept untyped rest
      (container.bind (.dynamic key (.ofRaw raw)) value?) typed
      (ComplexValue.forall_bind kept suits both)).of_le_count fun id => ?_
    exact container.count_bind _ _ id

end

theorem ComplexType.find?_readers (type : ComplexType) (name : String) :
    Keyed.find? (fun entry => entry.1.name) name type.readers =
      (type.property? name).map fun property => (property, property.type.reader) := by
  rw [readers_eq_map, Keyed.find?, List.find?_map]
  rfl

theorem ComplexType.suits_of_declared {type : ComplexType} {name : String} {property : Property}
    (declared : type.property? name = some property) : type.Suits property := by
  obtain ⟨named, -⟩ := Keyed.keyOf_of_find? _ declared
  exact .inl (named ▸ declared)

theorem ComplexValue.bindRaw_declared {container : ComplexValue} {name : String}
    {property : Property} (declared : container.type.property? name = some property) (raw : Json) :
    bindRaw container.type.readers container name raw =
      (do return container.bind property (← property.type.reader raw)) := by
  rw [bindRaw, ComplexType.find?_readers, declared]
  rfl

theorem ComplexValue.bindRaw_open {container : ComplexValue} {name : String}
    (undeclared : container.type.property? name = none) (isOpen : container.type.isOpen = true)
    (raw : Json) : bindRaw container.type.readers container name raw =
      (do return container.bind (.dynamic name (.ofRaw raw)) (← Value.infer raw)) := by
  rw [bindRaw, ComplexType.find?_readers, undeclared]
  simp only [Option.map_none, isOpen, if_true]

theorem ComplexValue.bindRaw_closed {container : ComplexValue} {name : String}
    (undeclared : container.type.property? name = none) (closed : container.type.isOpen = false)
    (raw : Json) : bindRaw container.type.readers container name raw =
      throw (.noSuchProperty container.type.name name) := by
  rw [bindRaw, ComplexType.find?_readers, undeclared]
  simp only [Option.map_none, closed, Bool.false_eq_true, if_false]

/-- The steps of binding raw data under a name, and what is bound. -/
theorem ComplexValue.eq_bind_of_bindRaw {container changed : ComplexValue} {name : String}
    {raw : Json} {supply rest : Supply}
    (done : (bindRaw container.type.readers container name raw).run supply =
      (.ok changed, rest)) :
    ∃ property value?, property.name = name ∧ container.type.Suits property ∧
      changed = container.bind property value? := by
  cases found : container.type.property? name with
  | some property =>
    rw [bindRaw_declared found] at done
    obtain ⟨value?, middle, -, bound⟩ := Build.bind_eq_ok done
    cases bound
    exact ⟨property, value?, (Keyed.keyOf_of_find? _ found).1,
      ComplexType.suits_of_declared found, rfl⟩
  | none =>
    cases isOpen : container.type.isOpen with
    | true =>
      rw [bindRaw_open found isOpen] at done
      obtain ⟨value?, middle, -, bound⟩ := Build.bind_eq_ok done
      cases bound
      exact ⟨_, value?, rfl, .inr ⟨found, rfl, isOpen⟩, rfl⟩
    | false =>
      rw [bindRaw_closed found isOpen] at done
      cases done

theorem ComplexValue.makes_bindRaw (kept : KeptByReading ofType holds) (untyped : ofType .untyped)
    {container : ComplexValue}
    (reads : ∀ property ∈ container.type.properties, ∀ raw,
      (property.type.reader raw).Makes holds [] Value.optionContainers)
    (all : ∀ inner ∈ container.containers, holds inner) (name : String) (raw : Json) :
    (bindRaw container.type.readers container name raw).Makes holds
      (identities container.containers) containers := by
  cases found : container.type.property? name with
  | some property =>
    rw [bindRaw_declared found]
    exact Build.makes_bind kept (ComplexType.suits_of_declared found) all
      (reads property (Keyed.keyOf_of_find? _ found).2 raw)
  | none =>
    cases isOpen : container.type.isOpen with
    | true =>
      rw [bindRaw_open found isOpen]
      exact Build.makes_bind kept (.inr ⟨found, rfl, isOpen⟩) all
        (Value.makes_infer kept untyped raw)
    | false =>
      rw [bindRaw_closed found isOpen]
      exact .throw _

/-- What binding a property of the type keeps, reading members keeps, also where it fails. -/
theorem ComplexValue.keeps_bindAll {holds : ComplexValue → Prop}
    (kept : ∀ (container : ComplexValue) property value?, holds container →
      container.type.Suits property → holds (container.bind property value?))
    {container : ComplexValue} (members : Json.Members) (supply : Supply)
    (before : holds container) :
    holds (bindAll container.type.readers members container supply).1.1 := by
  let along (current : ComplexValue) : Prop := holds current ∧ current.type = container.type
  have all : along (bindAll container.type.readers members container supply).1.1 := by
    refine Edit.keeps_of_inTurn (fun edit inside current supply both => ?_) supply ⟨before, rfl⟩
    obtain ⟨member, -, rfl⟩ := List.mem_map.1 inside
    have one : along (Edit.ofBuild (fun container' =>
        bindRaw container.type.readers container' member.1 member.2) current supply).1.1 := by
      refine Edit.keeps_of_ofBuild (fun changed rest done => ?_) both
      rw [← both.2] at done
      obtain ⟨property, value?, -, suits, rfl⟩ := eq_bind_of_bindRaw done
      exact ⟨kept current property value? both.1 suits, both.2⟩
    exact one
  exact all.1

theorem ComplexValue.grows_bindAll (kept : KeptByReading ofType holds) (untyped : ofType .untyped)
    {type : ComplexType}
    (reads : ∀ property ∈ type.properties, ∀ raw,
      (property.type.reader raw).Makes holds [] Value.optionContainers)
    (members : Json.Members) : Edit.Grows holds type (bindAll type.readers members) := by
  refine Edit.Grows.inTurn fun edit inside => ?_
  obtain ⟨member, -, rfl⟩ := List.mem_map.1 inside
  refine .ofBuild (fun container same all => ?_) fun container changed supply rest same done => ?_
  · subst same
    exact makes_bindRaw kept untyped reads all member.1 member.2
  · subst same
    obtain ⟨property, value?, -, -, rfl⟩ := eq_bind_of_bindRaw done
    rfl

theorem Value.makes_ofPrimitive (type : PrimitiveType) (raw : Json) :
    (Reader.ofPrimitive type raw).Makes holds [] optionContainers := by
  rw [Reader.ofPrimitive]
  cases type.instance? raw with
  | error error => exact .throw error
  | ok value? =>
    show Build.Makes holds (pure (value?.map Value.primitive)) [] optionContainers
    cases value? <;>
      exact .pure (fun container inside => by cases inside) fun id => Nat.le_refl _

theorem Reader.makes_ofCollection {read : Reader} {typeName : String}
    (reads : ∀ raw, (read raw).Makes holds [] Value.optionContainers) (raw : Json) :
    (Reader.ofCollection typeName read raw).Makes holds [] Value.optionContainers := by
  cases raw with
  | null => exact .pure (fun container inside => by cases inside) fun id => Nat.le_refl _
  | array items =>
    have each : ∀ entry ∈ items.map fun item => (item, read item),
        entry.2.Makes holds [] Value.optionContainers := by
      intro entry inside
      obtain ⟨item, -, rfl⟩ := List.mem_map.1 inside
      exact reads item
    refine (Value.makes_ofItems each).bind fun values all => ?_
    exact .pure all fun id => Nat.le_refl _
  | _ => exact .throw _

theorem Reader.makes_ofComplex (kept : KeptByReading ofType holds) (untyped : ofType .untyped)
    {type : ComplexType} (typed : ofType type)
    (reads : ∀ property ∈ type.properties, ∀ raw,
      (property.type.reader raw).Makes holds [] Value.optionContainers) (raw : Json) :
    (Reader.ofComplex type type.readers raw).Makes holds [] Value.optionContainers := by
  cases raw with
  | null => exact .pure (fun container inside => by cases inside) fun id => Nat.le_refl _
  | object members =>
    refine Build.makes_ofType fun id => ?_
    have empty : ∀ inner ∈ (⟨id, type, [], none, none, false, []⟩ : ComplexValue).containers,
        holds inner := by
      intro inner inside
      rw [ComplexValue.containers_empty, List.mem_singleton] at inside
      subst inside
      exact kept.empty id type typed
    have grows := ComplexValue.grows_bindAll kept untyped reads
      (ComplexValue.picked type members)
    refine (grows.toBuild rfl empty).bind fun container all => ?_
    exact .pure all fun id => Nat.le_refl _
  | _ => exact .throw _

mutual

/-- Reading data of a type makes containers of the kind that reading keeps. -/
theorem ValueType.makes_reader (kept : KeptByReading ofType holds) (hereditary : Hereditary ofType)
    (type : ValueType) (every : type.Every ofType) (raw : Json) :
    (type.reader raw).Makes holds [] Value.optionContainers := by
  match type with
  | .primitive type => exact Value.makes_ofPrimitive type raw
  | .complex type =>
    exact Reader.makes_ofComplex kept hereditary.untyped every
      (ComplexType.makes_readers kept hereditary type every) raw
  | .collection element =>
    exact Reader.makes_ofCollection
      (fun raw => ValueType.makes_reader kept hereditary element every raw) raw
  | .entity name => exact Value.makes_infer kept hereditary.untyped raw
  | .untyped => exact Value.makes_infer kept hereditary.untyped raw

theorem ComplexType.makes_readers (kept : KeptByReading ofType holds)
    (hereditary : Hereditary ofType) (type : ComplexType) (typed : ofType type) :
    ∀ property ∈ type.properties, ∀ raw,
      (property.type.reader raw).Makes holds [] Value.optionContainers := by
  have every := hereditary.properties type typed
  match type with
  | ⟨_, _, _, _, _, properties⟩ => exact Property.makes_readers kept hereditary properties every

theorem Property.makes_readers (kept : KeptByReading ofType holds) (hereditary : Hereditary ofType)
    (properties : List Property) (every : ∀ property ∈ properties, property.type.Every ofType) :
    ∀ property ∈ properties, ∀ raw,
      (property.type.reader raw).Makes holds [] Value.optionContainers := by
  match properties with
  | [] => exact fun property inside => by cases inside
  | ⟨_, type, _, _⟩ :: rest =>
    rw [List.forall_mem_cons] at every ⊢
    exact ⟨fun raw => ValueType.makes_reader kept hereditary type every.1 raw,
      Property.makes_readers kept hereditary rest every.2⟩

end

end

end EdmQuery
