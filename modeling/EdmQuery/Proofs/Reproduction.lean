import EdmQuery.Proofs.Coercions
import EdmQuery.Proofs.Filling
import EdmQuery.Proofs.KeyText

set_option autoImplicit false

namespace EdmQuery

mutual

/-- Whether values of a type are given back by their plain JSON. -/
def ValueType.isReproducible : ValueType → Bool
  | .primitive type => type.keepsDigits
  | .complex type => type.isReproducible
  | .collection element => element.isReproducible
  | .entity _ => false
  | .untyped => false

/-- A type of its own, whose declared properties are of such types. -/
def ComplexType.isReproducible : ComplexType → Bool
  | ⟨name, _, _, _, _, properties⟩ =>
    name != untypedName && decide (properties.map Property.name).Nodup &&
      Property.areReproducible properties

def Property.areReproducible : List Property → Bool
  | [] => true
  | ⟨_, type, _, kind⟩ :: rest =>
    (!kind.isDeclared || type.isReproducible) && Property.areReproducible rest

end

theorem ComplexType.isReproducible_iff (type : ComplexType) : type.isReproducible = true ↔
    type.isUntyped = false ∧ type.NamesApart ∧
      Property.areReproducible type.properties = true := by
  obtain ⟨name, isEntity, key?, isOpen, isSealed, properties⟩ := type
  rw [isReproducible, Bool.and_eq_true, Bool.and_eq_true, decide_eq_true_eq, and_assoc, bne,
    Bool.not_eq_true']
  rfl

namespace Json

theorem lookup_insert (key : String) (value : Json) (members : Members) (name : String) :
    (insert key value members).lookup name =
      if name = key then some value else members.lookup name := by
  induction members with
  | nil =>
    rw [insert, List.lookup_cons]
    by_cases same : name = key
    · rw [if_pos same, same, beq_self_eq_true]
    · rw [if_neg same, beq_eq_false_iff_ne.2 same]
  | cons member rest ih =>
    obtain ⟨other, held⟩ := member
    rw [insert]
    by_cases same : name = key
    · subst same
      rw [if_pos rfl] at ih ⊢
      split
      · rw [List.lookup_cons, beq_self_eq_true]
      · split
        · rw [List.lookup_cons, beq_self_eq_true]
        · rename_i differs
          rw [List.lookup_cons, beq_eq_false_iff_ne.2 differs, ih]
    · rw [if_neg same] at ih ⊢
      split
      · rw [List.lookup_cons, beq_eq_false_iff_ne.2 same]
      · split
        · rename_i equal
          rw [List.lookup_cons, List.lookup_cons, ← equal, beq_eq_false_iff_ne.2 same]
        · rw [List.lookup_cons, List.lookup_cons, ih]

theorem lookup_eq_none {members : Members} {name : String}
    (absent : name ∉ members.map Prod.fst) : members.lookup name = none := by
  rw [List.lookup_eq_none_iff]
  intro member inside
  rw [bne_iff_ne]
  exact fun equal => absent (equal ▸ List.mem_map_of_mem inside)

/-- What is found in an object is what was found in its members, if their keys are told apart. -/
theorem ofMembers_eq (members : Members) (distinct : (members.map Prod.fst).Nodup) :
    ∃ sorted, ofMembers members = .object sorted ∧
      ∀ name, sorted.lookup name = members.lookup name := by
  refine ⟨_, rfl, fun name => ?_⟩
  have whole : ∀ start : Members, (members.foldl (fun sorted member =>
      insert member.1 member.2 sorted) start).lookup name =
        (members.lookup name).or (start.lookup name) := by
    induction members with
    | nil => exact fun start => (Option.none_or).symm
    | cons member rest ih =>
      intro start
      rw [List.map_cons, List.nodup_cons] at distinct
      rw [List.foldl_cons, ih distinct.2, lookup_insert, List.lookup_cons]
      by_cases same : name = member.1
      · rw [lookup_eq_none (same ▸ distinct.1), if_pos same, same, beq_self_eq_true]
        rfl
      · rw [if_neg same, beq_eq_false_iff_ne.2 same]
  have all := whole []
  rwa [List.lookup_nil, Option.or_none] at all

end Json

/-- Members of declared properties, in their order, are all taken again. -/
theorem ComplexValue.picked_eq {type : ComplexType} (picks : type.isUntyped = false)
    (apart : type.NamesApart) {members sorted : Json.Members}
    (declared : (members.map Prod.fst).Sublist (type.declaredProperties.map Property.name))
    (same : ∀ name, sorted.lookup name = members.lookup name) : picked type sorted = members := by
  have distinct := apart.declared
  rw [picked, picks, if_neg Bool.false_ne_true]
  simp only [same]
  clear same
  generalize type.declaredProperties = properties at declared distinct
  induction properties generalizing members with
  | nil =>
    rw [List.map_nil, List.sublist_nil, List.map_eq_nil_iff] at declared
    rw [declared]
    rfl
  | cons property rest ih =>
    rw [List.map_cons, List.nodup_cons] at distinct
    rw [List.map_cons] at declared
    rw [List.filterMap_cons]
    rcases List.sublist_cons_iff.1 declared with later | ⟨names, spelled, later⟩
    · rw [Json.lookup_eq_none fun inside => distinct.1 (later.subset inside)]
      exact ih later distinct.2
    · obtain ⟨member, others, rfl, named, rfl⟩ := List.map_eq_cons_iff.1 spelled
      rw [List.lookup_cons, ← named, beq_self_eq_true]
      refine congrArg₂ List.cons rfl (Eq.trans (List.filterMap_congr fun other inside => ?_)
        (ih later distinct.2))
      have differs : other.name ≠ member.1 :=
        fun equal => distinct.1 (named ▸ equal ▸ List.mem_map_of_mem inside)
      rw [List.lookup_cons, beq_eq_false_iff_ne.2 differs]

mutual

theorem Value.toJson_adopt (link : ParentLink) (value : Value) :
    (value.adopt link).toJson = value.toJson := by
  cases value with
  | primitive value => rfl
  | complex value =>
    cases value
    rfl
  | collection items => exact congrArg Json.array (Value.itemsToJson_adoptAll link items)

theorem Value.itemsToJson_adoptAll (link : ParentLink) (items : List Value) :
    Value.itemsToJson (Value.adoptAll link items) = Value.itemsToJson items := by
  cases items with
  | nil => rfl
  | cons item rest =>
    rw [Value.adoptAll, Value.itemsToJson, Value.itemsToJson, Value.toJson_adopt link item,
      Value.itemsToJson_adoptAll link rest]

end

mutual

theorem Value.equals_adopt (link other : ParentLink) (first second : Value) :
    (first.adopt link).equals (second.adopt other) = first.equals second := by
  cases first with
  | primitive value => cases second <;> simp only [Value.adopt, Value.equals]
  | complex value =>
    cases second with
    | complex copy =>
      cases value
      simp only [Value.adopt, Value.equals, ComplexValue.equals]
    | _ => simp only [Value.adopt, Value.equals]
  | collection items =>
    cases second with
    | collection others =>
      rw [Value.adopt, Value.adopt, Value.equals, Value.equals,
        Value.equalItems_adoptAll link other items others]
    | _ => simp only [Value.adopt, Value.equals]

theorem Value.equalItems_adoptAll (link other : ParentLink) (items others : List Value) :
    Value.equalItems (Value.adoptAll link items) (Value.adoptAll other others) =
      Value.equalItems items others := by
  cases items with
  | nil => cases others <;> simp only [Value.adoptAll, Value.equalItems]
  | cons item rest =>
    cases others with
    | nil => simp only [Value.adoptAll, Value.equalItems]
    | cons next tail =>
      rw [Value.adoptAll, Value.adoptAll, Value.equalItems, Value.equalItems,
        Value.equals_adopt link other item next, Value.equalItems_adoptAll link other rest tail]

end

/-- A second value that is equal to a first one and differs from it in identities alone. -/
def Value.Repeats (value copy : Value) : Prop :=
  copy.anonymous = value.anonymous ∧ value.equals copy = true

def Value.OptionRepeats (value? copy? : Option Value) : Prop :=
  copy?.map Value.anonymous = value?.map Value.anonymous ∧
    Value.equalOptions value? copy? = true

theorem Value.OptionRepeats.cases {value? copy? : Option Value}
    (repeats : Value.OptionRepeats value? copy?) :
    (value? = none ∧ copy? = none) ∨
      ∃ value copy, value? = some value ∧ copy? = some copy ∧ value.Repeats copy := by
  obtain ⟨same, equal⟩ := repeats
  cases value? with
  | none =>
    cases copy? with
    | none => exact .inl ⟨rfl, rfl⟩
    | some copy => cases same
  | some value =>
    cases copy? with
    | none => cases same
    | some copy =>
      rw [Value.equalOptions] at equal
      exact .inr ⟨value, copy, rfl, rfl, Option.some.inj same, equal⟩

theorem Value.Repeats.some {value copy : Value} (repeats : value.Repeats copy) :
    Value.OptionRepeats (some value) (some copy) := by
  rw [Value.OptionRepeats, Value.equalOptions]
  exact ⟨congrArg Option.some repeats.1, repeats.2⟩

theorem Value.optionRepeats_none : Value.OptionRepeats none none := by
  rw [Value.OptionRepeats, Value.equalOptions]
  exact ⟨rfl, rfl⟩

theorem Value.Repeats.collection {items copies : List Value}
    (repeats : List.Forall₂ Value.Repeats items copies) :
    (Value.collection items).Repeats (.collection copies) := by
  have both : copies.map Value.anonymous = items.map Value.anonymous ∧
      Value.equalItems items copies = true := by
    induction repeats with
    | nil =>
      rw [Value.equalItems]
      exact ⟨rfl, rfl⟩
    | cons first _ ih =>
      rw [List.map_cons, List.map_cons, first.1, ih.1, Value.equalItems, first.2, ih.2]
      exact ⟨rfl, rfl⟩
  have erased : ∀ items, (Value.collection items).anonymous =
      .collection (items.map Value.anonymous) := by
    intro items
    rw [Value.anonymous, Value.erased, Value.erasedItems_eq_map]
    rfl
  rw [Value.Repeats, erased, erased, both.1, Value.equals]
  exact ⟨rfl, both.2⟩

/-- A binding of the same property to such a value. -/
def PropertyValue.Repeats (binding copy : PropertyValue) : Prop :=
  copy.anonymous = binding.anonymous ∧ Value.equalOptions binding.value? copy.value? = true

theorem PropertyValue.repeats_attach {value? copy? : Option Value}
    (repeats : Value.OptionRepeats value? copy?) (property : Property) (owner other : ContainerId) :
    ((unattached property value?).attach owner).Repeats
      ((unattached property copy?).attach other) := by
  constructor
  · have plain : ∀ value? : Option Value, (unattached property value?).anonymous =
        unattached property (value?.map Value.anonymous) := fun _ => erased_eq _ _
    rw [anonymous, anonymous, erased_attach, erased_attach]
    show (unattached property copy?).anonymous.attach ⟨0⟩ =
      (unattached property value?).anonymous.attach ⟨0⟩
    rw [plain, plain, repeats.1]
  · rcases repeats.cases with ⟨rfl, rfl⟩ | ⟨value, copy, rfl, rfl, both⟩
    · exact Value.optionRepeats_none.2
    · show Value.equalOptions (some (value.adopt _)) (some (copy.adopt _)) = true
      rw [Value.equalOptions, Value.equals_adopt, both.2]

theorem PropertyValue.Repeats.name_eq {binding copy : PropertyValue}
    (repeats : binding.Repeats copy) : copy.name = binding.name := by
  have properties := congrArg PropertyValue.property repeats.1
  rw [anonymous, anonymous, property_erased, property_erased] at properties
  exact congrArg Property.name properties

theorem ComplexValue.equalBindings_of_repeats {bindings copies : List PropertyValue}
    (repeats : List.Forall₂ PropertyValue.Repeats bindings copies) :
    copies.map PropertyValue.anonymous = bindings.map PropertyValue.anonymous ∧
      equalBindings bindings copies = true := by
  induction repeats with
  | nil =>
    rw [equalBindings]
    exact ⟨rfl, rfl⟩
  | @cons binding copy _ _ first _ ih =>
    refine ⟨by rw [List.map_cons, List.map_cons, first.1, ih.1], ?_⟩
    have named : copy.name = binding.name := first.name_eq
    obtain ⟨property, value?, owner?, metadata⟩ := binding
    have same : property.name = copy.name := named.symm
    rw [equalBindings, same, beq_self_eq_true, ih.2, Bool.and_true, Bool.true_and]
    exact first.2

/-- What a value that may be missing is written as is read as such a value again. -/
def Reader.Rereads (read : Reader) (value? : Option Value) : Prop :=
  ∀ supply, ∃ copy? rest, (read (Value.optionToJson value?)).run supply = (.ok copy?, rest) ∧
    Value.OptionRepeats value? copy?

/-- A reader that reads again whatever it reads. -/
def Reader.IsFaithful (read : Reader) : Prop :=
  ∀ raw value? early late, (read raw).run early = (.ok value?, late) → read.Rereads value?

theorem Primitive.same_self {value : Primitive} (keeps : value.type.keepsDigits = true) :
    value.same value = true := by
  have isExact : value.isBinaryNumber = false := by
    cases value with
    | single value => cases keeps
    | double value => cases keeps
    | _ => rfl
  obtain ⟨order, compared, equal⟩ := Option.map_eq_some_iff.1 (equals?_self isExact)
  rw [same, beq_self_eq_true, Bool.true_and, compared, beq_iff_eq.1 equal]
  rfl

theorem Reader.isFaithful_ofPrimitive {type : PrimitiveType} (keeps : type.keepsDigits = true) :
    (ofPrimitive type).IsFaithful := by
  intro raw value? early late done supply
  obtain ⟨instance?, middle, given, result⟩ := Build.bind_eq_ok done
  have converted : type.instance? raw = .ok instance? := congrArg Prod.fst given
  cases result
  cases instance? with
  | none => exact ⟨none, supply, rfl, Value.optionRepeats_none⟩
  | some value =>
    have again := PrimitiveType.instance?_toJson keeps converted
    have typed := PrimitiveType.type_of_instance? converted
    refine ⟨some (.primitive value), supply, ?_, Value.Repeats.some ⟨rfl, ?_⟩⟩
    · show (ofPrimitive type value.toJson).run supply = _
      rw [ofPrimitive, again]
      rfl
    · rw [Value.equals]
      exact Primitive.same_self (typed ▸ keeps)

/-- The items of a collection, each as it was read. -/
theorem Value.forall₂_of_ofItems {typeName : String} {reads : List (Json × Build (Option Value))}
    {items : List Value} {early late : Supply}
    (done : (ofItems typeName reads).run early = (.ok items, late)) :
    List.Forall₂ (fun entry item => ∃ before after, entry.2.run before = (.ok (some item), after))
      reads items := by
  induction reads generalizing items early late with
  | nil =>
    cases done
    exact .nil
  | cons entry rest ih =>
    obtain ⟨item?, middle, first, done⟩ := Build.bind_eq_ok done
    cases item? with
    | none => cases done
    | some item =>
      obtain ⟨others, last, later, result⟩ := Build.bind_eq_ok done
      cases result
      exact .cons ⟨early, middle, first⟩ (ih later)

/-- Items that are read again one by one make the collection again. -/
theorem Value.exists_ofItems {typeName : String} {read : Reader} {items : List Value}
    (rereads : ∀ item ∈ items, read.Rereads (some item)) (supply : Supply) :
    ∃ copies rest, (ofItems typeName
        ((itemsToJson items).map fun item => (item, read item))).run supply = (.ok copies, rest) ∧
      List.Forall₂ Value.Repeats items copies := by
  induction items generalizing supply with
  | nil => exact ⟨[], supply, rfl, .nil⟩
  | cons item others ih =>
    obtain ⟨copy?, middle, done, repeats⟩ := rereads item List.mem_cons_self supply
    rcases repeats.cases with ⟨missing, -⟩ | ⟨value, copy, given, rfl, repeated⟩
    · cases missing
    · cases given
      obtain ⟨copies, rest, later, all⟩ :=
        ih (fun other inside => rereads other (List.mem_cons_of_mem _ inside)) middle
      refine ⟨copy :: copies, rest, ?_, .cons repeated all⟩
      show (ofItems typeName ((item.toJson, read item.toJson) ::
        (itemsToJson others).map fun item => (item, read item))).run supply = _
      exact (Build.bind_of_ok done).trans (Build.bind_of_ok later)

theorem Reader.isFaithful_ofCollection {read : Reader} (faithful : read.IsFaithful)
    (typeName : String) : (ofCollection typeName read).IsFaithful := by
  intro raw value? early late done
  cases raw with
  | null =>
    cases done
    exact fun supply => ⟨none, supply, rfl, Value.optionRepeats_none⟩
  | array items =>
    obtain ⟨values, middle, all, result⟩ := Build.bind_eq_ok done
    cases result
    have rereads : ∀ value ∈ values, read.Rereads (some value) := by
      intro value inside
      obtain ⟨entry, listed, before, after, one⟩ :=
        exists_of_forall₂ (Value.forall₂_of_ofItems all) inside
      obtain ⟨item, -, rfl⟩ := List.mem_map.1 listed
      exact faithful item _ before after one
    intro supply
    obtain ⟨copies, rest, again, repeats⟩ := @Value.exists_ofItems typeName read values rereads supply
    exact ⟨some (.collection copies), rest, Build.bind_of_ok again,
      (Value.Repeats.collection repeats).some⟩
  | _ => cases done

namespace ComplexValue

theorem membersToJson_eq (bindings : List PropertyValue) : membersToJson bindings =
    bindings.map fun binding => (binding.name, Value.optionToJson binding.value?) := by
  induction bindings with
  | nil => rfl
  | cons binding rest ih =>
    cases binding
    rw [membersToJson, ih]
    rfl

theorem toJson_eq (value : ComplexValue) :
    value.toJson = .ofMembers (membersToJson value.bindings) := by
  cases value
  rfl

/-- A binding of a declared property whose value is read again. -/
def BindsAgain (type : ComplexType) (binding : PropertyValue) : Prop :=
  ∃ owner property value?, binding = (PropertyValue.unattached property value?).attach owner ∧
    type.property? property.name = some property ∧ property.type.reader.Rereads value?

/-- Bindings that are read again one by one make the same bindings again. -/
theorem exists_bindAll {bindings : List PropertyValue} {container : ComplexValue}
    (again : ∀ binding ∈ bindings, BindsAgain container.type binding)
    (distinct : (bindings.map PropertyValue.name).Nodup)
    (new : ∀ binding ∈ bindings, binding.name ∉ container.bindings.map PropertyValue.name)
    (supply : Supply) :
    ∃ copies rest, bindAll container.type.readers (membersToJson bindings) container supply =
        (({ container with bindings := container.bindings ++ copies }, .ok ()), rest) ∧
      List.Forall₂ PropertyValue.Repeats bindings copies := by
  induction bindings generalizing container supply with
  | nil =>
    refine ⟨[], supply, ?_, .nil⟩
    cases container
    rw [List.append_nil]
    rfl
  | cons binding others ih =>
    obtain ⟨owner, property, value?, rfl, declared, rereads⟩ := again _ List.mem_cons_self
    obtain ⟨copy?, middle, read, repeats⟩ := rereads supply
    let copy := (PropertyValue.unattached property copy?).attach container.id
    have fresh : copy.name ∉ container.bindings.map PropertyValue.name :=
      fun bound => new _ List.mem_cons_self bound
    let next : ComplexValue := { container with bindings := container.bindings ++ [copy] }
    rw [List.map_cons, List.nodup_cons] at distinct
    have named : copy.name =
        ((PropertyValue.unattached property value?).attach owner).name := rfl
    have later : ∀ other ∈ others, other.name ∉ next.bindings.map PropertyValue.name :=
      Keyed.not_mem_of_append PropertyValue.name PropertyValue.name named distinct.1 new
    have first : (bindRaw container.type.readers container property.name
        (Value.optionToJson value?)).run supply = (.ok next, middle) := by
      rw [bindRaw_declared declared, Build.bind_of_ok read]
      have bound : container.bind property copy? = next := by
        rw [bind, Keyed.put_of_not_mem _ _ _ fresh]
      rw [bound]
      rfl
    obtain ⟨copies, rest, bound, repeated⟩ := @ih next
      (fun other inside => again other (List.mem_cons_of_mem _ inside)) distinct.2 later middle
    refine ⟨copy :: copies, rest, ?_,
      .cons (PropertyValue.repeats_attach repeats property owner container.id) repeated⟩
    have written : Value.optionToJson
        ((PropertyValue.unattached property value?).attach owner).value? =
          Value.optionToJson value? := by
      cases value? with
      | none => rfl
      | some value => exact Value.toJson_adopt _ value
    rw [membersToJson_eq, List.map_cons, written, ← membersToJson_eq]
    have one : Edit.ofBuild (fun current => bindRaw container.type.readers current property.name
        (Value.optionToJson value?)) container supply = ((next, .ok ()), middle) :=
      Edit.ofBuild_of_ok first
    refine (Edit.andThen_of_ok one).trans (bound.trans ?_)
    rw [List.append_assoc, List.singleton_append]

end ComplexValue

/-- All declared properties of a type read again what they read. -/
def ComplexType.ReadsFaithfully (type : ComplexType) : Prop :=
  ∀ property ∈ type.properties, property.isDeclared = true → property.type.reader.IsFaithful

namespace ComplexValue

variable {type : ComplexType}

theorem bindsAgain_of_binds (apart : type.NamesApart) (faithful : type.ReadsFaithfully)
    {owner : ContainerId} {member : String × Json} {binding : PropertyValue}
    (declared : member.1 ∈ type.declaredProperties.map Property.name)
    (binds : type.Binds owner member binding) : BindsAgain type binding := by
  obtain ⟨own, listed, named⟩ := List.mem_map.1 declared
  obtain ⟨inside, isDeclared⟩ := List.mem_filter.1 listed
  have found : type.property? member.1 = some own :=
    named ▸ Keyed.find?_of_mem Property.name apart inside
  cases binds with
  | @declared name raw property value? early late known read =>
    cases known.symm.trans found
    refine ⟨owner, own, value?, rfl, named ▸ found, ?_⟩
    exact faithful own inside isDeclared raw value? early late read
  | dynamic undeclared isOpen =>
    rw [undeclared] at found
    cases found

/-- What was read into an empty container is read into another one again. -/
theorem exists_again (picks : type.isUntyped = false) (apart : type.NamesApart)
    (faithful : type.ReadsFaithfully) {members : Json.Members} {blank value : ComplexValue}
    {early late : Supply} (typed : blank.type = type) (empty : blank.bindings = [])
    (declared : (members.map Prod.fst).Sublist (type.declaredProperties.map Property.name))
    (done : bindAll type.readers members blank early = ((value, .ok ()), late))
    (other : ComplexValue) (typed' : other.type = type) (empty' : other.bindings = [])
    (supply : Supply) :
    ∃ again bindings copies rest, value = { blank with bindings := bindings } ∧
      value.toJson = .object again ∧
      bindAll type.readers (picked type again) other supply =
        (({ other with bindings := copies }, .ok ()), rest) ∧
      List.Forall₂ PropertyValue.Repeats bindings copies := by
  subst typed
  have unbound : ∀ (container : ComplexValue), container.bindings = [] → ∀ name,
      name ∉ container.bindings.map PropertyValue.name := by
    intro container nothing name bound
    rw [nothing] at bound
    cases bound
  have distinct := declared.nodup apart.declared
  obtain ⟨bindings, binds, rfl⟩ :=
    bindings_of_bindAll distinct (fun member _ => unbound blank empty member.1) done
  have names := ComplexType.names_eq_of_binds binds
  have memberNames : (membersToJson bindings).map Prod.fst = members.map Prod.fst := by
    rw [membersToJson_eq, List.map_map, ← names]
    rfl
  obtain ⟨again, written, same⟩ := Json.ofMembers_eq (membersToJson bindings) (memberNames ▸ distinct)
  have all : ∀ binding ∈ bindings, BindsAgain other.type binding := by
    intro binding inside
    obtain ⟨member, listed, bound⟩ := exists_of_forall₂ binds inside
    rw [typed']
    exact bindsAgain_of_binds apart faithful
      (declared.subset (List.mem_map_of_mem listed)) bound
  obtain ⟨copies, rest, bound, repeats⟩ := exists_bindAll all (names ▸ distinct)
    (fun binding _ => unbound other empty' binding.name) supply
  rw [typed', empty', List.nil_append] at bound
  refine ⟨again, bindings, copies, rest, ?_, ?_, ?_, repeats⟩
  · rw [empty, List.nil_append]
  · rw [toJson_eq, empty, List.nil_append, written]
  · rw [picked_eq picks apart (memberNames ▸ declared) same, bound, typed']

theorem equals_of_repeats {value copy : ComplexValue} (typed : copy.type = value.type)
    (repeats : List.Forall₂ PropertyValue.Repeats value.bindings copy.bindings) :
    value.equals copy = true := by
  cases value
  rw [equals, typed, beq_self_eq_true, Bool.true_and]
  exact (equalBindings_of_repeats repeats).2

end ComplexValue

theorem Reader.isFaithful_ofComplex {type : ComplexType} (picks : type.isUntyped = false)
    (apart : type.NamesApart) (faithful : type.ReadsFaithfully) :
    (ofComplex type type.readers).IsFaithful := by
  intro raw value? early late done supply
  cases raw with
  | null =>
    cases done
    exact ⟨none, supply, rfl, Value.optionRepeats_none⟩
  | object members =>
    obtain ⟨blank, middle, created, done⟩ := Build.bind_eq_ok done
    cases created
    obtain ⟨value, last, read, result⟩ := Build.bind_eq_ok done
    cases result
    have taken := @Source.taken_sublist (.mapping members) type (by rw [picks, Bool.and_false])
    obtain ⟨again, bindings, copies, rest, rfl, written, bound, repeats⟩ :=
      ComplexValue.exists_again picks apart faithful rfl rfl taken (Edit.run_of_toBuild read)
        ⟨⟨supply.next⟩, type, [], none, none, false, []⟩ rfl rfl ⟨supply.next + 1⟩
    refine ⟨some (.complex ⟨⟨supply.next⟩, type, copies, none, none, false, []⟩), rest, ?_,
      Value.Repeats.some ⟨congrArg Value.complex ?_, ?_⟩⟩
    · show (ofComplex type type.readers (ComplexValue.toJson _)).run supply = _
      rw [written]
      have created : (liftM (ComplexValue.ofType type) : Build ComplexValue).run supply =
        (.ok ⟨⟨supply.next⟩, type, [], none, none, false, []⟩, ⟨supply.next + 1⟩) := rfl
      exact (Build.bind_of_ok created).trans (Build.bind_of_ok (Edit.toBuild_of_ok bound))
    · show ComplexValue.anonymous _ = ComplexValue.anonymous _
      rw [ComplexValue.anonymous_eq, ComplexValue.anonymous_eq,
        (ComplexValue.equalBindings_of_repeats repeats).1]
    · rw [Value.equals]
      exact ComplexValue.equals_of_repeats rfl repeats
  | _ => cases done

mutual

theorem ValueType.isFaithful_reader (type : ValueType) (kept : type.isReproducible = true) :
    type.reader.IsFaithful := by
  match type with
  | .primitive type => exact Reader.isFaithful_ofPrimitive kept
  | .complex type =>
    obtain ⟨picks, apart, -⟩ := type.isReproducible_iff.1 kept
    exact Reader.isFaithful_ofComplex picks apart (ComplexType.readsFaithfully type kept)
  | .collection element =>
    exact Reader.isFaithful_ofCollection (ValueType.isFaithful_reader element kept) _
  | .entity name => cases kept
  | .untyped => cases kept

theorem ComplexType.readsFaithfully (type : ComplexType) (kept : type.isReproducible = true) :
    type.ReadsFaithfully := by
  obtain ⟨-, -, declared⟩ := type.isReproducible_iff.1 kept
  match type with
  | ⟨_, _, _, _, _, properties⟩ => exact Property.readFaithfully properties declared

theorem Property.readFaithfully (properties : List Property)
    (kept : Property.areReproducible properties = true) : ∀ property ∈ properties,
      property.isDeclared = true → property.type.reader.IsFaithful := by
  match properties with
  | [] => exact fun property inside => by cases inside
  | ⟨_, type, _, kind⟩ :: rest =>
    rw [Property.areReproducible, Bool.and_eq_true] at kept
    rw [List.forall_mem_cons]
    refine ⟨fun isDeclared => ?_, Property.readFaithfully rest kept.2⟩
    have declared : kind.isDeclared = true := isDeclared
    rw [declared, Bool.not_true, Bool.false_or] at kept
    exact ValueType.isFaithful_reader type kept.1

end

/-- Whatever value a record gives in an empty container of the type, another empty container of the
type takes it over from its plain JSON: the same properties are bound, in the same order, to equal
values that differ in the identities of containers alone. -/
theorem ComplexValue.fill_toJson {type : ComplexType} (kept : type.isReproducible = true)
    {source : Source} {value : ComplexValue} (gives : source.Gives type value)
    (blank : ComplexValue) (typed : blank.type = type) (empty : blank.bindings = [])
    (supply : Supply) :
    ∃ copy rest, (blank.fill value.toJson).run supply = (.ok copy, rest) ∧
      value.equals copy = true ∧ copy.type = type ∧
      copy.bindings.map PropertyValue.anonymous = value.bindings.map PropertyValue.anonymous := by
  obtain ⟨picks, apart, -⟩ := type.isReproducible_iff.1 kept
  have faithful := type.readsFaithfully kept
  obtain ⟨first, early, late, rfl, blankFirst, done⟩ := gives
  rw [Source.fill_eq] at done
  obtain ⟨again, bindings, copies, rest, rfl, written, bound, repeats⟩ :=
    exists_again picks apart faithful rfl blankFirst
      (Source.taken_sublist (by rw [picks, Bool.and_false])) done blank typed empty supply
  refine ⟨{ blank with bindings := copies }, rest, ?_, equals_of_repeats typed repeats, typed,
    (equalBindings_of_repeats repeats).1⟩
  rw [← typed] at bound
  have read : readRecord again blank supply = (({ blank with bindings := copies }, .ok ()), rest) :=
    bound
  rw [written]
  exact Edit.toBuild_of_ok read

/-- A type with a nested one, a collection, and a property whose values are not stored. -/
def booking : ComplexType :=
  ⟨"airline.Booking", false, none, false, true,
    [.declared "since" (.primitive .date), .declared "seats" (.collection (.primitive .guid)),
      .declared "guest" (.complex ⟨"airline.Guest", false, none, false, true,
        [.declared "name" (.primitive .string), .declared "born" (.primitive .date)]⟩),
      .navigation "flight" ⟨"airline.Flight", false, none, true⟩,
      .declared "note" (.primitive .string)]⟩

/-- A year before the first one, a null, an empty collection and an absent property. -/
theorem ComplexValue.fill_toJson_booking :
    let record : Source := .mapping [("guest", .object [("born", .string "-0044-03-15")]),
      ("seats", .array []), ("since", .null)]
    booking.isReproducible = true ∧ record.Gives booking (record.given booking) ∧
      (record.given booking).bindings.map PropertyValue.name = ["since", "seats", "guest"] ∧
      ∃ copy rest, ((⟨⟨7⟩, booking, [], none, none, false, []⟩ : ComplexValue).fill
          (record.given booking).toJson).run ⟨8⟩ = (.ok copy, rest) ∧
        (record.given booking).equals copy = true ∧ copy.type = booking ∧
        copy.bindings.map PropertyValue.anonymous =
          (record.given booking).bindings.map PropertyValue.anonymous := by
  intro record
  have kept : booking.isReproducible = true := by decide
  have gives : record.Gives booking (record.given booking) :=
    Source.gives_given (by decide +kernel)
  exact ⟨kept, gives, by decide +kernel,
    fill_toJson kept gives ⟨⟨7⟩, booking, [], none, none, false, []⟩ rfl rfl ⟨8⟩⟩

end EdmQuery
