import EdmQuery.Value.Container

set_option autoImplicit false

namespace EdmQuery

mutual

/-- The value with all identities made the same and without the bindings of properties that are not
kept. -/
def Value.erased (keeps : Property → Bool) : Value → Value
  | .primitive value => .primitive value
  | .complex value => .complex (value.erased keeps)
  | .collection items => .collection (Value.erasedItems keeps items)

def Value.erasedItems (keeps : Property → Bool) : List Value → List Value
  | [] => []
  | item :: rest => item.erased keeps :: Value.erasedItems keeps rest

def Value.erasedOption (keeps : Property → Bool) : Option Value → Option Value
  | none => none
  | some value => some (value.erased keeps)

def PropertyValue.erased (keeps : Property → Bool) : PropertyValue → PropertyValue
  | ⟨property, value?, owner?, metadata⟩ =>
    ⟨property, Value.erasedOption keeps value?, owner?.map fun _ => ⟨0⟩, metadata⟩

def ComplexValue.erased (keeps : Property → Bool) : ComplexValue → ComplexValue
  | ⟨_, type, bindings, parent?, entitySet?, isReference, metadata⟩ =>
    ⟨⟨0⟩, type, ComplexValue.erasedBindings keeps bindings,
      parent?.map fun link => ⟨⟨0⟩, link.property⟩, entitySet?, isReference, metadata⟩

def ComplexValue.erasedBindings (keeps : Property → Bool) : List PropertyValue → List PropertyValue
  | [] => []
  | binding :: rest =>
    if keeps binding.property then
      binding.erased keeps :: ComplexValue.erasedBindings keeps rest
    else ComplexValue.erasedBindings keeps rest

end

/-- The value up to identities. -/
def Value.anonymous (value : Value) : Value := value.erased fun _ => true

def PropertyValue.anonymous (binding : PropertyValue) : PropertyValue :=
  binding.erased fun _ => true

def ComplexValue.anonymous (container : ComplexValue) : ComplexValue :=
  container.erased fun _ => true

/-- What a container holds by itself, up to identities: all but the related entities. -/
def ComplexValue.stored (container : ComplexValue) : ComplexValue :=
  container.erased fun property => !property.isNavigation

def Value.stored (value : Value) : Value := value.erased fun property => !property.isNavigation

section

variable (keeps : Property → Bool)

@[simp] theorem Value.erasedItems_eq_map (items : List Value) :
    Value.erasedItems keeps items = items.map (Value.erased keeps) := by
  induction items with
  | nil => rfl
  | cons item rest ih => rw [Value.erasedItems, ih, List.map_cons]

@[simp] theorem Value.erasedOption_eq_map (value? : Option Value) :
    Value.erasedOption keeps value? = value?.map (Value.erased keeps) := by
  cases value? <;> rfl

@[simp] theorem ComplexValue.erasedBindings_eq (bindings : List PropertyValue) :
    ComplexValue.erasedBindings keeps bindings =
      (bindings.filter fun binding => keeps binding.property).map (PropertyValue.erased keeps) := by
  induction bindings with
  | nil => rfl
  | cons binding rest ih =>
    rw [ComplexValue.erasedBindings, ih]
    by_cases kept : keeps binding.property = true
    · rw [if_pos kept, List.filter_cons, if_pos kept, List.map_cons]
    · rw [if_neg kept, List.filter_cons, if_neg kept]

theorem PropertyValue.erased_eq (binding : PropertyValue) :
    binding.erased keeps = ⟨binding.property, binding.value?.map (Value.erased keeps),
      binding.owner?.map fun _ => ⟨0⟩, binding.metadata⟩ := by
  cases binding
  simp only [PropertyValue.erased, Value.erasedOption_eq_map]

@[simp] theorem PropertyValue.property_erased (binding : PropertyValue) :
    (binding.erased keeps).property = binding.property := by
  rw [PropertyValue.erased_eq]

theorem ComplexValue.erased_eq (container : ComplexValue) :
    container.erased keeps = ⟨⟨0⟩, container.type,
      (container.bindings.filter fun binding => keeps binding.property).map
        (PropertyValue.erased keeps),
      container.parent?.map fun link => ⟨⟨0⟩, link.property⟩, container.entitySet?,
      container.isReference, container.metadata⟩ := by
  cases container
  simp only [ComplexValue.erased, ComplexValue.erasedBindings_eq]

@[simp] theorem ComplexValue.type_erased (container : ComplexValue) :
    (container.erased keeps).type = container.type := by
  rw [ComplexValue.erased_eq]

end

theorem ComplexValue.type_eq_of_stored {first second : ComplexValue}
    (same : first.stored = second.stored) : first.type = second.type := by
  have types := congrArg ComplexValue.type same
  rwa [ComplexValue.stored, ComplexValue.stored, type_erased, type_erased] at types

mutual

theorem Value.erased_anonymous (keeps : Property → Bool) (value : Value) :
    value.anonymous.erased keeps = value.erased keeps := by
  cases value with
  | primitive value => rfl
  | complex value => exact congrArg Value.complex (ComplexValue.erased_anonymous keeps value)
  | collection items => exact congrArg Value.collection (Value.erasedItems_anonymous keeps items)

theorem Value.erasedItems_anonymous (keeps : Property → Bool) (items : List Value) :
    Value.erasedItems keeps (Value.erasedItems (fun _ => true) items) =
      Value.erasedItems keeps items := by
  cases items with
  | nil => rfl
  | cons item rest =>
    have first := Value.erased_anonymous keeps item
    rw [Value.anonymous] at first
    rw [Value.erasedItems, Value.erasedItems, Value.erasedItems, first,
      Value.erasedItems_anonymous keeps rest]

theorem Value.erasedOption_anonymous (keeps : Property → Bool) (value? : Option Value) :
    Value.erasedOption keeps (Value.erasedOption (fun _ => true) value?) =
      Value.erasedOption keeps value? := by
  cases value? with
  | none => rfl
  | some value => exact congrArg some (Value.erased_anonymous keeps value)

theorem PropertyValue.erased_anonymous (keeps : Property → Bool) (binding : PropertyValue) :
    binding.anonymous.erased keeps = binding.erased keeps := by
  obtain ⟨property, value?, owner?, metadata⟩ := binding
  have values := Value.erasedOption_anonymous keeps value?
  simp only [PropertyValue.anonymous, PropertyValue.erased, values, Option.map_map]
  rfl

theorem ComplexValue.erased_anonymous (keeps : Property → Bool) (container : ComplexValue) :
    container.anonymous.erased keeps = container.erased keeps := by
  obtain ⟨id, type, bindings, parent?, entitySet?, isReference, metadata⟩ := container
  have held := ComplexValue.erasedBindings_anonymous keeps bindings
  simp only [ComplexValue.anonymous, ComplexValue.erased, held, Option.map_map]
  rfl

theorem ComplexValue.erasedBindings_anonymous (keeps : Property → Bool)
    (bindings : List PropertyValue) :
    ComplexValue.erasedBindings keeps (ComplexValue.erasedBindings (fun _ => true) bindings) =
      ComplexValue.erasedBindings keeps bindings := by
  cases bindings with
  | nil => rfl
  | cons binding rest =>
    have first := PropertyValue.erased_anonymous keeps binding
    have others := ComplexValue.erasedBindings_anonymous keeps rest
    rw [PropertyValue.anonymous] at first
    rw [ComplexValue.erasedBindings, if_pos rfl, ComplexValue.erasedBindings,
      PropertyValue.property_erased, first, others, ← ComplexValue.erasedBindings]

end

theorem ComplexValue.stored_eq_of_anonymous {first second : ComplexValue}
    (same : first.anonymous = second.anonymous) : first.stored = second.stored := by
  rw [stored, stored, ← first.erased_anonymous, same, second.erased_anonymous]

mutual

theorem Value.erased_adopt (keeps : Property → Bool) (link : ParentLink) (value : Value) :
    (value.adopt link).erased keeps = (value.erased keeps).adopt ⟨⟨0⟩, link.property⟩ := by
  cases value with
  | primitive value => rfl
  | complex value => simp only [Value.adopt, Value.erased, ComplexValue.erased_eq, Option.map_some]
  | collection items => exact congrArg Value.collection (Value.erasedItems_adopt keeps link items)

theorem Value.erasedItems_adopt (keeps : Property → Bool) (link : ParentLink)
    (items : List Value) :
    Value.erasedItems keeps (Value.adoptAll link items) =
      Value.adoptAll ⟨⟨0⟩, link.property⟩ (Value.erasedItems keeps items) := by
  cases items with
  | nil => rfl
  | cons item rest =>
    rw [Value.adoptAll, Value.erasedItems, Value.erasedItems, Value.adoptAll,
      Value.erased_adopt keeps link item, Value.erasedItems_adopt keeps link rest]

end

theorem PropertyValue.erased_attach (keeps : Property → Bool) (owner : ContainerId)
    (binding : PropertyValue) :
    (binding.attach owner).erased keeps = (binding.erased keeps).attach ⟨0⟩ := by
  obtain ⟨property, value?, owner?, metadata⟩ := binding
  cases value? with
  | none => rfl
  | some value =>
    have adopted := Value.erased_adopt keeps ⟨owner, property.name⟩ value
    simp only [PropertyValue.attach, PropertyValue.erased, Value.erasedOption, Option.map_some,
      adopted]

theorem ComplexValue.anonymous_attached (first second : ContainerId)
    {copied other : List PropertyValue}
    (same : copied.map PropertyValue.anonymous = other.map PropertyValue.anonymous) :
    (copied.map (PropertyValue.attach first)).map PropertyValue.anonymous =
      (other.map (PropertyValue.attach second)).map PropertyValue.anonymous := by
  have attached : ∀ (owner : ContainerId) (bindings : List PropertyValue),
      (bindings.map (PropertyValue.attach owner)).map PropertyValue.anonymous =
        (bindings.map PropertyValue.anonymous).map (PropertyValue.attach ⟨0⟩) := by
    intro owner bindings
    rw [List.map_map, List.map_map]
    exact List.map_congr_left fun binding _ =>
      PropertyValue.erased_attach (fun _ => true) owner binding
  rw [attached first copied, same, ← attached second other]

theorem ComplexValue.anonymous_eq (container : ComplexValue) :
    container.anonymous = ⟨⟨0⟩, container.type, container.bindings.map PropertyValue.anonymous,
      container.parent?.map fun link => ⟨⟨0⟩, link.property⟩, container.entitySet?,
      container.isReference, container.metadata⟩ := by
  rw [anonymous, erased_eq, List.filter_eq_self.2 fun _ _ => rfl]
  rfl

mutual

theorem Value.anonymous_copy (value : Value) (first second : Supply) :
    (value.copy first).1.anonymous = (value.copy second).1.anonymous := by
  cases value with
  | primitive value => rfl
  | complex value =>
    exact congrArg Value.complex (ComplexValue.anonymous_copy value first second)
  | collection items =>
    have copies : Value.erasedItems (fun _ => true) (Value.copyItems items first).1 =
        Value.erasedItems (fun _ => true) (Value.copyItems items second).1 := by
      rw [Value.erasedItems_eq_map, Value.erasedItems_eq_map]
      exact Value.anonymous_copyItems items first second
    exact congrArg Value.collection copies

theorem Value.anonymous_copyItems (items : List Value) (first second : Supply) :
    (Value.copyItems items first).1.map Value.anonymous =
      (Value.copyItems items second).1.map Value.anonymous := by
  cases items with
  | nil => rfl
  | cons item rest =>
    have copied : ∀ supply, (Value.copyItems (item :: rest) supply).1 =
        (item.copy supply).1 :: (Value.copyItems rest (item.copy supply).2).1 := fun _ => rfl
    rw [copied, copied, List.map_cons, List.map_cons, Value.anonymous_copy item first second,
      Value.anonymous_copyItems rest (item.copy first).2 (item.copy second).2]

theorem Value.anonymous_copyOption (value? : Option Value) (first second : Supply) :
    (Value.copyOption value? first).1.map Value.anonymous =
      (Value.copyOption value? second).1.map Value.anonymous := by
  cases value? with
  | none => rfl
  | some value => exact congrArg some (Value.anonymous_copy value first second)

theorem PropertyValue.anonymous_copy (binding : PropertyValue) (first second : Supply) :
    (binding.copy first).1.anonymous = (binding.copy second).1.anonymous := by
  obtain ⟨property, value?, owner?, metadata⟩ := binding
  have copied : ∀ supply, ((⟨property, value?, owner?, metadata⟩ : PropertyValue).copy supply).1 =
      ⟨property, (Value.copyOption value? supply).1, owner?, metadata⟩ := fun _ => rfl
  have values := Value.anonymous_copyOption value? first second
  rw [copied, copied, PropertyValue.anonymous, PropertyValue.anonymous, PropertyValue.erased_eq,
    PropertyValue.erased_eq]
  exact congrArg (PropertyValue.mk property · _ metadata) values

theorem ComplexValue.anonymous_copy (container : ComplexValue) (first second : Supply) :
    (container.copy first).1.anonymous = (container.copy second).1.anonymous := by
  obtain ⟨id, type, bindings, parent?, entitySet?, isReference, metadata⟩ := container
  have copied : ∀ supply : Supply,
      ((⟨id, type, bindings, parent?, entitySet?, isReference, metadata⟩ : ComplexValue).copy
        supply).1 = ⟨⟨supply.next⟩, type,
          (ComplexValue.copyBindings bindings ⟨supply.next + 1⟩).1.map
            (PropertyValue.attach ⟨supply.next⟩), parent?, entitySet?, isReference, metadata⟩ :=
    fun _ => rfl
  have held := ComplexValue.anonymous_copyBindings bindings ⟨first.next + 1⟩ ⟨second.next + 1⟩
  rw [copied, copied, ComplexValue.anonymous_eq, ComplexValue.anonymous_eq]
  exact congrArg (ComplexValue.mk ⟨0⟩ type · _ entitySet? isReference metadata)
    (ComplexValue.anonymous_attached ⟨first.next⟩ ⟨second.next⟩ held)

theorem ComplexValue.anonymous_copyBindings (bindings : List PropertyValue)
    (first second : Supply) :
    (ComplexValue.copyBindings bindings first).1.map PropertyValue.anonymous =
      (ComplexValue.copyBindings bindings second).1.map PropertyValue.anonymous := by
  cases bindings with
  | nil => rfl
  | cons binding rest =>
    have copied : ∀ supply, (ComplexValue.copyBindings (binding :: rest) supply).1 =
        (binding.copy supply).1 ::
          (ComplexValue.copyBindings rest (binding.copy supply).2).1 := fun _ => rfl
    rw [copied, copied, List.map_cons, List.map_cons,
      PropertyValue.anonymous_copy binding first second,
      ComplexValue.anonymous_copyBindings rest (binding.copy first).2 (binding.copy second).2]

end

end EdmQuery
