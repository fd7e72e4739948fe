import EdmQuery.Value.Container

set_option autoImplicit false

namespace EdmQuery

mutual

/-- The containers that a value holds itself, also within collections. -/
def Value.held : Value → List ComplexValue
  | .primitive _ => []
  | .complex value => [value]
  | .collection items => Value.heldByItems items

def Value.heldByItems : List Value → List ComplexValue
  | [] => []
  | item :: rest => item.held ++ Value.heldByItems rest

end

def Value.heldByOption (value? : Option Value) : List ComplexValue :=
  (value?.map Value.held).getD []

def PropertyValue.held (binding : PropertyValue) : List ComplexValue :=
  Value.heldByOption binding.value?

mutual

/-- All containers within a value. -/
def Value.containers : Value → List ComplexValue
  | .primitive _ => []
  | .complex value => value.containers
  | .collection items => Value.itemContainers items

def Value.itemContainers : List Value → List ComplexValue
  | [] => []
  | item :: rest => item.containers ++ Value.itemContainers rest

def Value.optionContainers : Option Value → List ComplexValue
  | none => []
  | some value => value.containers

def PropertyValue.containers : PropertyValue → List ComplexValue
  | ⟨_, value?, _, _⟩ => Value.optionContainers value?

/-- A container with all containers below it. -/
def ComplexValue.containers : ComplexValue → List ComplexValue
  | ⟨id, type, bindings, parent?, entitySet?, isReference, metadata⟩ =>
    ⟨id, type, bindings, parent?, entitySet?, isReference, metadata⟩ ::
      ComplexValue.containersBelow bindings

def ComplexValue.containersBelow : List PropertyValue → List ComplexValue
  | [] => []
  | binding :: rest => binding.containers ++ ComplexValue.containersBelow rest

end

def identities (containers : List ComplexValue) : List ContainerId :=
  containers.map ComplexValue.id

@[simp] theorem identities_nil : identities [] = [] := rfl

@[simp] theorem identities_cons (container : ComplexValue) (rest : List ComplexValue) :
    identities (container :: rest) = container.id :: identities rest := rfl

@[simp] theorem identities_append (first second : List ComplexValue) :
    identities (first ++ second) = identities first ++ identities second := List.map_append

theorem PropertyValue.containers_eq (binding : PropertyValue) :
    binding.containers = Value.optionContainers binding.value? := by
  cases binding
  rfl

theorem ComplexValue.containers_eq (container : ComplexValue) :
    container.containers = container :: ComplexValue.containersBelow container.bindings := by
  cases container
  rfl

theorem ComplexValue.mem_containers_self (container : ComplexValue) :
    container ∈ container.containers := by
  rw [containers_eq]
  exact List.mem_cons_self

theorem ComplexValue.containersBelow_eq_flatMap (bindings : List PropertyValue) :
    containersBelow bindings = bindings.flatMap PropertyValue.containers := by
  induction bindings with
  | nil => rfl
  | cons binding rest ih => rw [containersBelow, ih, List.flatMap_cons]

theorem ComplexValue.mem_containersBelow {container : ComplexValue}
    {bindings : List PropertyValue} :
    container ∈ containersBelow bindings ↔
      ∃ binding ∈ bindings, container ∈ binding.containers := by
  rw [containersBelow_eq_flatMap, List.mem_flatMap]

theorem ComplexValue.containersBelow_append (first second : List PropertyValue) :
    containersBelow (first ++ second) = containersBelow first ++ containersBelow second := by
  rw [containersBelow_eq_flatMap, List.flatMap_append, containersBelow_eq_flatMap,
    containersBelow_eq_flatMap]

/-- A property of all containers within a container, by what it says of the container itself and of
those below. -/
theorem ComplexValue.forall_containers {holds : ComplexValue → Prop} {container : ComplexValue} :
    (∀ inner ∈ container.containers, holds inner) ↔
      holds container ∧
        ∀ binding ∈ container.bindings, ∀ inner ∈ binding.containers, holds inner := by
  simp only [containers_eq, List.forall_mem_cons, mem_containersBelow]
  refine and_congr_right fun _ => ⟨?_, ?_⟩
  · intro all binding inside inner within
    exact all inner ⟨binding, inside, within⟩
  · rintro all inner ⟨binding, inside, within⟩
    exact all binding inside inner within

mutual

theorem Value.mem_containers_of_held {value : Value} {container : ComplexValue}
    (held : container ∈ value.held) : container ∈ value.containers := by
  cases value with
  | primitive value => cases held
  | complex value =>
    rw [Value.held, List.mem_singleton] at held
    subst held
    exact container.mem_containers_self
  | collection items => exact Value.mem_itemContainers_of_held held

theorem Value.mem_itemContainers_of_held {items : List Value} {container : ComplexValue}
    (held : container ∈ Value.heldByItems items) : container ∈ Value.itemContainers items := by
  cases items with
  | nil => cases held
  | cons item rest =>
    rw [Value.heldByItems, List.mem_append] at held
    rw [Value.itemContainers, List.mem_append]
    exact held.imp Value.mem_containers_of_held Value.mem_itemContainers_of_held

end

theorem PropertyValue.mem_containers_of_held {binding : PropertyValue} {container : ComplexValue}
    (held : container ∈ binding.held) : container ∈ binding.containers := by
  rw [containers_eq]
  rw [PropertyValue.held] at held
  cases found : binding.value? with
  | none =>
    rw [found] at held
    cases held
  | some value =>
    rw [found] at held
    exact Value.mem_containers_of_held held

section

variable {inner below : ComplexValue}

mutual

theorem Value.mem_containers_trans {value : Value} (inside : inner ∈ value.containers)
    (within : below ∈ inner.containers) : below ∈ value.containers := by
  match value with
  | .primitive value => cases inside
  | .complex value => exact ComplexValue.mem_containers_trans inside within
  | .collection items => exact Value.mem_itemContainers_trans inside within

theorem Value.mem_itemContainers_trans {items : List Value}
    (inside : inner ∈ Value.itemContainers items) (within : below ∈ inner.containers) :
    below ∈ Value.itemContainers items := by
  match items with
  | [] => cases inside
  | item :: rest =>
    rw [Value.itemContainers, List.mem_append] at inside ⊢
    exact inside.imp (fun first => Value.mem_containers_trans first within)
      fun later => Value.mem_itemContainers_trans later within

theorem PropertyValue.mem_containers_trans {binding : PropertyValue}
    (inside : inner ∈ binding.containers) (within : below ∈ inner.containers) :
    below ∈ binding.containers := by
  match binding with
  | ⟨_, none, _, _⟩ => cases inside
  | ⟨_, some value, _, _⟩ =>
    have held : inner ∈ value.containers := inside
    exact Value.mem_containers_trans held within

theorem ComplexValue.mem_containers_trans {container : ComplexValue}
    (inside : inner ∈ container.containers) (within : below ∈ inner.containers) :
    below ∈ container.containers := by
  match container with
  | ⟨_, _, bindings, _, _, _, _⟩ =>
    rw [ComplexValue.containers, List.mem_cons] at inside
    rcases inside with rfl | later
    · exact within
    · rw [ComplexValue.containers]
      exact List.mem_cons_of_mem _ (ComplexValue.mem_containersBelow_trans later within)

theorem ComplexValue.mem_containersBelow_trans {bindings : List PropertyValue}
    (inside : inner ∈ ComplexValue.containersBelow bindings) (within : below ∈ inner.containers) :
    below ∈ ComplexValue.containersBelow bindings := by
  match bindings with
  | [] => cases inside
  | binding :: rest =>
    rw [ComplexValue.containersBelow, List.mem_append] at inside ⊢
    exact inside.imp (fun first => PropertyValue.mem_containers_trans first within)
      fun later => ComplexValue.mem_containersBelow_trans later within

end

end

theorem PropertyValue.mem_containers_of_mem {binding : PropertyValue} {container : ComplexValue}
    (held : binding ∈ container.bindings) {inner : ComplexValue}
    (inside : inner ∈ binding.containers) : inner ∈ container.containers := by
  rw [ComplexValue.containers_eq]
  exact List.mem_cons_of_mem _ (ComplexValue.mem_containersBelow.2 ⟨binding, held, inside⟩)

mutual

theorem Value.containers_eq_flatMap (value : Value) :
    value.containers = value.held.flatMap ComplexValue.containers := by
  cases value with
  | primitive value => rfl
  | complex value => rw [Value.containers, Value.held, List.flatMap_singleton]
  | collection items => exact Value.itemContainers_eq_flatMap items

theorem Value.itemContainers_eq_flatMap (items : List Value) :
    Value.itemContainers items = (Value.heldByItems items).flatMap ComplexValue.containers := by
  cases items with
  | nil => rfl
  | cons item rest =>
    rw [Value.itemContainers, Value.heldByItems, List.flatMap_append, item.containers_eq_flatMap,
      Value.itemContainers_eq_flatMap rest]

end

theorem Value.optionContainers_eq_flatMap (value? : Option Value) :
    optionContainers value? = (heldByOption value?).flatMap ComplexValue.containers := by
  cases value? with
  | none => rfl
  | some value => exact value.containers_eq_flatMap

section

variable (link : ParentLink)

/-- A container with a link to what holds it now. -/
def ComplexValue.linked (container : ComplexValue) : ComplexValue :=
  { container with parent? := some link }

mutual

theorem Value.held_adopt (value : Value) :
    (value.adopt link).held = value.held.map (ComplexValue.linked link) := by
  cases value with
  | primitive value => rfl
  | complex value => rfl
  | collection items => exact Value.heldByItems_adopt items

theorem Value.heldByItems_adopt (items : List Value) :
    Value.heldByItems (Value.adoptAll link items) =
      (Value.heldByItems items).map (ComplexValue.linked link) := by
  cases items with
  | nil => rfl
  | cons item rest =>
    rw [Value.adoptAll, Value.heldByItems, Value.heldByItems, List.map_append,
      Value.held_adopt item, Value.heldByItems_adopt rest]

end

theorem ComplexValue.identities_linked (container : ComplexValue) :
    identities (container.linked link).containers = identities container.containers := by
  rw [containers_eq, containers_eq]
  rfl

theorem Value.identities_adopt (value : Value) :
    identities (value.adopt link).containers = identities value.containers := by
  rw [containers_eq_flatMap, containers_eq_flatMap, held_adopt]
  induction value.held with
  | nil => rfl
  | cons container rest ih =>
    rw [List.map_cons, List.flatMap_cons, List.flatMap_cons, identities_append, identities_append,
      ih, ComplexValue.identities_linked]

/-- What does not depend on links holds after a value was taken over. -/
theorem Value.forall_adopt {holds : ComplexValue → Prop}
    (relinked : ∀ container, holds container → holds (container.linked link)) {value : Value}
    (all : ∀ container ∈ value.containers, holds container) :
    ∀ container ∈ (value.adopt link).containers, holds container := by
  intro container inside
  rw [containers_eq_flatMap, held_adopt, List.flatMap_map, List.mem_flatMap] at inside
  obtain ⟨top, held, inside⟩ := inside
  rw [ComplexValue.containers_eq, List.mem_cons] at inside
  rcases inside with rfl | below
  · exact relinked top (all top (mem_containers_of_held held))
  · refine all container ?_
    rw [containers_eq_flatMap, List.mem_flatMap]
    refine ⟨top, held, ?_⟩
    rw [ComplexValue.containers_eq]
    exact List.mem_cons_of_mem _ below

end

namespace PropertyValue

variable (owner : ContainerId) (binding : PropertyValue)

theorem identities_attach :
    identities (binding.attach owner).containers = identities binding.containers := by
  rw [containers_eq, containers_eq, attach]
  cases binding.value? with
  | none => rfl
  | some value => exact value.identities_adopt _

theorem forall_attach {holds : ComplexValue → Prop}
    (relinked : ∀ container link, holds container → holds (container.linked link))
    {binding : PropertyValue} (all : ∀ container ∈ binding.containers, holds container) :
    ∀ container ∈ (binding.attach owner).containers, holds container := by
  rw [containers_eq] at all ⊢
  rw [attach]
  cases found : binding.value? with
  | none =>
    intro container inside
    cases inside
  | some value =>
    rw [found] at all
    exact Value.forall_adopt _ (fun container => relinked container _) all

/-- Everything that a binding holds is linked to its owner once it is attached. -/
theorem parent?_of_attach {container : ComplexValue}
    (held : container ∈ (binding.attach owner).held) :
    container.parent? = some ⟨owner, binding.name⟩ := by
  rw [PropertyValue.held, attach] at held
  cases found : binding.value? with
  | none =>
    rw [found] at held
    cases held
  | some value =>
    rw [found] at held
    change container ∈ (value.adopt _).held at held
    rw [Value.held_adopt, List.mem_map] at held
    obtain ⟨before, -, rfl⟩ := held
    rfl

end PropertyValue

end EdmQuery
