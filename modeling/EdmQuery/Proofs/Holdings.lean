import EdmQuery.Proofs.Copies
import EdmQuery.Proofs.Reading

set_option autoImplicit false

namespace EdmQuery

/-- What a program holds, and the supply of further identities. -/
structure Holdings where
  containers : List ComplexValue
  bindings : List PropertyValue
  supply : Supply

/-- An operation on a container that may be refused. -/
inductive Operation
  | set (name : String) (input : PropertyInput)
  | addProperty (binding : PropertyValue)
  | replace (name : String) (value? : Option Value)
  | setType (type : ComplexType)

def PropertyInput.held : PropertyInput → List ComplexValue
  | .value given => given.held
  | _ => []

namespace Operation

def run : Operation → ComplexValue → Build ComplexValue
  | set name input, container => container.set name input
  | addProperty binding, container => Build.ofResult (container.addProperty binding)
  | replace name value?, container => Build.ofResult (container.replace name value?)
  | setType type, container => Build.ofResult (container.setType type)

/-- The operation where the container stands. -/
def edit (operation : Operation) : Edit ComplexValue := Edit.ofBuild operation.run

/-- The containers that an operation takes in. -/
def taken : Operation → List ComplexValue
  | set _ input => input.held
  | replace _ value? => Value.heldByOption value?
  | _ => []

/-- The bindings that an operation takes in. -/
def takenBindings : Operation → List PropertyValue
  | addProperty binding => [binding]
  | _ => []

/-- Properties that come with a binding, or meet a new type, are of a kind. -/
def Respects (kind : ComplexType → Property → Prop) : Operation → ComplexValue → Prop
  | addProperty binding, container => kind container.type binding.property
  | setType type, container => ∀ binding ∈ container.bindings, kind type binding.property
  | _, _ => True

end Operation

namespace Holdings

/-- All containers, also those within others and within bindings. -/
def all (holdings : Holdings) : List ComplexValue :=
  holdings.containers.flatMap ComplexValue.containers ++
    ComplexValue.containersBelow holdings.bindings

/-- One step of a program. An operation that is accepted respects a kind of properties. -/
inductive Step (kind : ComplexType → Property → Prop) : Holdings → Holdings → Prop
  | create (containers bindings supply) (type : ComplexType) :
      Step kind ⟨containers, bindings, supply⟩
        ⟨(ComplexValue.ofType type supply).1 :: containers, bindings,
          (ComplexValue.ofType type supply).2⟩
  | operate (containers bindings supply) (container : ComplexValue) (operation : Operation)
      (respects : (operation.edit container supply).1.2 = .ok () →
        operation.Respects kind container) :
      Step kind
        ⟨container :: (operation.taken ++ containers), operation.takenBindings ++ bindings, supply⟩
        ⟨(operation.edit container supply).1.1 :: containers, bindings,
          (operation.edit container supply).2⟩
  | readRecord (containers bindings supply) (container : ComplexValue) (members : Json.Members) :
      Step kind ⟨container :: containers, bindings, supply⟩
        ⟨(container.readRecord members supply).1.1 :: containers, bindings,
          (container.readRecord members supply).2⟩
  | readObject (containers bindings supply) (container : ComplexValue) (members : Json.Members) :
      Step kind ⟨container :: containers, bindings, supply⟩
        ⟨(container.readObject members supply).1.1 :: containers, bindings,
          (container.readObject members supply).2⟩
  | remove (containers bindings supply) (container : ComplexValue) (name : String) :
      Step kind ⟨container :: containers, bindings, supply⟩
        ⟨(container.remove name).1 :: containers, (container.remove name).2.toList ++ bindings,
          supply⟩
  | copy (holdings : Holdings) (container : ComplexValue) (held : container ∈ holdings.all) :
      Step kind holdings ⟨(container.copy holdings.supply).1 :: holdings.containers,
        holdings.bindings, (container.copy holdings.supply).2⟩
  | copyBinding (holdings : Holdings) (binding : PropertyValue)
      (held : binding ∈ holdings.bindings ∨
        ∃ container ∈ holdings.all, binding ∈ container.bindings) :
      Step kind holdings ⟨holdings.containers,
        (binding.copy holdings.supply).1 :: holdings.bindings, (binding.copy holdings.supply).2⟩
  | bind (containers bindings supply) (property : Property) (value? : Option Value) :
      Step kind ⟨Value.heldByOption value? ++ containers, bindings, supply⟩
        ⟨containers, .unattached property value? :: bindings, supply⟩
  | detach (containers bindings supply) (binding : PropertyValue) :
      Step kind ⟨containers, binding :: bindings, supply⟩
        ⟨containers, binding.detach :: bindings, supply⟩
  | release (containers bindings supply) (binding : PropertyValue) :
      Step kind ⟨containers, binding :: bindings, supply⟩
        ⟨binding.held ++ containers, bindings, supply⟩
  | keep {containers kept : List ComplexValue} {bindings keptBindings : List PropertyValue}
      (supply) (dropped : List ComplexValue) (droppedBindings : List PropertyValue)
      (same : containers.Perm (kept ++ dropped))
      (sameBindings : bindings.Perm (keptBindings ++ droppedBindings)) :
      Step kind ⟨containers, bindings, supply⟩ ⟨kept, keptBindings, supply⟩

/-- What a program may hold that began with nothing. -/
inductive Reachable (kind : ComplexType → Property → Prop) : Holdings → Prop
  | start (supply : Supply) : Reachable kind ⟨[], [], supply⟩
  | step {before after : Holdings} (reached : Reachable kind before)
      (next : Step kind before after) : Reachable kind after

end Holdings

/-- A property of containers that every step keeps. -/
structure KeptByOperations (kind : ComplexType → Property → Prop) (holds : ComplexValue → Prop) :
    Prop extends KeptByReading (fun _ => True) holds, KeptByCopying holds where
  added : ∀ (container : ComplexValue) (binding : PropertyValue), holds container →
    container.has binding.name = false → container.type.admits binding.property = true →
      kind container.type binding.property →
        holds { container with
          bindings := container.bindings ++ [binding.attach container.id] }
  replaced : ∀ (container : ComplexValue) (name : String) (value? : Option Value),
    holds container →
      holds { container with
        bindings := Keyed.update PropertyValue.name name
          (fun binding => { binding with value? := value? }.attach container.id)
          container.bindings }
  removed : ∀ (container : ComplexValue) (name : String), holds container →
    holds (container.remove name).1
  retyped : ∀ (container : ComplexValue) (type : ComplexType), holds container →
    (∀ binding ∈ container.bindings, type.admits binding.property = true) →
      (∀ binding ∈ container.bindings, kind type binding.property) →
        holds { container with type := type }

section

variable {kind : ComplexType → Property → Prop} {holds : ComplexValue → Prop}

namespace ComplexValue

theorem suits_of_propertyFor {container : ComplexValue} {name : String} {input : PropertyInput}
    {property : Property} (found : container.propertyFor name input = .ok property) :
    property.name = name ∧ container.type.Suits property := by
  rw [propertyFor] at found
  cases declared : container.type.property? name with
  | some other =>
    rw [declared] at found
    cases found
    exact ⟨(Keyed.keyOf_of_find? _ declared).1, ComplexType.suits_of_declared declared⟩
  | none =>
    rw [declared] at found
    cases isOpen : container.type.isOpen with
    | true =>
      simp only [isOpen, if_true] at found
      cases found
      exact ⟨rfl, .inr ⟨declared, rfl, isOpen⟩⟩
    | false =>
      simp only [isOpen, Bool.false_eq_true, if_false] at found
      cases found

theorem makes_set (kept : KeptByReading (fun _ => True) holds) {container : ComplexValue}
    (name : String) {input : PropertyInput}
    (all : ∀ inner ∈ container.containers, holds inner)
    (allTaken : ∀ inner ∈ input.held.flatMap containers, holds inner) :
    (container.set name input).Makes holds
      (identities (input.held.flatMap containers ++ container.containers)) containers := by
  rw [set]
  cases found : container.propertyFor name input with
  | error error => exact .throw error
  | ok property =>
    obtain ⟨-, suits⟩ := suits_of_propertyFor found
    cases input with
    | raw raw =>
      exact Build.makes_bind kept suits all
        (ValueType.makes_reader kept hereditary_true _ property.type.every_true raw)
    | value given =>
      have same : given.held.flatMap containers = Value.optionContainers (some given) :=
        given.containers_eq_flatMap.symm
      rw [PropertyInput.held, same] at allTaken ⊢
      refine Build.Makes.pure (forall_bind kept suits ?_) (container.count_bind property _)
      exact List.forall_mem_append.2 ⟨allTaken, all⟩
    | null =>
      refine Build.Makes.pure (forall_bind kept suits ?_) (container.count_bind property _)
      exact List.forall_mem_append.2 ⟨allTaken, all⟩

theorem eq_of_addProperty {container changed : ComplexValue} {binding : PropertyValue}
    (done : container.addProperty binding = .ok changed) :
    container.has binding.name = false ∧ container.type.admits binding.property = true ∧
      changed = { container with
        bindings := container.bindings ++ [binding.attach container.id] } := by
  rw [addProperty] at done
  split at done
  · cases done
  · split at done
    · cases done
    · rename_i absent
      split at done
      · rename_i admitted
        cases done
        exact ⟨Bool.eq_false_iff.2 absent, admitted, rfl⟩
      · cases done

theorem eq_of_replace {container changed : ComplexValue} {name : String} {value? : Option Value}
    (done : container.replace name value? = .ok changed) :
    changed = { container with
      bindings := Keyed.update PropertyValue.name name
        (fun binding => { binding with value? := value? }.attach container.id)
        container.bindings } := by
  rw [replace] at done
  split at done
  · cases done
    rfl
  · cases done

theorem eq_of_setType {container changed : ComplexValue} {type : ComplexType}
    (done : container.setType type = .ok changed) :
    (∀ binding ∈ container.bindings, type.admits binding.property = true) ∧
      changed = { container with type := type } := by
  rw [setType] at done
  cases found : container.bindings.find? fun binding => !type.admits binding.property with
  | some stale =>
    rw [found] at done
    cases done
  | none =>
    rw [found] at done
    cases done
    refine ⟨fun binding inside => ?_, rfl⟩
    have admitted := List.find?_eq_none.1 found binding inside
    simpa only [Bool.not_eq_true', Bool.not_eq_false] using admitted

theorem count_added (container : ComplexValue) (binding : PropertyValue) (id : ContainerId) :
    (identities ({ container with
      bindings := container.bindings ++ [binding.attach container.id] } :
        ComplexValue).containers).count id ≤
      (identities (containersBelow [binding] ++ container.containers)).count id := by
  simp only [containers_eq, containersBelow_append, containersBelow, identities_cons,
    identities_append, List.count_append, List.count_cons, List.append_nil,
    PropertyValue.identities_attach]
  omega

theorem count_update (name : String) (owner : ContainerId) (value? : Option Value)
    (bindings : List PropertyValue) (id : ContainerId) :
    (identities (containersBelow (Keyed.update PropertyValue.name name
      (fun binding => { binding with value? := value? }.attach owner) bindings))).count id ≤
      (identities (Value.optionContainers value? ++ containersBelow bindings)).count id := by
  induction bindings with
  | nil =>
    rw [Keyed.update, containersBelow, identities_nil]
    exact Nat.zero_le _
  | cons held rest ih =>
    rw [Keyed.update]
    split
    · simp only [containersBelow, identities_append, List.count_append,
        PropertyValue.identities_attach]
      rw [PropertyValue.containers_eq ⟨held.property, value?, held.owner?, held.metadata⟩]
      dsimp only
      omega
    · simp only [containersBelow, identities_append, List.count_append] at ih ⊢
      omega

theorem count_erase (name : String) (bindings : List PropertyValue) (id : ContainerId) :
    (identities (containersBelow
        ((Keyed.find? PropertyValue.name name bindings).toList ++
          Keyed.erase PropertyValue.name name bindings))).count id =
      (identities (containersBelow bindings)).count id := by
  induction bindings with
  | nil => rfl
  | cons held rest ih =>
    rw [Keyed.find?_cons, Keyed.erase, List.eraseP_cons]
    by_cases named : held.name = name
    · simp only [named, if_true, decide_true, cond_true, Option.toList_some,
        List.singleton_append]
    · simp only [named, if_false, decide_false, cond_false, containersBelow_append,
        containersBelow, identities_append, List.count_append] at ih ⊢
      rw [Keyed.erase] at ih
      omega

end ComplexValue

theorem ComplexValue.forall_added (kept : KeptByOperations kind holds) {container : ComplexValue}
    {binding : PropertyValue} (absent : container.has binding.name = false)
    (admitted : container.type.admits binding.property = true)
    (respects : kind container.type binding.property)
    (all : ∀ inner ∈ container.containers, holds inner)
    (allTaken : ∀ inner ∈ binding.containers, holds inner) :
    ∀ inner ∈ ({ container with
      bindings := container.bindings ++ [binding.attach container.id] } :
        ComplexValue).containers, holds inner := by
  rw [forall_containers] at all ⊢
  refine ⟨kept.added container binding all.1 absent admitted respects, fun bound inside => ?_⟩
  rcases List.mem_append.1 inside with old | new
  · exact all.2 bound old
  · rw [List.mem_singleton] at new
    subst new
    exact PropertyValue.forall_attach _ kept.relinked allTaken

theorem ComplexValue.forall_replaced (kept : KeptByOperations kind holds)
    {container : ComplexValue} (name : String) {value? : Option Value}
    (all : ∀ inner ∈ container.containers, holds inner)
    (allTaken : ∀ inner ∈ Value.optionContainers value?, holds inner) :
    ∀ inner ∈ ({ container with
      bindings := Keyed.update PropertyValue.name name
        (fun binding => { binding with value? := value? }.attach container.id)
        container.bindings } : ComplexValue).containers, holds inner := by
  rw [forall_containers] at all ⊢
  refine ⟨kept.replaced container name value? all.1, fun bound inside => ?_⟩
  rcases Keyed.mem_update _ inside with old | ⟨held, -, rfl⟩
  · exact all.2 bound old
  · refine PropertyValue.forall_attach _ kept.relinked ?_
    rw [PropertyValue.containers_eq]
    exact allTaken

theorem ComplexValue.count_replaced (container : ComplexValue) (name : String)
    (value? : Option Value) (id : ContainerId) :
    (identities ({ container with
      bindings := Keyed.update PropertyValue.name name
        (fun binding => { binding with value? := value? }.attach container.id)
        container.bindings } : ComplexValue).containers).count id ≤
      (identities (Value.optionContainers value? ++ container.containers)).count id := by
  have below := count_update name container.id value? container.bindings id
  simp only [containers_eq, identities_cons, identities_append, List.count_append,
    List.count_cons] at below ⊢
  omega

theorem PropertyValue.containers_detach (binding : PropertyValue) :
    binding.detach.containers = binding.containers := by
  rw [containers_eq, containers_eq]
  rfl

theorem ComplexValue.containersBelow_removed (container : ComplexValue) (name : String) :
    containersBelow (container.remove name).2.toList =
      containersBelow (Keyed.find? PropertyValue.name name container.bindings).toList := by
  rw [remove, get?]
  cases Keyed.find? PropertyValue.name name container.bindings with
  | none => rfl
  | some binding =>
    change binding.detach.containers ++ [] = binding.containers ++ []
    rw [PropertyValue.containers_detach]

/-- What is left after a property is removed, and what was removed. -/
theorem ComplexValue.forall_removed (kept : KeptByOperations kind holds)
    {container : ComplexValue} (name : String)
    (all : ∀ inner ∈ container.containers, holds inner) :
    (∀ inner ∈ (container.remove name).1.containers, holds inner) ∧
      ∀ inner ∈ containersBelow (container.remove name).2.toList, holds inner := by
  rw [containersBelow_removed]
  rw [forall_containers] at all ⊢
  refine ⟨⟨kept.removed container name all.1, fun binding inside => ?_⟩, fun inner inside => ?_⟩
  · exact all.2 binding (List.mem_of_mem_eraseP inside)
  · obtain ⟨binding, out, within⟩ := mem_containersBelow.1 inside
    have bound := (Keyed.keyOf_of_find? _ (Option.mem_toList.1 out)).2
    exact all.2 binding bound inner within

theorem ComplexValue.count_removed (container : ComplexValue) (name : String) (id : ContainerId) :
    (identities ((container.remove name).1.containers ++
        containersBelow (container.remove name).2.toList)).count id =
      (identities container.containers).count id := by
  have parted := count_erase name container.bindings id
  have rest : (container.remove name).1.bindings =
      Keyed.erase PropertyValue.name name container.bindings := rfl
  have same : (container.remove name).1.id = container.id := rfl
  rw [containersBelow_removed, containers_eq, containers_eq container]
  simp only [rest, same, containersBelow_append, List.cons_append, identities_cons,
    identities_append, List.count_cons, List.count_append] at parted ⊢
  omega

/-- What an operation takes in, with all that is within. -/
def Operation.takenWithin (operation : Operation) : List ComplexValue :=
  operation.taken.flatMap ComplexValue.containers ++
    ComplexValue.containersBelow operation.takenBindings

/-- An accepted operation makes containers of the kind from those that it had. -/
theorem Operation.makes_run (kept : KeptByOperations kind holds) (operation : Operation)
    {container : ComplexValue} (supply : Supply)
    (respects : ∀ changed, ((operation.run container).run supply).1 = .ok changed →
      operation.Respects kind container)
    (all : ∀ inner ∈ container.containers, holds inner)
    (allTaken : ∀ inner ∈ operation.takenWithin, holds inner) :
    (∀ inner ∈ made ComplexValue.containers ((operation.run container).run supply).1,
        holds inner) ∧
      supply.Draws ((operation.run container).run supply).2
        (identities (operation.takenWithin ++ container.containers))
        (identities (made ComplexValue.containers ((operation.run container).run supply).1)) := by
  cases operation with
  | set name input =>
    have same : (Operation.set name input).takenWithin =
        input.held.flatMap ComplexValue.containers := List.append_nil _
    rw [same] at allTaken ⊢
    exact ComplexValue.makes_set kept.toKeptByReading name all allTaken supply
  | addProperty binding =>
    have single : (Operation.addProperty binding).takenWithin =
        ComplexValue.containersBelow [binding] := rfl
    rw [single] at allTaken ⊢
    refine Build.Makes.ofResult (fun changed done => ?_) (fun changed done => ?_) supply
    · obtain ⟨absent, admitted, rfl⟩ := ComplexValue.eq_of_addProperty done
      have run : ((Operation.addProperty binding).run container).run supply =
          (container.addProperty binding, supply) := rfl
      rw [run] at respects
      refine ComplexValue.forall_added kept absent admitted (respects _ done) all ?_
      simpa only [ComplexValue.containersBelow, List.append_nil] using allTaken
    · obtain ⟨-, -, rfl⟩ := ComplexValue.eq_of_addProperty done
      exact container.count_added binding
  | replace name value? =>
    have same : (Operation.replace name value?).takenWithin = Value.optionContainers value? :=
      (List.append_nil _).trans (Value.optionContainers_eq_flatMap value?).symm
    rw [same] at allTaken ⊢
    refine Build.Makes.ofResult (fun changed done => ?_) (fun changed done => ?_) supply
    · rw [ComplexValue.eq_of_replace done]
      exact ComplexValue.forall_replaced kept name all allTaken
    · rw [ComplexValue.eq_of_replace done]
      exact container.count_replaced name value?
  | setType type =>
    refine Build.Makes.ofResult (fun changed done => ?_) (fun changed done => ?_) supply
    · obtain ⟨admitted, rfl⟩ := ComplexValue.eq_of_setType done
      have run : ((Operation.setType type).run container).run supply =
          (container.setType type, supply) := rfl
      rw [run] at respects
      rw [ComplexValue.forall_containers] at all ⊢
      exact ⟨kept.retyped container type all.1 admitted (respects _ done), all.2⟩
    · obtain ⟨-, rfl⟩ := ComplexValue.eq_of_setType done
      intro id
      rw [ComplexValue.containers_eq, ComplexValue.containers_eq container]
      exact Nat.le_refl _

theorem Operation.grows_edit (kept : KeptByOperations kind holds) (operation : Operation)
    {container : ComplexValue} (supply : Supply)
    (respects : (operation.edit container supply).1.2 = .ok () →
      operation.Respects kind container)
    (all : ∀ inner ∈ container.containers, holds inner)
    (allTaken : ∀ inner ∈ operation.takenWithin, holds inner) :
    (∀ inner ∈ (operation.edit container supply).1.1.containers, holds inner) ∧
      supply.Draws (operation.edit container supply).2
        (identities (operation.takenWithin ++ container.containers))
        (identities (operation.edit container supply).1.1.containers) := by
  have accepted : ∀ changed, ((operation.run container).run supply).1 = .ok changed →
      operation.Respects kind container := by
    intro changed done
    have ran : (operation.run container).run supply =
        (.ok changed, ((operation.run container).run supply).2) := Prod.ext done rfl
    rw [edit, Edit.ofBuild_of_ok ran] at respects
    exact respects rfl
  obtain ⟨allMade, draws⟩ := operation.makes_run kept supply accepted all allTaken
  rcases ran : (operation.run container).run supply with ⟨outcome, rest⟩
  rw [ran] at allMade draws
  cases outcome with
  | error error =>
    rw [edit, Edit.ofBuild_of_error ran]
    refine ⟨all, (draws.keep _).of_count_le fun id => ?_⟩
    rw [identities_append, List.count_append]
    exact Nat.le_add_left _ _
  | ok changed =>
    rw [edit, Edit.ofBuild_of_ok ran]
    exact ⟨allMade, draws⟩

theorem ComplexValue.grows_readAll (kept : KeptByReading (fun _ => True) holds)
    {container : ComplexValue} (all : ∀ inner ∈ container.containers, holds inner)
    (members : Json.Members) (supply : Supply) :
    (∀ inner ∈ (bindAll container.type.readers members container supply).1.1.containers,
        holds inner) ∧
      supply.Draws (bindAll container.type.readers members container supply).2
        (identities container.containers)
        (identities (bindAll container.type.readers members container supply).1.1.containers) :=
  (grows_bindAll kept trivial (fun property _ =>
    ValueType.makes_reader kept hereditary_true property.type property.type.every_true)
      members).makes container rfl all supply

namespace Holdings

theorem all_cons (container : ComplexValue) (containers : List ComplexValue)
    (bindings : List PropertyValue) (supply : Supply) :
    all ⟨container :: containers, bindings, supply⟩ =
      container.containers ++ all ⟨containers, bindings, supply⟩ := by
  rw [all, List.flatMap_cons, List.append_assoc, all]

theorem mem_all {container : ComplexValue} {holdings : Holdings} :
    container ∈ holdings.all ↔ (∃ held ∈ holdings.containers, container ∈ held.containers) ∨
      ∃ binding ∈ holdings.bindings, container ∈ binding.containers := by
  rw [all, List.mem_append, List.mem_flatMap, ComplexValue.mem_containersBelow]

/-- What a step does to one container, or to the one that is made, beside all that is held. -/
theorem grows_cons {container : ComplexValue} {spent : List ContainerId}
    {containers before : List ComplexValue} {bindings : List PropertyValue}
    {supply first last : Supply}
    (grown : (∀ inner ∈ container.containers, holds inner) ∧
      first.Draws last spent (identities container.containers))
    (all : ∀ inner ∈ Holdings.all ⟨containers, bindings, supply⟩, holds inner)
    (fewer : ∀ id,
      (spent ++ identities (Holdings.all ⟨containers, bindings, supply⟩)).count id ≤
        (identities before).count id) :
    (∀ inner ∈ Holdings.all ⟨container :: containers, bindings, last⟩, holds inner) ∧
      first.Draws last (identities before)
        (identities (Holdings.all ⟨container :: containers, bindings, last⟩)) := by
  rw [all_cons, identities_append]
  refine ⟨List.forall_mem_append.2 ⟨grown.1, all⟩, ?_⟩
  exact (grown.2.frame _).of_le_count fewer

/-- What a step makes of the bindings that are held, where the containers stay. -/
theorem grows_bindings {binding : PropertyValue} {spent : List ContainerId}
    {containers before : List ComplexValue} {bindings : List PropertyValue}
    {supply first last : Supply}
    (grown : (∀ inner ∈ binding.containers, holds inner) ∧
      first.Draws last spent (identities binding.containers))
    (all : ∀ inner ∈ Holdings.all ⟨containers, bindings, supply⟩, holds inner)
    (fewer : ∀ id,
      (spent ++ identities (Holdings.all ⟨containers, bindings, supply⟩)).count id ≤
        (identities before).count id) :
    (∀ inner ∈ Holdings.all ⟨containers, binding :: bindings, last⟩, holds inner) ∧
      first.Draws last (identities before)
        (identities (Holdings.all ⟨containers, binding :: bindings, last⟩)) := by
  refine ⟨fun inner inside => ?_, ((grown.2.frame _).of_le_count fewer).of_count_le fun id => ?_⟩
  · rw [Holdings.all, ComplexValue.containersBelow, List.mem_append, List.mem_append] at inside
    rcases inside with held | new | below
    · exact all inner (List.mem_append_left _ held)
    · exact grown.1 inner new
    · exact all inner (List.mem_append_right _ below)
  · simp only [Holdings.all, ComplexValue.containersBelow, identities_append, List.count_append]
    omega

theorem makes_create (kept : KeptByReading (fun _ => True) holds) (type : ComplexType)
    (supply : Supply) :
    (∀ inner ∈ (ComplexValue.ofType type supply).1.containers, holds inner) ∧
      supply.Draws (ComplexValue.ofType type supply).2 []
        (identities (ComplexValue.ofType type supply).1.containers) := by
  have created : ComplexValue.ofType type supply =
      (⟨⟨supply.next⟩, type, [], none, none, false, []⟩, ⟨supply.next + 1⟩) := rfl
  rw [created, ComplexValue.containers_empty]
  refine ⟨fun inner inside => ?_, supply.draws_fresh⟩
  rw [List.mem_singleton] at inside
  subst inside
  exact kept.empty _ type trivial

/-- A step that only moves or drops what is held. -/
theorem grows_of_fewer {before after : Holdings} (same : after.supply = before.supply)
    (among : ∀ inner ∈ after.all, inner ∈ before.all)
    (fewer : ∀ id, (identities after.all).count id ≤ (identities before.all).count id)
    (all : ∀ inner ∈ before.all, holds inner) :
    (∀ inner ∈ after.all, holds inner) ∧
      before.supply.Draws after.supply (identities before.all) (identities after.all) := by
  rw [same]
  exact ⟨fun inner inside => all inner (among inner inside), Supply.draws_of_count_le fewer⟩

theorem mem_all_trans {holdings : Holdings} {container inner : ComplexValue}
    (held : container ∈ holdings.all) (inside : inner ∈ container.containers) :
    inner ∈ holdings.all := by
  rw [mem_all] at held ⊢
  rcases held with ⟨top, present, within⟩ | ⟨binding, present, within⟩
  · exact .inl ⟨top, present, ComplexValue.mem_containers_trans within inside⟩
  · exact .inr ⟨binding, present, PropertyValue.mem_containers_trans within inside⟩

theorem Step.grows (kept : KeptByOperations kind holds) {before after : Holdings}
    (step : Step kind before after) (all : ∀ inner ∈ before.all, holds inner) :
    (∀ inner ∈ after.all, holds inner) ∧
      before.supply.Draws after.supply (identities before.all) (identities after.all) := by
  cases step with
  | create containers bindings supply type =>
    exact grows_cons (makes_create kept.toKeptByReading type supply) all fun id => Nat.le_refl _
  | operate containers bindings supply container operation respects =>
    have parts : ∀ inner, inner ∈ operation.takenWithin ∨ inner ∈ container.containers ∨
        inner ∈ Holdings.all ⟨containers, bindings, supply⟩ → holds inner := by
      intro inner inside
      refine all inner ?_
      simp only [Operation.takenWithin, Holdings.all, ComplexValue.containersBelow_append,
        List.flatMap_cons, List.flatMap_append, List.mem_append] at inside ⊢
      grind
    have grown := operation.grows_edit kept supply respects
      (fun inner inside => parts inner (.inr (.inl inside)))
      (fun inner inside => parts inner (.inl inside))
    refine grows_cons grown (fun inner inside => parts inner (.inr (.inr inside))) fun id => ?_
    simp only [Operation.takenWithin, Holdings.all, ComplexValue.containersBelow_append,
      List.flatMap_cons, List.flatMap_append, identities_append, List.count_append]
    omega
  | readRecord containers bindings supply container members =>
    rw [all_cons, List.forall_mem_append] at all
    refine grows_cons (ComplexValue.grows_readAll kept.toKeptByReading all.1 _ supply) all.2 ?_
    intro id
    refine Nat.le_of_eq ?_
    rw [all_cons, identities_append]
  | readObject containers bindings supply container members =>
    rw [all_cons, List.forall_mem_append] at all
    refine grows_cons (ComplexValue.grows_readAll kept.toKeptByReading all.1 _ supply) all.2 ?_
    intro id
    refine Nat.le_of_eq ?_
    rw [all_cons, identities_append]
  | remove containers bindings supply container name =>
    rw [all_cons, List.forall_mem_append] at all
    have removed := ComplexValue.forall_removed kept name all.1
    refine ⟨fun inner inside => ?_, Supply.draws_of_count_le fun id => ?_⟩
    · simp only [Holdings.all, List.flatMap_cons, ComplexValue.containersBelow_append,
        List.mem_append] at inside
      rcases inside with (new | old) | out | below
      · exact removed.1 inner new
      · exact all.2 inner (List.mem_append_left _ old)
      · exact removed.2 inner out
      · exact all.2 inner (List.mem_append_right _ below)
    · have parted := container.count_removed name id
      simp only [Holdings.all, List.flatMap_cons, ComplexValue.containersBelow_append,
        identities_append, List.count_append] at parted ⊢
      omega
  | copy _ container held =>
    have within : ∀ inner ∈ container.containers, holds inner :=
      fun inner inside => all inner (mem_all_trans held inside)
    exact grows_cons (ComplexValue.makes_copy kept.toKeptByCopying container within before.supply)
      all fun id => Nat.le_refl _
  | copyBinding _ binding held =>
    have within : ∀ inner ∈ binding.containers, holds inner := by
      intro inner inside
      rcases held with free | ⟨container, held, bound⟩
      · exact all inner (mem_all.2 (.inr ⟨binding, free, inside⟩))
      · exact all inner (mem_all_trans held (PropertyValue.mem_containers_of_mem bound inside))
    exact grows_bindings (PropertyValue.makes_copy kept.toKeptByCopying binding within
      before.supply) all fun id => Nat.le_refl _
  | bind containers bindings supply property value? =>
    have parts : Holdings.all ⟨Value.heldByOption value? ++ containers, bindings, supply⟩ =
        Value.optionContainers value? ++ Holdings.all ⟨containers, bindings, supply⟩ := by
      rw [Holdings.all, List.flatMap_append, ← Value.optionContainers_eq_flatMap,
        List.append_assoc, Holdings.all]
    rw [parts, List.forall_mem_append] at all
    have grown : (∀ inner ∈ (PropertyValue.unattached property value?).containers, holds inner) ∧
        supply.Draws supply (identities (Value.optionContainers value?))
          (identities (PropertyValue.unattached property value?).containers) := by
      rw [PropertyValue.containers_eq]
      exact ⟨all.1, Supply.draws_self _⟩
    refine grows_bindings grown all.2 fun id => ?_
    refine Nat.le_of_eq ?_
    rw [parts, identities_append]
  | detach containers bindings supply binding =>
    have parts : Holdings.all ⟨containers, binding.detach :: bindings, supply⟩ =
        Holdings.all ⟨containers, binding :: bindings, supply⟩ := by
      rw [Holdings.all, Holdings.all, ComplexValue.containersBelow, ComplexValue.containersBelow,
        binding.containers_detach]
    refine grows_of_fewer rfl ?_ ?_ all
    · rw [parts]
      exact fun inner inside => inside
    · rw [parts]
      exact fun id => Nat.le_refl _
  | release containers bindings supply binding =>
    have within : binding.containers = binding.held.flatMap ComplexValue.containers := by
      rw [PropertyValue.containers_eq, Value.optionContainers_eq_flatMap, PropertyValue.held]
    refine grows_of_fewer rfl (fun inner inside => ?_) (fun id => ?_) all
    · simp only [Holdings.all, List.flatMap_append, ComplexValue.containersBelow, within,
        List.mem_append] at inside ⊢
      grind
    · simp only [Holdings.all, List.flatMap_append, ComplexValue.containersBelow, within,
        identities_append, List.count_append]
      omega
  | keep supply dropped droppedBindings same sameBindings =>
    have first := same.flatMap_right ComplexValue.containers
    have second := sameBindings.flatMap_right PropertyValue.containers
    refine grows_of_fewer rfl (fun inner inside => ?_) (fun id => ?_) all
    · simp only [Holdings.all, ComplexValue.containersBelow_eq_flatMap, List.mem_append,
        first.mem_iff, second.mem_iff, List.flatMap_append] at inside ⊢
      grind
    · have firstCount := (first.map ComplexValue.id).count_eq id
      have secondCount := (second.map ComplexValue.id).count_eq id
      simp only [Holdings.all, identities, ComplexValue.containersBelow_eq_flatMap,
        List.map_append, List.flatMap_append, List.count_append] at firstCount secondCount ⊢
      omega

/-- Whatever a program does, what the operations keep holds of all containers that it holds, and
each of their identities was given out once. -/
theorem Reachable.keeps (kept : KeptByOperations kind holds) {holdings : Holdings}
    (reached : Reachable kind holdings) :
    (∀ container ∈ holdings.all, holds container) ∧
      holdings.supply.Covers (identities holdings.all) := by
  induction reached with
  | start supply =>
    refine ⟨fun container inside => (by cases inside), fun id => ?_⟩
    exact Nat.zero_le _
  | step reached next ih =>
    obtain ⟨all, draws⟩ := next.grows kept ih.1
    exact ⟨all, ih.2.draws draws⟩

end Holdings

end

end EdmQuery
