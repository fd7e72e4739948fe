import EdmQuery.Proofs.Reading
import EdmQuery.Proofs.Stability

set_option autoImplicit false

namespace EdmQuery

/-- Keys that are told apart stay new behind an item under the first of them. -/
theorem Keyed.not_mem_of_append {α β κ : Type} (keyOf : α → κ) (nameOf : β → κ) {items : List α}
    {item : α} {first : β} {rest : List β} (named : keyOf item = nameOf first)
    (distinct : nameOf first ∉ rest.map nameOf)
    (new : ∀ other ∈ first :: rest, nameOf other ∉ items.map keyOf) :
    ∀ other ∈ rest, nameOf other ∉ (items ++ [item]).map keyOf := by
  intro other inside taken
  rw [List.map_append, List.mem_append, List.map_singleton, List.mem_singleton, named] at taken
  rcases taken with before | same
  · exact new other (List.mem_cons_of_mem _ inside) before
  · exact distinct (same ▸ List.mem_map_of_mem inside)

/-- The declared properties have names of their own, too. -/
theorem ComplexType.NamesApart.declared {type : ComplexType} (apart : type.NamesApart) :
    (type.declaredProperties.map Property.name).Nodup :=
  List.Nodup.sublist (List.filter_sublist.map _) apart

/-- The binding of one member: what the declared property reads, or, on an open type, what the data is
taken for. -/
inductive ComplexType.Binds (type : ComplexType) (owner : ContainerId) :
    String × Json → PropertyValue → Prop
  | declared {name : String} {raw : Json} {property : Property} {value? : Option Value}
      {early late : Supply} (found : type.property? name = some property)
      (read : (property.type.reader raw).run early = (.ok value?, late)) :
      Binds type owner (name, raw) ((PropertyValue.unattached property value?).attach owner)
  | dynamic {name : String} {raw : Json} {value? : Option Value}
      (undeclared : type.property? name = none) (isOpen : type.isOpen = true) :
      Binds type owner (name, raw)
        ((PropertyValue.unattached (.dynamic name (.ofRaw raw)) value?).attach owner)

namespace ComplexType.Binds

variable {type : ComplexType} {owner : ContainerId} {member : String × Json}
  {binding : PropertyValue}

theorem name_eq (binds : type.Binds owner member binding) : binding.name = member.1 := by
  cases binds with
  | declared found read => exact (Keyed.keyOf_of_find? _ found).1
  | dynamic undeclared isOpen => rfl

theorem suits (binds : type.Binds owner member binding) : type.Suits binding.property := by
  cases binds with
  | declared found read => exact suits_of_declared found
  | dynamic undeclared isOpen => exact .inr ⟨undeclared, rfl, isOpen⟩

end ComplexType.Binds

theorem ComplexType.names_eq_of_binds {type : ComplexType} {owner : ContainerId}
    {members : Json.Members} {bindings : List PropertyValue}
    (binds : List.Forall₂ (type.Binds owner) members bindings) :
    bindings.map PropertyValue.name = members.map Prod.fst := by
  induction binds with
  | nil => rfl
  | cons first _ ih => rw [List.map_cons, List.map_cons, first.name_eq, ih]

namespace ComplexValue

/-- The binding that raw data under a name gives. -/
theorem exists_binds_of_bindRaw {container changed : ComplexValue} {name : String} {raw : Json}
    {supply rest : Supply}
    (done : (bindRaw container.type.readers container name raw).run supply =
      (.ok changed, rest)) :
    ∃ binding, container.type.Binds container.id (name, raw) binding ∧
      changed = { container with
        bindings := Keyed.put PropertyValue.name binding container.bindings } := by
  cases found : container.type.property? name with
  | some property =>
    rw [bindRaw_declared found] at done
    obtain ⟨value?, middle, read, bound⟩ := Build.bind_eq_ok done
    cases bound
    exact ⟨_, .declared found read, rfl⟩
  | none =>
    cases isOpen : container.type.isOpen with
    | true =>
      rw [bindRaw_open found isOpen] at done
      obtain ⟨value?, middle, -, bound⟩ := Build.bind_eq_ok done
      cases bound
      exact ⟨_, .dynamic found isOpen, rfl⟩
    | false =>
      rw [bindRaw_closed found isOpen] at done
      cases done

/-- Members of new names stand behind what was bound before, one by one. -/
theorem bindings_of_bindAll {members : Json.Members} {container changed : ComplexValue}
    {supply rest : Supply} (distinct : (members.map Prod.fst).Nodup)
    (new : ∀ member ∈ members, member.1 ∉ container.bindings.map PropertyValue.name)
    (done : bindAll container.type.readers members container supply =
      ((changed, .ok ()), rest)) :
    ∃ added, List.Forall₂ (container.type.Binds container.id) members added ∧
      changed = { container with bindings := container.bindings ++ added } := by
  induction members generalizing container supply with
  | nil =>
    cases done
    refine ⟨[], .nil, ?_⟩
    cases changed
    rw [List.append_nil]
  | cons member members ih =>
    obtain ⟨between, middle, one, later⟩ := Edit.andThen_eq_ok done
    obtain ⟨binding, binds, rfl⟩ := exists_binds_of_bindRaw (Edit.run_of_ofBuild one)
    have fresh : binding.name ∉ container.bindings.map PropertyValue.name :=
      binds.name_eq ▸ new member List.mem_cons_self
    rw [List.map_cons, List.nodup_cons] at distinct
    rw [Keyed.put_of_not_mem _ _ _ fresh] at later
    let next : ComplexValue := { container with bindings := container.bindings ++ [binding] }
    have read : bindAll next.type.readers members next middle = ((changed, .ok ()), rest) := later
    have others : ∀ other ∈ members, other.1 ∉ next.bindings.map PropertyValue.name :=
      Keyed.not_mem_of_append PropertyValue.name Prod.fst binds.name_eq distinct.1 new
    obtain ⟨added, all, rfl⟩ := ih distinct.2 others read
    refine ⟨binding :: added, .cons binds all, ?_⟩
    rw [← List.append_cons]

end ComplexValue

/-- A record that is read as a mapping or as an object. -/
inductive Source
  | mapping (members : Json.Members)
  | object (members : Json.Members)

namespace Source

def isMapping : Source → Bool
  | mapping _ => true
  | object _ => false

/-- The members that a container of a type takes, in this order. -/
def taken (type : ComplexType) : Source → Json.Members
  | mapping members => ComplexValue.picked type members
  | object members => ComplexValue.completed type members

def fill : Source → Edit ComplexValue
  | mapping members => ComplexValue.readRecord members
  | object members => ComplexValue.readObject members

theorem fill_eq (source : Source) (container : ComplexValue) :
    source.fill container =
      ComplexValue.bindAll container.type.readers (source.taken container.type) container := by
  cases source <;> rfl

/-- A value that a record gives in an empty container of a type. -/
def Gives (source : Source) (type : ComplexType) (value : ComplexValue) : Prop :=
  ∃ (blank : ComplexValue) (supply rest : Supply), blank.type = type ∧ blank.bindings = [] ∧
    source.fill blank supply = ((value, .ok ()), rest)

/-- What a record gives in one empty container, as far as it is read. -/
def given (source : Source) (type : ComplexType) : ComplexValue :=
  (source.fill ⟨⟨0⟩, type, [], none, none, false, []⟩ ⟨1⟩).1.1

theorem gives_given {source : Source} {type : ComplexType}
    (done : (source.fill ⟨⟨0⟩, type, [], none, none, false, []⟩ ⟨1⟩).1.2.isOk = true) :
    source.Gives type (source.given type) := by
  let blank : ComplexValue := ⟨⟨0⟩, type, [], none, none, false, []⟩
  refine ⟨blank, ⟨1⟩, (source.fill blank ⟨1⟩).2, rfl, rfl, ?_⟩
  have whole : source.given type = (source.fill blank ⟨1⟩).1.1 := rfl
  rw [whole]
  rcases ran : source.fill blank ⟨1⟩ with ⟨⟨value, outcome⟩, rest⟩
  rw [ran] at done
  cases outcome with
  | error error => cases done
  | ok done => rfl

/-- A mapping has its keys in order, each of them once. -/
def IsKept : Source → Prop
  | mapping members => (members.map Prod.fst).Pairwise (· < ·)
  | object _ => True

/-- Unless a mapping is taken as it is, the members are those of declared properties in their
order. -/
theorem taken_sublist {source : Source} {type : ComplexType}
    (picks : (source.isMapping && type.isUntyped) = false) :
    ((source.taken type).map Prod.fst).Sublist (type.declaredProperties.map Property.name) := by
  cases source with
  | mapping members =>
    rw [isMapping, Bool.true_and] at picks
    rw [taken, ComplexValue.picked, picks, if_neg Bool.false_ne_true]
    induction type.declaredProperties with
    | nil => exact .slnil
    | cons property rest ih =>
      rw [List.filterMap_cons, List.map_cons]
      cases members.lookup property.name with
      | none => exact ih.cons _
      | some raw => exact ih.cons_cons _
  | object members =>
    rw [taken, ComplexValue.completed, List.map_map]
    exact List.Sublist.refl _

theorem taken_untyped {members : Json.Members} {type : ComplexType}
    (untyped : type.isUntyped = true) : (mapping members).taken type = members := by
  rw [taken, ComplexValue.picked, untyped, if_pos rfl]

theorem nodup_taken {source : Source} {type : ComplexType} (apart : type.NamesApart)
    (kept : source.IsKept) : ((source.taken type).map Prod.fst).Nodup := by
  cases picks : source.isMapping && type.isUntyped with
  | false => exact (taken_sublist picks).nodup apart.declared
  | true =>
    rw [Bool.and_eq_true] at picks
    cases source with
    | mapping members =>
      rw [taken_untyped picks.2]
      refine List.Pairwise.imp (fun {one other} (less : one < other) same => ?_) kept
      exact String.lt_irrefl _ (same ▸ less)
    | object members => cases picks.1

/-- Every member that is taken becomes a binding, and there are no others. -/
theorem Gives.parts {source : Source} {type : ComplexType} {value : ComplexValue}
    (gives : source.Gives type value) (distinct : ((source.taken type).map Prod.fst).Nodup) :
    value.type = type ∧ List.Forall₂ (type.Binds value.id) (source.taken type) value.bindings := by
  obtain ⟨blank, supply, rest, rfl, empty, done⟩ := gives
  rw [fill_eq] at done
  have new : ∀ member ∈ source.taken blank.type,
      member.1 ∉ blank.bindings.map PropertyValue.name := by
    intro member _ bound
    rw [empty] at bound
    cases bound
  obtain ⟨added, all, rfl⟩ := ComplexValue.bindings_of_bindAll distinct new done
  rw [empty, List.nil_append]
  exact ⟨rfl, all⟩

end Source

end EdmQuery
