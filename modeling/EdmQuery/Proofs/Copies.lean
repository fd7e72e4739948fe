import EdmQuery.Proofs.Supplies

set_option autoImplicit false

namespace EdmQuery

/-- A property of containers that passes from a container to a copy of it. -/
structure KeptByCopying (holds : ComplexValue → Prop) : Prop where
  relinked : ∀ (container : ComplexValue) link, holds container → holds (container.linked link)
  copied : ∀ (container : ComplexValue) (id : ContainerId) (copies : List PropertyValue),
    holds container →
      copies.map PropertyValue.property = container.bindings.map PropertyValue.property →
        holds ⟨id, container.type, copies.map (PropertyValue.attach id), container.parent?,
          container.entitySet?, container.isReference, container.metadata⟩

theorem ComplexValue.properties_copyBindings (bindings : List PropertyValue) (supply : Supply) :
    (copyBindings bindings supply).1.map PropertyValue.property =
      bindings.map PropertyValue.property := by
  induction bindings generalizing supply with
  | nil => rfl
  | cons binding rest ih =>
    have copied : (copyBindings (binding :: rest) supply).1 =
        (binding.copy supply).1 :: (copyBindings rest (binding.copy supply).2).1 := rfl
    have same : (binding.copy supply).1.property = binding.property := by cases binding; rfl
    rw [copied, List.map_cons, List.map_cons, ih, same]

theorem ComplexValue.identities_attached (owner : ContainerId) (bindings : List PropertyValue) :
    identities (containersBelow (bindings.map (PropertyValue.attach owner))) =
      identities (containersBelow bindings) := by
  induction bindings with
  | nil => rfl
  | cons binding rest ih =>
    rw [List.map_cons, containersBelow, containersBelow, identities_append, identities_append, ih,
      PropertyValue.identities_attach]

section

variable {holds : ComplexValue → Prop}

mutual

theorem Value.makes_copy (kept : KeptByCopying holds) (value : Value)
    (all : ∀ inner ∈ value.containers, holds inner) :
    Building.Makes holds value.copy [] Value.containers := by
  match value with
  | .primitive value =>
    exact .pure (fun inner inside => by cases inside) fun id => Nat.le_refl _
  | .complex value =>
    refine (ComplexValue.makes_copy kept value all).bind fun copied allMade => ?_
    exact .pure allMade fun id => Nat.le_refl _
  | .collection items =>
    refine (Value.makes_copyItems kept items all).bind fun copied allMade => ?_
    exact .pure allMade fun id => Nat.le_refl _

theorem Value.makes_copyItems (kept : KeptByCopying holds) (items : List Value)
    (all : ∀ inner ∈ Value.itemContainers items, holds inner) :
    Building.Makes holds (Value.copyItems items) [] Value.itemContainers := by
  match items with
  | [] => exact .pure (fun inner inside => by cases inside) fun id => Nat.le_refl _
  | item :: rest =>
    rw [Value.itemContainers, List.forall_mem_append] at all
    refine (Value.makes_copy kept item all.1).bind fun copied allMade => ?_
    refine ((Value.makes_copyItems kept rest all.2).frame allMade).bind fun others both => ?_
    rw [List.forall_mem_append] at both
    refine .pure (List.forall_mem_append.2 both.symm) fun id => ?_
    refine Nat.le_of_eq ?_
    rw [Value.itemContainers, identities_append, identities_append, List.count_append,
      List.count_append, Nat.add_comm]

theorem Value.makes_copyOption (kept : KeptByCopying holds) (value? : Option Value)
    (all : ∀ inner ∈ Value.optionContainers value?, holds inner) :
    Building.Makes holds (Value.copyOption value?) [] Value.optionContainers := by
  match value? with
  | none => exact .pure (fun inner inside => by cases inside) fun id => Nat.le_refl _
  | some value =>
    refine (Value.makes_copy kept value all).bind fun copied allMade => ?_
    exact .pure allMade fun id => Nat.le_refl _

theorem PropertyValue.makes_copy (kept : KeptByCopying holds) (binding : PropertyValue)
    (all : ∀ inner ∈ binding.containers, holds inner) :
    Building.Makes holds binding.copy [] PropertyValue.containers := by
  match binding with
  | ⟨property, value?, owner?, metadata⟩ =>
    refine (Value.makes_copyOption kept value? all).bind fun copied allMade => ?_
    exact .pure allMade fun id => Nat.le_refl _

/-- The new container comes from the supply first, and then all that is below it. -/
theorem ComplexValue.makes_copy (kept : KeptByCopying holds) (container : ComplexValue)
    (all : ∀ inner ∈ container.containers, holds inner) :
    Building.Makes holds container.copy [] ComplexValue.containers := by
  match container with
  | ⟨id, type, bindings, parent?, entitySet?, isReference, metadata⟩ =>
    rw [ComplexValue.containers, List.forall_mem_cons] at all
    intro supply
    obtain ⟨allMade, draws⟩ := ComplexValue.makes_copyBindings kept bindings all.2
      ⟨supply.next + 1⟩
    have copied : (⟨id, type, bindings, parent?, entitySet?, isReference, metadata⟩ :
        ComplexValue).copy supply = (⟨⟨supply.next⟩, type,
          (ComplexValue.copyBindings bindings ⟨supply.next + 1⟩).1.map
            (PropertyValue.attach ⟨supply.next⟩), parent?, entitySet?, isReference, metadata⟩,
          (ComplexValue.copyBindings bindings ⟨supply.next + 1⟩).2) := rfl
    rw [copied]
    refine ⟨?_, ?_⟩
    · rw [ComplexValue.containers, List.forall_mem_cons]
      refine ⟨kept.copied _ ⟨supply.next⟩ _ all.1
        (ComplexValue.properties_copyBindings bindings _), fun inner inside => ?_⟩
      obtain ⟨attached, among, within⟩ := ComplexValue.mem_containersBelow.1 inside
      obtain ⟨binding, present, rfl⟩ := List.mem_map.1 among
      refine PropertyValue.forall_attach _ kept.relinked (fun below held => ?_) inner within
      exact allMade below (ComplexValue.mem_containersBelow.2 ⟨binding, present, held⟩)
    · refine (supply.draws_fresh.trans (draws.frame [⟨supply.next⟩])).of_count_le fun id => ?_
      refine Nat.le_of_eq ?_
      rw [ComplexValue.containers, identities_cons, ComplexValue.identities_attached,
        List.count_append, List.count_cons, List.count_singleton]

theorem ComplexValue.makes_copyBindings (kept : KeptByCopying holds) (bindings : List PropertyValue)
    (all : ∀ inner ∈ ComplexValue.containersBelow bindings, holds inner) :
    Building.Makes holds (ComplexValue.copyBindings bindings) [] ComplexValue.containersBelow := by
  match bindings with
  | [] => exact .pure (fun inner inside => by cases inside) fun id => Nat.le_refl _
  | binding :: rest =>
    rw [ComplexValue.containersBelow, List.forall_mem_append] at all
    refine (PropertyValue.makes_copy kept binding all.1).bind fun copied allMade => ?_
    refine ((ComplexValue.makes_copyBindings kept rest all.2).frame allMade).bind
      fun others both => ?_
    rw [List.forall_mem_append] at both
    refine .pure (List.forall_mem_append.2 both.symm) fun id => ?_
    refine Nat.le_of_eq ?_
    rw [ComplexValue.containersBelow, identities_append, identities_append, List.count_append,
      List.count_append, Nat.add_comm]

end

end

end EdmQuery
