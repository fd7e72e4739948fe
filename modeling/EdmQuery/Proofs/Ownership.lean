import EdmQuery.Proofs.Holdings

set_option autoImplicit false

namespace EdmQuery

/-- A binding of a container, with what it holds linked to the container. -/
structure PropertyValue.AttachedTo (owner : ContainerId) (binding : PropertyValue) : Prop where
  owner?_eq : binding.owner? = some owner
  linked : ∀ inner ∈ binding.held, inner.parent? = some ⟨owner, binding.name⟩

theorem PropertyValue.attachedTo_attach (owner : ContainerId) (binding : PropertyValue) :
    (binding.attach owner).AttachedTo owner :=
  ⟨rfl, fun _ held => parent?_of_attach owner binding held⟩

/-- A container owns all that it binds, and binds a name once. -/
structure ComplexValue.OwnsBindings (container : ComplexValue) : Prop where
  distinct : (container.bindings.map PropertyValue.name).Nodup
  attached : ∀ binding ∈ container.bindings, binding.AttachedTo container.id

namespace ComplexValue

theorem get?_of_mem {container : ComplexValue} (owns : container.OwnsBindings)
    {binding : PropertyValue} (inside : binding ∈ container.bindings) :
    container.get? binding.name = some binding :=
  Keyed.find?_of_mem _ owns.distinct inside

namespace OwnsBindings

variable {container : ComplexValue}

theorem bind (owns : container.OwnsBindings) (property : Property) (value? : Option Value) :
    (container.bind property value?).OwnsBindings := by
  refine ⟨Keyed.nodup_put _ _ _ owns.distinct, fun binding inside => ?_⟩
  rcases Keyed.mem_put _ inside with rfl | old
  · exact PropertyValue.attachedTo_attach _ _
  · exact owns.attached binding old

theorem added (owns : container.OwnsBindings) {binding : PropertyValue}
    (absent : container.has binding.name = false) :
    ({ container with bindings := container.bindings ++ [binding.attach container.id] } :
      ComplexValue).OwnsBindings := by
  have new : binding.name ∉ container.bindings.map PropertyValue.name := by
    rw [← Keyed.contains_iff]
    exact Bool.eq_false_iff.1 absent
  refine ⟨?_, List.forall_mem_append.2 ⟨owns.attached, fun bound inside => ?_⟩⟩
  · change ((container.bindings ++ [binding.attach container.id]).map PropertyValue.name).Nodup
    rw [List.map_append, List.nodup_append]
    refine ⟨owns.distinct, List.pairwise_singleton _ _, fun name old other single => ?_⟩
    rw [List.map_singleton, List.mem_singleton] at single
    rintro rfl
    exact new (single ▸ old)
  · rw [List.mem_singleton] at inside
    subst inside
    exact PropertyValue.attachedTo_attach _ _

theorem replaced (owns : container.OwnsBindings) (name : String) (value? : Option Value) :
    ({ container with
      bindings := Keyed.update PropertyValue.name name
        (fun binding => { binding with value? := value? }.attach container.id)
        container.bindings } : ComplexValue).OwnsBindings := by
  have names : (Keyed.update PropertyValue.name name
      (fun binding => { binding with value? := value? }.attach container.id)
      container.bindings).map PropertyValue.name = container.bindings.map PropertyValue.name := by
    apply Keyed.map_keyOf_update
    exact fun _ => rfl
  refine ⟨?_, fun bound inside => ?_⟩
  · exact names ▸ owns.distinct
  · rcases Keyed.mem_update _ inside with old | ⟨held, -, rfl⟩
    · exact owns.attached bound old
    · exact PropertyValue.attachedTo_attach _ _

theorem removed (owns : container.OwnsBindings) (name : String) :
    (container.remove name).1.OwnsBindings := by
  have fewer : (container.remove name).1.bindings.Sublist container.bindings :=
    List.eraseP_sublist
  exact ⟨(fewer.map PropertyValue.name).nodup owns.distinct,
    fun binding inside => owns.attached binding (fewer.subset inside)⟩

/-- A copy attaches all copies of the bindings to itself. -/
theorem copied (owns : container.OwnsBindings) (id : ContainerId) {copies : List PropertyValue}
    (same : copies.map PropertyValue.property = container.bindings.map PropertyValue.property) :
    (⟨id, container.type, copies.map (PropertyValue.attach id), container.parent?,
      container.entitySet?, container.isReference, container.metadata⟩ :
        ComplexValue).OwnsBindings := by
  refine ⟨?_, fun binding inside => ?_⟩
  · have names : (copies.map (PropertyValue.attach id)).map PropertyValue.name =
        container.bindings.map PropertyValue.name := by
      have named := congrArg (List.map Property.name) same
      rw [List.map_map, List.map_map] at named
      rw [List.map_map]
      exact named
    rw [names]
    exact owns.distinct
  · obtain ⟨copy, -, rfl⟩ := List.mem_map.1 inside
    exact PropertyValue.attachedTo_attach _ _

/-- No step of a program takes a binding from its container. -/
theorem kept (kind : ComplexType → Property → Prop) :
    KeptByOperations kind OwnsBindings where
  empty _ _ _ := ⟨List.nodup_nil, fun _ inside => by cases inside⟩
  bind _ property value? owns _ := owns.bind property value?
  relinked _ _ owns := ⟨owns.distinct, owns.attached⟩
  copied _ id _ owns same := owns.copied id same
  added _ _ owns absent _ _ := owns.added absent
  replaced _ name value? owns := owns.replaced name value?
  removed _ name owns := owns.removed name
  retyped _ _ owns _ _ := ⟨owns.distinct, owns.attached⟩

end OwnsBindings

theorem addProperty_of_owned {container : ComplexValue} {binding : PropertyValue}
    {owner : ContainerId} (owned : binding.owner? = some owner) (other : owner ≠ container.id) :
    container.addProperty binding = .error (.alreadyOwned binding.name) := by
  rw [addProperty, owned, Option.any_some, decide_eq_true other, if_pos rfl]

end ComplexValue

/-- An operation that is refused leaves the container as it was. -/
theorem Operation.edit_of_refused {operation : Operation} {container : ComplexValue}
    {supply : Supply} {error : Error}
    (refused : (operation.edit container supply).1.2 = .error error) :
    (operation.edit container supply).1.1 = container := by
  rcases ran : (operation.run container).run supply with ⟨outcome, rest⟩
  cases outcome with
  | error _ => rw [edit, Edit.ofBuild_of_error ran]
  | ok changed =>
    rw [edit, Edit.ofBuild_of_ok ran] at refused
    cases refused

/-- In every state that a program reaches containers have identities of their own, each container
owns its bindings and is linked to by what it holds, refuses what another one owns, and is as it was
after an operation that fails. -/
theorem Holdings.Reachable.ownership {kind : ComplexType → Property → Prop} {holdings : Holdings}
    (reached : Reachable kind holdings) :
    (identities holdings.all).Nodup ∧ ∀ container ∈ holdings.all,
      (∀ binding ∈ container.bindings,
        binding.owner? = some container.id ∧ container.get? binding.name = some binding ∧
          ∀ inner ∈ binding.held, inner.parent? = some ⟨container.id, binding.name⟩) ∧
      (∀ (binding : PropertyValue) (owner : ContainerId), binding.owner? = some owner →
        owner ≠ container.id →
          container.addProperty binding = .error (.alreadyOwned binding.name)) ∧
      ∀ (operation : Operation) (supply : Supply) (error : Error),
        (operation.edit container supply).1.2 = .error error →
          (operation.edit container supply).1.1 = container := by
  obtain ⟨all, covers⟩ := reached.keeps (ComplexValue.OwnsBindings.kept kind)
  refine ⟨covers.nodup, fun container inside => ?_⟩
  have owns := all container inside
  refine ⟨fun binding bound => ?_, fun _ _ => ComplexValue.addProperty_of_owned,
    fun _ _ _ => Operation.edit_of_refused⟩
  have attached := owns.attached binding bound
  exact ⟨attached.owner?_eq, ComplexValue.get?_of_mem owns bound, attached.linked⟩

/-- A container that was made part of another one, and a copy of the whole. -/
theorem Holdings.Reachable.ownership_nested :
    ∃ holdings, Reachable (fun _ _ => True) holdings ∧
      (identities holdings.all).map ContainerId.number = [2, 3, 1, 0] ∧
      (identities holdings.all).Nodup ∧ ∀ container ∈ holdings.all,
        (∀ binding ∈ container.bindings,
          binding.owner? = some container.id ∧ container.get? binding.name = some binding ∧
            ∀ inner ∈ binding.held, inner.parent? = some ⟨container.id, binding.name⟩) ∧
        (∀ (binding : PropertyValue) (owner : ContainerId), binding.owner? = some owner →
          owner ≠ container.id →
            container.addProperty binding = .error (.alreadyOwned binding.name)) ∧
        ∀ (operation : Operation) (supply : Supply) (error : Error),
          (operation.edit container supply).1.2 = .error error →
            (operation.edit container supply).1.1 = container := by
  let part := (ComplexValue.ofType .untyped ⟨0⟩).1
  let whole := (ComplexValue.ofType .untyped ⟨1⟩).1
  let input : PropertyInput := .value (.complex part)
  have created : Reachable (fun _ _ => True) ⟨[whole, part], [], ⟨2⟩⟩ :=
    .step (.step (.start ⟨0⟩) (.create [] [] ⟨0⟩ .untyped)) (.create [part] [] ⟨1⟩ .untyped)
  have joined : Reachable (fun _ _ => True)
      ⟨[(Operation.edit (.set "part" input) whole ⟨2⟩).1.1], [],
        (Operation.edit (.set "part" input) whole ⟨2⟩).2⟩ :=
    .step created (.operate [] [] ⟨2⟩ whole (.set "part" input) fun _ => trivial)
  have copied := joined.step (.copy _ _ (mem_all.2
    (.inl ⟨_, List.mem_cons_self, ComplexValue.mem_containers_self _⟩)))
  exact ⟨_, copied, by decide +kernel, copied.ownership⟩

end EdmQuery
