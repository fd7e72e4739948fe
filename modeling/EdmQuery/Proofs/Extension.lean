import EdmQuery.Proofs.Loading
import EdmQuery.Value.Entity

set_option autoImplicit false

namespace EdmQuery

section

variable (computes : Property → Prop)

/-- A binding in the place of an earlier one: with the same primitive under the same property, or of
a computed property. -/
def PropertyValue.Replaces (type : ComplexType) (before after : PropertyValue) : Prop :=
  (after.property = before.property ∧ after.primitive? = before.primitive?) ∨
    (type.property? before.name = some after.property ∧ computes after.property)

/-- A binding under a name that was not bound, of a navigation property or a computed one. -/
structure PropertyValue.Joins (container : ComplexValue) (binding : PropertyValue) : Prop where
  declared : container.type.property? binding.name = some binding.property
  unbound : binding.name ∉ container.bindings.map PropertyValue.name
  kind : binding.property.isNavigation = true ∨ computes binding.property

/-- A container that keeps its bindings in their places, and may have more behind. -/
structure ComplexValue.Extends (before after : ComplexValue) : Prop where
  type_eq : after.type = before.type
  entitySet?_eq : after.entitySet? = before.entitySet?
  bindings : ∃ held added, after.bindings = held ++ added ∧
    List.Forall₂ (PropertyValue.Replaces computes before.type) before.bindings held ∧
      ∀ binding ∈ added, binding.Joins computes before

end

variable {computes : Property → Prop}

namespace PropertyValue.Replaces

variable {type : ComplexType} {before between after : PropertyValue}

theorem name_eq (replaces : before.Replaces computes type after) : after.name = before.name := by
  rcases replaces with ⟨same, -⟩ | ⟨declared, -⟩
  · exact congrArg Property.name same
  · exact (Keyed.keyOf_of_find? _ declared).1

theorem refl (binding : PropertyValue) : binding.Replaces computes type binding :=
  .inl ⟨rfl, rfl⟩

theorem trans (early : before.Replaces computes type between)
    (late : between.Replaces computes type after) : before.Replaces computes type after := by
  rcases late with ⟨same, value⟩ | ⟨declared, computed⟩
  · rcases early with ⟨sameBefore, valueBefore⟩ | ⟨declared, computed⟩
    · exact .inl ⟨same.trans sameBefore, value.trans valueBefore⟩
    · rw [← same] at declared computed
      exact .inr ⟨declared, computed⟩
  · rw [early.name_eq] at declared
    exact .inr ⟨declared, computed⟩

end PropertyValue.Replaces

theorem PropertyValue.Joins.replaced {container : ComplexValue} {before after : PropertyValue}
    (joins : before.Joins computes container)
    (replaces : before.Replaces computes container.type after) :
    after.Joins computes container := by
  have named := replaces.name_eq
  rcases replaces with ⟨same, -⟩ | ⟨declared, computed⟩
  · refine ⟨?_, ?_, ?_⟩
    · rw [named, same]
      exact joins.declared
    · rw [named]
      exact joins.unbound
    · rw [same]
      exact joins.kind
  · refine ⟨?_, ?_, .inr computed⟩
    · rw [named]
      exact declared
    · rw [named]
      exact joins.unbound

theorem PropertyValue.Replaces.names_eq {type : ComplexType} {before after : List PropertyValue}
    (replaced : List.Forall₂ (PropertyValue.Replaces computes type) before after) :
    after.map PropertyValue.name = before.map PropertyValue.name := by
  induction replaced with
  | nil => rfl
  | cons replaces _ ih => rw [List.map_cons, List.map_cons, replaces.name_eq, ih]

/-- An item that is put stands in the place of the one with its key, or behind all. -/
theorem Keyed.put_parts {α κ : Type} [DecidableEq κ] (keyOf : α → κ) (item : α) (items : List α) :
    ∃ held added, Keyed.put keyOf item items = held ++ added ∧
      List.Forall₂ (fun before after =>
        after = before ∨ (keyOf before = keyOf item ∧ after = item)) items held ∧
          ∀ other ∈ added, other = item ∧ keyOf item ∉ items.map keyOf := by
  induction items with
  | nil =>
    refine ⟨[], [item], rfl, .nil, fun other inside => ⟨List.mem_singleton.1 inside, ?_⟩⟩
    exact List.not_mem_nil
  | cons first rest ih =>
    rw [Keyed.put]
    split
    · rename_i same
      refine ⟨item :: rest, [], (List.append_nil _).symm, .cons (.inr ⟨same, rfl⟩) ?_,
        fun _ inside => (by cases inside)⟩
      exact List.forall₂_same.2 fun _ _ => .inl rfl
    · rename_i other
      obtain ⟨held, added, parts, replaced, new⟩ := ih
      refine ⟨first :: held, added, congrArg (first :: ·) parts, .cons (.inl rfl) replaced,
        fun later inside => ⟨(new later inside).1, ?_⟩⟩
      rw [List.map_cons, List.mem_cons, not_or]
      exact ⟨fun equal => other equal.symm, (new later inside).2⟩

namespace ComplexValue.Extends

variable {before between after : ComplexValue}

/-- All names stay in front, in their order. -/
theorem names_eq (grows : before.Extends computes after) : ∃ added,
    after.bindings.map PropertyValue.name = before.bindings.map PropertyValue.name ++ added := by
  obtain ⟨held, added, bindings, replaced, -⟩ := grows.bindings
  refine ⟨added.map PropertyValue.name, ?_⟩
  rw [bindings, List.map_append, PropertyValue.Replaces.names_eq replaced]

theorem refl (container : ComplexValue) : container.Extends computes container :=
  ⟨rfl, rfl, container.bindings, [], (List.append_nil _).symm,
    List.forall₂_same.2 fun binding _ => .refl binding, fun _ inside => by cases inside⟩

theorem trans (early : before.Extends computes between) (late : between.Extends computes after) :
    before.Extends computes after := by
  obtain ⟨held, added, first, replaced, joins⟩ := early.bindings
  obtain ⟨later, more, second, replacedLater, joinsLater⟩ := late.bindings
  rw [first, early.type_eq] at replacedLater
  obtain ⟨heldLater, addedLater, rfl, heldFollow, addedFollow⟩ :=
    forall₂_split replacedLater
  refine ⟨late.type_eq.trans early.type_eq, late.entitySet?_eq.trans early.entitySet?_eq,
    heldLater, addedLater ++ more, by rw [second, List.append_assoc], ?_, ?_⟩
  · exact forall₂_comp (fun _ _ _ one two => one.trans two) replaced heldFollow
  · rintro binding inside
    rcases List.mem_append.1 inside with old | new
    · obtain ⟨original, among, replaces⟩ := exists_of_forall₂ addedFollow old
      exact (joins original among).replaced replaces
    · obtain ⟨declared, unbound, kind⟩ := joinsLater binding new
      rw [early.type_eq] at declared
      refine ⟨declared, fun bound => unbound ?_, kind⟩
      obtain ⟨names, same⟩ := early.names_eq
      rw [same]
      exact List.mem_append_left _ bound

/-- Binding a computed property, in its place or behind. -/
theorem bind_computed {container : ComplexValue} {property : Property} (value? : Option Value)
    (declared : container.type.property? property.name = some property)
    (computed : computes property) :
    container.Extends computes (container.bind property value?) := by
  obtain ⟨held, added, bindings, replaced, new⟩ := Keyed.put_parts PropertyValue.name
    ((PropertyValue.unattached property value?).attach container.id) container.bindings
  refine ⟨rfl, rfl, held, added, bindings, replaced.imp fun before after same => ?_,
    fun binding inside => ?_⟩
  · rcases same with rfl | ⟨named, rfl⟩
    · exact .refl _
    · refine .inr ⟨?_, computed⟩
      rw [named]
      exact declared
  · obtain ⟨rfl, unbound⟩ := new binding inside
    exact ⟨declared, unbound, .inr computed⟩

theorem bind_navigation {container : ComplexValue} {property : Property} (value? : Option Value)
    (declared : container.type.property? property.name = some property)
    (navigation : property.isNavigation = true) (unbound : container.has property.name = false) :
    container.Extends computes (container.bind property value?) := by
  have absent : property.name ∉ container.bindings.map PropertyValue.name := by
    rw [← Keyed.contains_iff]
    exact Bool.eq_false_iff.1 unbound
  refine ⟨rfl, rfl, container.bindings, [(PropertyValue.unattached property value?).attach
    container.id], Keyed.put_of_not_mem _ _ _ absent, List.forall₂_same.2 fun binding _ =>
      .refl binding, fun binding inside => ?_⟩
  rw [List.mem_singleton] at inside
  subst inside
  exact ⟨declared, absent, .inl navigation⟩

/-- Bindings whose properties and primitives stay. -/
theorem of_bindings {container : ComplexValue} {bindings : List PropertyValue}
    (same : List.Forall₂ (fun before after : PropertyValue =>
      after.property = before.property ∧ after.primitive? = before.primitive?)
        container.bindings bindings) :
    container.Extends computes { container with bindings := bindings } :=
  ⟨rfl, rfl, bindings, [], (List.append_nil _).symm, same.imp fun _ _ kept => .inl kept,
    fun _ inside => by cases inside⟩

end ComplexValue.Extends

theorem Property.not_isETagEligible_of_isNavigation {property : Property}
    (navigation : property.isNavigation = true) : property.isETagEligible = false := by
  rw [isNavigation] at navigation
  rw [isETagEligible, isDeclared]
  cases kind : property.kind with
  | navigation binding => rfl
  | _ =>
    rw [kind] at navigation
    cases navigation

theorem Property.not_isETagEligible_of_isGenerated {property : Property}
    (generated : property.isGenerated = true) : property.isETagEligible = false := by
  rw [isGenerated] at generated
  rw [isETagEligible, isDeclared]
  cases kind : property.kind with
  | generated rule => rfl
  | _ =>
    rw [kind] at generated
    cases generated

namespace ComplexValue.Extends

variable {before after : ComplexValue}

/-- The ETag stays where no eligible property is computed, not even under a name that an eligible one
is bound to. -/
theorem etagEntries_eq (grows : before.Extends computes after)
    (uncomputed : ∀ property, computes property → property.isETagEligible = false)
    (stays : ∀ binding ∈ before.bindings, binding.property.isETagEligible = true →
      ∀ property, before.type.property? binding.name = some property → ¬ computes property) :
    after.etagEntries = before.etagEntries := by
  obtain ⟨held, added, bindings, replaced, joins⟩ := grows.bindings
  have ineligible : added.filter (fun binding => binding.property.isETagEligible) = [] := by
    rw [List.filter_eq_nil_iff]
    intro binding inside
    rw [Bool.not_eq_true]
    rcases (joins binding inside).kind with navigation | computed
    · exact Property.not_isETagEligible_of_isNavigation navigation
    · exact uncomputed _ computed
  rw [etagEntries, bindings, List.filter_append, ineligible, List.append_nil, etagEntries]
  clear bindings joins
  generalize before.bindings = olds at replaced stays
  induction replaced with
  | nil => rfl
  | cons replaces _ ih =>
    have later := ih fun binding inside => stays binding (List.mem_cons_of_mem _ inside)
    have first := stays _ List.mem_cons_self
    rw [List.filter_cons, List.filter_cons]
    have named := replaces.name_eq
    rcases replaces with ⟨same, value⟩ | ⟨declared, computed⟩
    · rw [same]
      split
      · rw [List.map_cons, List.map_cons, later, value, named]
      · exact later
    · rename_i old new _ _ _
      have plain : old.property.isETagEligible = false := by
        cases eligible : old.property.isETagEligible with
        | false => rfl
        | true => exact absurd computed (first eligible _ declared)
      simp only [plain, uncomputed _ computed, Bool.false_eq_true, if_false]
      exact later

theorem etag_eq (grows : before.Extends computes after)
    (uncomputed : ∀ property, computes property → property.isETagEligible = false)
    (stays : ∀ binding ∈ before.bindings, binding.property.isETagEligible = true →
      ∀ property, before.type.property? binding.name = some property → ¬ computes property) :
    after.etag = before.etag := by
  rw [etag, etag, grows.etagEntries_eq uncomputed stays]

theorem find?_replaced {type : ComplexType} {name : String} {olds news : List PropertyValue}
    (replaced : List.Forall₂ (PropertyValue.Replaces computes type) olds news)
    (stays : ∀ property, type.property? name = some property → ¬ computes property) :
    (Keyed.find? PropertyValue.name name news).map PropertyValue.primitive? =
      (Keyed.find? PropertyValue.name name olds).map PropertyValue.primitive? := by
  induction replaced with
  | nil => rfl
  | cons replaces _ ih =>
    rw [Keyed.find?_cons, Keyed.find?_cons, replaces.name_eq]
    split
    · rename_i named
      rcases replaces with ⟨-, value⟩ | ⟨declared, computed⟩
      · rw [Option.map_some, Option.map_some, value]
      · rw [named] at declared
        exact absurd computed (stays _ declared)
    · exact ih

/-- The primitive under a name stays if the property is not computed, and if a related entity that
becomes bound there is no primitive. -/
theorem primitive?_eq (grows : before.Extends computes after) {name : String}
    (stays : ∀ property, before.type.property? name = some property → ¬ computes property ∧
      (property.isNavigation = true → before.has name = true ∨
        (after.get? name).bind PropertyValue.primitive? = none)) :
    (after.get? name).bind PropertyValue.primitive? =
      (before.get? name).bind PropertyValue.primitive? := by
  obtain ⟨held, added, bindings, replaced, joins⟩ := grows.bindings
  have same := find?_replaced replaced fun property declared => (stays property declared).1
  have whole : after.get? name = (Keyed.find? PropertyValue.name name held).or
      (Keyed.find? PropertyValue.name name added) := by
    rw [get?, bindings]
    exact List.find?_append
  rw [whole]
  cases bound : before.get? name with
  | some binding =>
    rw [get?] at bound
    rw [bound] at same
    cases found : Keyed.find? PropertyValue.name name held with
    | none =>
      rw [found] at same
      cases same
    | some other =>
      rw [found] at same
      exact Option.some.inj same
  | none =>
    have unbound : before.has name = false := by
      rw [has_eq_isSome, bound]
      rfl
    rw [get?] at bound
    rw [bound, Option.map_none, Option.map_eq_none_iff] at same
    rw [same, Option.none_or]
    cases found : Keyed.find? PropertyValue.name name added with
    | none => rfl
    | some binding =>
      obtain ⟨rfl, inside⟩ := Keyed.keyOf_of_find? _ found
      obtain ⟨declared, -, kind⟩ := joins binding inside
      rcases kind with navigation | computed
      · rcases (stays _ declared).2 navigation with held | none
        · rw [held] at unbound
          cases unbound
        · rwa [whole, same, Option.none_or, found] at none
      · exact absurd computed (stays _ declared).1

end ComplexValue.Extends

/-- The key is not of a kind that is computed, nor a related entity that is not bound. -/
def ComplexValue.KeyStays (computes : Property → Prop) (container : ComplexValue) : Prop :=
  ∀ key property, container.type.key? = some key → container.type.property? key = some property →
    ¬ computes property ∧ (property.isNavigation = true → container.has key = true)

namespace ComplexValue.Extends

variable {before after : ComplexValue}

theorem key?_eq (grows : before.Extends computes after) (stays : before.KeyStays computes) :
    after.key? = before.key? := by
  rw [key?, key?, grows.type_eq]
  cases keyed : before.type.key? with
  | none => rfl
  | some key =>
    refine grows.primitive?_eq fun property declared => ?_
    obtain ⟨uncomputed, bound⟩ := stays key property keyed declared
    exact ⟨uncomputed, fun navigation => .inl (bound navigation)⟩

theorem entityId?_eq (grows : before.Extends computes after) (stays : before.KeyStays computes) :
    after.entityId? = before.entityId? := by
  rw [entityId?, entityId?, grows.entitySet?_eq, grows.key?_eq stays]

end ComplexValue.Extends

theorem Value.primitive?_of_related {relation : ComplexValue → ComplexValue → Prop}
    {u? v? : Option Value} (related : Value.OptionRelated relation u? v?) :
    v?.bind Value.primitive? = u?.bind Value.primitive? := by
  cases related with
  | none => rfl
  | some related => cases related <;> rfl

namespace Emitter

variable {emitter : Emitter}

theorem Loads.extends {path : List String} {before after : ComplexValue}
    (loads : emitter.Loads path before after) : before.Extends (fun _ => False) after := by
  cases path with
  | nil =>
    obtain ⟨supply, rest, done⟩ := loads
    cases done
    exact .refl _
  | cons name path =>
    rcases loads.cases with ⟨-, rfl⟩ | ⟨property, bound, declared, rfl, binds, descends⟩
    · exact .refl _
    · have first : before.Extends (fun _ => False) bound := by
        rcases binds.eq_or_bind with ⟨-, rfl⟩ | ⟨follows, unbound, _, value?, -, rfl⟩
        · exact .refl _
        · rw [Emitter.follows, Bool.and_eq_true] at follows
          exact .bind_navigation value? declared follows.1 unbound
      obtain ⟨bindings, rfl, changed⟩ := descends
      refine first.trans (.of_bindings (changed.imp fun old new descends => ?_))
      refine ⟨descends.property_eq, ?_⟩
      rw [PropertyValue.Descends] at descends
      split at descends
      · obtain ⟨value?, rfl, related⟩ := descends
        exact Value.primitive?_of_related related
      · rw [descends]

end Emitter

end EdmQuery
