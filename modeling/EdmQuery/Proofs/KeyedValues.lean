import EdmQuery.Proofs.Rearrangement

set_option autoImplicit false

namespace EdmQuery

mutual

/-- Whether the members of every object within have different names. -/
def Json.namesApart : Json → Bool
  | .array items => Json.itemNamesApart items
  | .object members => decide (members.map Prod.fst).Nodup && Json.memberNamesApart members
  | _ => true

def Json.itemNamesApart : List Json → Bool
  | [] => true
  | item :: rest => item.namesApart && Json.itemNamesApart rest

def Json.memberNamesApart : Json.Members → Bool
  | [] => true
  | (_, value) :: rest => value.namesApart && Json.memberNamesApart rest

end

namespace Json

theorem namesApart_array {items : List Json} :
    (array items).namesApart = true ↔ ∀ item ∈ items, item.namesApart = true := by
  rw [namesApart]
  induction items with
  | nil => exact iff_of_true rfl fun _ inside => by cases inside
  | cons item rest ih => rw [itemNamesApart, Bool.and_eq_true, ih, List.forall_mem_cons]

theorem namesApart_object {members : Members} :
    (object members).namesApart = true ↔
      (members.map Prod.fst).Nodup ∧ ∀ member ∈ members, member.2.namesApart = true := by
  have values : memberNamesApart members = true ↔
      ∀ member ∈ members, member.2.namesApart = true := by
    induction members with
    | nil => exact iff_of_true rfl fun _ inside => by cases inside
    | cons member rest ih =>
      obtain ⟨name, value⟩ := member
      rw [memberNamesApart, Bool.and_eq_true, ih, List.forall_mem_cons]
  rw [namesApart, Bool.and_eq_true, decide_eq_true_eq, values]

end Json

theorem Primitive.namesApart_toJson (value : Primitive) : value.toJson.namesApart = true := by
  cases value with
  | single value | double value =>
    show (binaryToJson value).namesApart = true
    rw [binaryToJson]
    split <;> rfl
  | decimal value =>
    rw [toJson]
    cases value.toInt? with
    | none => rfl
    | some int =>
      dsimp only
      split <;> rfl
  | _ => rfl

/-- A container binds each name once, and the custom metadata in it is JSON without repeated
names. -/
structure ComplexValue.IsKeyed (container : ComplexValue) : Prop where
  apart : (container.bindings.map PropertyValue.name).Nodup
  metadata : ∀ entry ∈ container.metadata, entry.2.namesApart = true
  bindings : ∀ binding ∈ container.bindings, ∀ entry ∈ binding.metadata,
    entry.2.namesApart = true

/-- Without custom metadata, only names count. -/
theorem ComplexValue.isKeyed_of_bare {container : ComplexValue}
    (apart : (container.bindings.map PropertyValue.name).Nodup)
    (bare : container.metadata.isEmpty = true)
    (each : container.bindings.all (fun binding => binding.metadata.isEmpty) = true) :
    container.IsKeyed where
  apart := apart
  metadata := by
    rw [List.isEmpty_iff.1 bare]
    exact fun _ none => by cases none
  bindings := by
    intro binding inside
    rw [List.isEmpty_iff.1 (List.all_eq_true.1 each binding inside)]
    exact fun _ none => by cases none

/-- Every container within is keyed. -/
def ComplexValue.IsKeyedThroughout (container : ComplexValue) : Prop :=
  ∀ inner ∈ container.containers, inner.IsKeyed

/-- Every container within a value is keyed, if there is a value. -/
def Value.OptionIsKeyed (value? : Option Value) : Prop :=
  ∀ inner ∈ Value.optionContainers value?, inner.IsKeyed

/-- Rules and the resolver make keyed values alone. -/
structure Emitter.MakesKeyed (emitter : Emitter) : Prop where
  generated : ∀ rule container value? supply rest,
    (emitter.generators rule container).run supply = (.ok value?, rest) →
      Value.OptionIsKeyed value?
  resolved : ∀ resolver, emitter.resolver? = some resolver →
    ∀ parent property request value? supply rest,
      (resolver parent property request).run supply = (.ok value?, rest) →
        Value.OptionIsKeyed value?

theorem Emitter.makesKeyed_of_nothing : (⟨fun _ _ => pure none, none⟩ : Emitter).MakesKeyed := by
  refine ⟨fun _ _ value? supply rest none => ?_, fun _ none => by cases none⟩
  cases none
  exact fun _ inside => by cases inside

namespace ComplexValue

variable {container : ComplexValue}

theorem IsKeyed.linked (keyed : container.IsKeyed) (link : ParentLink) :
    (container.linked link).IsKeyed :=
  ⟨keyed.apart, keyed.metadata, keyed.bindings⟩

theorem IsKeyedThroughout.self (keyed : container.IsKeyedThroughout) : container.IsKeyed :=
  keyed container container.mem_containers_self

/-- Binding a keyed value leaves each name bound once. -/
theorem IsKeyedThroughout.bind (keyed : container.IsKeyedThroughout) (property : Property)
    {value? : Option Value} (given : Value.OptionIsKeyed value?) :
    (container.bind property value?).IsKeyedThroughout := by
  have own := keyed.self
  refine forall_containers.2 ⟨⟨Keyed.nodup_put _ _ _ own.apart, own.metadata, ?_⟩, ?_⟩
  · intro binding inside
    rcases Keyed.mem_put _ inside with rfl | old
    · exact fun _ none => by cases none
    · exact own.bindings binding old
  · intro binding inside
    rcases Keyed.mem_put _ inside with rfl | old
    · exact PropertyValue.forall_attach _ (fun _ link keyed => keyed.linked link) given
    · exact (forall_containers.1 keyed).2 binding old

/-- Whatever property a name stands for. -/
theorem IsKeyedThroughout.set (keyed : container.IsKeyedThroughout) {name : String}
    {value? : Option Value} (given : Value.OptionIsKeyed value?) {after : ComplexValue}
    {supply rest : Supply}
    (done : (container.set name (.ofOption value?)).run supply = (.ok after, rest)) :
    after.IsKeyedThroughout := by
  rw [ComplexValue.set] at done
  obtain ⟨property, middle, -, bound⟩ := Build.bind_eq_ok done
  have same : after = container.bind property value? := by
    cases value? <;> exact Except.ok.inj (congrArg Prod.fst bound).symm
  rw [same]
  exact keyed.bind property given

end ComplexValue

namespace Value

variable {relation : ComplexValue → ComplexValue → Prop} {holds : ComplexValue → Prop}

mutual

/-- What relating keeps within containers it keeps within values. -/
theorem Related.forall_containers {u v : Value} (related : Related relation u v)
    (kept : ∀ x y, relation x y → (∀ inner ∈ x.containers, holds inner) →
      ∀ inner ∈ y.containers, holds inner) (all : ∀ inner ∈ u.containers, holds inner) :
    ∀ inner ∈ v.containers, holds inner := by
  cases related with
  | primitive value => exact all
  | complex related => exact kept _ _ related all
  | collection related => exact AllRelated.forall_containers related kept all

theorem AllRelated.forall_containers {us vs : List Value} (related : AllRelated relation us vs)
    (kept : ∀ x y, relation x y → (∀ inner ∈ x.containers, holds inner) →
      ∀ inner ∈ y.containers, holds inner) (all : ∀ inner ∈ itemContainers us, holds inner) :
    ∀ inner ∈ itemContainers vs, holds inner := by
  cases related with
  | nil => exact all
  | cons related others =>
    rw [itemContainers, List.forall_mem_append] at all ⊢
    exact ⟨Related.forall_containers related kept all.1,
      AllRelated.forall_containers others kept all.2⟩

end

theorem OptionRelated.forall_optionContainers {u? v? : Option Value}
    (related : OptionRelated relation u? v?)
    (kept : ∀ x y, relation x y → (∀ inner ∈ x.containers, holds inner) →
      ∀ inner ∈ y.containers, holds inner) (all : ∀ inner ∈ optionContainers u?, holds inner) :
    ∀ inner ∈ optionContainers v?, holds inner := by
  cases related with
  | none => exact all
  | some related => exact Related.forall_containers related kept all

end Value

/-- What each of several edits keeps where it succeeds, they keep together. -/
theorem Edit.holds_of_inTurn {α : Type} {holds : α → Prop} {edits : List (Edit α)}
    (each : ∀ edit ∈ edits, ∀ before after supply rest,
      edit before supply = ((after, .ok ()), rest) → holds before → holds after)
    {value changed : α} {supply rest : Supply}
    (done : inTurn edits value supply = ((changed, .ok ()), rest)) (before : holds value) :
    holds changed :=
  @relates_of_inTurn _ (fun x y => holds x → holds y) (fun _ held => held)
    (fun _ _ _ early late held => late (early held)) edits each value changed supply rest done
    before

theorem Value.optionIsKeyed_orEmpty (property : Property) {found? : Option Value}
    (found : Value.OptionIsKeyed found?) :
    Value.OptionIsKeyed (Emitter.orEmpty property found?) := by
  cases found? with
  | some value => exact found
  | none =>
    rw [Emitter.orEmpty]
    split <;> exact fun inner inside => by cases inside

namespace Emitter

variable {emitter : Emitter}

theorem isKeyedThroughout_of_generate (makes : emitter.MakesKeyed) {before after : ComplexValue}
    {supply rest : Supply} (keyed : before.IsKeyedThroughout)
    (done : emitter.generate before supply = ((after, .ok ()), rest)) :
    after.IsKeyedThroughout := by
  refine Edit.holds_of_inTurn ?_ done keyed
  intro edit inside current changed supply rest ran keyed
  obtain ⟨property, -, computes⟩ := List.mem_filterMap.1 inside
  obtain ⟨rule, -, rfl⟩ := Option.map_eq_some_iff.1 computes
  obtain ⟨value?, middle, generated, bound⟩ := Build.bind_eq_ok (Edit.run_of_ofBuild ran)
  exact keyed.set (makes.generated _ _ _ _ _ generated) bound

theorem Expands.isKeyedThroughout (makes : emitter.MakesKeyed) {request : NavigationRequest}
    {before after : ComplexValue} (expands : emitter.Expands request before after)
    (keyed : before.IsKeyedThroughout) : after.IsKeyedThroughout := by
  cases expands with
  | same property declared navigation bound => exact keyed
  | bound property resolver found? supply rest declared navigation unbound resolves found =>
    refine keyed.bind property (Value.optionIsKeyed_orEmpty property ?_)
    exact makes.resolved resolver resolves _ _ _ _ _ _ found

/-- Preparing what a container holds leaves its names and its metadata. -/
theorem isKeyedThroughout_of_bindings {depth : Nat} {context : RequestContext}
    {container : ComplexValue} {bindings : List PropertyValue}
    (keyed : container.IsKeyedThroughout)
    (each : List.Forall₂ (emitter.PreparesBinding depth context) container.bindings bindings)
    (below : ∀ options before after, emitter.Prepares depth options before after →
      before.IsKeyedThroughout → after.IsKeyedThroughout) :
    ({ container with bindings := bindings } : ComplexValue).IsKeyedThroughout := by
  have own := keyed.self
  have names := PropertyValue.Evolves.names_eq (each.imp fun _ _ prepares => prepares.evolves)
  refine ComplexValue.forall_containers.2 ⟨⟨?_, own.metadata, fun binding inside => ?_⟩, ?_⟩
  · show (bindings.map PropertyValue.name).Nodup
    rw [names]
    exact own.apart
  · obtain ⟨old, among, prepares⟩ := exists_of_forall₂ each inside
    rw [prepares.evolves.metadata_eq]
    exact own.bindings old among
  · intro binding inside
    obtain ⟨old, among, prepares⟩ := exists_of_forall₂ each inside
    have within := (ComplexValue.forall_containers.1 keyed).2 old among
    rw [PreparesBinding] at prepares
    split at prepares
    · rw [prepares]
      exact within
    · obtain ⟨value?, rfl, related⟩ := prepares
      rw [PropertyValue.containers_eq] at within ⊢
      exact related.forall_optionContainers (below _) within

/-- Preparing keeps containers keyed, at every level. -/
theorem Prepares.isKeyedThroughout (makes : emitter.MakesKeyed) {depth : Nat}
    {context : RequestContext} {before after : ComplexValue}
    (prepares : emitter.Prepares depth context before after) (keyed : before.IsKeyedThroughout) :
    after.IsKeyedThroughout := by
  induction depth generalizing context before after with
  | zero =>
    obtain ⟨below, _, _, _, _, _, _, _, level, _⟩ := prepares.cases
    cases level
  | succ depth ih =>
    obtain ⟨below, computed, expanded, bindings, early, middle, late, rest, same, generated,
      expansion, rfl, each⟩ := prepares.cases
    cases same
    have first := isKeyedThroughout_of_generate makes keyed generated
    have second : expanded.IsKeyedThroughout := by
      refine Edit.holds_of_inTurn ?_ expansion first
      intro edit inside current changed supply rest ran keyed
      obtain ⟨request, -, rfl⟩ := List.mem_map.1 inside
      exact (expands_of_expand ran).isKeyedThroughout makes keyed
    exact isKeyedThroughout_of_bindings second each fun _ _ _ prepares keyed => ih prepares keyed

end Emitter

end EdmQuery
