import EdmQuery.Proofs.CompiledTypes
import EdmQuery.Proofs.Completion
import EdmQuery.Proofs.Extension
import EdmQuery.Proofs.Preparing
import EdmQuery.Proofs.Rereading
import Mathlib.Logic.Relation

set_option autoImplicit false

namespace EdmQuery

/-- Nothing is computed in a container, nor in the containers below. -/
def ComplexValue.StoresAll (container : ComplexValue) : Prop :=
  ∀ inner ∈ container.containers, inner.type.StoresAll

/-- Parents of the same type, entity set and key are answered the same, up to identities, whatever
is requested. No answer is a primitive, and nothing is computed in one. -/
structure NavigationResolver.IsByKey (resolver : NavigationResolver) : Prop where
  alike : ∀ (first second : ComplexValue) (property : Property) (request other : NavigationRequest),
    first.type = second.type → first.entitySet? = second.entitySet? → first.key? = second.key? →
      Build.Alike (Option.map Value.anonymous) (resolver first property request)
        (resolver second property other)
  structured : ∀ parent property request supply value rest,
    (resolver parent property request).run supply = (.ok (some value), rest) →
      value.primitive? = none
  stored : ∀ parent property request supply value rest,
    (resolver parent property request).run supply = (.ok (some value), rest) →
      ∀ inner ∈ value.containers, inner.type.StoresAll

namespace Emitter

/-- One step of binding related entities. -/
inductive Enriches (emitter : Emitter) (before after : ComplexValue) : Prop
  | loads (path : List String) (loads : emitter.Loads path before after)
  | expands (request : NavigationRequest) (expands : emitter.Expands request before after)

/-- Steps from an original lead to a container, up to the identities in the original. -/
def Enriched (emitter : Emitter) (origin container : ComplexValue) : Prop :=
  origin.StoresAll ∧ ∃ twin, origin.Twins twin ∧
    Relation.ReflTransGen emitter.Enriches twin container

variable {emitter : Emitter} {origin container after : ComplexValue}

theorem Enriched.trans (enriched : emitter.Enriched origin container)
    (steps : Relation.ReflTransGen emitter.Enriches container after) :
    emitter.Enriched origin after := by
  obtain ⟨stores, twin, twins, before⟩ := enriched
  exact ⟨stores, twin, twins, before.trans steps⟩

theorem enriched_of_twins {twin : ComplexValue} (stores : origin.StoresAll)
    (twins : origin.Twins twin) : emitter.Enriched origin twin :=
  ⟨stores, twin, twins, .refl⟩

theorem Enriched.of_twins {twin : ComplexValue} (enriched : emitter.Enriched twin container)
    (stores : origin.StoresAll) (twins : origin.Twins twin) :
    emitter.Enriched origin container := by
  obtain ⟨-, other, same, steps⟩ := enriched
  exact ⟨stores, other, Eq.trans twins same, steps⟩

end Emitter

/-- A binding of the same property that holds something related. -/
structure PropertyValue.Evolves (relation : ComplexValue → ComplexValue → Prop)
    (before after : PropertyValue) : Prop where
  property_eq : after.property = before.property
  metadata_eq : after.metadata = before.metadata
  value : Value.OptionRelated relation before.value? after.value?

namespace PropertyValue.Evolves

variable {first second third : ComplexValue → ComplexValue → Prop}
  {before between after : PropertyValue}

theorem name_eq (evolves : before.Evolves first after) : after.name = before.name :=
  congrArg Property.name evolves.property_eq

theorem primitive?_eq (evolves : before.Evolves first after) :
    after.primitive? = before.primitive? := Value.primitive?_of_related evolves.value

theorem comp (composed : ∀ x y z, first x y → second y z → third x z)
    (early : before.Evolves first between) (late : between.Evolves second after) :
    before.Evolves third after :=
  ⟨late.property_eq.trans early.property_eq, late.metadata_eq.trans early.metadata_eq,
    early.value.comp composed late.value⟩

theorem names_eq {olds news : List PropertyValue}
    (evolved : List.Forall₂ (PropertyValue.Evolves first) olds news) :
    news.map PropertyValue.name = olds.map PropertyValue.name := by
  induction evolved with
  | nil => rfl
  | cons evolves _ ih => rw [List.map_cons, List.map_cons, evolves.name_eq, ih]

/-- Descending by steps, under one name. -/
theorem of_descends {name : String} {relation : ComplexValue → ComplexValue → Prop}
    (descends : before.Descends name relation after)
    (implied : ∀ x y, relation x y → first x y) (reflexive : ∀ x, first x x) :
    before.Evolves first after := by
  rw [PropertyValue.Descends] at descends
  split at descends
  · obtain ⟨value?, rfl, related⟩ := descends
    exact ⟨rfl, rfl, related.imp implied⟩
  · subst descends
    refine ⟨rfl, rfl, ?_⟩
    cases after.value? with
    | none => exact .none
    | some value => exact .some (.refl reflexive value)

end PropertyValue.Evolves

section

variable {relation : ComplexValue → ComplexValue → Prop} {holds : ComplexValue → Prop}

mutual

theorem Value.Related.within {u v : Value} (related : Value.Related relation u v)
    (all : ∀ inner ∈ u.held, holds inner) :
    Value.Related (fun x y => holds x ∧ relation x y) u v := by
  cases related with
  | primitive value => exact .primitive value
  | complex related => exact .complex ⟨all _ (List.mem_singleton_self _), related⟩
  | collection related => exact .collection (Value.AllRelated.within related all)

theorem Value.AllRelated.within {us vs : List Value} (related : Value.AllRelated relation us vs)
    (all : ∀ inner ∈ Value.heldByItems us, holds inner) :
    Value.AllRelated (fun x y => holds x ∧ relation x y) us vs := by
  cases related with
  | nil => exact .nil
  | cons related others =>
    rw [Value.heldByItems, List.forall_mem_append] at all
    exact .cons (Value.Related.within related all.1) (Value.AllRelated.within others all.2)

end

theorem Value.storesAll_of_held {value : Value}
    (all : ∀ inner ∈ value.containers, inner.type.StoresAll) :
    ∀ inner ∈ value.held, inner.StoresAll := by
  intro inner held below inside
  exact all below (Value.mem_containers_trans (Value.mem_containers_of_held held) inside)

/-- Values of the same content, the first of which has nothing computed, are enriched by nothing. -/
theorem Value.enriched_of_anonymous {emitter : Emitter} {u? v? : Option Value}
    (same : u?.map Value.anonymous = v?.map Value.anonymous)
    (all : ∀ inner ∈ Value.optionContainers u?, inner.type.StoresAll) :
    Value.OptionRelated emitter.Enriched u? v? := by
  have related := Value.optionRelated_of_anonymous same
  cases related with
  | none => exact .none
  | some related =>
    refine .some ((related.within (Value.storesAll_of_held all)).imp fun x y both => ?_)
    exact Emitter.enriched_of_twins both.1 both.2

end

theorem PropertyValue.evolves_of_anonymous {emitter : Emitter} {first second : PropertyValue}
    (same : first.anonymous = second.anonymous)
    (all : ∀ inner ∈ first.containers, inner.type.StoresAll) :
    first.Evolves emitter.Enriched second := by
  rw [PropertyValue.anonymous, PropertyValue.anonymous, PropertyValue.erased_eq,
    PropertyValue.erased_eq] at same
  injection same with property value? owner? metadata
  rw [PropertyValue.containers_eq] at all
  exact ⟨property.symm, metadata.symm, Value.enriched_of_anonymous value? all⟩

/-- A container that differs from another one in related entities behind at most. -/
structure ComplexValue.Resembles (first second : ComplexValue) : Prop where
  grows : first.Extends (fun _ => False) second
  isReference_eq : second.isReference = first.isReference
  metadata_eq : second.metadata = first.metadata
  structured : ∀ binding ∈ second.bindings,
    binding.name ∉ first.bindings.map PropertyValue.name → binding.primitive? = none

namespace ComplexValue.Resembles

variable {first second : ComplexValue}

theorem key?_eq (resembles : first.Resembles second) : second.key? = first.key? := by
  rw [key?, key?, resembles.grows.type_eq]
  cases first.type.key? with
  | none => rfl
  | some key =>
    refine resembles.grows.primitive?_eq fun _ _ => ⟨not_false, fun _ => ?_⟩
    cases bound : first.has key with
    | true => exact .inl rfl
    | false =>
      refine .inr ?_
      cases found : second.get? key with
      | none => rfl
      | some binding =>
        obtain ⟨rfl, inside⟩ := Keyed.keyOf_of_find? _ found
        refine resembles.structured binding inside ?_
        rw [← Keyed.contains_iff]
        exact Bool.eq_false_iff.1 bound

/-- The control information is the same at each level. -/
theorem controlInfo_eq (resembles : first.Resembles second) (level : MetadataLevel) :
    second.controlInfo level = first.controlInfo level := by
  have identified : second.entityId? = first.entityId? := by
    rw [entityId?, entityId?, resembles.grows.entitySet?_eq, resembles.key?_eq]
  have tagged : second.etag = first.etag :=
    resembles.grows.etag_eq (fun _ computed => computed.elim) fun _ _ _ _ _ => not_false
  simp only [controlInfo, resembles.grows.type_eq, resembles.isReference_eq, resembles.metadata_eq,
    identified, tagged]

/-- Nothing else is written of a container whose bindings evolve. -/
theorem of_evolves {relation : ComplexValue → ComplexValue → Prop} {container : ComplexValue}
    {news : List PropertyValue}
    (evolves : List.Forall₂ (PropertyValue.Evolves relation) container.bindings news) :
    container.Resembles { container with bindings := news } := by
  refine ⟨.of_bindings (evolves.imp fun _ _ one => ⟨one.property_eq, one.primitive?_eq⟩), rfl, rfl,
    fun binding inside absent => ?_⟩
  rw [← PropertyValue.Evolves.names_eq evolves] at absent
  exact absurd (List.mem_map_of_mem inside) absent

end ComplexValue.Resembles

/-- A binding under a name that an original has not bound: it holds an enriched answer for the
original. -/
structure PropertyValue.Answers (emitter : Emitter) (resolver : NavigationResolver)
    (origin : ComplexValue) (binding : PropertyValue) : Prop where
  declared : origin.type.property? binding.name = some binding.property
  navigation : binding.property.isNavigation = true
  unbound : binding.name ∉ origin.bindings.map PropertyValue.name
  bare : binding.metadata = []
  answer : ∃ request found? supply rest,
    (resolver origin binding.property request).run supply = (.ok found?, rest) ∧
      Value.OptionRelated emitter.Enriched
        ((Emitter.orEmpty binding.property found?).map (Value.adopt ⟨origin.id, binding.name⟩))
        binding.value?

/-- All that an enriched container consists of. -/
structure ComplexValue.EnrichedParts (emitter : Emitter) (resolver : NavigationResolver)
    (origin container : ComplexValue) : Prop where
  type_eq : container.type = origin.type
  entitySet?_eq : container.entitySet? = origin.entitySet?
  isReference_eq : container.isReference = origin.isReference
  metadata_eq : container.metadata = origin.metadata
  bindings : ∃ held added, container.bindings = held ++ added ∧
    List.Forall₂ (PropertyValue.Evolves emitter.Enriched) origin.bindings held ∧
      (added.map PropertyValue.name).Nodup ∧
        ∀ binding ∈ added, binding.Answers emitter resolver origin

section

variable {emitter : Emitter} {resolver : NavigationResolver} {origin container : ComplexValue}

theorem NavigationResolver.IsByKey.adopted_stored (byKey : resolver.IsByKey) {parent : ComplexValue}
    {property : Property} {request : NavigationRequest} {supply rest : Supply}
    {found? : Option Value}
    (found : (resolver parent property request).run supply = (.ok found?, rest))
    (link : ParentLink) :
    ∀ inner ∈ Value.optionContainers ((Emitter.orEmpty property found?).map (Value.adopt link)),
      inner.type.StoresAll := by
  cases found? with
  | none =>
    rw [Emitter.orEmpty]
    split
    · intro inner inside
      cases inside
    · intro inner inside
      cases inside
  | some value =>
    exact Value.forall_adopt link (fun _ stores => stores)
      (byKey.stored _ _ _ _ _ _ found)

theorem NavigationResolver.IsByKey.adopted_structured (byKey : resolver.IsByKey)
    {parent : ComplexValue} {property : Property} {request : NavigationRequest}
    {supply rest : Supply} {found? : Option Value}
    (found : (resolver parent property request).run supply = (.ok found?, rest))
    (link : ParentLink) :
    ((Emitter.orEmpty property found?).map (Value.adopt link)).bind Value.primitive? = none := by
  cases found? with
  | none =>
    rw [Emitter.orEmpty]
    split <;> rfl
  | some value =>
    have structured := byKey.structured _ _ _ _ _ _ found
    cases value with
    | primitive value => cases structured
    | _ => rfl

namespace PropertyValue.Answers

variable {binding changed : PropertyValue}

theorem primitive?_eq (byKey : resolver.IsByKey)
    (answers : binding.Answers emitter resolver origin) :
    binding.primitive? = none := by
  obtain ⟨request, found?, supply, rest, found, related⟩ := answers.answer
  exact (Value.primitive?_of_related related).trans (byKey.adopted_structured found _)

theorem evolve (answers : binding.Answers emitter resolver origin)
    (evolves : binding.Evolves (Relation.ReflTransGen emitter.Enriches) changed) :
    changed.Answers emitter resolver origin := by
  obtain ⟨declared, navigation, unbound, bare, request, found?, supply, rest, found, related⟩ :=
    answers
  have named := evolves.name_eq
  have same := evolves.property_eq
  refine ⟨by rw [named, same, declared], by rw [same, navigation], by rwa [named],
    by rw [evolves.metadata_eq, bare], request, found?, supply, rest, by rw [same, found], ?_⟩
  rw [named, same]
  exact related.comp (fun x y z enriched steps => enriched.trans steps) evolves.value

end PropertyValue.Answers

namespace ComplexValue.EnrichedParts

theorem resembles (byKey : resolver.IsByKey)
    (parts : origin.EnrichedParts emitter resolver container) : origin.Resembles container := by
  obtain ⟨held, added, bindings, evolved, -, answers⟩ := parts.bindings
  refine ⟨⟨parts.type_eq, parts.entitySet?_eq, held, added, bindings, ?_, ?_⟩,
    parts.isReference_eq, parts.metadata_eq, fun binding inside absent => ?_⟩
  · exact evolved.imp fun _ _ evolves => .inl ⟨evolves.property_eq, evolves.primitive?_eq⟩
  · intro binding inside
    obtain ⟨declared, navigation, unbound, -⟩ := answers binding inside
    exact ⟨declared, unbound, .inl navigation⟩
  · rw [bindings, List.mem_append] at inside
    rcases inside with before | behind
    · rw [← PropertyValue.Evolves.names_eq evolved] at absent
      exact absurd (List.mem_map_of_mem before) absent
    · exact (answers binding behind).primitive?_eq byKey

theorem of_twins (stores : origin.StoresAll) (twins : origin.Twins container) :
    origin.EnrichedParts emitter resolver container := by
  have same := twins
  rw [Twins, anonymous_eq, anonymous_eq] at same
  injection same with _ type bindings parent entitySet isReference metadata
  refine ⟨type.symm, entitySet.symm, isReference.symm, metadata.symm, container.bindings, [],
    (List.append_nil _).symm, ?_, .nil, fun _ inside => (by cases inside)⟩
  have below := (forall_containers.1 stores).2
  clear twins stores type entitySet isReference metadata parent
  generalize origin.bindings = olds at bindings below
  generalize container.bindings = news at bindings
  induction olds generalizing news with
  | nil =>
    cases news with
    | nil => exact .nil
    | cons other others => cases bindings
  | cons binding rest ih =>
    cases news with
    | nil => cases bindings
    | cons other others =>
      obtain ⟨first, later⟩ := List.cons.inj bindings
      rw [List.forall_mem_cons] at below
      exact .cons (PropertyValue.evolves_of_anonymous first below.1) (ih below.2 others later)

/-- Names that an original has bound stay bound. -/
theorem bound_of_mem (parts : origin.EnrichedParts emitter resolver container) {name : String}
    (bound : name ∈ origin.bindings.map PropertyValue.name) : container.has name = true := by
  obtain ⟨held, added, bindings, evolved, -⟩ := parts.bindings
  rw [has, Keyed.contains_iff, bindings, List.map_append, PropertyValue.Evolves.names_eq evolved]
  exact List.mem_append_left _ bound

/-- A navigation property is bound to an answer. -/
theorem bind (byKey : resolver.IsByKey) (parts : origin.EnrichedParts emitter resolver container)
    {property : Property} {request : NavigationRequest} {found? : Option Value}
    {supply rest : Supply} (declared : container.type.property? property.name = some property)
    (navigation : property.isNavigation = true) (unbound : container.has property.name = false)
    (found : (resolver container property request).run supply = (.ok found?, rest)) :
    origin.EnrichedParts emitter resolver
      (container.bind property (Emitter.orEmpty property found?)) := by
  have absent : property.name ∉ container.bindings.map PropertyValue.name := by
    rw [← Keyed.contains_iff]
    exact Bool.eq_false_iff.1 unbound
  have appended := Keyed.put_of_not_mem PropertyValue.name
    ((PropertyValue.unattached property (Emitter.orEmpty property found?)).attach container.id)
    container.bindings absent
  obtain ⟨held, added, bindings, evolved, distinct, answers⟩ := parts.bindings
  refine ⟨parts.type_eq, parts.entitySet?_eq, parts.isReference_eq, parts.metadata_eq, held,
    added ++ [(PropertyValue.unattached property (Emitter.orEmpty property found?)).attach
      container.id], ?_, evolved, ?_, ?_⟩
  · rw [ComplexValue.bind, appended, bindings, List.append_assoc]
  · rw [bindings, List.map_append, List.mem_append, not_or] at absent
    rw [List.map_append, List.nodup_append]
    refine ⟨distinct, List.pairwise_singleton _ _, fun name inside other single equal => ?_⟩
    rw [List.map_singleton, List.mem_singleton] at single
    have own : name = property.name := equal.trans single
    exact absent.2 (own ▸ inside)
  · rw [List.forall_mem_append, List.forall_mem_singleton]
    refine ⟨answers, ?_⟩
    -- The resolver was asked about the container as it is now; it would have answered the same
    -- about the original.
    have alike := byKey.alike container origin property request request parts.type_eq
      parts.entitySet?_eq (parts.resembles byKey).key?_eq
    obtain ⟨other?, left, original, same⟩ := alike.exists_ok found ⟨0⟩
    refine ⟨?_, navigation, fun bound => ?_, rfl, request, other?, ⟨0⟩, left, original, ?_⟩
    · rw [← parts.type_eq]
      exact declared
    · have taken := parts.bound_of_mem bound
      exact Bool.false_ne_true (unbound.symm.trans taken)
    · have values : (Emitter.orEmpty property other?).map Value.anonymous =
          (Emitter.orEmpty property found?).map Value.anonymous := by
        rw [Emitter.anonymous_orEmpty, Emitter.anonymous_orEmpty, same]
      exact Value.enriched_of_anonymous (Emitter.anonymous_adopt values _ _ _)
        (byKey.adopted_stored original _)

/-- What is below is enriched. -/
theorem evolve (parts : origin.EnrichedParts emitter resolver container)
    {news : List PropertyValue}
    (evolves : List.Forall₂ (PropertyValue.Evolves (Relation.ReflTransGen emitter.Enriches))
      container.bindings news) :
    origin.EnrichedParts emitter resolver { container with bindings := news } := by
  obtain ⟨held, added, bindings, evolved, distinct, answers⟩ := parts.bindings
  rw [bindings] at evolves
  obtain ⟨early, late, rfl, front, behind⟩ := forall₂_split evolves
  refine ⟨parts.type_eq, parts.entitySet?_eq, parts.isReference_eq, parts.metadata_eq, early, late,
    rfl, ?_, ?_, fun binding inside => ?_⟩
  · exact forall₂_comp (fun _ _ _ first second => first.comp
      (fun _ _ _ enriched steps => enriched.trans steps) second) evolved front
  · rw [PropertyValue.Evolves.names_eq behind]
    exact distinct
  · obtain ⟨old, among, changed⟩ := exists_of_forall₂ behind inside
    exact (answers old among).evolve changed

end ComplexValue.EnrichedParts

end

namespace Emitter

variable {emitter : Emitter} {resolver : NavigationResolver} {origin before after : ComplexValue}

open ComplexValue (EnrichedParts)

theorem Binds.enrichedParts (resolves : emitter.resolver? = some resolver)
    (byKey : resolver.IsByKey) (parts : origin.EnrichedParts emitter resolver before)
    {property : Property} (declared : before.type.property? property.name = some property)
    (binds : emitter.Binds property before after) :
    origin.EnrichedParts emitter resolver after := by
  rcases binds.eq_or_bind with ⟨-, rfl⟩ | ⟨follows, unbound, supply, value?, answered, rfl⟩
  · exact parts
  · rw [Emitter.follows, Bool.and_eq_true] at follows
    rw [answer, resolves] at answered
    rcases ran : (resolver before property ⟨property.name, .default⟩).run supply with
      ⟨outcome, rest⟩
    dsimp only at answered
    rw [ran] at answered
    cases outcome with
    | error error => cases answered
    | ok found? =>
      cases answered
      exact parts.bind byKey declared follows.1 unbound ran

/-- A step keeps the parts. -/
theorem Enriches.enrichedParts (resolves : emitter.resolver? = some resolver)
    (byKey : resolver.IsByKey) (parts : origin.EnrichedParts emitter resolver before)
    (step : emitter.Enriches before after) : origin.EnrichedParts emitter resolver after := by
  rcases step with ⟨path, loads⟩ | ⟨request, expands⟩
  · cases path with
    | nil =>
      obtain ⟨supply, rest, done⟩ := loads
      cases done
      exact parts
    | cons name path =>
      rcases loads.cases with ⟨-, rfl⟩ | ⟨property, bound, declared, rfl, binds, descends⟩
      · exact parts
      · obtain ⟨bindings, rfl, each⟩ := descends
        refine (binds.enrichedParts resolves byKey parts declared).evolve ?_
        refine each.imp fun old new changed =>
          PropertyValue.Evolves.of_descends changed (fun x y inner => ?_) fun _ => .refl
        exact .single (.loads path inner)
  · cases expands with
    | same property declared navigation bound => exact parts
    | bound property other found? supply rest declared navigation unbound answers found =>
      rw [resolves] at answers
      cases answers
      have named : property.name = request.path := (Keyed.keyOf_of_find? _ declared).1
      exact parts.bind byKey (by rw [named, declared]) navigation (by rw [named, unbound]) found

/-- A container that is enriched consists of nothing else. -/
theorem Enriched.parts (resolves : emitter.resolver? = some resolver) (byKey : resolver.IsByKey)
    (enriched : emitter.Enriched origin after) : origin.EnrichedParts emitter resolver after := by
  obtain ⟨stores, twin, twins, steps⟩ := enriched
  induction steps with
  | refl => exact .of_twins stores twins
  | tail _ step ih => exact step.enrichedParts resolves byKey ih

end Emitter

end EdmQuery
