import EdmQuery.Proofs.EmissionText
import EdmQuery.Proofs.Enrichment
import Mathlib.Data.List.Perm.Basic

set_option autoImplicit false

namespace EdmQuery

namespace Json

mutual

/-- Documents that differ in the order of members at most, at any depth. -/
inductive Rearranged : Json → Json → Prop
  | same (value : Json) : Rearranged value value
  | array {items others : List Json} (each : ItemsRearranged items others) :
      Rearranged (.array items) (.array others)
  | object {members others reordered : Members} (each : MembersRearranged members others)
      (order : others.Perm reordered) : Rearranged (.object members) (.object reordered)

inductive ItemsRearranged : List Json → List Json → Prop
  | nil : ItemsRearranged [] []
  | cons {first second : Json} {rest others : List Json} (item : Rearranged first second)
      (items : ItemsRearranged rest others) : ItemsRearranged (first :: rest) (second :: others)

/-- Members of the same names in the same order, with values that are rearranged. -/
inductive MembersRearranged : Members → Members → Prop
  | nil : MembersRearranged [] []
  | cons (name : String) {first second : Json} {rest others : Members}
      (value : Rearranged first second) (members : MembersRearranged rest others) :
      MembersRearranged ((name, first) :: rest) ((name, second) :: others)

end

theorem MembersRearranged.refl (members : Members) : MembersRearranged members members := by
  induction members with
  | nil => exact .nil
  | cons member rest ih => exact .cons member.1 (.same member.2) ih

theorem MembersRearranged.append {first second third fourth : Members}
    (early : MembersRearranged first second) (late : MembersRearranged third fourth) :
    MembersRearranged (first ++ third) (second ++ fourth) := by
  induction first generalizing second with
  | nil =>
    cases early
    exact late
  | cons member rest ih =>
    cases early with
    | cons name value members => exact .cons name value (ih members)

/-- Members that are grouped alike. -/
theorem MembersRearranged.flatMap {α β : Type} {relation : α → β → Prop} {first : α → Members}
    {second : β → Members} {items : List α} {others : List β}
    (related : List.Forall₂ relation items others)
    (each : ∀ item ∈ items, ∀ other ∈ others, relation item other →
      MembersRearranged (first item) (second other)) :
    MembersRearranged (items.flatMap first) (others.flatMap second) := by
  induction related with
  | nil => exact .nil
  | cons head _ ih =>
    refine (each _ List.mem_cons_self _ List.mem_cons_self head).append (ih ?_)
    exact fun item inside other among =>
      each item (List.mem_cons_of_mem _ inside) other (List.mem_cons_of_mem _ among)

end Json

/-- What stands in an object for one binding. -/
def PropertyValue.members (level : MetadataLevel) (context : RequestContext)
    (binding : PropertyValue) : Json.Members :=
  if context.writes binding.property then
    (binding.name, Value.optionTree level (context.optionsFor binding.property) binding.value?) ::
      (binding.controlInfo level).entries
  else []

theorem ComplexValue.memberTrees_eq_flatMap (level : MetadataLevel) (context : RequestContext)
    (bindings : List PropertyValue) :
    memberTrees level context bindings =
      bindings.flatMap (PropertyValue.members level context) := by
  induction bindings with
  | nil => rfl
  | cons binding rest ih =>
    obtain ⟨property, value?, owner?, metadata⟩ := binding
    rw [memberTrees, List.flatMap_cons, PropertyValue.members, ih]
    by_cases writes : context.writes property = true
    · rw [if_pos writes, if_pos writes]
      rfl
    · rw [if_neg writes, if_neg writes]
      rfl

theorem ComplexValue.tree_eq (level : MetadataLevel) (context : RequestContext)
    (container : ComplexValue) :
    container.tree level context = .object ((container.controlInfo level).entries ++
      if container.isReference then []
      else container.bindings.flatMap (PropertyValue.members level context)) := by
  rw [← memberTrees_eq_flatMap]
  cases container
  rfl

/-- Two containers whose documents differ in the order of members at most. -/
def ComplexValue.WrittenAlike (level : MetadataLevel) (context : RequestContext)
    (first second : ComplexValue) : Prop :=
  (first.tree level context).Rearranged (second.tree level context)

section

variable {level : MetadataLevel} {context : RequestContext}

mutual

theorem Value.rearranged_tree {u v : Value}
    (related : Value.Related (ComplexValue.WrittenAlike level context) u v) :
    (u.tree level context).Rearranged (v.tree level context) := by
  cases related with
  | primitive value => exact .same _
  | complex related => exact related
  | collection related => exact .array (Value.rearranged_itemTrees related)

theorem Value.rearranged_itemTrees {us vs : List Value}
    (related : Value.AllRelated (ComplexValue.WrittenAlike level context) us vs) :
    Json.ItemsRearranged (Value.itemTrees level context us) (Value.itemTrees level context vs) := by
  cases related with
  | nil => exact .nil
  | cons related others =>
    exact .cons (Value.rearranged_tree related) (Value.rearranged_itemTrees others)

end

theorem Value.rearranged_optionTree {u? v? : Option Value}
    (related : Value.OptionRelated (ComplexValue.WrittenAlike level context) u? v?) :
    (Value.optionTree level context u?).Rearranged (Value.optionTree level context v?) := by
  cases related with
  | none => exact .same _
  | some related => exact Value.rearranged_tree related

theorem PropertyValue.Evolves.controlInfo_eq {relation : ComplexValue → ComplexValue → Prop}
    {before after : PropertyValue} (evolves : before.Evolves relation after)
    (level : MetadataLevel) : after.controlInfo level = before.controlInfo level := by
  obtain ⟨property, value?, owner?, metadata⟩ := before
  obtain ⟨property', value?', owner?', metadata'⟩ := after
  obtain ⟨same, entries, related⟩ := evolves
  cases same
  cases entries
  cases related with
  | none => rfl
  | some related => cases related <;> rfl

end

namespace Emitter

/-- Two containers that were enriched from one original. -/
def Cognate (emitter : Emitter) (first second : ComplexValue) : Prop :=
  ∃ origin, emitter.Enriched origin first ∧ emitter.Enriched origin second

variable {emitter : Emitter} {depth : Nat} {context : RequestContext}

theorem PreparesBinding.evolves {before after : PropertyValue}
    (prepares : emitter.PreparesBinding depth context before after) :
    before.Evolves (fun _ _ => True) after := by
  rw [PreparesBinding] at prepares
  split at prepares
  · subst prepares
    refine ⟨rfl, rfl, ?_⟩
    cases after.value? with
    | none => exact .none
    | some value => exact .some (.refl (fun _ => trivial) value)
  · obtain ⟨value?, rfl, related⟩ := prepares
    exact ⟨rfl, rfl, related.imp fun _ _ _ => trivial⟩

/-- What is written of a binding was prepared. -/
theorem PreparesBinding.value_of_writes {before after : PropertyValue}
    (prepares : emitter.PreparesBinding depth context before after)
    (writes : context.writes before.property = true) :
    Value.OptionRelated (emitter.Prepares depth (context.optionsFor before.property))
      before.value? after.value? := by
  have requested : ¬ (before.property.isNavigation &&
      (context.navigationRequest? before.name).isNone) = true := by
    rw [RequestContext.writes] at writes
    split at writes
    · rename_i navigation
      rw [navigation, Bool.true_and, Option.isNone_iff_eq_none]
      intro none
      rw [PropertyValue.name] at none
      rw [none] at writes
      cases writes
    · rename_i plain
      rw [Bool.not_eq_true] at plain
      rw [plain, Bool.false_and]
      exact Bool.false_ne_true
  rw [PreparesBinding, if_neg requested] at prepares
  obtain ⟨value?, rfl, related⟩ := prepares
  exact related

/-- Bindings of one property whose containers are cognate are written alike, given that their
containers are. -/
theorem rearranged_members {level : MetadataLevel} {x y p q : PropertyValue}
    (cognate : x.Evolves emitter.Cognate y) (first : emitter.PreparesBinding depth context x p)
    (second : emitter.PreparesBinding depth context y q)
    (alike : ∀ context x y p q, emitter.Cognate x y → emitter.Prepares depth context x p →
      emitter.Prepares depth context y q → p.WrittenAlike level context q) :
    Json.MembersRearranged (p.members level context) (q.members level context) := by
  have same : q.property = p.property := second.evolves.property_eq.trans
    (cognate.property_eq.trans first.evolves.property_eq.symm)
  have control : (q.controlInfo level).entries = (p.controlInfo level).entries := by
    rw [second.evolves.controlInfo_eq, cognate.controlInfo_eq, first.evolves.controlInfo_eq]
  have named : q.name = p.name := congrArg Property.name same
  rw [PropertyValue.members, PropertyValue.members, same, named, control]
  split
  · rename_i writes
    rw [first.evolves.property_eq] at writes
    have one := first.value_of_writes writes
    rw [← cognate.property_eq] at writes
    have other := second.value_of_writes writes
    rw [cognate.property_eq] at other
    refine .cons _ (Value.rearranged_optionTree ?_) (.refl _)
    rw [first.evolves.property_eq]
    have across : Value.OptionRelated (fun x' q' => ∃ y', emitter.Cognate x' y' ∧
        emitter.Prepares depth (context.optionsFor x.property) y' q') x.value? q.value? :=
      cognate.value.comp (fun _ y' _ both prepares => ⟨y', both, prepares⟩) other
    have turned : Value.OptionRelated (fun p' x' =>
        emitter.Prepares depth (context.optionsFor x.property) x' p') p.value? x.value? :=
      one.symm fun _ _ prepares => prepares
    refine turned.comp (fun p' x' q' before after => ?_) across
    obtain ⟨y', both, prepares⟩ := after
    exact alike _ x' y' p' q' both before prepares
  · exact .nil

end Emitter

/-- A binding of an original that was enriched and prepared. -/
def PropertyValue.Readied (emitter : Emitter) (depth : Nat) (context : RequestContext)
    (before after : PropertyValue) : Prop :=
  ∃ between : PropertyValue, before.Evolves emitter.Enriched between ∧
    emitter.PreparesBinding depth context between after

/-- An answer for an original, prepared. -/
def PropertyValue.Supplied (emitter : Emitter) (resolver : NavigationResolver) (depth : Nat)
    (context : RequestContext) (origin : ComplexValue) (binding : PropertyValue) : Prop :=
  ∃ between : PropertyValue, between.Answers emitter resolver origin ∧
    emitter.PreparesBinding depth context between binding

/-- All that is written of a container that was prepared after it was enriched. -/
structure ComplexValue.PreparedParts (emitter : Emitter) (resolver : NavigationResolver)
    (depth : Nat) (context : RequestContext) (origin prepared : ComplexValue) : Prop where
  controlInfo_eq : ∀ level, prepared.controlInfo level = origin.controlInfo level
  isReference_eq : prepared.isReference = origin.isReference
  bindings : ∃ front behind, prepared.bindings = front ++ behind ∧
    List.Forall₂ (PropertyValue.Readied emitter depth context) origin.bindings front ∧
      (behind.map PropertyValue.name).Nodup ∧
        (∀ binding ∈ behind, binding.Supplied emitter resolver depth context origin) ∧
          ∀ request ∈ context.expand, request.path ∈ origin.bindings.map PropertyValue.name ∨
            request.path ∈ behind.map PropertyValue.name

namespace Emitter

variable {emitter : Emitter} {resolver : NavigationResolver} {depth : Nat}
  {context : RequestContext}

theorem Expands.has {request : NavigationRequest} {before after : ComplexValue}
    (resolves : emitter.resolver? = some resolver)
    (expands : emitter.Expands request before after) :
    after.has request.path = true ∧ ∀ name, before.has name = true → after.has name = true := by
  cases expands with
  | same property declared navigation bound =>
    rw [resolves] at bound
    refine ⟨?_, fun _ held => held⟩
    rcases bound with held | none
    · exact held
    · cases none
  | bound property other found? supply rest declared navigation unbound answers found =>
    have named : property.name = request.path := (Keyed.keyOf_of_find? _ declared).1
    refine ⟨?_, fun name held => ?_⟩
    · rw [ComplexValue.has_eq_isSome, ComplexValue.get?_bind, if_pos named]
      rfl
    · rw [ComplexValue.has_eq_isSome] at held ⊢
      rw [ComplexValue.get?_bind]
      split
      · rfl
      · exact held

/-- After all expansions, what was requested is bound. -/
theorem enriches_of_expansions (resolves : emitter.resolver? = some resolver)
    {requests : List NavigationRequest} {before after : ComplexValue} {supply rest : Supply}
    (done : Edit.inTurn (requests.map emitter.expand) before supply = ((after, .ok ()), rest)) :
    Relation.ReflTransGen emitter.Enriches before after ∧
      (∀ name, before.has name = true → after.has name = true) ∧
        ∀ request ∈ requests, after.has request.path = true := by
  induction requests generalizing before supply with
  | nil =>
    cases done
    exact ⟨.refl, fun _ held => held, fun _ inside => (by cases inside)⟩
  | cons request others ih =>
    obtain ⟨between, middle, first, later⟩ := Edit.andThen_eq_ok done
    have expands := expands_of_expand first
    obtain ⟨own, kept⟩ := expands.has resolves
    obtain ⟨steps, keeps, rest⟩ := ih later
    refine ⟨steps.head (.expands request expands), fun name held => keeps name (kept name held), ?_⟩
    rw [List.forall_mem_cons]
    exact ⟨keeps _ own, rest⟩

/-- Nothing is computed in a container whose type has no computed property. -/
theorem generate_of_storesAll {container after : ComplexValue} {supply rest : Supply}
    (stores : container.type.StoresAll)
    (done : emitter.generate container supply = ((after, .ok ()), rest)) : after = container := by
  have none : ∀ rule : Property → String → Edit ComplexValue,
      container.type.properties.filterMap (fun property =>
        property.kind.rule?.map fun name => rule property name) = [] := by
    intro rule
    rw [List.filterMap_eq_nil_iff]
    intro property inside
    rw [((container.type.storesAll_iff.1 stores) property inside).1]
    rfl
  rw [generate, none] at done
  cases done
  rfl

open ComplexValue (PreparedParts)

theorem Prepares.preparedParts {origin container prepared : ComplexValue}
    (resolves : emitter.resolver? = some resolver) (byKey : resolver.IsByKey)
    (enriched : emitter.Enriched origin container)
    (prepares : emitter.Prepares (depth + 1) context container prepared) :
    origin.PreparedParts emitter resolver depth context prepared := by
  obtain ⟨below, computed, expanded, bindings, early, middle, late, rest, same, generated,
    expansion, rfl, each⟩ := prepares.cases
  cases same
  have typed : container.type = origin.type := (enriched.parts resolves byKey).type_eq
  have stores : container.type.StoresAll :=
    typed ▸ enriched.1 origin origin.mem_containers_self
  obtain rfl := generate_of_storesAll stores generated
  -- Expanding enriches further, so the parts are known before anything below is prepared.
  obtain ⟨steps, -, requested⟩ := enriches_of_expansions resolves expansion
  have parts := (enriched.trans steps).parts resolves byKey
  have evolves : List.Forall₂ (PropertyValue.Evolves fun _ _ => True) expanded.bindings bindings :=
    each.imp fun _ _ prepares => prepares.evolves
  have shows := ComplexValue.Resembles.of_evolves evolves
  obtain ⟨held, added, whole, evolved, distinct, answers⟩ := parts.bindings
  rw [whole] at each
  obtain ⟨front, behind, rfl, first, second⟩ := forall₂_split each
  refine ⟨fun level => ?_, parts.isReference_eq, front, behind, rfl, ?_, ?_, ?_, ?_⟩
  · rw [shows.controlInfo_eq, (parts.resembles byKey).controlInfo_eq]
  · exact forall₂_comp (fun _ between _ early late => ⟨between, early, late⟩) evolved first
  · rw [PropertyValue.Evolves.names_eq (second.imp fun _ _ prepares => prepares.evolves)]
    exact distinct
  · intro binding inside
    obtain ⟨between, among, prepares⟩ := exists_of_forall₂ second inside
    exact ⟨between, answers between among, prepares⟩
  · intro request inside
    have bound := requested request inside
    rw [ComplexValue.has, Keyed.contains_iff, whole, List.map_append, List.mem_append,
      PropertyValue.Evolves.names_eq evolved] at bound
    rw [PropertyValue.Evolves.names_eq (second.imp fun _ _ prepares => prepares.evolves)]
    exact bound

end Emitter

section

variable {emitter : Emitter} {resolver : NavigationResolver} {depth : Nat}
  {context : RequestContext} {origin : ComplexValue}

theorem PropertyValue.Evolves.cognate {binding first second : PropertyValue}
    (early : binding.Evolves emitter.Enriched first)
    (late : binding.Evolves emitter.Enriched second) : first.Evolves emitter.Cognate second := by
  refine ⟨late.property_eq.trans early.property_eq.symm,
    late.metadata_eq.trans early.metadata_eq.symm, ?_⟩
  have turned : Value.OptionRelated (fun x y => emitter.Enriched y x) first.value? binding.value? :=
    early.value.symm fun _ _ enriched => enriched
  exact turned.comp (fun _ original _ one other => ⟨original, one, other⟩) late.value

/-- Two answers for one name lead to the same related entities. -/
theorem PropertyValue.Answers.cognate (byKey : resolver.IsByKey) {first second : PropertyValue}
    (one : first.Answers emitter resolver origin) (other : second.Answers emitter resolver origin)
    (named : second.name = first.name) : first.Evolves emitter.Cognate second := by
  have same : second.property = first.property := by
    have declared := other.declared
    rw [named, one.declared] at declared
    exact (Option.some.inj declared).symm
  refine ⟨same, other.bare.trans one.bare.symm, ?_⟩
  obtain ⟨request, found?, supply, rest, found, related⟩ := one.answer
  obtain ⟨request', found?', supply', rest', found', related'⟩ := other.answer
  rw [same, named] at related'
  rw [same] at found'
  have alike := byKey.alike origin origin first.property request request' rfl rfl rfl supply supply'
  rw [found, found'] at alike
  have values : (Emitter.orEmpty first.property found?).map Value.anonymous =
      (Emitter.orEmpty first.property found?').map Value.anonymous := by
    rw [Emitter.anonymous_orEmpty, Emitter.anonymous_orEmpty, Except.ok.inj alike]
  have twins := Value.optionRelated_of_anonymous
    (Emitter.anonymous_adopt values origin.id origin.id first.name)
  -- What is enriched from the second answer is enriched from the first one, its twin.
  have across := twins.comp
    (fun x y z same (enriched : emitter.Enriched y z) (stores : x.StoresAll) =>
      enriched.of_twins stores same) related'
  have turned : Value.OptionRelated (fun x y => emitter.Enriched y x) first.value? _ :=
    related.symm fun _ _ enriched => enriched
  exact turned.comp (fun _ original _ one other => ⟨original, one, other one.1⟩) across

/-- Under one name, two answers that are prepared are written alike. -/
theorem PropertyValue.Supplied.rearranged (byKey : resolver.IsByKey) {level : MetadataLevel}
    {first second : PropertyValue} (one : first.Supplied emitter resolver depth context origin)
    (other : second.Supplied emitter resolver depth context origin)
    (named : second.name = first.name)
    (alike : ∀ context x y p q, emitter.Cognate x y → emitter.Prepares depth context x p →
      emitter.Prepares depth context y q → p.WrittenAlike level context q) :
    Json.MembersRearranged (first.members level context) (second.members level context) := by
  obtain ⟨x, answers, prepares⟩ := one
  obtain ⟨y, answers', prepares'⟩ := other
  have same : y.name = x.name := by
    rw [← prepares'.evolves.name_eq, named, prepares.evolves.name_eq]
  exact Emitter.rearranged_members (answers.cognate byKey answers' same) prepares prepares' alike

theorem PropertyValue.Supplied.declared {binding : PropertyValue}
    (supplied : binding.Supplied emitter resolver depth context origin) :
    origin.type.property? binding.name = some binding.property ∧
      binding.property.isNavigation = true ∧
        binding.name ∉ origin.bindings.map PropertyValue.name := by
  obtain ⟨between, answers, prepares⟩ := supplied
  have evolves := prepares.evolves
  rw [evolves.name_eq, evolves.property_eq]
  exact ⟨answers.declared, answers.navigation, answers.unbound⟩

/-- Related entities are written if they were requested, and then every other container that was
prepared from the original has them too. -/
theorem ComplexValue.mem_written {bindings others : List PropertyValue}
    (supplied : ∀ binding ∈ bindings, binding.Supplied emitter resolver depth context origin)
    (suppliedOthers : ∀ binding ∈ others, binding.Supplied emitter resolver depth context origin)
    (requested : ∀ request ∈ context.expand,
      request.path ∈ origin.bindings.map PropertyValue.name ∨
        request.path ∈ others.map PropertyValue.name) {name : String}
    (inside : name ∈ (bindings.filter fun binding =>
      context.writes binding.property).map PropertyValue.name) :
    name ∈ (others.filter fun binding =>
      context.writes binding.property).map PropertyValue.name := by
  obtain ⟨binding, among, rfl⟩ := List.mem_map.1 inside
  obtain ⟨held, writes⟩ := List.mem_filter.1 among
  obtain ⟨declared, navigation, unbound⟩ := (supplied binding held).declared
  have asked := writes
  rw [RequestContext.writes, if_pos navigation, Option.isSome_iff_exists] at asked
  obtain ⟨request, found⟩ := asked
  obtain ⟨path, listed⟩ := Keyed.keyOf_of_find? _ found
  have bound := requested request listed
  rw [path] at bound
  rcases bound with before | behind
  · exact absurd before unbound
  · obtain ⟨other, present, named⟩ := List.mem_map.1 behind
    have same := (suppliedOthers other present).declared.1
    rw [named] at same
    have property : other.property = binding.property :=
      Option.some.inj (same.symm.trans declared)
    refine List.mem_map.2 ⟨other, List.mem_filter.2 ⟨present, ?_⟩, named⟩
    rw [property, writes]

/-- Only what is written has members. -/
theorem ComplexValue.flatMap_members_filter (level : MetadataLevel)
    (bindings : List PropertyValue) :
    (bindings.filter fun binding => context.writes binding.property).flatMap
        (PropertyValue.members level context) =
      bindings.flatMap (PropertyValue.members level context) := by
  induction bindings with
  | nil => rfl
  | cons binding rest ih =>
    rw [List.filter_cons, List.flatMap_cons]
    split
    · rw [List.flatMap_cons, ih]
    · rename_i skipped
      rw [PropertyValue.members, if_neg skipped, ih, List.nil_append]

/-- The related entities behind, in two containers that were prepared from one original. -/
theorem ComplexValue.exists_rearranged (byKey : resolver.IsByKey) {level : MetadataLevel}
    {first second : List PropertyValue} (distinct : (first.map PropertyValue.name).Nodup)
    (distinctOthers : (second.map PropertyValue.name).Nodup)
    (one : ∀ binding ∈ first, binding.Supplied emitter resolver depth context origin)
    (other : ∀ binding ∈ second, binding.Supplied emitter resolver depth context origin)
    (requestedOne : ∀ request ∈ context.expand,
      request.path ∈ origin.bindings.map PropertyValue.name ∨
        request.path ∈ first.map PropertyValue.name)
    (requestedOther : ∀ request ∈ context.expand,
      request.path ∈ origin.bindings.map PropertyValue.name ∨
        request.path ∈ second.map PropertyValue.name)
    (alike : ∀ context x y p q, emitter.Cognate x y → emitter.Prepares depth context x p →
      emitter.Prepares depth context y q → p.WrittenAlike level context q) :
    ∃ members,
      Json.MembersRearranged (first.flatMap (PropertyValue.members level context)) members ∧
        members.Perm (second.flatMap (PropertyValue.members level context)) := by
  rw [← flatMap_members_filter level first, ← flatMap_members_filter level second]
  have names : ((first.filter fun binding => context.writes binding.property).map
      PropertyValue.name).Perm ((second.filter fun binding =>
        context.writes binding.property).map PropertyValue.name) := by
    refine (List.perm_ext_iff_of_nodup ?_ ?_).2 fun name => ⟨?_, ?_⟩
    · exact distinct.sublist (List.filter_sublist.map _)
    · exact distinctOthers.sublist (List.filter_sublist.map _)
    · exact mem_written one other requestedOther
    · exact mem_written other one requestedOne
  have keyed : List.Forall₂ (fun name (binding : PropertyValue) => binding.name = name)
      ((second.filter fun binding => context.writes binding.property).map PropertyValue.name)
      (second.filter fun binding => context.writes binding.property) :=
    List.forall₂_map_left_iff.2 (List.forall₂_same.2 fun _ _ => rfl)
  -- The second list can be put into the order of the first one, name by name.
  obtain ⟨matched, same, order⟩ := List.perm_comp_forall₂ names keyed
  rw [List.forall₂_map_left_iff] at same
  refine ⟨matched.flatMap (PropertyValue.members level context), ?_, order.flatMap_right _⟩
  refine .flatMap same fun binding inside answer among named => ?_
  have present := List.mem_of_mem_filter (order.mem_iff.1 among)
  exact (one binding (List.mem_of_mem_filter inside)).rearranged byKey (other answer present) named
    alike

/-- Two containers that were prepared from one original are written alike. -/
theorem ComplexValue.PreparedParts.writtenAlike (byKey : resolver.IsByKey) {level : MetadataLevel}
    {first second : ComplexValue}
    (one : origin.PreparedParts emitter resolver depth context first)
    (other : origin.PreparedParts emitter resolver depth context second)
    (alike : ∀ context x y p q, emitter.Cognate x y → emitter.Prepares depth context x p →
      emitter.Prepares depth context y q → p.WrittenAlike level context q) :
    first.WrittenAlike level context second := by
  rw [WrittenAlike, tree_eq, tree_eq, one.controlInfo_eq, other.controlInfo_eq, one.isReference_eq,
    other.isReference_eq]
  cases origin.isReference with
  | true => exact .same _
  | false =>
    obtain ⟨front, behind, bindings, readied, distinct, supplied, requested⟩ := one.bindings
    obtain ⟨front', behind', bindings', readied', distinct', supplied', requested'⟩ :=
      other.bindings
    rw [bindings, bindings', List.flatMap_append, List.flatMap_append]
    obtain ⟨members, rearranged, order⟩ := exists_rearranged byKey distinct distinct' supplied
      supplied' requested requested' alike
    have pairs : List.Forall₂ (fun p q => ∃ old : PropertyValue,
        old.Readied emitter depth context p ∧ old.Readied emitter depth context q) front front' :=
      forall₂_comp (fun _ old _ left right => ⟨old, left, right⟩) (List.Forall₂.flip readied)
        readied'
    have inFront : Json.MembersRearranged (front.flatMap (PropertyValue.members level context))
        (front'.flatMap (PropertyValue.members level context)) := by
      refine .flatMap pairs fun p _ q _ both => ?_
      obtain ⟨old, ⟨x, evolves, prepares⟩, ⟨y, evolves', prepares'⟩⟩ := both
      exact Emitter.rearranged_members (evolves.cognate evolves') prepares prepares' alike
    exact .object ((Json.MembersRearranged.refl _).append (inFront.append rearranged))
      ((order.append_left _).append_left _)

end

namespace Emitter

variable {emitter : Emitter} {resolver : NavigationResolver}

/-- However two containers were enriched from one original, they are written alike once they are
prepared for the same request. -/
theorem writtenAlike_of_cognate (resolves : emitter.resolver? = some resolver)
    (byKey : resolver.IsByKey) (level : MetadataLevel) {depth : Nat} {context : RequestContext}
    {x y p q : ComplexValue} (cognate : emitter.Cognate x y)
    (first : emitter.Prepares depth context x p) (second : emitter.Prepares depth context y q) :
    p.WrittenAlike level context q := by
  induction depth generalizing context x y p q with
  | zero =>
    obtain ⟨supply, rest, done⟩ := first
    cases done
  | succ depth ih =>
    obtain ⟨origin, one, other⟩ := cognate
    exact (first.preparedParts resolves byKey one).writtenAlike byKey
      (second.preparedParts resolves byKey other)
      fun context x y p q both before after => ih both before after

end Emitter

end EdmQuery
