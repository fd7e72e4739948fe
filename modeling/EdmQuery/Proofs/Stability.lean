import EdmQuery.Evaluation.Search
import EdmQuery.Proofs.Extension
import EdmQuery.Proofs.Holdings
import EdmQuery.Proofs.Preparing

set_option autoImplicit false

namespace EdmQuery

section

variable (needle : List Char)

mutual

theorem Value.displays_stored (value : Value) :
    value.stored.displays needle = value.displays needle := by
  cases value with
  | primitive value => rfl
  | complex value => exact ComplexValue.displays_stored value
  | collection items => exact Value.anyDisplays_stored items

theorem Value.anyDisplays_stored (items : List Value) :
    Value.anyDisplays needle (Value.erasedItems (fun property => !property.isNavigation) items) =
      Value.anyDisplays needle items := by
  cases items with
  | nil => rfl
  | cons item rest =>
    have first := Value.displays_stored item
    rw [Value.stored] at first
    rw [Value.erasedItems, Value.anyDisplays, Value.anyDisplays, first,
      Value.anyDisplays_stored rest]

theorem Value.optionDisplays_stored (value? : Option Value) :
    Value.optionDisplays needle
        (Value.erasedOption (fun property => !property.isNavigation) value?) =
      Value.optionDisplays needle value? := by
  cases value? with
  | none => rfl
  | some value => exact Value.displays_stored value

theorem ComplexValue.displays_stored (container : ComplexValue) :
    container.stored.displays needle = container.displays needle := by
  cases container
  exact ComplexValue.anyBindingDisplays_stored _

theorem ComplexValue.anyBindingDisplays_stored (bindings : List PropertyValue) :
    ComplexValue.anyBindingDisplays needle
        (ComplexValue.erasedBindings (fun property => !property.isNavigation) bindings) =
      ComplexValue.anyBindingDisplays needle bindings := by
  match bindings with
  | [] => rfl
  | ⟨property, value?, owner?, metadata⟩ :: rest =>
    have later := ComplexValue.anyBindingDisplays_stored rest
    rw [ComplexValue.erasedBindings, ComplexValue.anyBindingDisplays]
    cases navigation : property.isNavigation with
    | true => simpa only [navigation, Bool.not_true, Bool.false_eq_true, if_false, Bool.false_and,
        Bool.false_or] using later
    | false =>
      simp only [navigation, Bool.not_false, if_true, PropertyValue.erased,
        ComplexValue.anyBindingDisplays, Bool.true_and, later,
        Value.optionDisplays_stored value?]

end

end

theorem SearchTerm.isDisplayedBy_of_stored (term : SearchTerm) {first second : ComplexValue}
    (same : first.stored = second.stored) :
    term.isDisplayedBy first = term.isDisplayedBy second := by
  rw [isDisplayedBy, isDisplayedBy, ← ComplexValue.displays_stored, same,
    ComplexValue.displays_stored]

/-- The properties of a type have names of their own. -/
def ComplexType.NamesApart (type : ComplexType) : Prop := (type.properties.map Property.name).Nodup

instance (type : ComplexType) : Decidable type.NamesApart :=
  inferInstanceAs (Decidable (type.properties.map Property.name).Nodup)

theorem ComplexType.NamesApart.of_addProperty {type changed : ComplexType} {property : Property}
    (apart : type.NamesApart) (done : type.addProperty property = .ok changed) :
    changed.NamesApart := by
  obtain ⟨absent, rfl⟩ := eq_of_addProperty done
  rw [NamesApart, List.map_append, List.nodup_append]
  refine ⟨apart, List.nodup_cons.2 ⟨List.not_mem_nil, .nil⟩, fun name old other new => ?_⟩
  rw [List.map_singleton, List.mem_singleton] at new
  rintro rfl
  exact absent (new ▸ old)

/-- Whatever a type is built from, its properties have names of their own. -/
theorem ComplexType.NamesApart.of_addProperties {type changed : ComplexType}
    {properties : List Property} (apart : type.NamesApart)
    (done : type.addProperties properties = .ok changed) : changed.NamesApart :=
  Result.keeps_foldlM (fun _ _ _ _ before => before.of_addProperty) apart done

/-- A property that is computed when an instance is written. -/
abbrev Property.Computed (property : Property) : Prop := property.isGenerated = true

namespace Emitter

variable {emitter : Emitter}

/-- An edit that extends the containers of a type, for a fixed type. -/
theorem extends_of_inTurn {computes : Property → Prop} {edits : List (Edit ComplexValue)}
    {before after : ComplexValue} {supply rest : Supply}
    (each : ∀ edit ∈ edits, ∀ first second early late, first.type = before.type →
      edit first early = ((second, .ok ()), late) → first.Extends computes second)
    (done : Edit.inTurn edits before supply = ((after, .ok ()), rest)) :
    before.Extends computes after := by
  let extends_ (first second : ComplexValue) : Prop :=
    first.type = before.type → first.Extends computes second
  have both : extends_ before after :=
    Edit.relates_of_inTurn (fun container _ => .refl container)
      (fun _ _ _ early late same =>
        (early same).trans (late ((early same).type_eq.trans same)))
      (fun edit inside first second early late ran same => each edit inside first second early late
        same ran) done
  exact both rfl

theorem extends_of_generate {before after : ComplexValue} {supply rest : Supply}
    (apart : before.type.NamesApart)
    (done : emitter.generate before supply = ((after, .ok ()), rest)) :
    before.Extends Property.Computed after := by
  refine extends_of_inTurn (fun edit inside first second early late same ran => ?_) done
  obtain ⟨property, declared, computing⟩ := List.mem_filterMap.1 inside
  cases rule : property.kind.rule? with
  | none =>
    rw [rule] at computing
    cases computing
  | some name =>
    rw [rule] at computing
    cases computing
    obtain ⟨value?, middle, -, set⟩ := Build.bind_eq_ok (Edit.run_of_ofBuild ran)
    have own : first.type.property? property.name = some property := by
      rw [same]
      exact Keyed.find?_of_mem _ apart declared
    rw [ComplexValue.set_declared own] at set
    cases set
    refine .bind_computed value? own ?_
    rw [Property.Computed, Property.isGenerated, rule]
    rfl

theorem Expands.extends {request : NavigationRequest} {before after : ComplexValue}
    {computes : Property → Prop} (expands : emitter.Expands request before after) :
    before.Extends computes after := by
  cases expands with
  | same => exact .refl _
  | bound property resolver found? supply rest declared navigation unbound resolves found =>
    have named : property.name = request.path := (Keyed.keyOf_of_find? _ declared).1
    rw [← named] at declared unbound
    exact .bind_navigation _ declared navigation unbound

theorem PreparesBinding.property_and_primitive {depth : Nat} {context : RequestContext}
    {before after : PropertyValue} (prepares : emitter.PreparesBinding depth context before after) :
    after.property = before.property ∧ after.primitive? = before.primitive? := by
  rw [PreparesBinding] at prepares
  split at prepares
  · subst prepares
    exact ⟨rfl, rfl⟩
  · obtain ⟨value?, rfl, related⟩ := prepares
    exact ⟨rfl, Value.primitive?_of_related related⟩

/-- Preparing extends a container by computed properties and related entities. -/
theorem Prepares.extends {depth : Nat} {context : RequestContext} {before after : ComplexValue}
    (apart : before.type.NamesApart) (prepares : emitter.Prepares depth context before after) :
    before.Extends Property.Computed after := by
  obtain ⟨below, computed, expanded, bindings, _, _, _, _, -, generated, expansion, rfl, each⟩ :=
    prepares.cases
  have first := extends_of_generate apart generated
  have second : computed.Extends Property.Computed expanded := by
    refine extends_of_inTurn (fun edit inside first second early late _ ran => ?_) expansion
    obtain ⟨request, -, rfl⟩ := List.mem_map.1 inside
    exact (expands_of_expand ran).extends
  refine (first.trans second).trans (.of_bindings (each.imp fun _ _ prepares => ?_))
  exact prepares.property_and_primitive

theorem extends_of_loadPaths {paths : List (List String)} {before after : ComplexValue}
    {supply rest : Supply}
    (done : Edit.inTurn (paths.map emitter.loadPath) before supply = ((after, .ok ()), rest)) :
    before.Extends (fun _ => False) after ∧ after.stored = before.stored := by
  refine ⟨extends_of_inTurn (fun edit inside first second early late _ ran => ?_) done, ?_⟩
  · obtain ⟨path, -, rfl⟩ := List.mem_map.1 inside
    exact Loads.extends ⟨early, late, ran⟩
  · let stays (first second : ComplexValue) : Prop := second.stored = first.stored
    have reflexive : ∀ container, stays container container := fun _ => rfl
    have transitive : ∀ first second third, stays first second → stays second third →
        stays first third := fun _ _ _ one two => Eq.trans two one
    refine Edit.relates_of_inTurn reflexive transitive
      (fun edit inside first second early late ran => ?_) done
    obtain ⟨path, -, rfl⟩ := List.mem_map.1 inside
    exact (Loads.stored_eq ⟨early, late, ran⟩).symm

end Emitter

/-- A container whose bindings were set or read from records. It may be marked in other ways, and be
given a type that does not compute what is stored for the ETag. -/
inductive ComplexValue.Populated : ComplexValue → Prop
  | empty {container : ComplexValue} (nothing : container.bindings = []) : Populated container
  | set {container changed : ComplexValue} {name : String} {input : PropertyInput}
      {supply rest : Supply} (populated : Populated container)
      (done : (container.set name input).run supply = (.ok changed, rest)) : Populated changed
  | readRecord {container : ComplexValue} (members : Json.Members) (supply : Supply)
      (populated : Populated container) : Populated (container.readRecord members supply).1.1
  | readObject {container : ComplexValue} (members : Json.Members) (supply : Supply)
      (populated : Populated container) : Populated (container.readObject members supply).1.1
  | marked {container changed : ComplexValue} (populated : Populated container)
      (type : changed.type = container.type) (bindings : changed.bindings = container.bindings) :
      Populated changed
  | retyped {container changed : ComplexValue} {type : ComplexType}
      (populated : Populated container) (done : container.setType type = .ok changed)
      (stored : ∀ binding ∈ container.bindings, binding.property.isETagEligible = true →
        ∀ property, type.property? binding.name = some property → ¬ property.Computed) :
      Populated changed

namespace ComplexValue

/-- No name that an eligible property is bound under is computed. -/
def StoresETag (container : ComplexValue) : Prop :=
  ∀ binding ∈ container.bindings, binding.property.isETagEligible = true →
    ∀ property, container.type.property? binding.name = some property → ¬ property.Computed

theorem StoresETag.bind {container : ComplexValue} (stores : container.StoresETag)
    {property : Property} (suits : container.type.Suits property) (value? : Option Value) :
    (container.bind property value?).StoresETag := by
  intro binding inside eligible other declared computed
  rcases Keyed.mem_put _ inside with rfl | old
  · have stored : property.isETagEligible = true := eligible
    rcases suits with own | ⟨absent, -⟩
    · have same : other = property := Option.some.inj (declared.symm.trans own)
      rw [same] at computed
      rw [Property.not_isETagEligible_of_isGenerated computed] at stored
      cases stored
    · have found : container.type.property? property.name = some other := declared
      rw [absent] at found
      cases found
  · exact stores binding old eligible other declared computed

theorem eq_bind_of_set {container changed : ComplexValue} {name : String} {input : PropertyInput}
    {supply rest : Supply}
    (done : (container.set name input).run supply = (.ok changed, rest)) :
    ∃ property value?, container.type.Suits property ∧ changed = container.bind property value? := by
  obtain ⟨property, middle, found, bound⟩ := Build.bind_eq_ok done
  have chosen : container.propertyFor name input = .ok property := congrArg Prod.fst found
  refine ⟨property, ?_⟩
  obtain ⟨-, suits⟩ := suits_of_propertyFor chosen
  cases input with
  | raw raw =>
    obtain ⟨value?, last, -, result⟩ := Build.bind_eq_ok bound
    cases result
    exact ⟨value?, suits, rfl⟩
  | value given =>
    cases bound
    exact ⟨some given, suits, rfl⟩
  | null =>
    cases bound
    exact ⟨none, suits, rfl⟩

theorem Populated.storesETag {container : ComplexValue} (populated : container.Populated) :
    container.StoresETag := by
  induction populated with
  | empty nothing =>
    intro binding inside
    rw [nothing] at inside
    cases inside
  | set _ done ih =>
    obtain ⟨property, value?, suits, rfl⟩ := eq_bind_of_set done
    exact ih.bind suits value?
  | readRecord members supply _ ih =>
    exact keeps_bindAll (fun _ _ value? stores suits => stores.bind suits value?) _ supply ih
  | readObject members supply _ ih =>
    exact keeps_bindAll (fun _ _ value? stores suits => stores.bind suits value?) _ supply ih
  | marked _ type bindings ih =>
    rw [StoresETag, type, bindings]
    exact ih
  | retyped _ done stored _ =>
    obtain ⟨-, rfl⟩ := eq_of_setType done
    exact stored

/-- Whatever is prepared or loaded in a populated value, its ETag stays, and its identifier too
unless the key is computed or a related entity that is not bound. Bindings stay in front of new ones,
and a search finds in a value what it found before loading. -/
theorem Populated.stable {container : ComplexValue} (populated : container.Populated)
    (apart : container.type.NamesApart) (emitter : Emitter) :
    (∀ (context : RequestContext) (after : ComplexValue) (supply rest : Supply),
      emitter.prepare context container supply = ((after, .ok ()), rest) →
        after.etag = container.etag ∧
        (container.KeyStays Property.Computed → after.entityId? = container.entityId?) ∧
        ∃ added, after.bindings.map PropertyValue.name =
          container.bindings.map PropertyValue.name ++ added) ∧
    ∀ (paths : List (List String)) (after : ComplexValue) (supply rest : Supply),
      Edit.inTurn (paths.map emitter.loadPath) container supply = ((after, .ok ()), rest) →
        after.etag = container.etag ∧
        (container.KeyStays (fun _ => False) → after.entityId? = container.entityId?) ∧
        (∃ added, after.bindings.map PropertyValue.name =
          container.bindings.map PropertyValue.name ++ added) ∧
        ∀ term : SearchTerm, term.isDisplayedBy after = term.isDisplayedBy container := by
  refine ⟨fun context after supply rest done => ?_, fun paths after supply rest done => ?_⟩
  · have prepares : emitter.Prepares Emitter.maxDepth context container after :=
      ⟨supply, rest, done⟩
    have grows := prepares.extends apart
    exact ⟨grows.etag_eq (fun _ => Property.not_isETagEligible_of_isGenerated)
      populated.storesETag, grows.entityId?_eq, grows.names_eq⟩
  · obtain ⟨grows, stored⟩ := Emitter.extends_of_loadPaths done
    exact ⟨grows.etag_eq (fun _ never => never.elim) fun _ _ _ _ _ never => never,
      grows.entityId?_eq, grows.names_eq, fun term => term.isDisplayedBy_of_stored stored⟩

/-- A type of entities with more than their key. -/
def flight : ComplexType :=
  ⟨"airline.Flight", true, some "number", false, true, [.declared "number" (.primitive .string),
    .generated "label" (.primitive .string) "label",
    .navigation "pilot" ⟨"airline.Pilot", false, none, true⟩]⟩

/-- An entity of a set without any properties, and one with a number. -/
def unnumbered (type : ComplexType) : ComplexValue :=
  ⟨⟨0⟩, type, [], none, some "journeys", false, []⟩

def numbered (type : ComplexType) : ComplexValue :=
  (unnumbered type).bind (.declared "number" (.primitive .string)) (some (.primitive (.string "1")))

/-- Everything that is computed or resolved is the same text. -/
def sevens : Emitter :=
  ⟨fun _ _ => pure (some (.primitive (.string "7"))),
    some fun _ _ _ => pure (some (.primitive (.string "7")))⟩

theorem populated_numbered : (numbered flight).Populated :=
  have done : ((unnumbered flight).set "number" (.value (.primitive (.string "1")))).run ⟨1⟩ =
      (.ok (numbered flight), ⟨1⟩) := rfl
  .set (.empty rfl) done

theorem Populated.stable_flight : (numbered flight).Populated ∧ flight.NamesApart ∧
    (∃ after rest, sevens.prepare .default (numbered flight) ⟨1⟩ = ((after, .ok ()), rest) ∧
      after.bindings.map PropertyValue.name = ["number", "label"] ∧
      after.etag = (numbered flight).etag ∧ after.entityId? = (numbered flight).entityId?) ∧
    ∃ after rest, Edit.inTurn ([["pilot"]].map sevens.loadPath) (numbered flight) ⟨1⟩ =
        ((after, .ok ()), rest) ∧
      after.bindings.map PropertyValue.name = ["number", "pilot"] ∧
      after.etag = (numbered flight).etag ∧ after.entityId? = (numbered flight).entityId? ∧
      ∀ term : SearchTerm, term.isDisplayedBy after = term.isDisplayedBy (numbered flight) := by
  have apart : flight.NamesApart := by decide
  obtain ⟨prepared, loaded⟩ := populated_numbered.stable apart sevens
  have keyed : ∀ property, (numbered flight).type.property? "number" = some property →
      property = .declared "number" (.primitive .string) :=
    fun property found => (Option.some.inj found).symm
  have stays : ∀ computes : Property → Prop,
      ¬ computes (.declared "number" (.primitive .string)) →
        (numbered flight).KeyStays computes := by
    rintro computes stored key property named found
    cases named
    rw [keyed property found]
    exact ⟨stored, fun navigation => (by cases navigation)⟩
  have first := prepared .default _ ⟨1⟩ _ rfl
  have second := loaded [["pilot"]] _ ⟨1⟩ _ rfl
  exact ⟨populated_numbered, apart,
    ⟨_, _, rfl, rfl, first.1, first.2.1 (stays _ fun computed => by cases computed)⟩,
    ⟨_, _, rfl, rfl, second.1, second.2.1 (stays _ fun never => never), second.2.2.2⟩⟩

/-- A type whose only property is its key. -/
def ticket (kind : PropertyKind) : ComplexType :=
  ⟨"airline.Ticket", true, some "number", false, true, [⟨"number", .primitive .string, true, kind⟩]⟩

/-- Where the key is computed, preparing gives an identifier to a value that has none; where it is a
related entity, loading does if the resolver answers a primitive; and a type that computes what was
stored takes it out of the ETag. -/
theorem unstable_tickets :
    (∃ after rest, (unnumbered (ticket (.generated "serial"))).Populated ∧
      sevens.prepare .default (unnumbered (ticket (.generated "serial"))) ⟨1⟩ =
        ((after, .ok ()), rest) ∧
      (unnumbered (ticket (.generated "serial"))).entityId? = none ∧
      after.entityId? = some "journeys('7')") ∧
    (∃ after rest, (unnumbered (ticket (.navigation ⟨"", false, none, true⟩))).Populated ∧
      sevens.loadPath ["number"] (unnumbered (ticket (.navigation ⟨"", false, none, true⟩))) ⟨1⟩ =
        ((after, .ok ()), rest) ∧
      (unnumbered (ticket (.navigation ⟨"", false, none, true⟩))).entityId? = none ∧
      after.entityId? = some "journeys('7')") ∧
    ∃ container after rest, (numbered (ticket .declared)).Populated ∧
      (numbered (ticket .declared)).setType (ticket (.generated "serial")) = .ok container ∧
      sevens.prepare .default container ⟨1⟩ = ((after, .ok ()), rest) ∧
      after.etag ≠ container.etag := by
  refine ⟨⟨_, _, .empty rfl, rfl, rfl, ?_⟩, ⟨_, _, .empty rfl, rfl, rfl, ?_⟩,
    ⟨_, _, _, ?_, rfl, rfl, ?_⟩⟩
  · decide +kernel
  · decide +kernel
  · have done : ((unnumbered (ticket .declared)).set "number"
        (.value (.primitive (.string "1")))).run ⟨1⟩ = (.ok (numbered (ticket .declared)), ⟨1⟩) := rfl
    exact .set (.empty rfl) done
  · decide +kernel

end ComplexValue

end EdmQuery
