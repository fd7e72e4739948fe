import EdmQuery.Proofs.Alignment
import EdmQuery.Proofs.CompiledTypes
import EdmQuery.Proofs.Preparing

set_option autoImplicit false

/- Whether validation up front is complete. A request that is validated against the type of an
entity set is not refused any more when an entity of the set is prepared for it: below the entity,
navigation properties hold instances of exactly those types against which the nested options were
checked. This is so unless a type of the name of the untyped one leads somewhere, since its records
bring related data of no type with them, or the rule of a generated property reports a refusal of
its own. -/
namespace EdmQuery

section

variable {schema : Schema} {type : ComplexType}

theorem NavigationRequest.validateAll_eq_ok {requests : List NavigationRequest}
    (valid : NavigationRequest.validateAll schema type requests = .ok ()) :
    ∀ request ∈ requests, ∃ property, type.expandable request.path = .ok property ∧
      ∀ target, schema.target? property = some target →
        request.options.validate schema target = .ok () := by
  induction requests with
  | nil => exact fun request inside => by cases inside
  | cons request rest ih =>
    cases request with
    | mk path options =>
      rw [validateAll] at valid
      obtain ⟨property, found, later⟩ := Result.bind_eq_ok valid
      have both : (∀ target, schema.target? property = some target →
          options.validate schema target = .ok ()) ∧ validateAll schema type rest = .ok () := by
        cases known : schema.target? property with
        | none =>
          rw [Schema.target?] at known
          simp only [known] at later
          exact ⟨fun target same => (by cases same), later⟩
        | some target =>
          rw [Schema.target?] at known
          simp only [known] at later
          obtain ⟨_, checked, remaining⟩ := Result.bind_eq_ok later
          refine ⟨fun other same => ?_, remaining⟩
          cases same
          exact checked
      exact List.forall_mem_cons.2 ⟨⟨property, found, both.1⟩, ih both.2⟩

theorem RequestContext.optionsFor_default (property : Property) :
    RequestContext.default.optionsFor property = .default := by
  rw [RequestContext.optionsFor]
  split <;> rfl

theorem RequestContext.validate_eq_ok {context : RequestContext}
    (valid : context.validate schema type = .ok ()) :
    context.checkSelect type = .ok () ∧
      ∀ request ∈ context.expand, ∃ property, type.expandable request.path = .ok property ∧
        ∀ target, schema.target? property = some target →
          request.options.validate schema target = .ok () := by
  cases context with
  | mk select? expand level =>
    rw [validate] at valid
    obtain ⟨_, selected, all⟩ := Result.bind_eq_ok valid
    exact ⟨selected, NavigationRequest.validateAll_eq_ok all⟩

/-- The options of a requested property are valid on the type that it leads to. -/
theorem RequestContext.validate_optionsFor {context : RequestContext}
    (valid : context.validate schema type = .ok ()) {property : Property} {target : ComplexType}
    (own : type.property? property.name = some property) (navigation : property.isNavigation = true)
    (requested : (context.navigationRequest? property.name).isNone = false)
    (leads : schema.target? property = some target) :
    (context.optionsFor property).validate schema target = .ok () := by
  obtain ⟨request, found⟩ : ∃ request, context.navigationRequest? property.name = some request := by
    cases known : context.navigationRequest? property.name with
    | none =>
      rw [known] at requested
      cases requested
    | some request => exact ⟨request, rfl⟩
  obtain ⟨path, inside⟩ := Keyed.keyOf_of_find? _ found
  obtain ⟨other, expandable, checked⟩ := (validate_eq_ok valid).2 request inside
  obtain ⟨declared, -⟩ := Emitter.ComplexType.expandable_eq_ok expandable
  rw [path] at declared
  rw [Option.some.inj (declared.symm.trans own)] at checked
  have options : context.optionsFor property = request.options := by
    rw [optionsFor, if_pos navigation, found]
    rfl
  rw [options]
  exact checked target leads

end

/-- The errors that preparing reports: no refusal, unless it is one that a rule reports. -/
def Generators.MayReport (generators : Generators) (error : Error) : Prop :=
  error.isRefusal = false ∨ ∃ rule container supply rest,
    (generators rule container).run supply = (.error error, rest)

namespace Emitter

variable {schema : Schema} {emitter : Emitter} {type : ComplexType} {fails : Error → Prop}

theorem keeps_generate {holds : ComplexValue → Prop}
    (typed : ∀ container, holds container → container.type = type)
    (kept : ∀ container bound value?, ∀ property ∈ type.properties, holds container →
      property.isGenerated = true → type.property? property.name = some bound →
        holds (container.bind bound value?)) :
    Edit.Keeps emitter.generators.MayReport holds emitter.generate := by
  intro container before
  have same := typed container before
  subst same
  have all : Edit.Keeps emitter.generators.MayReport holds
      (Edit.inTurn (container.type.properties.filterMap fun property =>
        property.kind.rule?.map fun rule => Edit.ofBuild fun current => do
          current.set property.name (.ofOption (← emitter.generators rule current)))) := by
    refine .inTurn fun edit inside => ?_
    obtain ⟨property, present, computes⟩ := List.mem_filterMap.1 inside
    obtain ⟨rule, given, rfl⟩ := Option.map_eq_some_iff.1 computes
    have generated : property.isGenerated = true := Option.isSome_of_eq_some given
    refine .ofBuild fun current holding => ?_
    have computed : (emitter.generators rule current).Ensures emitter.generators.MayReport
        fun _ => True :=
      ⟨fun _ => trivial, fun failed => .inr ⟨rule, current, _, _, failed⟩⟩
    refine computed.bind fun value? _ => ?_
    obtain ⟨bound, found⟩ := Option.isSome_iff_exists.1
      ((Keyed.find?_isSome Property.name property.name _).2 (List.mem_map_of_mem present))
    have named : bound.name = property.name := (Keyed.keyOf_of_find? _ found).1
    have declared : current.type.property? bound.name = some bound := by
      rw [typed current holding, named]
      exact found
    rw [← named, ComplexValue.set_declared declared]
    exact .pure (kept current bound value? property present holding generated found)
  exact all container before

/-- No level is left, which is no refusal. -/
theorem keeps_prepareWithin_zero {holds : ComplexValue → Prop} {context : RequestContext} :
    Edit.Keeps emitter.generators.MayReport holds (emitter.prepareWithin 0 context) := by
  refine .check fun container error _ failed => ?_
  cases failed
  exact .inl rfl

/-- A level of preparing keeps what each of its stages keeps. -/
theorem keeps_prepareWithin_succ {holds : ComplexValue → Prop} {depth : Nat}
    {context : RequestContext} (generates : emitter.generate.Keeps fails holds)
    (selects : ∀ container, holds container → context.checkSelect container.type = .ok ())
    (expands : ∀ request ∈ context.expand, (emitter.expand request).Keeps fails holds)
    (descends : Edit.Keeps fails holds (ComplexValue.editBindings
      (prepareBinding (emitter.prepareWithin depth) context))) :
    Edit.Keeps fails holds (emitter.prepareWithin (depth + 1) context) := by
  refine .inTurn fun edit inside => ?_
  rcases List.mem_append.1 inside with early | last
  · rcases List.mem_append.1 early with first | expansion
    · rcases List.mem_cons.1 first with rfl | second
      · exact generates
      · rw [List.mem_singleton.1 second]
        refine .check fun container error holding failed => ?_
        rw [selects container holding] at failed
        cases failed
    · obtain ⟨request, present, rfl⟩ := List.mem_map.1 expansion
      exact expands request present
  · rw [List.mem_singleton.1 last]
    exact descends

theorem toBuild_prepareBinding (prepare : RequestContext → Edit ComplexValue)
    (context : RequestContext) (binding : PropertyValue) :
    (prepareBinding prepare context).toBuild binding =
      if binding.property.isNavigation && (context.navigationRequest? binding.name).isNone then
        pure binding
      else (PropertyValue.editContainers
        (prepare (context.optionsFor binding.property))).toBuild binding := by
  split
  · rename_i skipped
    have same : prepareBinding prepare context binding = Edit.skip binding := by
      rw [prepareBinding, if_pos skipped]
      rfl
    exact Edit.toBuild_congr same
  · rename_i taken
    refine Edit.toBuild_congr ?_
    rw [prepareBinding, if_neg taken]

/-- Nothing is refused where nothing is requested. -/
theorem keeps_prepareWithin_default (depth : Nat) :
    Edit.Keeps emitter.generators.MayReport (fun _ => True)
      (emitter.prepareWithin depth .default) := by
  induction depth with
  | zero => exact keeps_prepareWithin_zero
  | succ depth ih =>
    refine keeps_prepareWithin_succ ?_ (fun _ _ => rfl) (fun _ inside => by cases inside) ?_
    · intro container _
      have kept : Edit.Keeps emitter.generators.MayReport
          (fun current => current.type = container.type) emitter.generate :=
        keeps_generate (fun _ same => same) fun _ _ _ _ _ same _ _ => same
      exact (kept container rfl).imp fun _ _ => trivial
    · have each : Edit.Keeps emitter.generators.MayReport (fun _ => True)
          (prepareBinding (emitter.prepareWithin depth) .default) := by
        intro binding _
        rw [toBuild_prepareBinding]
        split
        · exact .pure trivial
        · rw [RequestContext.optionsFor_default]
          exact (PropertyValue.keeps_editContainers ih binding.property binding
            ⟨rfl, fun _ _ => trivial⟩).imp fun _ _ => trivial
      exact ComplexValue.keeps_editBindings each (fun _ _ _ _ => trivial) fun _ _ _ _ => trivial

theorem keeps_expand {resolver : NavigationResolver} (resolves : emitter.resolver? = some resolver)
    {property : Property} {request : NavigationRequest}
    (found : type.expandable request.path = .ok property)
    (finds : ∀ parent, (resolver parent property request).Ensures fails (schema.LeadsTo property)) :
    Edit.Keeps fails (ComplexValue.IsAlignedOf schema type) (emitter.expand request) := by
  obtain ⟨declared, -⟩ := ComplexType.expandable_eq_ok found
  have named : property.name = request.path := (Keyed.keyOf_of_find? _ declared).1
  intro container both
  cases bound : container.has request.path with
  | true =>
    have same : emitter.expand request container = Edit.skip container := by
      simp only [expand, both.1, found, bound, if_true]
      rfl
    rw [Edit.toBuild_congr same]
    exact .pure both
  | false =>
    have same : emitter.expand request container = emitter.resolve property request container := by
      simp only [expand, both.1, found, bound, Bool.false_eq_true, if_false]
    rw [Edit.toBuild_congr same]
    exact keeps_resolve resolves (named ▸ declared) finds container both

/-- What a binding holds is prepared under valid options, or under none. -/
theorem keeps_prepareBinding {depth : Nat} {context : RequestContext}
    (valid : context.validate schema type = .ok ())
    (below : ∀ {target : ComplexType} {options : RequestContext},
      options.validate schema target = .ok () →
        Edit.Keeps emitter.generators.MayReport (ComplexValue.IsAlignedOf schema target)
          (emitter.prepareWithin depth options)) :
    Edit.Keeps emitter.generators.MayReport (PropertyValue.IsAligned schema type)
      (prepareBinding (emitter.prepareWithin depth) context) := by
  intro binding aligned
  rw [toBuild_prepareBinding]
  split
  · exact .pure aligned
  · rename_i taken
    refine aligned.ensures_editContainers (fun navigation target leads => ?_) fun plain => ?_
    · rw [navigation, Bool.true_and, Bool.not_eq_true] at taken
      exact below (RequestContext.validate_optionsFor valid (aligned navigation).1 navigation taken
        leads)
    · -- what other properties hold may be anything, and nothing is requested of it
      have options : context.optionsFor binding.property = .default := by
        rw [RequestContext.optionsFor, plain, if_neg Bool.false_ne_true]
      rw [options]
      exact keeps_prepareWithin_default depth

/-- A validated request is not refused on an aligned entity. -/
theorem keeps_prepareWithin {resolver : NavigationResolver}
    (resolves : emitter.resolver? = some resolver)
    (finds : ∀ property parent request, (resolver parent property request).Ensures
      emitter.generators.MayReport (schema.LeadsTo property))
    (depth : Nat) {context : RequestContext} (valid : context.validate schema type = .ok ()) :
    Edit.Keeps emitter.generators.MayReport (ComplexValue.IsAlignedOf schema type)
      (emitter.prepareWithin depth context) := by
  induction depth generalizing type context with
  | zero => exact keeps_prepareWithin_zero
  | succ depth ih =>
    obtain ⟨selects, expands⟩ := RequestContext.validate_eq_ok valid
    refine keeps_prepareWithin_succ ?_ (fun container both => both.1 ▸ selects) ?_ ?_
    · -- what is computed stands under a name that no navigation property has
      refine keeps_generate (fun _ both => both.1) ?_
      intro container bound value? property present both generated found
      obtain ⟨rfl, aligned⟩ := both
      have own := Keyed.find?_of_mem Property.name (ComplexValue.isAligned_iff.1 aligned).1 present
      rw [Option.some.inj (found.symm.trans own)]
      refine ⟨rfl, aligned.bind fun navigation => ?_⟩
      have plain := Property.isNavigation_eq_false (.inr (.inr generated))
      cases plain.symm.trans navigation
    · intro request inside
      obtain ⟨property, found, -⟩ := expands request inside
      exact keeps_expand resolves found fun parent => finds property parent request
    · exact keeps_editBindings (keeps_prepareBinding valid ih)

end Emitter

/-- The builders that come out of registering one thing after the other. Each type has its
properties under names of their own, since no property is added under a name that is taken. -/
inductive SchemaBuilder.Reachable : SchemaBuilder → Prop
  | start (namespaceName : String) : Reachable (.empty namespaceName)
  | addType {builder changed : SchemaBuilder} {type : ComplexType} (reached : Reachable builder)
      (apart : type.NamesApart) (done : builder.addType type = .ok changed) : Reachable changed
  | addEntitySet {builder changed : SchemaBuilder} {name typeName : String}
      (reached : Reachable builder) (done : builder.addEntitySet name typeName = .ok changed) :
      Reachable changed
  | annotate {builder changed : SchemaBuilder} {target : AnnotationTarget} {note : Annotation}
      (reached : Reachable builder) (done : builder.annotate target note = .ok changed) :
      Reachable changed

/-- A schema that a builder gives. -/
def Schema.IsBuilt (schema : Schema) : Prop :=
  ∃ builder : SchemaBuilder, builder.Reachable ∧ builder.build = .ok schema

/-- Names stand for one property each, and entity sets are those of registered types. -/
theorem SchemaBuilder.Reachable.consistent {builder : SchemaBuilder} (reached : builder.Reachable) :
    (∀ type ∈ builder.types, type.NamesApart) ∧
      ∀ set ∈ builder.entitySets, set.type ∈ builder.types := by
  induction reached with
  | start namespaceName =>
    exact ⟨fun _ inside => (by cases inside), fun _ inside => (by cases inside)⟩
  | addType _ apart done ih =>
    rw [SchemaBuilder.eq_of_addType done]
    refine ⟨fun other inside => ?_, fun set inside => List.mem_append_left _ (ih.2 set inside)⟩
    rcases List.mem_append.1 inside with old | new
    · exact ih.1 other old
    · rw [List.mem_singleton.1 new]
      exact apart
  | addEntitySet _ done ih =>
    obtain ⟨type, registered, rfl⟩ := SchemaBuilder.eq_of_addEntitySet done
    refine ⟨ih.1, fun set inside => ?_⟩
    rcases Keyed.mem_put _ inside with rfl | old
    · exact registered
    · exact ih.2 set old
  | annotate _ done ih =>
    obtain ⟨resolved, -, result⟩ := Result.bind_eq_ok done
    cases result
    exact ih

namespace Schema

variable {schema : Schema}

theorem IsBuilt.consistent (built : schema.IsBuilt) :
    (∀ type ∈ schema.types, type.NamesApart) ∧
      ∀ set ∈ schema.entitySets, set.type ∈ schema.types := by
  obtain ⟨builder, reached, done⟩ := built
  obtain ⟨_, -, result⟩ := Result.bind_eq_ok done
  cases result
  exact reached.consistent

theorem mem_of_target? {property : Property} {target : ComplexType}
    (leads : schema.target? property = some target) : target ∈ schema.types := by
  obtain ⟨binding, -, known⟩ := Option.bind_eq_some_iff.1 leads
  exact SchemaBuilder.mem_of_type? known

/-- Types of which records are read without what they are related to. -/
theorem IsBuilt.readsAlone (built : schema.IsBuilt)
    (leadsNowhere : ∀ type ∈ schema.types, type.isUntyped = true → type.navigationProperties = [])
    {type : ComplexType} (registered : type ∈ schema.types) : type.ReadsAlone :=
  ⟨built.consistent.1 type registered, leadsNowhere type registered⟩

/-- What a store finds are aligned entities of the type that the property leads to. -/
theorem ensures_leadsTo {store : RecordStore}
    (alone : ∀ type ∈ store.schema.types, type.ReadsAlone) (parent : ComplexValue)
    (property : Property) (request : NavigationRequest) :
    (store.resolve parent property request).Ensures Error.IsNoRefusal
      (store.schema.LeadsTo property) := by
  have resolved := RecordStore.ensures_resolve
    (fun _ _ known => alone _ (SchemaBuilder.mem_of_type? known)) parent property request
  refine resolved.imp fun found? all inner held => ?_
  obtain ⟨leads, unrelated⟩ := all inner held
  exact ⟨leads, unrelated.isAligned (alone _ (mem_of_target? leads)).apart⟩

/-- A request that is validated on the type of an entity set is not refused when an entity of the
set is prepared for it, whatever is loaded before, unless the rule of a generated property reports
the refusal. No type of the name of the untyped one may lead anywhere. -/
theorem IsBuilt.prepares_validated (built : schema.IsBuilt)
    (leadsNowhere : ∀ type ∈ schema.types, type.isUntyped = true → type.navigationProperties = [])
    {set : EntitySet} (registered : set ∈ schema.entitySets) {context : RequestContext}
    (valid : context.validate schema set.type = .ok ()) {store : RecordStore}
    (stores : store.schema = schema) {record : Json} {entity : ComplexValue} {early middle : Supply}
    (read : (ComplexValue.entityOfRecord set.type set.name record).run early =
      (.ok entity, middle))
    (generators : Generators) {paths : List PropertyPath} {loaded : ComplexValue}
    {before after : Supply}
    (loads : Emitter.loadPaths ⟨generators, some store.resolve⟩ paths entity before =
      ((loaded, .ok ()), after)) (supply : Supply) :
    (Emitter.prepare ⟨generators, some store.resolve⟩ context loaded supply).1.2 = .ok () ∨
      ∃ error, (Emitter.prepare ⟨generators, some store.resolve⟩ context loaded supply).1.2 =
          .error error ∧
        (error.isRefusal = false ∨ ∃ rule container supply rest,
          (generators rule container).run supply = (.error error, rest)) := by
  subst stores
  let emitter : Emitter := ⟨generators, some store.resolve⟩
  have alone : ∀ type ∈ store.schema.types, type.ReadsAlone :=
    fun type => built.readsAlone leadsNowhere
  have entityAligned : entity.IsAlignedOf store.schema set.type := by
    have typed := alone _ (built.consistent.2 set registered)
    obtain ⟨same, unrelated⟩ := (ComplexValue.ensures_entityOfRecord typed set.name record).ok read
    exact ⟨same, unrelated.isAligned (same ▸ typed.apart)⟩
  have loadedAligned : loaded.IsAlignedOf store.schema set.type := by
    have keeps : Edit.Keeps (fun _ => True) (ComplexValue.IsAlignedOf store.schema set.type)
        (emitter.loadPaths paths) := by
      refine .inTurn fun edit inside => ?_
      obtain ⟨path, -, rfl⟩ := List.mem_map.1 inside
      exact Emitter.keeps_loadPath rfl (fun property parent request =>
        (ensures_leadsTo alone parent property request).imp_error fun _ _ => trivial) _
    exact (keeps entity entityAligned).ok (Edit.toBuild_of_ok loads)
  have keeps : Edit.Keeps emitter.generators.MayReport
      (ComplexValue.IsAlignedOf store.schema set.type)
      (emitter.prepareWithin Emitter.maxDepth context) :=
    Emitter.keeps_prepareWithin rfl (fun property parent request =>
      (ensures_leadsTo alone parent property request).imp_error fun _ => .inl) _ valid
  rcases ran : emitter.prepare context loaded supply with ⟨⟨prepared, outcome⟩, rest⟩
  cases outcome with
  | ok done => exact .inl rfl
  | error error =>
    exact .inr ⟨error, rfl, (keeps loaded loadedAligned).error (Edit.toBuild_of_error ran)⟩

/-- Flights with a pilot each, and pilots with a licence each. The type of the flights may have any
name. -/
def keyed (name : String) (others : List Property) : ComplexType :=
  ⟨name, true, some "id", false, true, .declared "id" (.primitive .string) :: others⟩

def pilotType : ComplexType :=
  keyed "air.Pilot" [.navigation "licence" ⟨"air.Licence", false, none, true⟩]

def flightType (name : String) : ComplexType :=
  keyed name [.generated "label" (.primitive .string) "label",
    .navigation "pilot" ⟨"air.Pilot", false, some "pilots", true⟩]

def fleetTypes (name : String) : List ComplexType :=
  [keyed "air.Licence" [], pilotType, flightType name]

def fleet (name : String) : Schema :=
  ⟨"air", fleetTypes name, [⟨"pilots", pilotType⟩, ⟨"flights", flightType name⟩], []⟩

theorem isBuilt_fleet {name : String} (named : name = "air.Flight" ∨ name = untypedName) :
    (fleet name).IsBuilt := by
  have licences : SchemaBuilder.Reachable ⟨"air", [keyed "air.Licence" []], [], []⟩ :=
    @SchemaBuilder.Reachable.addType _ _ (keyed "air.Licence" []) (.start "air") (by decide) rfl
  have pilots : SchemaBuilder.Reachable ⟨"air", [keyed "air.Licence" [], pilotType], [], []⟩ :=
    @SchemaBuilder.Reachable.addType _ _ pilotType licences (by decide) rfl
  have flights : SchemaBuilder.Reachable ⟨"air", fleetTypes name, [], []⟩ :=
    @SchemaBuilder.Reachable.addType _ _ (flightType name) pilots
      (by rcases named with rfl | rfl <;> decide) (by rcases named with rfl | rfl <;> rfl)
  have opened : SchemaBuilder.Reachable ⟨"air", fleetTypes name, [⟨"pilots", pilotType⟩], []⟩ :=
    @SchemaBuilder.Reachable.addEntitySet _ _ "pilots" "air.Pilot" flights
      (by rcases named with rfl | rfl <;> rfl)
  exact ⟨(fleet name).contents, @SchemaBuilder.Reachable.addEntitySet _ _ "flights" name opened
    (by rcases named with rfl | rfl <;> rfl), by rcases named with rfl | rfl <;> rfl⟩

def flightRecord : Json :=
  .object [("id", .string "BA1"), ("pilot", .object [("id", .string "7")])]

def fleetStore (name : String) : RecordStore :=
  ⟨fleet name, [("flights", [flightRecord]),
    ("pilots", [.object [("id", .string "7"), ("licence", .object [("id", .string "A")])]])]⟩

/-- The pilot with the licence. -/
def withLicence : RequestContext :=
  RequestContext.default.addExpand
    ⟨"pilot", RequestContext.default.addExpand ⟨"licence", .default⟩⟩

def readFlight (name : String) : Build ComplexValue :=
  ComplexValue.entityOfRecord (flightType name) "flights" flightRecord

/-- Preparing with the records of the store, and with one rule for everything that is computed. -/
def fleetEmitter (name : String) (rule : Build (Option Value)) : Emitter :=
  ⟨fun _ _ => rule, some (fleetStore name).resolve⟩

def identified (number : Nat) (type : ComplexType) (set key : String) : ComplexValue :=
  (⟨⟨number⟩, type, [], none, some set, false, []⟩ : ComplexValue).bind
    (.declared "id" (.primitive .string)) (some (.primitive (.string key)))

/-- The flight as it is read, and with its pilot loaded. -/
def flight : ComplexValue := identified 0 (flightType "air.Flight") "flights" "BA1"

def pilotedFlight : ComplexValue :=
  flight.bind (.navigation "pilot" ⟨"air.Pilot", false, some "pilots", true⟩)
    (some (.complex (identified 1 pilotType "pilots" "7")))

theorem IsBuilt.prepares_validated_fleet :
    (fleet "air.Flight").IsBuilt ∧
      (∀ type ∈ (fleet "air.Flight").types,
        type.isUntyped = true → type.navigationProperties = []) ∧
      ⟨"flights", flightType "air.Flight"⟩ ∈ (fleet "air.Flight").entitySets ∧
      withLicence.validate (fleet "air.Flight") (flightType "air.Flight") = .ok () ∧
      (fleetStore "air.Flight").schema = fleet "air.Flight" ∧
      (readFlight "air.Flight").run ⟨0⟩ = (.ok flight, ⟨1⟩) ∧
      (fleetEmitter "air.Flight" (pure none)).loadPaths [⟨["pilot"]⟩] flight ⟨1⟩ =
        ((pilotedFlight, .ok ()), ⟨2⟩) ∧
      (((fleetEmitter "air.Flight" (pure none)).prepare withLicence pilotedFlight ⟨2⟩).1.2 =
          .ok () ∨
        ∃ error, ((fleetEmitter "air.Flight" (pure none)).prepare withLicence pilotedFlight
            ⟨2⟩).1.2 = .error error ∧ error.isRefusal = false) := by
  have built : (fleet "air.Flight").IsBuilt := isBuilt_fleet (.inl rfl)
  have leadsNowhere : ∀ type ∈ (fleet "air.Flight").types,
      type.isUntyped = true → type.navigationProperties = [] := by
    intro type inside untyped
    have named : type.name ∈ (fleetTypes "air.Flight").map ComplexType.name :=
      List.mem_map_of_mem inside
    rw [beq_iff_eq.1 untyped] at named
    exact absurd named (by decide)
  have registered : ⟨"flights", flightType "air.Flight"⟩ ∈ (fleet "air.Flight").entitySets :=
    List.mem_cons_of_mem _ List.mem_cons_self
  have valid : withLicence.validate (fleet "air.Flight") (flightType "air.Flight") = .ok () := rfl
  have read : (readFlight "air.Flight").run ⟨0⟩ = (.ok flight, ⟨1⟩) := rfl
  have loads : (fleetEmitter "air.Flight" (pure none)).loadPaths [⟨["pilot"]⟩] flight ⟨1⟩ =
    ((pilotedFlight, .ok ()), ⟨2⟩) := rfl
  refine ⟨built, leadsNowhere, registered, valid, rfl, read, loads, ?_⟩
  rcases built.prepares_validated leadsNowhere registered valid rfl read _ loads ⟨2⟩ with
    done | ⟨error, failed, spared | ⟨rule, container, supply, rest, reported⟩⟩
  · exact .inl done
  · exact .inr ⟨error, failed, spared⟩
  · cases reported

/-- Where the type of the flights has the name of the untyped one, the pilot comes with its flight
and is of no type that leads to a licence. And what a rule reports, preparing reports. -/
theorem refuses_validated_fleet :
    ((fleet untypedName).IsBuilt ∧
      ⟨"flights", flightType untypedName⟩ ∈ (fleet untypedName).entitySets ∧
      withLicence.validate (fleet untypedName) (flightType untypedName) = .ok () ∧
      ∃ entity rest, (readFlight untypedName).run ⟨0⟩ = (.ok entity, rest) ∧
        ((fleetEmitter untypedName (pure none)).prepare withLicence entity rest).1.2 =
          .error (.unknownExpandPath "licence")) ∧
    ((fleet "air.Flight").IsBuilt ∧
      ⟨"flights", flightType "air.Flight"⟩ ∈ (fleet "air.Flight").entitySets ∧
      withLicence.validate (fleet "air.Flight") (flightType "air.Flight") = .ok () ∧
      ∃ entity rest, (readFlight "air.Flight").run ⟨0⟩ = (.ok entity, rest) ∧
        ((fleetEmitter "air.Flight" (throw (.invalidSelect "label"))).prepare withLicence entity
          rest).1.2 = .error (.invalidSelect "label")) :=
  ⟨⟨isBuilt_fleet (.inr rfl), List.mem_cons_of_mem _ List.mem_cons_self, rfl, _, _, rfl,
      by decide +kernel⟩,
    isBuilt_fleet (.inl rfl), List.mem_cons_of_mem _ List.mem_cons_self, rfl, _, _, rfl,
    by decide +kernel⟩

end Schema

end EdmQuery
