import EdmQuery.Proofs.LaidOutValues
import EdmQuery.Proofs.Rearrangement
import EdmQuery.Proofs.Resolving
import EdmQuery.Proofs.Selecting
import Mathlib.Data.List.Nodup

set_option autoImplicit false

/- Responses to queries. The object that is written for a record does not depend on how the record
was found: filters and sort keys load related entities, but what is written of an entity follows
from the record, the selection, the expansions and the level alone. -/
namespace EdmQuery

namespace Emitter

variable {emitter : Emitter} {before after : ComplexValue}

theorem Binds.id_eq {property : Property} (binds : emitter.Binds property before after) :
    after.id = before.id := by
  rcases binds.eq_or_bind with ⟨-, rfl⟩ | ⟨-, -, _, _, -, rfl⟩ <;> rfl

theorem Enriches.id_eq (step : emitter.Enriches before after) : after.id = before.id := by
  rcases step with ⟨path, loads⟩ | ⟨request, expands⟩
  · cases path with
    | nil =>
      obtain ⟨supply, rest, done⟩ := loads
      cases done
      rfl
    | cons name path =>
      rcases loads.cases with ⟨-, rfl⟩ | ⟨property, bound, -, -, binds, descends⟩
      · rfl
      · obtain ⟨bindings, rfl, -⟩ := descends
        exact binds.id_eq
  · cases expands <;> rfl

theorem id_eq_of_enriches (steps : Relation.ReflTransGen emitter.Enriches before after) :
    after.id = before.id := by
  induction steps with
  | refl => rfl
  | tail _ step ih => exact step.id_eq.trans ih

theorem Prepares.id_eq {resolver : NavigationResolver}
    (resolves : emitter.resolver? = some resolver) {depth : Nat} {context : RequestContext}
    (stores : before.type.StoresAll) (prepares : emitter.Prepares depth context before after) :
    after.id = before.id := by
  obtain ⟨below, computed, expanded, bindings, early, middle, late, rest, same, generated,
    expansion, rfl, each⟩ := prepares.cases
  obtain rfl := generate_of_storesAll stores generated
  show expanded.id = computed.id
  exact id_eq_of_enriches (enriches_of_expansions resolves expansion).1

end Emitter

namespace Service

variable {service : Service} {set : String} {options : QueryOptions} {layout : Layout}
  {output : Output} {supply : Supply}

/-- The document of a response with several entities. -/
def collectionTree (set : String) (request : RequestContext) (entities : List ComplexValue) :
    Json :=
  .object ((if request.level = .none then []
      else [("@odata.context", .string (contextUrl set request false))]) ++
    [("value", .array (entities.map (ComplexValue.tree request.level request)))])

/-- Members and several entities behind them are written as one object. -/
theorem writes_entities (members : Json.Members) (request : RequestContext)
    (entities : List ComplexValue) (layout : Layout) :
    layout.Writes (.openObject :: (Token.separated (members.map Token.pair ++
        [.key "value" :: ComplexValue.representations request entities]) ++ [.closeObject]))
      layout.beginValue.1 (String.join layout.beginValue.2 ++
        (Json.object (members ++ [("value",
          Json.array (entities.map (ComplexValue.tree request.level request)))])).laidOut
            layout.isPretty layout.level) := by
  have opens : ∀ other : Layout, other.step .openObject = other.openContainer "\x7b" :=
    fun _ => rfl
  have closes : ∀ other : Layout, other.step .closeObject = other.closeContainer "\x7d" :=
    fun _ => rfl
  have value {isPretty : Bool} {outer : List Bool} : Layout.WritesItem isPretty outer
      (.key "value" :: ComplexValue.representations request entities)
      (Json.laidOutMember isPretty (outer.length + 1) ("value",
        Json.array (entities.map (ComplexValue.tree request.level request)))) := by
    have begun : (⟨isPretty, true :: outer, true⟩ : Layout).beginValue =
        (Layout.inside isPretty true outer, []) := rfl
    have items := ComplexValue.writes_representations request entities
      ⟨isPretty, true :: outer, true⟩
    rw [begun, String.join_nil, String.empty_append] at items
    exact Layout.writesItem_member items
  have written := Layout.writes_container opens closes layout
    (List.rel_append (Layout.writesItem_pairs members) (.cons value .nil))
  rw [layout.beginValue_eq.2] at written
  rw [Json.laidOut_object, List.map_append]
  exact written

/-- The tokens of a response write its document as it is laid out at its place. -/
theorem writes_collectionTokens (set : String) (request : RequestContext)
    (entities : List ComplexValue) (layout : Layout) :
    layout.Writes (collectionTokens set request entities) layout.beginValue.1
      (String.join layout.beginValue.2 ++
        (collectionTree set request entities).laidOut layout.isPretty layout.level) := by
  rw [collectionTokens, collectionTree]
  split
  · exact writes_entities [] request entities layout
  · exact writes_entities [_] request entities layout

theorem entities_run {read : List ComplexValue} {rest : Supply}
    (done : (service.entities set).run supply = (.ok read, rest)) :
    ∃ registered records, service.schema.requireEntitySet set = .ok registered ∧
      service.source.records set = .ok records ∧
        (records.mapM (ComplexValue.entityOfRecord registered.type set)).run supply =
          (.ok read, rest) := by
  obtain ⟨registered, first, registers, done⟩ := Build.bind_eq_ok done
  obtain ⟨records, second, finds, done⟩ := Build.bind_eq_ok done
  have start : second = supply :=
    (congrArg Prod.snd finds).symm.trans (congrArg Prod.snd registers).symm
  rw [start] at done
  exact ⟨registered, records, congrArg Prod.fst registers, congrArg Prod.fst finds, done⟩

/-- Reading twice gives twins, place by place. -/
theorem alike_entities (service : Service) (set : String) :
    Build.Alike (List.map ComplexValue.anonymous) (service.entities set)
      (service.entities set) := by
  refine Build.Alike.ofResult fun registered => Build.Alike.ofResult fun records => ?_
  exact Build.alike_mapM (ComplexValue.alike_entityOfRecord registered.type set) records

theorem nodup_map_id {containers : List ComplexValue}
    (distinct : (identities (containers.flatMap ComplexValue.containers)).Nodup) :
    (containers.map ComplexValue.id).Nodup := by
  refine distinct.sublist ?_
  clear distinct
  induction containers with
  | nil => exact .slnil
  | cons container rest ih =>
    rw [List.map_cons, List.flatMap_cons, ComplexValue.containers_eq, List.cons_append,
      identities_cons, identities_append]
    exact (ih.trans (List.sublist_append_right _ _)).cons_cons _

/-- An entity was read from a record. -/
def ReadFrom (type : ComplexType) (set : String) (record : Json) (entity : ComplexValue) : Prop :=
  ∃ early late, (ComplexValue.entityOfRecord type set record).run early = (.ok entity, late)

/-- One entity is read for each record. The entities have identities of their own, and nothing is
computed in them. -/
theorem read_entities (compiled : service.schema.IsCompiled) {read : List ComplexValue}
    {rest : Supply} (done : (service.entities set).run supply = (.ok read, rest)) :
    (∃ registered records, service.schema.requireEntitySet set = .ok registered ∧
      service.source.records set = .ok records ∧
        List.Forall₂ (ReadFrom registered.type set) records read) ∧
      (read.map ComplexValue.id).Nodup ∧ ∀ entity ∈ read, entity.StoresAll := by
  obtain ⟨registered, records, found, source, reads⟩ := entities_run done
  have stores := compiled.storesAll_entitySet found
  have makes := Build.makes_mapM (ComplexValue.makes_entityOfRecord
    ComplexType.keptByReading_storesAll ComplexType.hereditary_storesAll
    (fun _ _ plain => plain) stores set) records supply
  rw [reads] at makes
  obtain ⟨all, draws⟩ := makes
  have covers : supply.Covers [] := fun id => Nat.zero_le _
  refine ⟨⟨registered, records, found, source, Build.forall₂_of_mapM reads⟩,
    nodup_map_id (covers.draws draws).nodup, fun entity inside inner below => ?_⟩
  exact all inner (List.mem_flatMap.2 ⟨entity, inside, below⟩)

/-- A container stands for the record at a place if it is the one that was made for it. -/
def StandsFor (read : List ComplexValue) (place : Nat) (container : ComplexValue) : Prop :=
  ∃ entity, read[place]? = some entity ∧ container.id = entity.id

/-- A query was answered: an entity was read for each record of the set, each under an identity of
its own, some of them were prepared as the request asks for, and a document of these was written. -/
structure Answered (service : Service) (set : String) (options : QueryOptions) (layout : Layout)
    (output : Output) (supply : Supply) (request : RequestContext)
    (read shown : List ComplexValue) : Prop where
  reads : ∃ rest, (service.entities set).run supply = (.ok read, rest)
  records : ∃ registered records, service.schema.requireEntitySet set = .ok registered ∧
    service.source.records set = .ok records ∧
      List.Forall₂ (ReadFrom registered.type set) records read
  distinct : (read.map ComplexValue.id).Nodup
  prepares : ∃ rest, (service.prepared set options).run supply = (.ok (request, shown), rest)
  places : ∀ entity ∈ shown, ∃ place, StandsFor read place entity
  written : (service.query set options layout output supply).1.1 =
    (output.writeTokens layout (collectionTokens set request shown)).1
  document : ∀ place : Layout, place.Writes (collectionTokens set request shown) place.beginValue.1
    (String.join place.beginValue.2 ++
      (collectionTree set request shown).laidOut place.isPretty place.level)

/-- What a query shows was read, loaded and prepared. -/
def Shows (service : Service) (request : RequestContext) (read : List ComplexValue)
    (entity : ComplexValue) : Prop :=
  ∃ origin ∈ read, ∃ between,
    Relation.ReflTransGen service.emitter.Enriches origin between ∧
      service.emitter.Prepares Emitter.maxDepth request between entity

theorem query_of_prepared {request : RequestContext} {shown : List ComplexValue} {rest : Supply}
    (done : (service.prepared set options).run supply = (.ok (request, shown), rest)) :
    (service.query set options layout output supply).1 =
      ((output.writeTokens layout (collectionTokens set request shown)).1,
        (output.writeTokens layout (collectionTokens set request shown)).2.map
          fun _ => shown.length) := by
  simp only [query, bind, StateT.bind, done]
  rfl

theorem exists_prepared {count : Nat}
    (done : (service.query set options layout output supply).1.2 = .ok count) :
    ∃ request shown rest,
      (service.prepared set options).run supply = (.ok (request, shown), rest) := by
  rcases ran : (service.prepared set options).run supply with ⟨outcome, rest⟩
  cases outcome with
  | error error =>
    simp only [query, bind, StateT.bind, ran] at done
    cases done
  | ok prepared => exact ⟨prepared.1, prepared.2, rest, rfl⟩

theorem enriches_of_loadPaths {paths : List PropertyPath} {before after : ComplexValue}
    {early late : Supply}
    (done : service.loadPaths paths before early = ((after, .ok ()), late)) :
    Relation.ReflTransGen service.emitter.Enriches before after := by
  refine Edit.relates_of_inTurn (fun _ => .refl) (fun _ _ _ first second => first.trans second)
    (fun edit inside one other start rest ran => ?_) done
  obtain ⟨path, -, rfl⟩ := List.mem_map.1 inside
  exact .single (.loads path.segments ⟨start, rest, ran⟩)

theorem shows_of_prepared {request : RequestContext} {shown : List ComplexValue} {rest : Supply}
    (done : (service.prepared set options).run supply = (.ok (request, shown), rest)) :
    options.compile.map Query.request = .ok request ∧
      ∃ read middle, (service.entities set).run supply = (.ok read, middle) ∧
        ∀ entity ∈ shown, service.Shows request read entity := by
  obtain ⟨query, first, compiles, done⟩ := Build.bind_eq_ok done
  obtain ⟨_, second, validates, done⟩ := Build.bind_eq_ok done
  obtain ⟨selected, third, selects, done⟩ := Build.bind_eq_ok done
  obtain ⟨prepared, fourth, prepares, result⟩ := Build.bind_eq_ok done
  cases result
  have start : second = supply :=
    (congrArg Prod.snd validates).symm.trans (congrArg Prod.snd compiles).symm
  rw [start] at selects
  have compiled : options.compile = .ok query := congrArg Prod.fst compiles
  obtain ⟨read, middle, reads, loaded⟩ := exists_of_select selects
  refine ⟨by rw [compiled]; rfl, read, middle, reads, fun entity inside => ?_⟩
  obtain ⟨between, among, early, late, ran⟩ :=
    exists_of_forall₂ (Build.forall₂_of_mapM prepares) inside
  obtain ⟨origin, present, begins, ends, loads⟩ := loaded between among
  exact ⟨origin, present, between, enriches_of_loadPaths loads, early, late,
    Edit.run_of_toBuild ran⟩

end Service

/-- What is requested of a response follows from three options. -/
theorem QueryOptions.request_congr {first second : QueryOptions} {one other : RequestContext}
    (select : first.select? = second.select?) (expand : first.expand? = second.expand?)
    (level : first.level = second.level) (compiled : first.compile.map Query.request = .ok one)
    (compiledOther : second.compile.map Query.request = .ok other) : one = other := by
  have request : ∀ {options : QueryOptions} {context : RequestContext},
      options.compile.map Query.request = .ok context →
        (RequestContext.ofOptions options.select? options.expand?).map
          (·.withLevel options.level) = .ok context := by
    intro options context done
    cases compiles : options.compile with
    | error error =>
      rw [compiles] at done
      cases done
    | ok query =>
      rw [compiles] at done
      obtain ⟨filter?, -, compiles⟩ := Result.bind_eq_ok compiles
      obtain ⟨search?, -, compiles⟩ := Result.bind_eq_ok compiles
      obtain ⟨orderBy, -, compiles⟩ := Result.bind_eq_ok compiles
      obtain ⟨request, reads, result⟩ := Result.bind_eq_ok compiles
      cases result
      rw [reads]
      exact done
  have same := request compiled
  rw [select, expand, level, request compiledOther] at same
  exact (Except.ok.inj same).symm

namespace Service

variable {service : Service} {store : RecordStore} {set : String}

/-- What is shown for an entity that was read is that entity, enriched and prepared. -/
theorem Shows.enriched {resolver : NavigationResolver}
    (resolves : service.emitter.resolver? = some resolver) (byKey : resolver.IsByKey)
    {request : RequestContext} {read : List ComplexValue}
    (stores : ∀ entity ∈ read, entity.StoresAll) {entity : ComplexValue}
    (shows : service.Shows request read entity) :
    ∃ origin ∈ read, entity.id = origin.id ∧ ∃ between,
      service.emitter.Enriched origin between ∧
        service.emitter.Prepares Emitter.maxDepth request between entity := by
  obtain ⟨origin, inside, between, steps, prepares⟩ := shows
  have enriched := (Emitter.enriched_of_twins (stores origin inside) rfl).trans steps
  have typed : between.type = origin.type := (enriched.parts resolves byKey).type_eq
  have plain : between.type.StoresAll :=
    typed ▸ stores origin inside origin origin.mem_containers_self
  exact ⟨origin, inside, (prepares.id_eq resolves plain).trans (Emitter.id_eq_of_enriches steps),
    between, enriched, prepares⟩

/-- A container that stands for a place is made from what was read there. -/
theorem StandsFor.origin_eq {read : List ComplexValue} {place : Nat}
    {container origin : ComplexValue} (stands : StandsFor read place container)
    (distinct : (read.map ComplexValue.id).Nodup) (inside : origin ∈ read)
    (same : container.id = origin.id) : read[place]? = some origin := by
  obtain ⟨entity, found, named⟩ := stands
  have equal : entity = origin :=
    List.inj_on_of_nodup_map distinct (List.mem_of_getElem? found) inside (named.symm.trans same)
  rw [found, equal]

variable {options : QueryOptions} {layout : Layout} {output : Output} {supply : Supply}

theorem answered_of_query (compiled : service.schema.IsCompiled) {resolver : NavigationResolver}
    (resolves : service.emitter.resolver? = some resolver) (byKey : resolver.IsByKey) {count : Nat}
    (done : (service.query set options layout output supply).1.2 = .ok count) :
    ∃ request read shown, service.Answered set options layout output supply request read shown ∧
      options.compile.map Query.request = .ok request ∧ (∀ entity ∈ read, entity.StoresAll) ∧
        ∀ entity ∈ shown, service.Shows request read entity := by
  obtain ⟨request, shown, rest, prepares⟩ := exists_prepared done
  obtain ⟨requested, read, middle, reads, shows⟩ := shows_of_prepared prepares
  obtain ⟨records, distinct, stores⟩ := read_entities compiled reads
  refine ⟨request, read, shown, ⟨⟨middle, reads⟩, records, distinct, ⟨rest, prepares⟩,
    fun entity inside => ?_, by rw [query_of_prepared prepares],
    writes_collectionTokens set request shown⟩, requested, stores, shows⟩
  obtain ⟨origin, among, same, -⟩ := (shows entity inside).enriched resolves byKey stores
  obtain ⟨place, found⟩ := List.getElem?_of_mem among
  exact ⟨place, origin, found, same⟩

/-- The objects that two queries write for the same record differ in the order of their members at
most, if the queries select and expand the same at the same level. -/
theorem rearranged_of_queries (stored : service.source = store.toSource)
    (compiled : service.schema.IsCompiled) (compiledStore : store.schema.IsCompiled)
    {first second : QueryOptions} (select : first.select? = second.select?)
    (expand : first.expand? = second.expand?) (level : first.level = second.level)
    {layout layout' : Layout} {output output' : Output} {supply supply' : Supply}
    {count count' : Nat} (one : (service.query set first layout output supply).1.2 = .ok count)
    (other : (service.query set second layout' output' supply').1.2 = .ok count') :
    ∃ request read shown read' shown',
      service.Answered set first layout output supply request read shown ∧
        service.Answered set second layout' output' supply' request read' shown' ∧
          ∀ place, ∀ entity ∈ shown, ∀ entity' ∈ shown',
            StandsFor read place entity → StandsFor read' place entity' →
              (entity.tree request.level request).Rearranged
                (entity'.tree request.level request) := by
  have resolves : service.emitter.resolver? = some store.resolve := by
    rw [emitter, stored]
    rfl
  have byKey := RecordStore.isByKey_resolve compiledStore
  obtain ⟨request, read, shown, answered, asked, stores, shows⟩ :=
    answered_of_query compiled resolves byKey one
  obtain ⟨request', read', shown', answered', asked', stores', shows'⟩ :=
    answered_of_query compiled resolves byKey other
  obtain rfl := QueryOptions.request_congr select expand level asked asked'
  refine ⟨request, read, shown, read', shown', answered, answered', ?_⟩
  intro place entity inside entity' inside' stands stands'
  obtain ⟨origin, among, same, between, enriched, prepares⟩ :=
    (shows entity inside).enriched resolves byKey stores
  obtain ⟨origin', among', same', between', enriched', prepares'⟩ :=
    (shows' entity' inside').enriched resolves byKey stores'
  have found := stands.origin_eq answered.distinct among same
  have found' := stands'.origin_eq answered'.distinct among' same'
  -- The records are the same in both runs, so what was read at the place are twins.
  obtain ⟨rest, reads⟩ := answered.reads
  obtain ⟨rest', reads'⟩ := answered'.reads
  have alike := service.alike_entities set supply supply'
  rw [reads, reads'] at alike
  have twins : origin.Twins origin' := by
    have both := congrArg (fun entities => entities[place]?) (Except.ok.inj alike)
    rw [List.getElem?_map, List.getElem?_map, found, found'] at both
    exact Option.some.inj both
  exact Emitter.writtenAlike_of_cognate resolves byKey request.level
    ⟨origin, enriched, enriched'.of_twins (stores origin among) twins⟩ prepares prepares'

/-- Flights with a crew and a captain. -/
def rosterDocument : SchemaDocument where
  namespaceName := "Air"
  complexTypes := []
  entityTypes := [
    ⟨"Pilot", some "name", false, [⟨"name", "Edm.String", false⟩], []⟩,
    ⟨"Flight", some "id", false, [⟨"id", "Edm.String", false⟩],
      [⟨"captain", "Pilot", none, true⟩, ⟨"crew", "Collection(Pilot)", none, true⟩]⟩]
  entitySets := [⟨"Flights", "Flight"⟩]
  annotations := []

def rosterPilot : ComplexType :=
  ⟨"Air.Pilot", true, some "name", false, true, [⟨"name", .primitive .string, false, .declared⟩]⟩

def rosterFlight : ComplexType :=
  ⟨"Air.Flight", true, some "id", false, true, [⟨"id", .primitive .string, false, .declared⟩,
    .navigation "captain" ⟨"Air.Pilot", false, none, true⟩,
    .navigation "crew" ⟨"Air.Pilot", true, none, true⟩]⟩

def rosterSchema : Schema :=
  ⟨"Air", [rosterPilot, rosterFlight], [⟨"Flights", rosterFlight⟩], []⟩

def rosterRecord (id captain other : String) : Json :=
  .object [("id", .string id), ("captain", .object [("name", .string captain)]),
    ("crew", .array [.object [("name", .string captain)], .object [("name", .string other)]])]

def rosterStore : RecordStore :=
  ⟨rosterSchema, [("Flights",
    [rosterRecord "BA1" "Amelia" "Bessie", rosterRecord "BA2" "Harriet" "Amelia"])]⟩

def roster : Service :=
  ⟨rosterSchema, rosterStore.toSource, .empty, fun _ _ => pure none, default⟩

theorem isCompiled_rosterSchema : rosterSchema.IsCompiled := ⟨rosterDocument, ⟨0⟩, ⟨0⟩, rfl⟩

/-- A query whose entities are prepared is answered where the output has no limit. -/
theorem query_unlimited {shown : Nat}
    (prepares : ((service.prepared set options).run supply).1.toOption.map
      (fun prepared => prepared.2.length) = some shown) :
    (service.query set options .compact .unlimited supply).1.2 = .ok shown := by
  rcases ran : (service.prepared set options).run supply with ⟨outcome, rest⟩
  rw [ran] at prepares
  cases outcome with
  | error error => cases prepares
  | ok prepared =>
    rw [query_of_prepared ran, Output.writeTokens_of_unlimited _ _ rfl, ← Option.some.inj prepares]
    rfl

def byCrew : QueryOptions :=
  { QueryOptions.unset with
    filter? := some "crew/any(c:c/name eq 'Bessie')"
    expand? := some "captain,crew" }

def byCaptain : QueryOptions :=
  { QueryOptions.unset with
    orderBy? := some "captain/name desc"
    expand? := some "captain,crew" }

theorem query_byCrew : (roster.query "Flights" byCrew .compact .unlimited ⟨0⟩).1.2 = .ok 1 :=
  query_unlimited (by decide +kernel)

theorem query_byCaptain :
    (roster.query "Flights" byCaptain .compact .unlimited ⟨0⟩).1.2 = .ok 2 :=
  query_unlimited (by decide +kernel)

theorem rearranged_of_queries_roster :
    roster.source = rosterStore.toSource ∧ roster.schema.IsCompiled ∧
      rosterStore.schema.IsCompiled ∧ byCrew.select? = byCaptain.select? ∧
      byCrew.expand? = byCaptain.expand? ∧ byCrew.level = byCaptain.level ∧
      (roster.query "Flights" byCrew .compact .unlimited ⟨0⟩).1.2 = .ok 1 ∧
      (roster.query "Flights" byCaptain .compact .unlimited ⟨0⟩).1.2 = .ok 2 ∧
      ∃ request read shown read' shown',
        roster.Answered "Flights" byCrew .compact .unlimited ⟨0⟩ request read shown ∧
          roster.Answered "Flights" byCaptain .compact .unlimited ⟨0⟩ request read' shown' ∧
            ∀ place, ∀ entity ∈ shown, ∀ entity' ∈ shown',
              StandsFor read place entity → StandsFor read' place entity' →
                (entity.tree request.level request).Rearranged
                  (entity'.tree request.level request) :=
  ⟨rfl, isCompiled_rosterSchema, isCompiled_rosterSchema, rfl, rfl, rfl, query_byCrew,
    query_byCaptain, @rearranged_of_queries roster rosterStore "Flights" rfl isCompiled_rosterSchema
      isCompiled_rosterSchema byCrew byCaptain rfl rfl rfl .compact .compact .unlimited .unlimited
      ⟨0⟩ ⟨0⟩ 1 2 query_byCrew query_byCaptain⟩

end Service

end EdmQuery
