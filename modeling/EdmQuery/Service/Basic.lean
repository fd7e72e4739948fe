import EdmQuery.Evaluation.Selection
import EdmQuery.Query.ReferencedPaths
import EdmQuery.Service.Options
import EdmQuery.Service.RecordStore
import EdmQuery.Value.Entity

set_option autoImplicit false

/- A service answers requests on the entity sets of a schema. A query builds the entities of a set,
loads the related entities that its expressions read, filters, searches, sorts and pages in that
order, and writes what is left. Everything that can fail but the output does so before the first
write. -/
namespace EdmQuery

namespace Query

/-- The paths that the expressions of a query read. -/
def paths (query : Query) : List PropertyPath :=
  Node.distinctPaths ((query.filter?.toList ++ query.orderBy.map OrderByItem.key).flatMap
    Node.referencedPaths)

/-- The items that are left after skipping and cutting. -/
def page {α : Type} (query : Query) (items : List α) : List α :=
  let rest := items.drop (query.skip?.getD 0)
  match query.top? with
  | some count => rest.take count
  | none => rest

end Query

/-- The place of a response's description: the set, what is selected, and whether it is one entity
of the set. -/
def contextUrl (set : String) (request : RequestContext) (isEntity : Bool) : String :=
  let selection := match request.select? with
    | some names => "(" ++ ",".intercalate names ++ ")"
    | none => ""
  "$metadata#" ++ set ++ selection ++ (if isEntity then "/$entity" else "")

structure Service where
  schema : Schema
  source : RecordSource
  functions : FunctionRegistry
  generators : Generators
  now : DateTimeOffset

namespace Service

def emitter (service : Service) : Emitter := ⟨service.generators, service.source.resolver?⟩

/-- All entities of a set, in the order of the source. -/
def entities (service : Service) (set : String) : Build (List ComplexValue) := do
  let registered ← Build.ofResult (service.schema.requireEntitySet set)
  let records ← Build.ofResult (service.source.records set)
  records.mapM (ComplexValue.entityOfRecord registered.type set)

/-- Binds the navigation properties on paths. -/
def loadPaths (service : Service) (paths : List PropertyPath) : Edit ComplexValue :=
  Edit.inTurn (paths.map fun path => service.emitter.loadPath path.segments)

/-- The entities that pass the filter and match the search expression, sorted. -/
def arrange (service : Service) (query : Query) (entities : List ComplexValue) :
    Evaluated (List ComplexValue) := do
  let filtered ← match query.filter? with
    | some condition => Selection.filter id service.functions service.now condition entities
    | none => pure entities
  let found := match query.search? with
    | some expression =>
      Selection.search id service.source.searchHandler? expression filtered
    | none => filtered
  Selection.orderBy id service.functions service.now query.orderBy found

/-- The entities of a set that a query selects. -/
def select (service : Service) (set : String) (query : Query) : Build (List ComplexValue) := do
  let loaded ← (← service.entities set).mapM (service.loadPaths query.paths).toBuild
  return query.page (← Build.ofResult (service.arrange query loaded).toResult)

/-- Checks a request against the entity type of a set. -/
def validate (service : Service) (set : String) (request : RequestContext) : Result Unit := do
  let registered ← service.schema.requireEntitySet set
  request.validate service.schema registered.type

/-- The entities that answer a query, prepared for its request. -/
def prepared (service : Service) (set : String) (options : QueryOptions) :
    Build (RequestContext × List ComplexValue) := do
  let query ← Build.ofResult options.compile
  Build.ofResult (service.validate set query.request)
  let selected ← service.select set query
  return (query.request, ← selected.mapM (service.emitter.prepare query.request).toBuild)

/-- A response with several entities. -/
def collectionTokens (set : String) (request : RequestContext) (entities : List ComplexValue) :
    List Token :=
  let context :=
    if request.level = .none then []
    else [Token.pair ("@odata.context", .string (contextUrl set request false))]
  .openObject :: (Token.separated
    (context ++ [.key "value" :: ComplexValue.representations request entities]) ++ [.closeObject])

/-- Answers a query and tells how many entities were written. -/
def query (service : Service) (set : String) (options : QueryOptions) (layout : Layout)
    (output : Output) : Building (Output × Result Nat) := do
  match ← (service.prepared set options).run with
  | .ok (request, entities) =>
    let (after, outcome) := output.writeTokens layout (collectionTokens set request entities)
    return (after, outcome.map fun _ => entities.length)
  | .error error => return (output, .error error)

/-- The first entity whose key equals a key. Keys of types that do not compare are an error. -/
def findByKey (key : Primitive) : List ComplexValue → Evaluated (Option ComplexValue)
  | [] => .ok none
  | entity :: rest =>
    match entity.key? with
    | none => findByKey key rest
    | some candidate => do
      if (← Comparison.order "eq" candidate key) = some .eq then return some entity
      else findByKey key rest

def notFound (set : String) (key : Primitive) : Error :=
  let target := set ++ "(" ++ key.keyLiteral ++ ")"
  .requestAt .entityNotFound ("No entity found at " ++ target) target

def find (service : Service) (set : String) (key : Primitive) : Build ComplexValue := do
  match ← Build.ofResult (findByKey key (← service.entities set)).toResult with
  | some entity => return entity
  | none => throw (notFound set key)

/-- The entity with a key, ready to be written for a request. -/
def found (service : Service) (set : String) (key : Primitive) (request : RequestContext) :
    Build ComplexValue := do
  Build.ofResult (service.validate set request)
  let entity ← service.find set key
  if request.level = .none then return entity
  else return entity.insertMetadata "odata.context" (.string (contextUrl set request true))

/-- Answers a request for one entity. Of the options, only the selection, the expansion and the
level count. -/
def read (service : Service) (set : String) (key : Primitive) (options : QueryOptions)
    (layout : Layout) (output : Output) : Building (Output × Result Unit) := do
  match RequestContext.ofOptions options.select? options.expand? with
  | .error error => return (output, .error error)
  | .ok context =>
    let request := context.withLevel options.level
    match ← (service.found set key request).run with
    | .error error => return (output, .error error)
    | .ok entity =>
      let (_, after, outcome) ← service.emitter.emit request layout output entity
      return (after, outcome)

/-- The key that a literal spells. -/
def keyOfText (text : String) : Result Primitive := do
  match ← Filter.ofText text with
  | .literal key => return key
  | other => throw (.parse .invalidLiteral ("Expected a key literal, found " ++ other.render) text)

/-- Answers a request for the entity whose key a literal spells. -/
def readText (service : Service) (set text : String) (options : QueryOptions) (layout : Layout)
    (output : Output) : Building (Output × Result Unit) :=
  match keyOfText text with
  | .ok key => service.read set key options layout output
  | .error error => pure (output, .error error)

end Service

end EdmQuery
