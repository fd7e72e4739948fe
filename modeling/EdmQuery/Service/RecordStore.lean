import EdmQuery.Emission.Preparation
import EdmQuery.Evaluation.Search
import EdmQuery.Json.Reader
import EdmQuery.Schema.Basic

set_option autoImplicit false

namespace EdmQuery

/-- What a service needs to know about its records. Without a handler, search terms are looked for
in the instances; without a resolver, nothing is expanded. -/
structure RecordSource where
  records : String → Result (List Json)
  searchHandler? : Option SearchHandler
  resolver? : Option NavigationResolver

/-- Records in memory by entity set. -/
structure RecordStore where
  schema : Schema
  sets : List (String × List Json)

namespace RecordStore

def empty (schema : Schema) : RecordStore := ⟨schema, []⟩

/-- The records of a set, none for a set that got none. -/
def held (store : RecordStore) (set : String) : List Json := (store.sets.lookup set).getD []

def size (store : RecordStore) (set : String) : Nat := (store.held set).length

def isEmpty (store : RecordStore) : Bool := store.sets.all fun (_, records) => records.isEmpty

/-- Appends records to a set of the schema, all of them or none. -/
def extend (store : RecordStore) (set : String) (records : List Json) : Result RecordStore := do
  let _ ← store.schema.requireEntitySet set
  match records.find? fun record => record.object?.isNone with
  | some other => throw (.unsupportedSource ("record " ++ other.compact))
  | none => return { store with sets := Keyed.putPair set (store.held set ++ records) store.sets }

def insert (store : RecordStore) (set : String) (record : Json) : Result RecordStore :=
  store.extend set [record]

/-- A store with the records of an object, an array for each entity set. -/
def ofJson (schema : Schema) (data : Json) : Result RecordStore :=
  match data with
  | .object sets =>
    sets.foldlM (fun store (set, records) =>
      match records with
      | .array items => store.extend set items
      | _ => .error (.unsupportedSource ("non-array records of " ++ Error.quoted set)))
      (empty schema)
  | _ => .error (.unsupportedSource "non-object data document")

/-- A store with the records in a document, which comes from a place that messages name. -/
def ofText (schema : Schema) (place text : String) : Result RecordStore :=
  match Json.readSorted? text with
  | some data => ofJson schema data
  | none => .error (.unsupportedSource ("invalid JSON in " ++ place ++ ": the text is not JSON"))

def records (store : RecordStore) (set : String) : Result (List Json) := do
  let _ ← store.schema.requireEntitySet set
  return store.held set

/-- The key that a record has, if its type reads it. The identities that reading gives out are not
kept. -/
def recordKey? (key : Property) (record : Json) : Option Primitive :=
  match (record.get? key.name).map fun raw => ((key.type.reader raw).run ⟨0⟩).1 with
  | some (.ok value?) => value?.bind Value.primitive?
  | _ => none

/-- The record behind an entity: the first one of its set with its key. -/
def recordOf? (store : RecordStore) (entity : ComplexValue) : Option Json := do
  let set ← entity.entitySet?
  let key ← entity.key?
  let property ← entity.type.keyProperty?
  (store.held set).find? fun record => (recordKey? property record).any (·.same key)

/-- A related entity. -/
def related (target : ComplexType) (set? : Option String) (record : Json) : Build Value := do
  let value ← ComplexValue.ofType target
  return .complex (← { value with entitySet? := set? }.fill record)

def wrongShape (property : String) (found : Json) : Error :=
  .source .navigationFailed ("The inline value of navigation property " ++ Error.quoted property ++
    " has the wrong shape: " ++ found.compact)

/-- Reads what a navigation property leads to from the entity's record. -/
def resolve (store : RecordStore) : NavigationResolver := fun parent property _ =>
  match property.kind.navigation? with
  | none => return none
  | some binding => do
    let some target := store.schema.type? binding.targetType
      | throw (.unknownType binding.targetType)
    match (store.recordOf? parent).bind (·.get? property.name), binding.isCollection with
    | none, _ | some .null, _ => return none
    | some (.array records), true =>
      return some (.collection (← records.mapM (related target binding.targetSet?)))
    | some (.object members), false =>
      return some (← related target binding.targetSet? (.object members))
    | some other, _ => throw (wrongShape property.name other)

/-- The store as a source that also resolves navigation properties. -/
def toSource (store : RecordStore) : RecordSource := ⟨store.records, none, some store.resolve⟩

end RecordStore

end EdmQuery
