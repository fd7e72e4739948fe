import EdmQuery.Json.Reader
import EdmQuery.Json.Printer
import EdmQuery.Schema.Basic

set_option autoImplicit false

namespace EdmQuery

structure PropertyDocument where
  name : String
  typeName : String
  isNullable : Bool
deriving Repr, Inhabited

structure NavigationDocument where
  name : String
  typeName : String
  targetSet? : Option String
  isExpandable : Bool
deriving Repr, Inhabited

structure TypeDocument where
  name : String
  key? : Option String
  isOpen : Bool
  properties : List PropertyDocument
  navigations : List NavigationDocument
deriving Repr, Inhabited

structure EntitySetDocument where
  name : String
  entityType : String
deriving Repr, Inhabited

structure AnnotationDocument where
  target : String
  term : String
  value : Json
deriving Repr, Inhabited

structure SchemaDocument where
  namespaceName : String
  complexTypes : List TypeDocument
  entityTypes : List TypeDocument
  entitySets : List EntitySetDocument
  annotations : List AnnotationDocument
deriving Repr, Inhabited

namespace SchemaDocument

/-- The fault of a document that does not have the form of one. -/
def invalid (reason : String) : Error := .configuration ("Invalid schema document: " ++ reason)

/-- The members of an object with a known name. -/
def knownMembers (names : List String) (members : Json.Members) : Json.Members :=
  members.filter fun (name, _) => names.contains name

/-- The given fields of a record, each at most once. -/
def fields (names : List String) : Json → Result Json.Members
  | .object members =>
    let known := knownMembers names members
    match known.find? fun (name, _) => known.countP (·.1 == name) ≠ 1 with
    | some (name, _) => .error (invalid ("duplicate field " ++ name))
    | none => .ok known
  | .array items =>
    if items.length ≤ names.length then .ok (names.zip items)
    else .error (invalid "too many fields")
  | other => .error (invalid ("unexpected " ++ other.shape))

def required {α : Type} (given : Json.Members) (name : String) (read : Json → Result α) :
    Result α :=
  match given.lookup name with
  | some value => read value
  | none => .error (invalid ("missing field " ++ name))

def optional {α : Type} (given : Json.Members) (name : String) (default : α)
    (read : Json → Result α) : Result α :=
  match given.lookup name with
  | some value => read value
  | none => .ok default

def readString : Json → Result String
  | .string value => .ok value
  | other => .error (invalid ("unexpected " ++ other.shape))

def readBool : Json → Result Bool
  | .bool value => .ok value
  | other => .error (invalid ("unexpected " ++ other.shape))

def readNullable {α : Type} (read : Json → Result α) : Json → Result (Option α)
  | .null => .ok none
  | other => some <$> read other

def readList {α : Type} (read : Json → Result α) : Json → Result (List α)
  | .array items => items.mapM read
  | other => .error (invalid ("unexpected " ++ other.shape))

def readProperty (json : Json) : Result PropertyDocument := do
  let given ← fields ["name", "type", "nullable"] json
  return ⟨← required given "name" readString, ← required given "type" readString,
    ← optional given "nullable" true readBool⟩

def readNavigation (json : Json) : Result NavigationDocument := do
  let given ← fields ["name", "type", "targetSet", "expandable"] json
  return ⟨← required given "name" readString, ← required given "type" readString,
    ← optional given "targetSet" none (readNullable readString),
    ← optional given "expandable" true readBool⟩

def readType (json : Json) : Result TypeDocument := do
  let given ← fields ["name", "key", "open", "properties", "navigationProperties"] json
  return ⟨← required given "name" readString, ← optional given "key" none (readNullable readString),
    ← optional given "open" false readBool,
    ← optional given "properties" [] (readList readProperty),
    ← optional given "navigationProperties" [] (readList readNavigation)⟩

def readEntitySet (json : Json) : Result EntitySetDocument := do
  let given ← fields ["name", "entityType"] json
  return ⟨← required given "name" readString, ← required given "entityType" readString⟩

def readAnnotation (json : Json) : Result AnnotationDocument := do
  let given ← fields ["target", "term", "value"] json
  return ⟨← required given "target" readString, ← required given "term" readString,
    ← required given "value" fun value => .ok value.sorted⟩

def ofJson (json : Json) : Result SchemaDocument := do
  let given ← fields ["namespace", "complexTypes", "entityTypes", "entitySets", "annotations"] json
  return ⟨← required given "namespace" readString,
    ← optional given "complexTypes" [] (readList readType),
    ← optional given "entityTypes" [] (readList readType),
    ← optional given "entitySets" [] (readList readEntitySet),
    ← optional given "annotations" [] (readList readAnnotation)⟩

def ofText (text : String) : Result SchemaDocument :=
  match Json.read? text.toList with
  | some json => ofJson json
  | none => .error (invalid "the text is not JSON")

/-- A field that is left out if there is nothing to say. -/
def optionalMember (name : String) (value? : Option String) : Json.Members :=
  (value?.map fun value => (name, Json.string value)).toList

def propertyToJson (property : PropertyDocument) : Json :=
  .object [("name", .string property.name), ("type", .string property.typeName),
    ("nullable", .bool property.isNullable)]

def navigationToJson (navigation : NavigationDocument) : Json :=
  .object ([("name", .string navigation.name), ("type", .string navigation.typeName)] ++
    optionalMember "targetSet" navigation.targetSet? ++
    [("expandable", .bool navigation.isExpandable)])

def typeToJson (type : TypeDocument) : Json :=
  .object ([("name", .string type.name)] ++ optionalMember "key" type.key? ++
    [("open", .bool type.isOpen), ("properties", .array (type.properties.map propertyToJson)),
      ("navigationProperties", .array (type.navigations.map navigationToJson))])

def entitySetToJson (set : EntitySetDocument) : Json :=
  .object [("name", .string set.name), ("entityType", .string set.entityType)]

def annotationToJson (note : AnnotationDocument) : Json :=
  .object [("target", .string note.target), ("term", .string note.term), ("value", note.value)]

/-- The document with all defaults filled in. -/
def toJson (document : SchemaDocument) : Json :=
  .object [("namespace", .string document.namespaceName),
    ("complexTypes", .array (document.complexTypes.map typeToJson)),
    ("entityTypes", .array (document.entityTypes.map typeToJson)),
    ("entitySets", .array (document.entitySets.map entitySetToJson)),
    ("annotations", .array (document.annotations.map annotationToJson))]

end SchemaDocument

end EdmQuery
