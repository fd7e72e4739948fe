import EdmQuery.Digest.Sha256
import EdmQuery.Query.Node
import EdmQuery.Value.Container

set_option autoImplicit false

namespace EdmQuery

/-- A key as it stands between the parentheses of an identifier. -/
def Primitive.keyLiteral (key : Primitive) : String := String.ofList key.spellLiteral

namespace ComplexValue

/-- The value of the key property, if it is bound to a primitive. -/
def key? (container : ComplexValue) : Option Primitive :=
  (container.type.key?.bind container.get?).bind PropertyValue.primitive?

/-- The name of the entity set with the key behind it. -/
def entityId? (container : ComplexValue) : Option String :=
  match container.entitySet?, container.key? with
  | some set, some key => some (set ++ "(" ++ key.keyLiteral ++ ")")
  | _, _ => none

/-- An entity needs an entity type that declares its key property. -/
def checkEntityType (type : ComplexType) : Result Unit :=
  if !type.isEntity then
    .error (.schema .invalidKey ("The type " ++ Error.quoted type.name ++ " is not an entity type"))
  else if type.keyProperty?.isNone then
    .error (.schema .invalidKey
      ("The entity type " ++ Error.quoted type.name ++ " declares no key property"))
  else .ok ()

def newEntity (type : ComplexType) : Build ComplexValue := do
  Build.ofResult (checkEntityType type)
  ComplexValue.ofType type

/-- An entity of a set, from a record. -/
def entityOfRecord (type : ComplexType) (set : String) (raw : Json) : Build ComplexValue := do
  let members ← Build.ofResult (recordMembers raw)
  let entity ← newEntity type
  (entity.setEntitySet set).fill (.object members)

/-- What enters the ETag: names and texts of the bound properties of eligible types. -/
def etagEntries (container : ComplexValue) : List (String × Option String) :=
  (container.bindings.filter fun binding => binding.property.isETagEligible).map fun binding =>
    (binding.name, binding.primitive?.bind Primitive.etagText?)

/-- The text over which the digest is taken. -/
def etagText (entries : List (String × Option String)) : String :=
  Json.compact (.array (entries.map fun (name, text?) =>
    .array [.string name, (text?.map Json.string).getD .null]))

/-- The weak validator of the container's current state. -/
def etag (container : ComplexValue) : String :=
  "W/\"" ++ Sha256.hexDigest (etagText container.etagEntries).toUTF8.toList ++ "\""

end ComplexValue

end EdmQuery
