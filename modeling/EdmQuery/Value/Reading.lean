import EdmQuery.Primitive.Coercion
import EdmQuery.Value.Edit

set_option autoImplicit false

namespace EdmQuery

namespace ComplexValue

/-- An empty container of a type. -/
def ofType (type : ComplexType) : Building ComplexValue := do
  return ⟨← Supply.fresh, type, [], none, none, false, []⟩

/-- Binds a property, in the place of an earlier binding of the same name. -/
def bind (container : ComplexValue) (property : Property) (value? : Option Value) :
    ComplexValue :=
  { container with
    bindings := Keyed.put PropertyValue.name
      ((PropertyValue.unattached property value?).attach container.id) container.bindings }

end ComplexValue

/-- The type of a property that is created for a raw value. -/
def ValueType.ofRaw (raw : Json) : ValueType :=
  match Primitive.infer? raw with
  | some value => .primitive value.type
  | none => .untyped

/-- The items of a collection; one that is no value fails under the name of the collection. -/
def Value.ofItems (typeName : String) : List (Json × Build (Option Value)) → Build (List Value)
  | [] => pure []
  | (raw, read) :: rest => do
    match ← read with
    | none => throw (.invalidValue typeName raw.compact)
    | some item => return item :: (← Value.ofItems typeName rest)

mutual

/-- The value of data for which nothing is declared. -/
def Value.infer : Json → Build (Option Value)
  | .array items => do
    return some (.collection
      (← Value.ofItems (ValueType.collection .untyped).name (Value.inferItems items)))
  | .object members => do
    return some (.complex (← Value.inferMembers members (← ComplexValue.ofType .untyped)))
  | .null => pure none
  | .bool value => pure ((Primitive.infer? (.bool value)).map .primitive)
  | .int value => pure ((Primitive.infer? (.int value)).map .primitive)
  | .double value => pure ((Primitive.infer? (.double value)).map .primitive)
  | .string value => pure ((Primitive.infer? (.string value)).map .primitive)

def Value.inferItems : List Json → List (Json × Build (Option Value))
  | [] => []
  | item :: rest => (item, Value.infer item) :: Value.inferItems rest

def Value.inferMembers : Json.Members → ComplexValue → Build ComplexValue
  | [], container => pure container
  | (key, raw) :: rest, container => do
    let value? ← Value.infer raw
    Value.inferMembers rest (container.bind (.dynamic key (.ofRaw raw)) value?)

end

/-- How raw data becomes a value. -/
abbrev Reader := Json → Build (Option Value)

namespace Reader

def ofPrimitive (type : PrimitiveType) : Reader := fun raw => do
  return (← Build.ofResult (type.instance? raw)).map .primitive

def ofCollection (typeName : String) (read : Reader) : Reader
  | .null => pure none
  | .array items => do
    return some (.collection (← Value.ofItems typeName (items.map fun item => (item, read item))))
  | other => throw (.invalidValue typeName other.compact)

end Reader

namespace ComplexValue

/-- Binds raw data under a name, given how the properties of the type are read. A name that the
type does not declare is bound as it is on an open type. -/
def bindRaw (readers : List (Property × Reader)) (container : ComplexValue) (name : String)
    (raw : Json) : Build ComplexValue := do
  match Keyed.find? (fun entry => entry.1.name) name readers with
  | some (property, read) => return container.bind property (← read raw)
  | none =>
    if container.type.isOpen then
      return container.bind (.dynamic name (.ofRaw raw)) (← Value.infer raw)
    else throw (.noSuchProperty container.type.name name)

/-- Binds raw data under several names. -/
def bindAll (readers : List (Property × Reader)) (members : Json.Members) : Edit ComplexValue :=
  Edit.inTurn (members.map fun (name, raw) =>
    Edit.ofBuild fun container => bindRaw readers container name raw)

/-- The members that a container takes, in the order in which it takes them. -/
def picked (type : ComplexType) (members : Json.Members) : Json.Members :=
  if type.isUntyped then members
  else type.declaredProperties.filterMap fun property =>
    (members.lookup property.name).map (property.name, ·)

/-- Members for all declared properties, null where there is no data. -/
def completed (type : ComplexType) (members : Json.Members) : Json.Members :=
  type.declaredProperties.map fun property =>
    (property.name, (members.lookup property.name).getD .null)

end ComplexValue

def Reader.ofComplex (type : ComplexType) (readers : List (Property × Reader)) : Reader
  | .null => pure none
  | .object members => do
    let bind := ComplexValue.bindAll readers (ComplexValue.picked type members)
    return some (.complex (← bind.toBuild (← ComplexValue.ofType type)))
  | other => throw (.invalidValue type.name other.compact)

mutual

/-- How raw data of a declared type becomes a value. -/
def ValueType.reader : ValueType → Reader
  | .primitive type => Reader.ofPrimitive type
  | .complex type => Reader.ofComplex type type.readers
  | .collection element => Reader.ofCollection (ValueType.collection element).name element.reader
  | .entity _ => Value.infer
  | .untyped => Value.infer

def ComplexType.readers : ComplexType → List (Property × Reader)
  | ⟨_, _, _, _, _, properties⟩ => Property.readers properties

/-- The properties in their order, each with its reader. -/
def Property.readers : List Property → List (Property × Reader)
  | [] => []
  | ⟨name, type, isNullable, kind⟩ :: rest =>
    (⟨name, type, isNullable, kind⟩, type.reader) :: Property.readers rest

end

theorem Property.readers_eq_map (properties : List Property) :
    Property.readers properties =
      properties.map fun property => (property, property.type.reader) := by
  induction properties with
  | nil => rfl
  | cons property rest ih =>
    cases property
    simp only [Property.readers, ih, List.map_cons]

theorem ComplexType.readers_eq_map (type : ComplexType) :
    type.readers = type.properties.map fun property => (property, property.type.reader) := by
  cases type
  exact Property.readers_eq_map _

end EdmQuery
