import EdmQuery.Value.Reading

set_option autoImplicit false

namespace EdmQuery

/-- What a property is set to: raw data that its type reads, a value that is taken as it is, or
null. -/
inductive PropertyInput
  | raw (data : Json)
  | value (given : Value)
  | null

def PropertyInput.ofOption : Option Value → PropertyInput
  | some given => .value given
  | none => .null

/-- The type of a property that is created for an input. -/
def PropertyInput.type : PropertyInput → ValueType
  | .raw data => .ofRaw data
  | .value given => given.type
  | .null => .untyped

namespace ComplexValue

def get? (container : ComplexValue) (name : String) : Option PropertyValue :=
  Keyed.find? PropertyValue.name name container.bindings

/-- The value of a bound property that is not null. -/
def value? (container : ComplexValue) (name : String) : Option Value :=
  (container.get? name).bind PropertyValue.value?

def has (container : ComplexValue) (name : String) : Bool :=
  Keyed.contains PropertyValue.name name container.bindings

def size (container : ComplexValue) : Nat := container.bindings.length

/-- The property that a name stands for: a declared one, or a new one on an open type. -/
def propertyFor (container : ComplexValue) (name : String) (input : PropertyInput) :
    Result Property :=
  match container.type.property? name with
  | some property => .ok property
  | none =>
    if container.type.isOpen then .ok (.dynamic name input.type)
    else .error (.noSuchProperty container.type.name name)

def set (container : ComplexValue) (name : String) (input : PropertyInput) :
    Build ComplexValue := do
  let property ← Build.ofResult (container.propertyFor name input)
  match input with
  | .raw raw => return container.bind property (← property.type.reader raw)
  | .value value => return container.bind property (some value)
  | .null => return container.bind property none

/-- Takes over a binding that no other container owns, for a name that is not bound yet. -/
def addProperty (container : ComplexValue) (binding : PropertyValue) : Result ComplexValue :=
  if binding.owner?.any (· ≠ container.id) then .error (.alreadyOwned binding.name)
  else if container.has binding.name then
    .error (.duplicateProperty container.type.name binding.name)
  else if container.type.admits binding.property then
    .ok { container with bindings := container.bindings ++ [binding.attach container.id] }
  else .error (.noSuchProperty container.type.name binding.name)

/-- Gives a bound property another value and keeps its metadata. -/
def replace (container : ComplexValue) (name : String) (value? : Option Value) :
    Result ComplexValue :=
  if container.has name then
    .ok { container with
      bindings := Keyed.update PropertyValue.name name
        (fun binding => { binding with value? := value? }.attach container.id)
        container.bindings }
  else .error (.propertyNotBound name)

/-- Takes a binding out and detaches it. -/
def remove (container : ComplexValue) (name : String) : ComplexValue × Option PropertyValue :=
  ({ container with bindings := Keyed.erase PropertyValue.name name container.bindings },
    (container.get? name).map PropertyValue.detach)

/-- Gives the container another type, which has to admit all that is bound. -/
def setType (container : ComplexValue) (type : ComplexType) : Result ComplexValue :=
  match container.bindings.find? fun binding => !type.admits binding.property with
  | some stale => .error (.noSuchProperty type.name stale.name)
  | none => .ok { container with type := type }

def setEntitySet (container : ComplexValue) (name : String) : ComplexValue :=
  { container with entitySet? := some name }

/-- A reference is written as control information alone. -/
def setReference (container : ComplexValue) (isReference : Bool) : ComplexValue :=
  { container with isReference := isReference }

def insertMetadata (container : ComplexValue) (key : String) (value : Json) : ComplexValue :=
  { container with metadata := Keyed.putPair key value container.metadata }

/-- Changes the nested container that a path of property names leads to, if there is one. -/
def changeAt (change : ComplexValue → Build ComplexValue) :
    List String → ComplexValue → Build (Option ComplexValue)
  | [], container => some <$> change container
  | name :: rest, container =>
    match container.value? name with
    | some (.complex child) => do
      let changed? ← changeAt change rest child
      return changed?.map fun changed =>
        { container with
          bindings := Keyed.update PropertyValue.name name
            (fun binding => { binding with value? := some (.complex changed) })
            container.bindings }
    | _ => return none

/-- Binds the members of a record that the type takes. -/
def readRecord (members : Json.Members) : Edit ComplexValue := fun container =>
  bindAll container.type.readers (picked container.type members) container

/-- Binds every declared property, to null where the record has nothing. -/
def readObject (members : Json.Members) : Edit ComplexValue := fun container =>
  bindAll container.type.readers (completed container.type members) container

/-- The members of a record; other data is no record. -/
def recordMembers (raw : Json) : Result Json.Members :=
  match raw with
  | .object members => .ok members
  | other => .error (.unsupportedSource other.shape)

/-- Reads a record into a container, or fails. -/
def fill (container : ComplexValue) (raw : Json) : Build ComplexValue := do
  let members ← Build.ofResult (recordMembers raw)
  (readRecord members).toBuild container

end ComplexValue

end EdmQuery
