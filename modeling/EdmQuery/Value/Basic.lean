import EdmQuery.Json.Printer
import EdmQuery.Primitive.Basic
import EdmQuery.Type.Basic

set_option autoImplicit false

/- Values of structured data. A container binds properties to values, in the order in which they
were first bound, and has an identity of its own. A binding names the container that it is attached
to, and a container that is held by a property carries a link to the holder. New identities come
from a supply. -/
namespace EdmQuery

/-- The identity of a container. -/
structure ContainerId where
  number : Nat
deriving DecidableEq, Repr, Inhabited

/-- Identities from `next` on were not given out yet. -/
structure Supply where
  next : Nat
deriving DecidableEq, Repr, Inhabited

/-- A computation that may give out identities. -/
abbrev Building := StateM Supply

/-- A computation that may give out identities, or fail. Identities that were given out before the
failure are not used again. -/
abbrev Build := ExceptT Error (StateM Supply)

def Supply.fresh : Building ContainerId := fun supply => (⟨supply.next⟩, ⟨supply.next + 1⟩)

def Build.ofResult {α : Type} (result : Result α) : Build α := fun supply => (result, supply)

/-- The property of a container that holds another one. -/
structure ParentLink where
  owner : ContainerId
  property : String
deriving DecidableEq, Repr

mutual

inductive Value
  | primitive (value : Primitive)
  | complex (value : ComplexValue)
  | collection (items : List Value)

/-- A property with its value, none for null, and custom metadata. -/
structure PropertyValue where
  property : Property
  value? : Option Value
  owner? : Option ContainerId
  metadata : List (String × Json)

structure ComplexValue where
  id : ContainerId
  type : ComplexType
  bindings : List PropertyValue
  parent? : Option ParentLink
  entitySet? : Option String
  isReference : Bool
  metadata : List (String × Json)

end

instance : Inhabited Value := ⟨.collection []⟩

namespace Value

def primitive? : Value → Option Primitive
  | primitive value => some value
  | _ => none

def complex? : Value → Option ComplexValue
  | complex value => some value
  | _ => none

def collection? : Value → Option (List Value)
  | collection items => some items
  | _ => none

mutual

/-- The type that describes a value; the first item speaks for a collection. -/
def type : Value → ValueType
  | primitive value => .primitive value.type
  | complex value => .complex value.type
  | collection items => .collection (typeOfFirst items)

def typeOfFirst : List Value → ValueType
  | [] => .untyped
  | item :: _ => item.type

end

mutual

/-- Links every container in a value, also within collections, to the property that holds it. -/
def adopt (link : ParentLink) : Value → Value
  | primitive value => .primitive value
  | complex value => .complex { value with parent? := some link }
  | collection items => .collection (adoptAll link items)

def adoptAll (link : ParentLink) : List Value → List Value
  | [] => []
  | item :: rest => item.adopt link :: adoptAll link rest

end

end Value

namespace PropertyValue

def name (binding : PropertyValue) : String := binding.property.name

/-- A binding that no container holds. -/
def unattached (property : Property) (value? : Option Value) : PropertyValue :=
  ⟨property, value?, none, []⟩

def withMetadata (binding : PropertyValue) (key : String) (value : Json) : PropertyValue :=
  { binding with metadata := Keyed.putPair key value binding.metadata }

def primitive? (binding : PropertyValue) : Option Primitive := binding.value?.bind Value.primitive?

def detach (binding : PropertyValue) : PropertyValue := { binding with owner? := none }

/-- Makes a container the owner of a binding and of what it holds. -/
def attach (owner : ContainerId) (binding : PropertyValue) : PropertyValue :=
  { binding with
    owner? := some owner
    value? := binding.value?.map (Value.adopt ⟨owner, binding.property.name⟩) }

end PropertyValue

mutual

/-- The value as plain JSON, without control information. -/
def Value.toJson : Value → Json
  | .primitive value => value.toJson
  | .complex value => value.toJson
  | .collection items => .array (Value.itemsToJson items)

def Value.itemsToJson : List Value → List Json
  | [] => []
  | item :: rest => item.toJson :: Value.itemsToJson rest

def Value.optionToJson : Option Value → Json
  | none => .null
  | some value => value.toJson

/-- An object of all bound properties. -/
def ComplexValue.toJson : ComplexValue → Json
  | ⟨_, _, bindings, _, _, _, _⟩ => .ofMembers (ComplexValue.membersToJson bindings)

def ComplexValue.membersToJson : List PropertyValue → Json.Members
  | [] => []
  | ⟨property, value?, _, _⟩ :: rest =>
    (property.name, Value.optionToJson value?) :: ComplexValue.membersToJson rest

end

mutual

/-- Two values are equal if their types have the same name and the same properties are bound to
equal values in the same order. Identities, owners and metadata do not count. -/
def Value.equals : Value → Value → Bool
  | .primitive x, .primitive y => x.same y
  | .complex x, .complex y => x.equals y
  | .collection xs, .collection ys => Value.equalItems xs ys
  | _, _ => false

def Value.equalItems : List Value → List Value → Bool
  | [], [] => true
  | x :: xs, y :: ys => x.equals y && Value.equalItems xs ys
  | _, _ => false

def Value.equalOptions : Option Value → Option Value → Bool
  | none, none => true
  | some x, some y => x.equals y
  | _, _ => false

def ComplexValue.equals : ComplexValue → ComplexValue → Bool
  | ⟨_, type, bindings, _, _, _, _⟩, other =>
    type.name == other.type.name && ComplexValue.equalBindings bindings other.bindings

def ComplexValue.equalBindings : List PropertyValue → List PropertyValue → Bool
  | [], [] => true
  | ⟨property, value?, _, _⟩ :: rest, other :: others =>
    property.name == other.name && Value.equalOptions value? other.value? &&
      ComplexValue.equalBindings rest others
  | _, _ => false

end

mutual

/-- The same value in new containers. A copied container keeps its link to what holds it. -/
def Value.copy : Value → Building Value
  | .primitive value => pure (.primitive value)
  | .complex value => do return .complex (← value.copy)
  | .collection items => do return .collection (← Value.copyItems items)

def Value.copyItems : List Value → Building (List Value)
  | [] => pure []
  | item :: rest => do
    let copied ← item.copy
    return copied :: (← Value.copyItems rest)

def Value.copyOption : Option Value → Building (Option Value)
  | none => pure none
  | some value => do return some (← value.copy)

/-- A copy of a binding names the same owner. -/
def PropertyValue.copy : PropertyValue → Building PropertyValue
  | ⟨property, value?, owner?, metadata⟩ => do
    return ⟨property, ← Value.copyOption value?, owner?, metadata⟩

/-- A container of a new identity that owns copies of all bindings. -/
def ComplexValue.copy : ComplexValue → Building ComplexValue
  | ⟨_, type, bindings, parent?, entitySet?, isReference, metadata⟩ => do
    let id ← Supply.fresh
    let copied ← ComplexValue.copyBindings bindings
    return ⟨id, type, copied.map (PropertyValue.attach id), parent?, entitySet?, isReference,
      metadata⟩

def ComplexValue.copyBindings : List PropertyValue → Building (List PropertyValue)
  | [] => pure []
  | binding :: rest => do
    let copied ← binding.copy
    return copied :: (← ComplexValue.copyBindings rest)

end

end EdmQuery
