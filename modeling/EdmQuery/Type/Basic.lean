import EdmQuery.Error.Basic
import EdmQuery.Keyed
import EdmQuery.Primitive.PrimitiveType

set_option autoImplicit false

namespace EdmQuery

/-- How a navigation property leads to its target. -/
structure NavigationBinding where
  targetType : String
  isCollection : Bool
  targetSet? : Option String
  isExpandable : Bool
deriving DecidableEq, Repr, Inhabited

/-- Where the values of a property come from: they are stored, created on demand on an open type,
related entities, or computed by a named rule when an instance is written. -/
inductive PropertyKind
  | declared
  | dynamic
  | navigation (binding : NavigationBinding)
  | generated (rule : String)
deriving DecidableEq, Repr, Inhabited

mutual

inductive ValueType
  | primitive (type : PrimitiveType)
  | complex (type : ComplexType)
  | entity (name : String)
  | collection (element : ValueType)
  | untyped

structure Property where
  name : String
  type : ValueType
  isNullable : Bool
  kind : PropertyKind

/-- A complex type, or an entity type with the name of its key property. -/
structure ComplexType where
  name : String
  isEntity : Bool
  key? : Option String
  isOpen : Bool
  isSealed : Bool
  properties : List Property

end

instance : Inhabited ValueType := ⟨.untyped⟩

instance : Inhabited Property := ⟨⟨"", .untyped, true, .declared⟩⟩

/-- The name of the type that declares nothing and takes everything. -/
def untypedName : String := "Edm.Untyped"

namespace ValueType

def name : ValueType → String
  | primitive type => type.qualifiedName
  | complex type => type.name
  | entity name => name
  | collection element => "Collection(" ++ element.name ++ ")"
  | untyped => untypedName

def primitive? : ValueType → Option PrimitiveType
  | primitive type => some type
  | _ => none

def isCollection : ValueType → Bool
  | collection _ => true
  | _ => false

end ValueType

namespace PropertyKind

def isDeclared : PropertyKind → Bool
  | declared => true
  | _ => false

def isDynamic : PropertyKind → Bool
  | dynamic => true
  | _ => false

def navigation? : PropertyKind → Option NavigationBinding
  | navigation binding => some binding
  | _ => none

def rule? : PropertyKind → Option String
  | generated rule => some rule
  | _ => none

def word : PropertyKind → String
  | declared => "declared"
  | dynamic => "dynamic"
  | navigation _ => "navigation"
  | generated _ => "generated"

end PropertyKind

namespace Property

def declared (name : String) (type : ValueType) : Property := ⟨name, type, true, .declared⟩

def dynamic (name : String) (type : ValueType) : Property := ⟨name, type, true, .dynamic⟩

/-- The type of a navigation property follows from its target. -/
def navigation (name : String) (binding : NavigationBinding) : Property :=
  let target := ValueType.entity binding.targetType
  ⟨name, if binding.isCollection then .collection target else target, true, .navigation binding⟩

def generated (name : String) (type : ValueType) (rule : String) : Property :=
  ⟨name, type, true, .generated rule⟩

def isDeclared (property : Property) : Bool := property.kind.isDeclared

def isDynamic (property : Property) : Bool := property.kind.isDynamic

def isNavigation (property : Property) : Bool := property.kind.navigation?.isSome

def isGenerated (property : Property) : Bool := property.kind.rule?.isSome

/-- Stored values of an eligible primitive type enter the ETag. -/
def isETagEligible (property : Property) : Bool :=
  property.isDeclared && property.type.primitive?.any (·.isETagEligible)

end Property

namespace ComplexType

/-- A type without properties. -/
def empty (name : String) : ComplexType := ⟨name, false, none, false, false, []⟩

/-- The open type of data for which nothing is declared. -/
def untyped : ComplexType := ⟨untypedName, false, none, true, true, []⟩

instance : Inhabited ComplexType := ⟨untyped⟩

def isUntyped (type : ComplexType) : Bool := type.name == untypedName

def property? (type : ComplexType) (name : String) : Option Property :=
  Keyed.find? Property.name name type.properties

def keyProperty? (type : ComplexType) : Option Property := type.key?.bind type.property?

def declaredProperties (type : ComplexType) : List Property :=
  type.properties.filter Property.isDeclared

def navigationProperties (type : ComplexType) : List Property :=
  type.properties.filter Property.isNavigation

def generatedProperties (type : ComplexType) : List Property :=
  type.properties.filter Property.isGenerated

def navigationProperty? (type : ComplexType) (name : String) : Option Property :=
  (type.property? name).filter Property.isNavigation

/-- Refused by a sealed type, and for a name that is already declared. -/
def addProperty (type : ComplexType) (property : Property) : Result ComplexType :=
  if type.isSealed then .error (.typeSealed type.name)
  else if Keyed.contains Property.name property.name type.properties then
    .error (.duplicateProperty type.name property.name)
  else .ok { type with properties := type.properties ++ [property] }

def addProperties (type : ComplexType) (properties : List Property) : Result ComplexType :=
  properties.foldlM addProperty type

def toSealed (type : ComplexType) : ComplexType := { type with isSealed := true }

/-- Whether an instance may bind a property that this type may not declare. -/
def admits (type : ComplexType) (property : Property) : Bool :=
  (type.property? property.name).isSome || (type.isOpen && property.isDynamic)

end ComplexType

end EdmQuery
