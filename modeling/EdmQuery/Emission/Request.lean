import EdmQuery.Schema.Basic
import EdmQuery.Value.Metadata

set_option autoImplicit false

namespace EdmQuery

mutual

/-- No selection selects everything. -/
structure RequestContext where
  select? : Option (List String)
  expand : List NavigationRequest
  level : MetadataLevel

/-- Related entities with the options that apply to them. -/
structure NavigationRequest where
  path : String
  options : RequestContext

end

namespace RequestContext

/-- Everything that is stored, and no related entities. -/
def default : RequestContext := ⟨none, [], .minimal⟩

instance : Inhabited RequestContext := ⟨default⟩

/-- Adds names to the selection. -/
def addSelect (context : RequestContext) (names : List String) : RequestContext :=
  { context with select? := some (context.select?.getD [] ++ names) }

def addExpand (context : RequestContext) (request : NavigationRequest) : RequestContext :=
  { context with expand := Keyed.put NavigationRequest.path request context.expand }

def withLevel (context : RequestContext) (level : MetadataLevel) : RequestContext :=
  { context with level := level }

def isSelected (context : RequestContext) (name : String) : Bool :=
  match context.select? with
  | none => true
  | some names => names.any fun selected => selected = "*" || selected = name

def navigationRequest? (context : RequestContext) (name : String) : Option NavigationRequest :=
  Keyed.find? NavigationRequest.path name context.expand

/-- Related entities are written if they were requested, other properties if they are selected. -/
def writes (context : RequestContext) (property : Property) : Bool :=
  if property.isNavigation then (context.navigationRequest? property.name).isSome
  else context.isSelected property.name

/-- The options for what a property holds. Only related entities have options of their own. -/
def optionsFor (context : RequestContext) (property : Property) : RequestContext :=
  if property.isNavigation then
    ((context.navigationRequest? property.name).map NavigationRequest.options).getD default
  else default

/-- Each selected name has to be known, except on an open type. -/
def checkSelect (context : RequestContext) (type : ComplexType) : Result Unit :=
  (context.select?.getD []).forM fun name =>
    if name = "*" || (type.property? name).isSome || type.isOpen then .ok ()
    else .error (.invalidSelect name)

end RequestContext

namespace ComplexType

/-- The navigation property that a path stands for, if it may be expanded. -/
def expandable (type : ComplexType) (path : String) : Result Property :=
  match type.navigationProperty? path with
  | none => .error (.unknownExpandPath path)
  | some property =>
    if property.kind.navigation?.any (·.isExpandable) then .ok property
    else .error (.notExpandable path)

end ComplexType

mutual

/-- Checks a request against the type of a response. Nested options are checked against those
targets that the schema knows. -/
def RequestContext.validate (schema : Schema) (type : ComplexType) : RequestContext → Result Unit
  | ⟨select?, expand, level⟩ => do
    RequestContext.checkSelect ⟨select?, expand, level⟩ type
    NavigationRequest.validateAll schema type expand

def NavigationRequest.validateAll (schema : Schema) (type : ComplexType) :
    List NavigationRequest → Result Unit
  | [] => .ok ()
  | ⟨path, options⟩ :: rest => do
    let property ← type.expandable path
    match property.kind.navigation?.bind fun binding => schema.type? binding.targetType with
    | some target => options.validate schema target
    | none => .ok ()
    NavigationRequest.validateAll schema type rest

end

end EdmQuery
