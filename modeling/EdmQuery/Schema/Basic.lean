import EdmQuery.Annotation.Basic

set_option autoImplicit false

namespace EdmQuery

structure EntitySet where
  name : String
  type : ComplexType
deriving Inhabited

/-- The registered elements, in the order of their registration. -/
structure SchemaBuilder where
  namespaceName : String
  types : List ComplexType
  entitySets : List EntitySet
  annotations : List (AnnotationTarget × List Annotation)
deriving Inhabited

/-- A schema that passed the checks of its builder. -/
structure Schema where
  contents : SchemaBuilder
deriving Inhabited

namespace SchemaBuilder

def empty (namespaceName : String) : SchemaBuilder := ⟨namespaceName, [], [], []⟩

/-- Finds a type by its name, or by its name within the namespace. -/
def type? (builder : SchemaBuilder) (name : String) : Option ComplexType :=
  (Keyed.find? ComplexType.name name builder.types).or
    (Keyed.find? ComplexType.name (builder.namespaceName ++ "." ++ name) builder.types)

def entitySet? (builder : SchemaBuilder) (name : String) : Option EntitySet :=
  Keyed.find? EntitySet.name name builder.entitySets

/-- Registers a type in its sealed form. -/
def addType (builder : SchemaBuilder) (type : ComplexType) : Result SchemaBuilder :=
  if Keyed.contains ComplexType.name type.name builder.types then
    .error (.schema .duplicateType
      ("The type " ++ Error.quoted type.name ++ " is already registered"))
  else .ok { builder with types := builder.types ++ [type.toSealed] }

/-- Registers an entity set over a registered entity type. -/
def addEntitySet (builder : SchemaBuilder) (name typeName : String) : Result SchemaBuilder :=
  match (builder.type? typeName).filter ComplexType.isEntity with
  | some type =>
    .ok { builder with entitySets := Keyed.put EntitySet.name ⟨name, type⟩ builder.entitySets }
  | none => .error (.unknownType typeName)

/-- The registered element that a target stands for, under its full name. -/
def resolveTarget (builder : SchemaBuilder) : AnnotationTarget → Result AnnotationTarget
  | .service => .ok .service
  | .type name =>
    match builder.type? name with
    | some type => .ok (.type type.name)
    | none => .error (.unknownType name)
  | .property typeName property =>
    match builder.type? typeName with
    | some type =>
      if (type.property? property).isSome then .ok (.property type.name property)
      else .error (.noSuchProperty type.name property)
    | none => .error (.unknownType typeName)

def annotationsOf (builder : SchemaBuilder) (target : AnnotationTarget) : List Annotation :=
  (builder.annotations.lookup target).getD []

/-- Attaches an annotation behind those that its target has. -/
def annotate (builder : SchemaBuilder) (target : AnnotationTarget) (note : Annotation) :
    Result SchemaBuilder := do
  let resolved ← builder.resolveTarget target
  return { builder with
    annotations := Keyed.put Prod.fst (resolved, builder.annotationsOf resolved ++ [note])
      builder.annotations }

/-- The target type and the target set of a navigation property have to be registered. -/
def checkNavigation (builder : SchemaBuilder) (binding : NavigationBinding) : Result Unit :=
  if (builder.type? binding.targetType).isNone then .error (.unknownType binding.targetType)
  else match binding.targetSet? with
    | some set =>
      if (builder.entitySet? set).isNone then .error (.unknownEntitySet set) else .ok ()
    | none => .ok ()

def navigations (builder : SchemaBuilder) : List NavigationBinding :=
  builder.types.flatMap fun type =>
    type.properties.filterMap fun property => property.kind.navigation?

def build (builder : SchemaBuilder) : Result Schema := do
  builder.navigations.forM builder.checkNavigation
  return ⟨builder⟩

end SchemaBuilder

namespace Schema

def namespaceName (schema : Schema) : String := schema.contents.namespaceName

def types (schema : Schema) : List ComplexType := schema.contents.types

def entitySets (schema : Schema) : List EntitySet := schema.contents.entitySets

def type? (schema : Schema) (name : String) : Option ComplexType := schema.contents.type? name

def entitySet? (schema : Schema) (name : String) : Option EntitySet :=
  schema.contents.entitySet? name

def requireEntitySet (schema : Schema) (name : String) : Result EntitySet :=
  match schema.entitySet? name with
  | some set => .ok set
  | none => .error (.unknownEntitySet name)

/-- The annotations of an element that is given by its full name. -/
def annotationsOf (schema : Schema) (target : AnnotationTarget) : List Annotation :=
  schema.contents.annotationsOf target

/-- The elements that annotations can be attached to. -/
def targets (schema : Schema) : List AnnotationTarget :=
  .service :: schema.types.flatMap fun type =>
    .type type.name :: type.properties.map fun property => .property type.name property.name

/-- Makes a schema the one of the whole program, which can happen once. -/
def install (installed? : Option Schema) (schema : Schema) : Result Schema :=
  match installed? with
  | some _ => .error (.schema .schemaInstalled ("Cannot install schema " ++ schema.namespaceName ++
      ": a schema is already installed"))
  | none => .ok schema

end Schema

end EdmQuery
