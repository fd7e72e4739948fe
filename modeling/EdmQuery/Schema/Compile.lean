import EdmQuery.Schema.Document

set_option autoImplicit false

/- Schemas from documents. A name without a dot is taken in the namespace of the document. Complex
types may refer to each other in any order: one that cannot be compiled yet, and refers to a complex
type of the document, is put off until the others were compiled. Entity types, entity sets and
annotations follow in the order of the document. -/
namespace EdmQuery

/-- What a type is spelled as: a name, or a collection of something. -/
inductive TypeReference
  | named (name : String)
  | collection (element : TypeReference)
deriving DecidableEq, Repr

namespace TypeReference

/-- What stands between `Collection(` and the closing parenthesis at the end. -/
def element? (text : List Char) : Option (List Char) :=
  let opening := "Collection(".toList
  if opening.isPrefixOf text then
    match (text.drop opening.length).reverse with
    | ')' :: inner => some inner.reverse
    | _ => none
  else none

/-- Reads at most a given number of collections around a name. -/
def read : Nat → List Char → TypeReference
  | 0, text => .named (String.ofList text)
  | fuel + 1, text =>
    match element? text with
    | some inner => .collection (read fuel inner)
    | none => .named (String.ofList text)

/-- A text has room for fewer collections than it has characters. -/
def ofText (text : String) : TypeReference := read text.toList.length text.toList

/-- The type that a reference stands for, given what its name stands for. -/
def resolve {m : Type → Type} [Monad m] (ofName : String → m ValueType) :
    TypeReference → m ValueType
  | .named name => ofName name
  | .collection element => return .collection (← element.resolve ofName)

theorem length_element? {text inner : List Char} (found : element? text = some inner) :
    inner.length < text.length := by
  unfold element? at found
  simp only at found
  split at found
  · split at found
    · rename_i rest reversed
      obtain rfl := Option.some.inj found
      have lengths := congrArg List.length reversed
      simp only [List.length_reverse, List.length_drop, List.length_cons] at lengths ⊢
      omega
    · exact absurd found (by simp)
  · exact absurd found (by simp)

end TypeReference

namespace SchemaDocument

def qualify (document : SchemaDocument) (name : String) : String :=
  if name.toList.contains '.' then name else document.namespaceName ++ "." ++ name

/-- A name is looked for among primitive types and then among registered complex types. -/
def resolveName (document : SchemaDocument) (builder : SchemaBuilder) (name : String) :
    Result ValueType :=
  let primitive? := if "Edm.".toList.isPrefixOf name.toList then
      PrimitiveType.ofName? (PrimitiveType.stripNamespace name)
    else none
  if name = untypedName then .ok .untyped
  else match primitive? with
    | some type => .ok (.primitive type)
    | none =>
      match (builder.type? (document.qualify name)).filter (!·.isEntity) with
      | some type => .ok (.complex type)
      | none => .error (.unknownType name)

def compileProperty (document : SchemaDocument) (builder : SchemaBuilder)
    (property : PropertyDocument) : Result Property := do
  let type ← (TypeReference.ofText property.typeName).resolve (document.resolveName builder)
  return ⟨property.name, type, property.isNullable, .declared⟩

/-- A navigation property leads to an entity type, or to a collection of one. -/
def compileNavigation (document : SchemaDocument) (navigation : NavigationDocument) : Property :=
  let (target, isCollection) := match TypeReference.element? navigation.typeName.toList with
    | some element => (String.ofList element, true)
    | none => (navigation.typeName, false)
  .navigation navigation.name
    ⟨document.qualify target, isCollection, navigation.targetSet?, navigation.isExpandable⟩

def addCompiled (document : SchemaDocument) (builder : SchemaBuilder) (type : ComplexType)
    (property : PropertyDocument) : Result ComplexType := do
  type.addProperty (← document.compileProperty builder property)

/-- A type with its properties and then its navigation properties. The key has to be one of them. -/
def compileType (document : SchemaDocument) (builder : SchemaBuilder) (isEntity : Bool)
    (type : TypeDocument) : Result ComplexType := do
  let name := document.qualify type.name
  if isEntity && type.key?.isNone then
    throw (.configuration ("Entity type " ++ name ++ " has no key"))
  let key? := if isEntity then type.key? else none
  let draft : ComplexType := ⟨name, isEntity, key?, type.isOpen, false, []⟩
  let stored ← type.properties.foldlM (document.addCompiled builder) draft
  let complete ← stored.addProperties (type.navigations.map document.compileNavigation)
  match key? with
  | some key =>
    if (complete.property? key).isSome then return complete
    else throw (.noSuchProperty name key)
  | none => return complete

/-- Whether a property of a type refers to a complex type of the document, be it directly or as the
element of a collection. -/
def refersToComplex (document : SchemaDocument) (type : TypeDocument) : Bool :=
  type.properties.any fun property =>
    let name := match TypeReference.element? property.typeName.toList with
      | some element => String.ofList element
      | none => property.typeName
    document.complexTypes.any fun other => document.qualify other.name == document.qualify name

/-- Compiles what can be compiled, and keeps the rest with the reasons why it cannot be yet. -/
def compilePending (document : SchemaDocument) :
    List TypeDocument → SchemaBuilder → Result (SchemaBuilder × List (TypeDocument × Error))
  | [], builder => .ok (builder, [])
  | type :: rest, builder =>
    match document.compileType builder false type with
    | .ok compiled => do
      document.compilePending rest (← builder.addType compiled)
    | .error error =>
      if document.refersToComplex type then do
        let (extended, deferred) ← document.compilePending rest builder
        return (extended, (type, error) :: deferred)
      else .error error

/-- Compiles in rounds until nothing is left, or until a round brings nothing new. -/
def compileComplex (document : SchemaDocument) :
    Nat → List TypeDocument → SchemaBuilder → Result SchemaBuilder
  | 0, _, builder => .ok builder
  | rounds + 1, pending, builder => do
    let (extended, deferred) ← document.compilePending pending builder
    match deferred with
    | [] => return extended
    | (_, error) :: _ =>
      if deferred.length = pending.length then throw error
      else document.compileComplex rounds (deferred.map Prod.fst) extended

def compileEntityType (document : SchemaDocument) (builder : SchemaBuilder) (type : TypeDocument) :
    Result SchemaBuilder := do
  builder.addType (← document.compileType builder true type)

def compileEntitySet (document : SchemaDocument) (builder : SchemaBuilder)
    (set : EntitySetDocument) : Result SchemaBuilder :=
  builder.addEntitySet set.name (document.qualify set.entityType)

/-- The text before and after the first slash, if there is one. -/
def splitAtSlash (text : List Char) : List Char × Option (List Char) :=
  (text.takeWhile (· ≠ '/'),
    match text.dropWhile (· ≠ '/') with
    | [] => none
    | _ :: rest => some rest)

def annotationTarget (document : SchemaDocument) (target : String) : AnnotationTarget :=
  if target = "$service" then .service
  else match splitAtSlash target.toList with
    | (typeName, some property) =>
      .property (document.qualify (String.ofList typeName)) (String.ofList property)
    | (_, none) => .type (document.qualify target)

def compileAnnotation (document : SchemaDocument) (builder : SchemaBuilder)
    (note : AnnotationDocument) : Build SchemaBuilder := do
  match ← Value.infer note.value with
  | none =>
    throw (.configuration ("Annotation " ++ note.term ++ " has a null value"))
  | some value =>
    Build.ofResult (builder.annotate (document.annotationTarget note.target) ⟨note.term, value⟩)

def compile (document : SchemaDocument) : Build Schema := do
  let complex ← Build.ofResult (document.compileComplex (document.complexTypes.length + 1)
    document.complexTypes (.empty document.namespaceName))
  let typed ← Build.ofResult (document.entityTypes.foldlM document.compileEntityType complex)
  let withSets ← Build.ofResult (document.entitySets.foldlM document.compileEntitySet typed)
  let annotated ← document.annotations.foldlM document.compileAnnotation withSets
  Build.ofResult annotated.build

end SchemaDocument

/-- The schema that the text of a document describes. -/
def Schema.ofText (text : String) : Build Schema := do
  (← Build.ofResult (SchemaDocument.ofText text)).compile

end EdmQuery
