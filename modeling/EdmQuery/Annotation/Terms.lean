import EdmQuery.Annotation.Basic

set_option autoImplicit false

namespace EdmQuery.Annotation

def defaultNamespaceTerm : String := "Org.OData.Core.V1.DefaultNamespace"

def descriptionTerm : String := "Org.OData.Core.V1.Description"

def callbackSupportedTerm : String := "Org.OData.Capabilities.V1.CallbackSupported"

def deepInsertSupportTerm : String := "Org.OData.Capabilities.V1.DeepInsertSupport"

/-- A sealed record type with the properties in their order. -/
def recordType (name : String) (properties : List (String × ValueType)) : ComplexType :=
  { ComplexType.empty name with
    properties := properties.map fun (property, type) => .declared property type
    isSealed := true }

def callbackProtocolType : ComplexType :=
  recordType "Org.OData.Capabilities.V1.CallbackProtocol"
    [("Id", .primitive .string), ("UrlTemplate", .primitive .string),
      ("DocumentationUrl", .primitive .string)]

def callbackType : ComplexType :=
  recordType "Org.OData.Capabilities.V1.CallbackType"
    [("CallbackProtocols", .collection (.complex callbackProtocolType))]

def deepInsertSupportType : ComplexType :=
  recordType "Org.OData.Capabilities.V1.DeepInsertSupportType"
    [("Supported", .primitive .boolean), ("ContentIDSupported", .primitive .boolean)]

/-- Binds a value under a name that the type of the record declares. -/
def bindDeclared (record : ComplexValue) (name : String) (value : Value) : Result ComplexValue :=
  match record.type.property? name with
  | some property => record.addProperty (.unattached property (some value))
  | none => .error (.noSuchProperty record.type.name name)

def defaultNamespace : Annotation := ⟨defaultNamespaceTerm, .primitive (.boolean true)⟩

def description (text : String) : Annotation := ⟨descriptionTerm, .primitive (.string text)⟩

/-- Callbacks over the one protocol that is known. -/
def callbackSupported : Build Annotation := do
  let protocol ← ComplexValue.ofType callbackProtocolType
  let protocol ← Build.ofResult (bindDeclared protocol "Id" (.primitive (.string "http")))
  let record ← ComplexValue.ofType callbackType
  let record ← Build.ofResult
    (bindDeclared record "CallbackProtocols" (.collection [.complex protocol]))
  return ⟨callbackSupportedTerm, .complex record⟩

/-- Deep inserts, with support for content identifiers; both start out supported. -/
def deepInsertSupport : Build Annotation := do
  let record ← ComplexValue.ofType deepInsertSupportType
  let record ← Build.ofResult (bindDeclared record "Supported" (.primitive (.boolean true)))
  let record ← Build.ofResult
    (bindDeclared record "ContentIDSupported" (.primitive (.boolean true)))
  return ⟨deepInsertSupportTerm, .complex record⟩

/-- Sets a flag of a record anew. -/
def setFlag (note : Annotation) (name : String) (value : Bool) : Result Annotation :=
  match note.value with
  | .complex record => do
    return { note with value := .complex (← record.replace name
      (some (.primitive (.boolean value)))) }
  | _ => .error (.internal ("Annotation " ++ note.term ++ " has no record value"))

def setSupported (note : Annotation) (value : Bool) : Result Annotation :=
  note.setFlag "Supported" value

def setContentIdSupported (note : Annotation) (value : Bool) : Result Annotation :=
  note.setFlag "ContentIDSupported" value

def flag? (note : Annotation) (name : String) : Option Bool :=
  (note.record?.bind (·.get? name)).bind fun binding => binding.primitive?.bind Primitive.bool?

def supported? (note : Annotation) : Option Bool := note.flag? "Supported"

def contentIdSupported? (note : Annotation) : Option Bool :=
  note.flag? "ContentIDSupported"

end EdmQuery.Annotation
