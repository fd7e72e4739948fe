import EdmQuery.Error.Code
import EdmQuery.Error.Location

set_option autoImplicit false

namespace EdmQuery

inductive ErrorKind
  | parse
  | schema
  | request
  | source
  | system
deriving DecidableEq, Repr

namespace ErrorKind

/-- Malformed and unfit requests are the client's fault, everything else the server's. -/
def status : ErrorKind → Nat
  | parse | request => 400
  | schema | source | system => 500

def render : ErrorKind → String
  | parse => "parse"
  | schema => "schema"
  | request => "request"
  | source => "source"
  | system => "system"

end ErrorKind

/-- What an error says beyond its code and message, by kind. -/
inductive ErrorOrigin
  | parse (expression : String) (location : Option Location)
  | schema
  | request (target : Option String)
  | source
  | system (context : Option String)
deriving DecidableEq, Repr

structure Error where
  code : ErrorCode
  message : String
  origin : ErrorOrigin
deriving DecidableEq, Repr

instance : Inhabited Error := ⟨⟨default, "", .schema⟩⟩

abbrev Result (α : Type) := Except Error α

namespace Error

def parse (code : ErrorCode) (message expression : String) : Error :=
  ⟨code, message, .parse expression none⟩

def parseAt (code : ErrorCode) (message expression : String) (location : Location) : Error :=
  ⟨code, message, .parse expression (some location)⟩

def schema (code : ErrorCode) (message : String) : Error := ⟨code, message, .schema⟩

def request (code : ErrorCode) (message : String) : Error := ⟨code, message, .request none⟩

def requestAt (code : ErrorCode) (message target : String) : Error :=
  ⟨code, message, .request (some target)⟩

def source (code : ErrorCode) (message : String) : Error := ⟨code, message, .source⟩

def system (code : ErrorCode) (message : String) : Error := ⟨code, message, .system none⟩

/-- Only system errors carry a context. -/
def withContext (error : Error) (context : String) : Error :=
  match error.origin with
  | .system _ => { error with origin := .system (some context) }
  | _ => error

def quoted (text : String) : String := "\"" ++ text ++ "\""

def noSuchProperty (typeName property : String) : Error :=
  schema .noSuchProperty
    ("The type " ++ quoted typeName ++ " has no property named " ++ quoted property)

def duplicateProperty (owner property : String) : Error :=
  schema .duplicateProperty
    ("The property " ++ quoted property ++ " is already present on " ++ quoted owner)

def typeSealed (typeName : String) : Error :=
  schema .typeSealed ("The type " ++ quoted typeName ++ " is sealed and cannot be modified")

def unknownType (typeName : String) : Error :=
  schema .unknownType ("The type " ++ quoted typeName ++ " is not registered")

def alreadyOwned (property : String) : Error :=
  schema .alreadyOwned ("The value of property " ++ quoted property ++
    " already belongs to another instance and must be detached first")

def unknownEntitySet (name : String) : Error :=
  schema .unknownEntitySet ("The entity set " ++ quoted name ++ " is not registered")

def propertyNotBound (property : String) : Error :=
  schema .propertyNotBound ("The property " ++ quoted property ++ " has no value to replace")

def unknownExpandPath (path : String) : Error :=
  requestAt .unknownExpandPath
    ("The requested expand path " ++ quoted path ++ " does not exist on this entity type") path

def notExpandable (path : String) : Error :=
  requestAt .notExpandable
    ("The requested path " ++ quoted path ++
      " is not available for expansion on this entity type") path

def invalidSelect (path : String) : Error :=
  requestAt .invalidSelect
    ("The requested select property " ++ quoted path ++ " does not exist on this type") path

def unsupportedSource (shape : String) : Error :=
  source .invalidSource ("The provided source (" ++ shape ++ ") could not be converted to an entity")

def invalidValue (typeName raw : String) : Error :=
  source .invalidValue ("The value " ++ raw ++ " cannot be converted to " ++ typeName)

def malformed (message expression : String) : Error := parse .syntaxError message expression

def inputOutput (message : String) : Error := system .inputOutput message

def internal (message : String) : Error := system .internalError message

def configuration (message : String) : Error := system .configuration message

def kind (error : Error) : ErrorKind :=
  match error.origin with
  | .parse .. => .parse
  | .schema => .schema
  | .request _ => .request
  | .source => .source
  | .system _ => .system

/-- A missing entity is 404 whatever its kind; otherwise the kind decides. -/
def status (error : Error) : Nat :=
  if error.code = .entityNotFound then 404 else error.kind.status

def isClientError (error : Error) : Bool := error.status < 500

def location (error : Error) : Option Location :=
  match error.origin with
  | .parse _ location => location
  | _ => none

def render (error : Error) : String := error.code.render ++ ": " ++ error.message

end Error

end EdmQuery
