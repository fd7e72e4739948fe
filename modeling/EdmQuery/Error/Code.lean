set_option autoImplicit false

namespace EdmQuery

/-- The number of an error, written with at least four digits. -/
structure ErrorCode where
  number : UInt16
deriving DecidableEq, Repr, Inhabited

/-- What is fixed about a code: its stable identifier, a short description and optional advice. -/
structure ErrorInfo where
  slug : String
  description : String
  help : Option String := none
deriving DecidableEq, Repr

namespace ErrorCode

def syntaxError : ErrorCode := ⟨1⟩
def unexpectedEnd : ErrorCode := ⟨2⟩
def invalidLiteral : ErrorCode := ⟨3⟩
def unterminatedString : ErrorCode := ⟨4⟩
def invalidLambda : ErrorCode := ⟨5⟩
def invalidOrderby : ErrorCode := ⟨6⟩
def invalidSearch : ErrorCode := ⟨7⟩
def invalidQueryOption : ErrorCode := ⟨8⟩
def expressionTooDeep : ErrorCode := ⟨9⟩

def noSuchProperty : ErrorCode := ⟨100⟩
def duplicateProperty : ErrorCode := ⟨101⟩
def typeSealed : ErrorCode := ⟨102⟩
def unknownType : ErrorCode := ⟨103⟩
def duplicateType : ErrorCode := ⟨104⟩
def alreadyOwned : ErrorCode := ⟨105⟩
def invalidKey : ErrorCode := ⟨106⟩
def schemaInstalled : ErrorCode := ⟨107⟩
def unknownEntitySet : ErrorCode := ⟨108⟩
def propertyNotBound : ErrorCode := ⟨109⟩

def unknownExpandPath : ErrorCode := ⟨200⟩
def notExpandable : ErrorCode := ⟨201⟩
def invalidSelect : ErrorCode := ⟨202⟩
def unknownProperty : ErrorCode := ⟨203⟩
def unknownOperator : ErrorCode := ⟨204⟩
def typeMismatch : ErrorCode := ⟨205⟩
def invalidArgumentCount : ErrorCode := ⟨206⟩
def unboundVariable : ErrorCode := ⟨207⟩
def divisionByZero : ErrorCode := ⟨208⟩
def overflow : ErrorCode := ⟨209⟩
def invalidPattern : ErrorCode := ⟨210⟩
def entityNotFound : ErrorCode := ⟨211⟩
def evaluationTooDeep : ErrorCode := ⟨212⟩

def invalidSource : ErrorCode := ⟨300⟩
def invalidValue : ErrorCode := ⟨301⟩
def navigationFailed : ErrorCode := ⟨302⟩

def internalError : ErrorCode := ⟨400⟩
def inputOutput : ErrorCode := ⟨401⟩
def configuration : ErrorCode := ⟨402⟩

/-- The entry of a code; codes outside the table share the entry of the unknown error. -/
def info (code : ErrorCode) : ErrorInfo :=
  match code.number.toNat with
  | 1 => ⟨"syntax_error", "Unexpected token", none⟩
  | 2 => ⟨"unexpected_end", "Unexpected end of expression", none⟩
  | 3 => ⟨"invalid_literal", "Invalid literal", none⟩
  | 4 => ⟨"unterminated_string", "Unterminated string literal", none⟩
  | 5 => ⟨"invalid_lambda", "Invalid lambda expression", none⟩
  | 6 => ⟨"invalid_orderby", "Invalid orderby item", none⟩
  | 7 => ⟨"invalid_search", "Invalid search expression", none⟩
  | 8 => ⟨"invalid_query_option", "Invalid system query option", none⟩
  | 9 => ⟨"expression_too_deep", "Expression is nested too deeply",
      some "Flatten parenthesised groups or split the expression"⟩
  | 100 => ⟨"no_such_property", "Type has no such property",
      some "Only properties declared on the type (or any key on an open type) may be set"⟩
  | 101 => ⟨"duplicate_property", "Property already bound or declared", none⟩
  | 102 => ⟨"type_sealed", "Type is sealed", none⟩
  | 103 => ⟨"unknown_type", "Type is not registered", none⟩
  | 104 => ⟨"duplicate_type", "Type already registered", none⟩
  | 105 => ⟨"property_already_owned", "Property value already has an owner", none⟩
  | 106 => ⟨"invalid_key", "Invalid entity key", none⟩
  | 107 => ⟨"schema_installed", "Schema already installed", none⟩
  | 108 => ⟨"unknown_entity_set", "Entity set is not registered", none⟩
  | 109 => ⟨"property_not_bound", "Property has no bound value", none⟩
  | 200 => ⟨"nonexistent_expand_path", "Expand path does not exist",
      some "Expand paths must name a navigation property of the entity type"⟩
  | 201 => ⟨"path_not_expandable", "Path is not available for expansion", none⟩
  | 202 => ⟨"invalid_select", "Select path does not exist", none⟩
  | 203 => ⟨"unknown_property", "Property path does not exist", none⟩
  | 204 => ⟨"unknown_operator", "Unknown function or operator", none⟩
  | 205 => ⟨"type_mismatch", "Incompatible operand types", none⟩
  | 206 => ⟨"invalid_argument_count", "Invalid argument count", none⟩
  | 207 => ⟨"unbound_variable", "Lambda variable is not in scope", none⟩
  | 208 => ⟨"division_by_zero", "Division by zero", none⟩
  | 209 => ⟨"overflow", "Arithmetic overflow", none⟩
  | 210 => ⟨"invalid_pattern", "Invalid regular expression", none⟩
  | 211 => ⟨"entity_not_found", "Entity not found", none⟩
  | 212 => ⟨"evaluation_too_deep", "Expression tree is too deep to evaluate", none⟩
  | 300 => ⟨"invalid_source", "Unsupported source shape", none⟩
  | 301 => ⟨"invalid_value", "Value cannot be converted to the declared type", none⟩
  | 302 => ⟨"navigation_failed", "Navigation property could not be resolved", none⟩
  | 400 => ⟨"internal_error", "Internal error", none⟩
  | 401 => ⟨"io_error", "I/O error", none⟩
  | 402 => ⟨"configuration_error", "Configuration error", none⟩
  | _ => ⟨"unknown_error", "Unknown error", none⟩

def slug (code : ErrorCode) : String := code.info.slug

def isParseError (code : ErrorCode) : Bool := 1 ≤ code.number && code.number < 100
def isSchemaError (code : ErrorCode) : Bool := 100 ≤ code.number && code.number < 200
def isRequestError (code : ErrorCode) : Bool := 200 ≤ code.number && code.number < 300
def isSourceError (code : ErrorCode) : Bool := 300 ≤ code.number && code.number < 400
def isSystemError (code : ErrorCode) : Bool := 400 ≤ code.number && code.number < 500

/-- The published spelling: `ODATA` and the number padded with zeros to four digits. -/
def render (code : ErrorCode) : String :=
  let digits := toString code.number.toNat
  "ODATA" ++ "".pushn '0' (4 - digits.length) ++ digits

end ErrorCode

end EdmQuery
