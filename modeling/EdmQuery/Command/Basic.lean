import EdmQuery.Error.Envelope
import EdmQuery.Evaluation.StandardFunctions
import EdmQuery.Schema.Compile
import EdmQuery.Service.Basic

set_option autoImplicit false

namespace EdmQuery

/-- With a key, one entity is read; without, the whole set is queried. -/
structure Command where
  schemaFile : String
  dataFile : String
  entitySet : String
  key? : Option String
  options : QueryOptions
  isPretty : Bool
deriving Repr, Inhabited

/-- An error with what was being done, the outermost first. -/
structure CommandFailure where
  attempts : List String
  error : Error

def CommandFailure.render (failure : CommandFailure) : String :=
  ": ".intercalate (failure.attempts ++ [failure.error.render])

/-- The text of a file, or why it could not be read. -/
abbrev FileText := Except String String

/-- What a command leaves behind. -/
structure CommandAnswer where
  body : String
  failure? : Option CommandFailure

namespace Command

def fileText (path : String) (text : FileText) : Result String :=
  match text with
  | .ok content => .ok content
  | .error reason => .error ((Error.inputOutput reason).withContext path)

def attempt {α : Type} (attempted : String) (step : Build α) : ExceptT CommandFailure Building α :=
  do
    match ← (step.run : Building (Result α)) with
    | .ok value => return value
    | .error error => throw ⟨[attempted], error⟩

/-- The service over the two documents. -/
def load (command : Command) (schemaText dataText : FileText) (now : DateTimeOffset) :
    ExceptT CommandFailure Building Service := do
  let schema ← attempt ("Failed to load schema: " ++ command.schemaFile) do
    Schema.ofText (← Build.ofResult (fileText command.schemaFile schemaText))
  let store ← attempt ("Failed to load data: " ++ command.dataFile) do
    let text ← Build.ofResult (fileText command.dataFile dataText)
    Build.ofResult (RecordStore.ofText schema command.dataFile text)
  return ⟨schema, store.toSource, .standard, fun _ _ => pure none, now⟩

/-- The body of the service's answer. -/
def respond (command : Command) (service : Service) : Building (Result String) := do
  let layout := if command.isPretty then Layout.pretty else Layout.compact
  match command.key? with
  | some key =>
    let (output, outcome) ←
      service.readText command.entitySet key command.options layout .unlimited
    return outcome.map fun _ => output.text
  | none =>
    let (output, outcome) ← service.query command.entitySet command.options layout .unlimited
    return outcome.map fun _ => output.text

/-- The body alone; a request that is refused has none. -/
def body (command : Command) (schemaText dataText : FileText) (now : DateTimeOffset) :
    ExceptT CommandFailure Building String := do
  match ← command.respond (← command.load schemaText dataText now) with
  | .ok text => return text
  | .error error => throw ⟨[], error⟩

/-- The error of a refused request, as it is sent to a client. -/
def refusal (command : Command) (error : Error) : CommandAnswer :=
  let json := error.envelope.toJson
  ⟨if command.isPretty then json.indented 0 else json.compact,
    some ⟨["Request failed with status " ++ toString error.status], error⟩⟩

/-- What the command leaves behind, unless its files cannot be loaded. -/
def answer (command : Command) (schemaText dataText : FileText) (now : DateTimeOffset) :
    ExceptT CommandFailure Building CommandAnswer := do
  match ← command.respond (← command.load schemaText dataText now) with
  | .ok text => return ⟨text, none⟩
  | .error error => return command.refusal error

end Command

end EdmQuery
