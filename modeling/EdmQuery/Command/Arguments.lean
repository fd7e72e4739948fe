import EdmQuery.Command.Basic

set_option autoImplicit false

namespace EdmQuery

/-- A command, and the file that its body goes to. -/
structure Invocation where
  command : Command
  outputFile? : Option String
deriving Repr

/-- Arguments sorted into options that stand alone, options with a value, and plain words. -/
structure Arguments where
  flags : List String
  values : List (String × String)
  words : List String
deriving Repr

namespace Arguments

def none : Arguments := ⟨[], [], []⟩

/-- The options that stand alone, under all their names. -/
def flagNames : List (String × String) :=
  [("-p", "--pretty"), ("--pretty", "--pretty"), ("-v", "--verbose"), ("--verbose", "--verbose")]

/-- The options with a value, under all their names. -/
def valueNames : List (String × String) :=
  [("-o", "--output"), ("--output", "--output"), ("--color", "--color"), ("-s", "--schema"),
    ("--schema", "--schema"), ("-d", "--data"), ("--data", "--data"), ("-f", "--filter"),
    ("--filter", "--filter"), ("--search", "--search"), ("--orderby", "--orderby"),
    ("--top", "--top"), ("--skip", "--skip"), ("--select", "--select"), ("--expand", "--expand"),
    ("-m", "--metadata"), ("--metadata", "--metadata"), ("-k", "--key"), ("--key", "--key")]

/-- An option and its value in one argument. -/
def joined? (argument : String) : Option (String × String) :=
  let (name, value) := Text.cutAtFirst '=' argument.toList
  if name.length < argument.length then
    (valueNames.lookup (String.ofList name)).map (·, String.ofList value)
  else Option.none

def ofList : List String → Except String Arguments
  | [] => .ok none
  | argument :: rest =>
    match flagNames.lookup argument, valueNames.lookup argument, joined? argument with
    | some name, _, _ => do
      let others ← ofList rest
      return { others with flags := name :: others.flags }
    | _, some name, _ =>
      match rest with
      | [] => .error ("a value is required for " ++ argument)
      | value :: rest => do
        let others ← ofList rest
        return { others with values := (name, value) :: others.values }
    | _, _, some (name, value) => do
      let others ← ofList rest
      return { others with values := (name, value) :: others.values }
    | _, _, _ =>
      if argument.toList.head? = some '-' then .error ("unexpected argument " ++ argument)
      else do
        let others ← ofList rest
        return { others with words := argument :: others.words }

def value? (arguments : Arguments) (name : String) : Option String := arguments.values.lookup name

def required (arguments : Arguments) (name : String) : Except String String :=
  match arguments.value? name with
  | some value => .ok value
  | Option.none => .error ("the argument " ++ name ++ " is required")

def count? (arguments : Arguments) (name : String) : Except String (Option Nat) :=
  match arguments.value? name with
  | some value =>
    match QueryOptions.readCount name value with
    | .ok count => .ok (some count)
    | .error error => .error error.message
  | Option.none => .ok Option.none

def level (arguments : Arguments) : Except String MetadataLevel :=
  MetadataLevel.ofText? ((arguments.value? "--metadata").getD "minimal")

/-- The options that a query takes; of these, reading one entity only takes some. -/
def options (arguments : Arguments) (isQuery : Bool) : Except String QueryOptions := do
  let shape : QueryOptions :=
    { QueryOptions.unset with
      select? := arguments.value? "--select"
      expand? := arguments.value? "--expand"
      level := ← arguments.level }
  if isQuery then
    return { shape with
      filter? := arguments.value? "--filter"
      search? := arguments.value? "--search"
      orderBy? := arguments.value? "--orderby"
      top? := ← arguments.count? "--top"
      skip? := ← arguments.count? "--skip" }
  else return shape

/-- The command that the words and options make up. -/
def invocation (arguments : Arguments) : Except String Invocation := do
  let (isQuery, set) ← match arguments.words with
    | ["query", set] => pure (true, set)
    | ["get", set] => pure (false, set)
    | _ => throw "a command and an entity set are required"
  let key? ← if isQuery then pure Option.none else some <$> arguments.required "--key"
  return ⟨⟨← arguments.required "--schema", ← arguments.required "--data", set, key?,
    ← arguments.options isQuery, arguments.flags.contains "--pretty"⟩, arguments.value? "--output"⟩

end Arguments

def Invocation.ofArguments (arguments : List String) : Except String Invocation := do
  (← Arguments.ofList arguments).invocation

end EdmQuery
