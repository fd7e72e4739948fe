import EdmQuery.Calendar.Clock
import EdmQuery.Command.Arguments
import Std.Time.DateTime.Timestamp

set_option autoImplicit false

namespace EdmQuery.Main

def usage : String :=
  "Usage: edmquery query|get ENTITY_SET --schema FILE --data FILE [--key KEY] [--filter EXPRESSION]\n" ++
  "  [--search EXPRESSION] [--orderby ITEMS] [--top COUNT] [--skip COUNT] [--select NAMES]\n" ++
  "  [--expand ITEMS] [--metadata LEVEL] [--pretty] [--output FILE]"

/-- Why a file could not be used, as the system tells it. -/
def reason : IO.Error → String
  | .noFileOrDirectory _ code _ => "No such file or directory (os error " ++ toString code ++ ")"
  | .permissionDenied _ code _ => "Permission denied (os error " ++ toString code ++ ")"
  | other => toString other

def readText (path : String) : IO FileText := do
  try return .ok (← IO.FS.readFile path)
  catch error => return .error (reason error)

def readClock : IO DateTimeOffset := do
  let timestamp ← Std.Time.Timestamp.now
  let nanoseconds := timestamp.toNanosecondsSinceUnixEpoch.val
  return DateTimeOffset.ofUnixTime (nanoseconds / 1000000000) (nanoseconds % 1000000000).toNat

/-- Writes a body to standard output or to a file, and tells whether that worked. -/
def writeBody (body : String) : Option String → IO Bool
  | none => do
    IO.println body
    return true
  | some path => do
    try
      IO.FS.writeFile path body
      IO.eprintln ("Success: Output written to " ++ path)
      return true
    catch error =>
      IO.eprintln ("Error: Failed to create output file: " ++ path ++ ": " ++ reason error)
      return false

def run (invocation : Invocation) : IO UInt32 := do
  let schemaText ← readText invocation.command.schemaFile
  let dataText ← readText invocation.command.dataFile
  let now ← readClock
  match ((invocation.command.answer schemaText dataText now).run ⟨1⟩).1 with
  | .error failure =>
    IO.eprintln ("Error: " ++ failure.render)
    return 1
  | .ok answer =>
    let isWritten ← writeBody answer.body invocation.outputFile?
    match answer.failure? with
    | some failure =>
      if isWritten then IO.eprintln ("Error: " ++ failure.render)
      return 1
    | none => return if isWritten then 0 else 1

end EdmQuery.Main

def main (arguments : List String) : IO UInt32 :=
  match EdmQuery.Invocation.ofArguments arguments with
  | .ok invocation => EdmQuery.Main.run invocation
  | .error problem => do
    IO.eprintln ("error: " ++ problem ++ "\n\n" ++ EdmQuery.Main.usage)
    return 2
