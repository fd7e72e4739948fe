import EdmQuery.Emission.Token
import EdmQuery.Error.Basic

set_option autoImplicit false

namespace EdmQuery

structure Output where
  limit? : Option Nat
  text : String
  written : Nat
deriving DecidableEq, Repr, Inhabited

namespace Output

def unlimited : Output := ⟨none, "", 0⟩

def limited (limit : Nat) : Output := ⟨some limit, "", 0⟩

def accepts (output : Output) (text : String) : Bool :=
  output.limit?.all fun limit => output.written + text.utf8ByteSize ≤ limit

def refusal : Error := .inputOutput "sink full"

def write (output : Output) (text : String) : Output × Result Unit :=
  if output.accepts text then
    ({ output with
      text := output.text ++ text
      written := output.written + text.utf8ByteSize }, .ok ())
  else (output, .error refusal)

/-- Writes texts up to the first that is refused. -/
def writeAll (output : Output) : List String → Output × Result Unit
  | [] => (output, .ok ())
  | text :: rest =>
    match output.write text with
    | (next, .ok ()) => next.writeAll rest
    | (next, .error error) => (next, .error error)

def writeTokens (output : Output) (layout : Layout) (tokens : List Token) :
    Output × Result Unit :=
  output.writeAll (layout.run tokens).2

end Output

end EdmQuery
