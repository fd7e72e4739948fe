import EdmQuery.Error.Basic
import EdmQuery.Text.Category

set_option autoImplicit false

namespace EdmQuery

inductive ParseCause
  | unterminatedString
  | invalidLiteral
  | invalidLambda
  | tooDeep
  | unexpected
deriving DecidableEq, Repr

/-- Why a parser failed, and the text that was left when it did. -/
structure ParseFailure where
  cause : ParseCause
  rest : List Char
deriving DecidableEq, Repr

abbrev Parse (α : Type) := Except ParseFailure α

abbrev Parser (α : Type) := List Char → Parse (α × List Char)

namespace Parsing

/-- How deep groups, calls, lambdas and operators in front of their operand may nest. -/
def maxDepth : Nat := 50

def fail {α : Type} (cause : ParseCause) (rest : List Char) : Parse (α × List Char) := .error ⟨cause, rest⟩

def isGap (char : Char) : Bool := char = ' ' || char = '\t' || char = '\r' || char = '\n'

/-- The text behind blanks, tabs and line ends. -/
def skipGap (text : List Char) : List Char := text.dropWhile isGap

def isNameStart (char : Char) : Bool := Text.isAlphabetic char || char = '_' || char = '$'

def isNamePart (char : Char) : Bool := Text.isAlphanumeric char || char = '_'

/-- A letter, an underscore or a dollar sign, and the letters, digits and underscores behind it. -/
def name? : List Char → Option (String × List Char)
  | [] => none
  | char :: rest =>
    if isNameStart char then
      some (String.ofList (char :: rest.takeWhile isNamePart), rest.dropWhile isNamePart)
    else none

/-- The text behind a given whole word. -/
def keyword? (word : String) (text : List Char) : Option (List Char) :=
  (name? text).bind fun (name, rest) => if name = word then some rest else none

/-- The text behind a character that has to stand here, gaps before it allowed. -/
def expect (char : Char) (cause : ParseCause) (text : List Char) : Parse (List Char) :=
  match skipGap text with
  | first :: rest => if first = char then .ok rest else .error ⟨cause, first :: rest⟩
  | [] => .error ⟨cause, []⟩

/-- The code of a failure. One without a cause of its own is an unexpected end if only white space
is left, and otherwise the code of the option that is parsed. -/
def failureCode (fallback : ErrorCode) (failure : ParseFailure) : ErrorCode :=
  match failure.cause with
  | .unterminatedString => .unterminatedString
  | .invalidLiteral => .invalidLiteral
  | .invalidLambda => .invalidLambda
  | .tooDeep => .expressionTooDeep
  | .unexpected => if (Text.trim failure.rest).isEmpty then .unexpectedEnd else fallback

def failureError (fallback : ErrorCode) (source : String) (failure : ParseFailure) : Error :=
  let code := failureCode fallback failure
  let location := Location.atRemaining source.toList failure.rest
  .parseAt code (code.info.description ++ " at " ++ location.render) source location

/-- The error for text behind a complete expression. In a filter a word there is taken for an
operator that does not exist. -/
def leftoverError (fallback : ErrorCode) (inFilter : Bool) (source : String) (rest : List Char) :
    Error :=
  let location := Location.atRemaining source.toList rest
  match (if inFilter then name? rest else none) with
  | some (word, _) =>
    .requestAt .unknownOperator
      ("Unknown operator " ++ Error.quoted word ++ " at " ++ location.render) word
  | none =>
    .parseAt fallback
      ("Unexpected " ++ Error.quoted (String.ofList rest) ++ " at " ++ location.render)
      source location

/-- Runs a parser over the whole of a source. -/
def complete {α : Type} (parser : Parser α) (fallback : ErrorCode) (inFilter : Bool)
    (source : String) : Result α :=
  match parser source.toList with
  | .error failure => .error (failureError fallback source failure)
  | .ok (value, rest) =>
    if skipGap rest = [] then .ok value
    else .error (leftoverError fallback inFilter source (skipGap rest))

end Parsing

end EdmQuery
