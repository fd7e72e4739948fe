import EdmQuery.Evaluation.Function
import EdmQuery.Pattern.Grammar
import EdmQuery.Text.CaseMapping
import EdmQuery.Text.Position

set_option autoImplicit false

namespace EdmQuery.TextFunctions

/-- A function of two texts. -/
def ofTexts (name : String) (result : List Char → List Char → Evaluated Primitive) :
    FunctionDefinition :=
  .fixed name 2 fun _ arguments => do
    match ← textArgument name arguments 0, ← textArgument name arguments 1 with
    | some first, some second => return some (← result first.toList second.toList)
    | _, _ => return none

/-- A function of one text. -/
def ofText (name : String) (result : List Char → Evaluated Primitive) : FunctionDefinition :=
  .fixed name 1 fun _ arguments => do
    match ← textArgument name arguments 0 with
    | some text => return some (← result text.toList)
    | none => return none

def textResult (text : List Char) : Evaluated Primitive := .ok (.string (String.ofList text))

def testResult (holds : Bool) : Evaluated Primitive := .ok (.boolean holds)

/-- The position of a text within another one, or minus one. -/
def indexOf (text needle : List Char) : Evaluated Primitive :=
  match Text.positionOf? needle text, Primitive.int32? (-1) with
  | some position, _ => countResult "indexof" position
  | none, some missing => .ok missing
  | none, none => .error (.overflow "indexof")

def matchesPattern (text pattern : List Char) : Evaluated Primitive :=
  match Pattern.ofText? (String.ofList pattern) with
  | some described => testResult (described.occursIn text)
  | none => .error (.invalidPattern (String.ofList pattern))

/-- The length may be left out, but if it is given it may be null. -/
def substring : FunctionDefinition :=
  ⟨"substring", 2, 3, fun _ arguments => do
    match ← textArgument "substring" arguments 0, ← integerArgument "substring" arguments 1 with
    | some text, some start =>
      if arguments.length < 3 then
        return some (← textResult (Text.part text.toList start none))
      else match ← integerArgument "substring" arguments 2 with
        | some length => return some (← textResult (Text.part text.toList start (some length)))
        | none => return none
    | _, _ => return none⟩

def functions : List FunctionDefinition :=
  [ofTexts "contains" fun text part => testResult (Text.occursIn part text),
    ofTexts "startswith" fun text start => testResult (start.isPrefixOf text),
    ofTexts "endswith" fun text ending => testResult (ending.isSuffixOf text),
    ofText "length" fun text => countResult "length" text.length,
    ofTexts "indexof" indexOf,
    substring,
    ofText "tolower" fun text => textResult (Text.lower text),
    ofText "toupper" fun text => textResult (Text.upper text),
    ofText "trim" fun text => textResult (Text.trim text),
    ofTexts "concat" fun first second => textResult (first ++ second),
    ofTexts "matchesPattern" matchesPattern]

end EdmQuery.TextFunctions
