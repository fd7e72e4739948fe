import EdmQuery.Emission.Request
import EdmQuery.Text.Category

set_option autoImplicit false

namespace EdmQuery

namespace RequestContext

/-- Expansions may nest as deep as this. -/
def maxExpandDepth : Nat := 32

def invalidOption (option : String) (raw : List Char) (message : String) : Error :=
  .parse .invalidQueryOption (option ++ ": " ++ message) (String.ofList raw)

/-- Cuts a text at the separators outside of parentheses, given how many are open. None if they
are not balanced. -/
def splitTopLevel? (separator : Char) : Nat → List Char → Option (List (List Char))
  | 0, [] => some [[]]
  | _ + 1, [] => none
  | opened, char :: rest =>
    if char = separator ∧ opened = 0 ∧ char ≠ '(' ∧ char ≠ ')' then
      (splitTopLevel? separator 0 rest).map ([] :: ·)
    else
      let now? := if char = '(' then some (opened + 1)
        else if char = ')' then (if opened = 0 then none else some (opened - 1))
        else some opened
      match now? with
      | none => none
      | some now =>
        match splitTopLevel? separator now rest with
        | some (piece :: pieces) => some ((char :: piece) :: pieces)
        | other => other

def splitTopLevel (separator : Char) (option : String) (raw : List Char) :
    Result (List (List Char)) :=
  match splitTopLevel? separator 0 raw with
  | some pieces => .ok pieces
  | none => .error (invalidOption option raw "Unbalanced parentheses")

/-- A segment has letters, numbers and underscores. -/
def isSegment (segment : List Char) : Bool :=
  !segment.isEmpty && segment.all fun char => Text.isAlphanumeric char || char == '_'

def isPath (item : List Char) : Bool := (Text.pieces '/' item).all isSegment

/-- The trimmed items of a selection. -/
def selectItems (raw : List Char) : Result (List String) := do
  (← splitTopLevel ',' "$select" raw).mapM fun piece =>
    let item := Text.trim piece
    if item = ['*'] || isPath item then .ok (String.ofList item)
    else .error (invalidOption "$select" raw
      ("Invalid select item " ++ Error.quoted (String.ofList item)))

def parseSelect (context : RequestContext) (raw : List Char) : Result RequestContext := do
  return context.addSelect (← selectItems raw)

/-- An item up to its first opening parenthesis, and what stands between that and the closing one
at the end, if there are any. -/
def splitOptions (raw item : List Char) : Result (List Char × Option (List Char)) :=
  match item.dropWhile (· ≠ '(') with
  | [] => .ok (item, none)
  | _ :: rest =>
    match rest.reverse with
    | ')' :: inner => .ok (item.takeWhile (· ≠ '('), some inner.reverse)
    | _ => .error (invalidOption "$expand" raw
      ("Unbalanced options in " ++ Error.quoted (String.ofList item)))

/-- How the expansions of a text are added to a context. -/
abbrev ExpandReader := List Char → RequestContext → RequestContext × Result Unit

/-- Reads one of the options of an item, given how further expansions are read. -/
def readOption (expand : ExpandReader) (raw : List Char) (options : RequestContext)
    (piece : List Char) : Result RequestContext :=
  let option := Text.trim piece
  let unsupported := invalidOption "$expand" raw
    ("Unsupported expand option " ++ Error.quoted (String.ofList option))
  match option.dropWhile (· ≠ '=') with
  | [] => .error unsupported
  | _ :: value =>
    let name := option.takeWhile (· ≠ '=')
    if name = "$select".toList then options.parseSelect value
    else if name = "$expand".toList then
      match expand value options with
      | (expanded, .ok ()) => .ok expanded
      | (_, .error error) => .error error
    else .error unsupported

def readItem (expand : ExpandReader) (raw piece : List Char) : Result NavigationRequest := do
  let item := Text.trim piece
  let (beforeOptions, nested?) ← splitOptions raw item
  let path := Text.trim beforeOptions
  if isPath path then
    match nested? with
    | none => return ⟨String.ofList path, default⟩
    | some nested =>
      let pieces ← splitTopLevel ';' "$expand" nested
      return ⟨String.ofList path, ← pieces.foldlM (readOption expand raw) default⟩
  else throw (invalidOption "$expand" raw
    ("Invalid expand item " ++ Error.quoted (String.ofList item)))

/-- Adds the items up to the first that is not well-formed. -/
def addItems (expand : ExpandReader) (raw : List Char) :
    List (List Char) → RequestContext → RequestContext × Result Unit
  | [], context => (context, .ok ())
  | piece :: rest, context =>
    match readItem expand raw piece with
    | .ok request => addItems expand raw rest (context.addExpand request)
    | .error error => (context, .error error)

/-- Adds the expansions of a text, with so many levels left. -/
def expandWithin : Nat → ExpandReader
  | 0, raw, context =>
    (context, .error (.parse .expressionTooDeep ("$expand: options nest more than " ++
      toString maxExpandDepth ++ " levels deep") (String.ofList raw)))
  | levels + 1, raw, context =>
    match splitTopLevel ',' "$expand" raw with
    | .ok pieces => addItems (expandWithin levels) raw pieces context
    | .error error => (context, .error error)

/-- Adds the expansions of a text; those before a malformed one stay. -/
def parseExpand (context : RequestContext) (raw : List Char) : RequestContext × Result Unit :=
  expandWithin maxExpandDepth raw context

/-- The context that the values of the two options describe. -/
def ofOptions (select? expand? : Option String) : Result RequestContext := do
  let selected ← match select? with
    | some select => default.parseSelect select.toList
    | none => .ok default
  match expand? with
  | some expand =>
    match selected.parseExpand expand.toList with
    | (context, .ok ()) => .ok context
    | (_, .error error) => .error error
  | none => .ok selected

end RequestContext

end EdmQuery
