import EdmQuery.Emission.RequestText
import EdmQuery.Query.Filter
import EdmQuery.Query.SearchGrammar

set_option autoImplicit false

namespace EdmQuery

structure QueryOptions where
  filter? : Option String
  search? : Option String
  orderBy? : Option String
  select? : Option String
  expand? : Option String
  top? : Option Nat
  skip? : Option Nat
  level : MetadataLevel
deriving DecidableEq, Repr

/-- Options whose expressions are read. -/
structure Query where
  filter? : Option Node
  search? : Option SearchExpression
  orderBy : List OrderByItem
  request : RequestContext
  top? : Option Nat
  skip? : Option Nat

namespace QueryOptions

def unset : QueryOptions := ⟨none, none, none, none, none, none, none, .minimal⟩

instance : Inhabited QueryOptions := ⟨unset⟩

def invalid (name message : String) : Error := .parse .invalidQueryOption message name

/-- A count: digits, perhaps with a plus sign in front and blanks around, within 64 bits. -/
def readCount (name value : String) : Result Nat :=
  let digits := match Text.trim value.toList with
    | '+' :: rest => rest
    | other => other
  if digits ≠ [] ∧ digits.all isAsciiDigit ∧ digitsValue digits < Nat.pow 2 64 then
    .ok (digitsValue digits)
  else .error (invalid name
    (name ++ " must be a non-negative integer, got " ++ Error.quoted value))

/-- A text that is given for the first time. -/
def readText (name : String) (held? : Option String) (value : String) : Result (Option String) :=
  if held?.isSome then
    .error (invalid name ("Query option " ++ Error.quoted name ++ " given more than once"))
  else .ok (some value)

/-- Takes one parameter into account. Names without a dollar sign are nobody's business here; of a
count that is repeated, the last value stays. -/
def addParameter (options : QueryOptions) (name value : String) : Result QueryOptions := do
  match name with
  | "$filter" => return { options with filter? := ← readText name options.filter? value }
  | "$search" => return { options with search? := ← readText name options.search? value }
  | "$orderby" => return { options with orderBy? := ← readText name options.orderBy? value }
  | "$select" => return { options with select? := ← readText name options.select? value }
  | "$expand" => return { options with expand? := ← readText name options.expand? value }
  | "$top" => return { options with top? := some (← readCount name value) }
  | "$skip" => return { options with skip? := some (← readCount name value) }
  | other =>
    if other.toList.head? = some '$' then
      throw (invalid other ("Unsupported query option " ++ Error.quoted other))
    else return options

/-- The parameters of a query text: names and values with an equals sign between them. -/
def parameters (text : String) : List (String × String) :=
  ((Text.pieces '&' text.toList).filter (· ≠ [])).map fun piece =>
    let (name, value) := Text.cutAtFirst '=' piece
    (String.ofList name, String.ofList value)

/-- The options in a decoded query text. -/
def ofText (text : String) : Result QueryOptions :=
  (parameters text).foldlM (fun options (name, value) => options.addParameter name value) unset

/-- Reads every expression. -/
def compile (options : QueryOptions) : Result Query := do
  let filter? ← options.filter?.mapM Filter.ofText
  let search? ← options.search?.mapM Search.ofText
  let orderBy ← (options.orderBy?.map Filter.orderByOfText).getD (.ok [])
  let request ← RequestContext.ofOptions options.select? options.expand?
  return ⟨filter?, search?, orderBy, request.withLevel options.level, options.top?, options.skip?⟩

end QueryOptions

end EdmQuery
