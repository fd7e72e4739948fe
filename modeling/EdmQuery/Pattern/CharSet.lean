import EdmQuery.Text.CaseFolding
import EdmQuery.Text.Category

set_option autoImplicit false

namespace EdmQuery

/-- Properties of characters other than their category. -/
inductive CharProperty
  | any
  | ascii
  | assigned
  | alphabetic
  | lowercase
  | uppercase
  | blank
  | joinControl
deriving DecidableEq, Repr

namespace CharProperty

/-- Capital letters, and numerals and signs that look like them. -/
def isUppercase (char : Char) : Bool :=
  let code := char.toNat
  Text.isCategory "Lu" char || (0x2160 ≤ code && code ≤ 0x216f) ||
    (0x24b6 ≤ code && code ≤ 0x24cf) || (0x1f130 ≤ code && code ≤ 0x1f149) ||
    (0x1f150 ≤ code && code ≤ 0x1f169) || (0x1f170 ≤ code && code ≤ 0x1f189)

def holds (kind : CharProperty) (char : Char) : Bool :=
  match kind with
  | any => true
  | ascii => char.toNat < 128
  | assigned => !Text.isUnassigned char
  | alphabetic => Text.isAlphabetic char
  | lowercase => Text.isCased char && !isUppercase char && !Text.isCategory "Lt" char
  | uppercase => isUppercase char
  | blank => Text.isBlank char
  | joinControl => char.toNat = 0x200c || char.toNat = 0x200d

end CharProperty

inductive CharSet
  | nothing
  | range (first last : Char)
  | category (name : String)
  | property (kind : CharProperty)
  | folded (set : CharSet)
  | negated (set : CharSet)
  | union (first second : CharSet)
  | intersection (first second : CharSet)
deriving DecidableEq, Repr

namespace CharSet

/-- A category is named by one or two letters, one that no character has by `Cn`. -/
def inCategory (name : String) (char : Char) : Bool :=
  if name = "Cn" then Text.isUnassigned char
  else if name = "LC" then
    Text.isCategory "Lu" char || Text.isCategory "Ll" char || Text.isCategory "Lt" char
  else Text.isCategory name char || (name = "C" && Text.isUnassigned char)

def contains : CharSet → Char → Bool
  | nothing, _ => false
  | range first last, char => first ≤ char && char ≤ last
  | category name, char => inCategory name char
  | property kind, char => kind.holds char
  | folded set, char => (Text.caseVariants char).any set.contains
  | negated set, char => !set.contains char
  | union first second, char => first.contains char || second.contains char
  | intersection first second, char => first.contains char && second.contains char

def single (char : Char) : CharSet := range char char

def difference (first second : CharSet) : CharSet := intersection first (negated second)

def symmetricDifference (first second : CharSet) : CharSet :=
  union (difference first second) (difference second first)

def unions (sets : List CharSet) : CharSet := sets.foldr union nothing

def any : CharSet := property .any

def digit (unicode : Bool) : CharSet := if unicode then category "Nd" else range '0' '9'

def space (unicode : Bool) : CharSet :=
  if unicode then property .blank else unions [range '\t' '\r', single ' ']

/-- Letters, marks, digits and connecting punctuation. -/
def word (unicode : Bool) : CharSet :=
  if unicode then
    unions [property .alphabetic, category "M", category "Nd", category "Pc", property .joinControl]
  else unions [range '0' '9', range 'A' 'Z', range 'a' 'z', single '_']

/-- The classes that are named between colons. -/
def named? (name : String) : Option CharSet :=
  let upper := range 'A' 'Z'
  let lower := range 'a' 'z'
  let digit := range '0' '9'
  List.lookup name
    [("alnum", unions [digit, upper, lower]), ("alpha", union upper lower),
      ("ascii", property .ascii), ("blank", unions [single '\t', single ' ']),
      ("cntrl", unions [range '\x00' '\x1f', single '\x7f']), ("digit", digit),
      ("graph", range '!' '~'), ("lower", lower), ("print", range ' ' '~'),
      ("punct", unions [range '!' '/', range ':' '@', range '[' '\x60', range '\x7b' '~']),
      ("space", space false), ("upper", upper), ("word", word false),
      ("xdigit", unions [digit, range 'A' 'F', range 'a' 'f'])]

/-- The long names of categories, in the spelling in which names are compared. -/
def categoryNames : List (String × String) :=
  [("Lu", "uppercaseletter"), ("Ll", "lowercaseletter"), ("Lt", "titlecaseletter"),
    ("LC", "casedletter"), ("Lm", "modifierletter"), ("Lo", "otherletter"), ("L", "letter"),
    ("Mn", "nonspacingmark"), ("Mc", "spacingmark"), ("Me", "enclosingmark"), ("M", "mark"),
    ("M", "combiningmark"), ("Nd", "decimalnumber"), ("Nd", "digit"), ("Nl", "letternumber"),
    ("No", "othernumber"), ("N", "number"), ("Pc", "connectorpunctuation"),
    ("Pd", "dashpunctuation"), ("Ps", "openpunctuation"), ("Pe", "closepunctuation"),
    ("Pi", "initialpunctuation"), ("Pf", "finalpunctuation"), ("Po", "otherpunctuation"),
    ("P", "punctuation"), ("P", "punct"), ("Sm", "mathsymbol"), ("Sc", "currencysymbol"),
    ("Sk", "modifiersymbol"), ("So", "othersymbol"), ("S", "symbol"), ("Zs", "spaceseparator"),
    ("Zl", "lineseparator"), ("Zp", "paragraphseparator"), ("Z", "separator"), ("Cc", "control"),
    ("Cc", "cntrl"), ("Cf", "format"), ("Cs", "surrogate"), ("Co", "privateuse"),
    ("Cn", "unassigned"), ("C", "other")]

def propertyNames : List (String × CharProperty) :=
  [("any", .any), ("ascii", .ascii), ("assigned", .assigned), ("alphabetic", .alphabetic),
    ("alpha", .alphabetic), ("lowercase", .lowercase), ("lower", .lowercase),
    ("uppercase", .uppercase), ("upper", .uppercase), ("whitespace", .blank), ("wspace", .blank),
    ("space", .blank), ("joincontrol", .joinControl), ("joinc", .joinControl)]

/-- Case, blanks, hyphens and underscores do not count in a name, nor does `is` in front. -/
def normalizeName (name : List Char) : String :=
  let kept := (name.filter fun char => !(char == ' ' || char == '_' || char == '-')).map Char.toLower
  match kept with
  | 'i' :: 's' :: rest => if rest = ['c'] then "isc" else String.ofList rest
  | other => String.ofList other

def categoryOf? (name : String) : Option CharSet :=
  (categoryNames.find? fun (short, long) =>
    name = long || name = String.ofList (short.toList.map Char.toLower)).map fun (short, _) =>
    category short

/-- The set that a name between braces stands for; a category may have its property in front. -/
def ofPropertyName? (name : List Char) : Option CharSet :=
  match name.dropWhile fun char => char ≠ '=' ∧ char ≠ ':' with
  | [] =>
    let bare := normalizeName name
    ((propertyNames.lookup bare).map property).or (categoryOf? bare)
  | _ :: value =>
    let key := name.takeWhile fun char => char ≠ '=' ∧ char ≠ ':'
    let negate := key.getLast? = some '!'
    let bare := normalizeName (if negate then key.dropLast else key)
    if bare = "gc" ∨ bare = "generalcategory" then
      (categoryOf? (normalizeName value)).map fun set => if negate then negated set else set
    else none

end CharSet

end EdmQuery
