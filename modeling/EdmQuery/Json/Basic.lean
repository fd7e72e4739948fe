import EdmQuery.Number.Binary64

set_option autoImplicit false

namespace EdmQuery

/-- JSON values. The members of an object are a list: data that was read from outside is kept in
`sorted` form, with keys in the order of their characters and each key once, while a document that
is being written keeps its own order. -/
inductive Json
  | null
  | bool (value : Bool)
  | int (value : Int)
  | double (value : Binary64)
  | string (value : String)
  | array (items : List Json)
  | object (members : List (String × Json))
deriving Repr, Inhabited

namespace Json

abbrev Members := List (String × Json)

/-- Puts a member at the place of its key, over one that has the same key. -/
def insert (key : String) (value : Json) : Members → Members
  | [] => [(key, value)]
  | (other, held) :: rest =>
    if key < other then (key, value) :: (other, held) :: rest
    else if key = other then (key, value) :: rest
    else (other, held) :: insert key value rest

/-- An object of sorted members; of members with the same key the last counts. -/
def ofMembers (members : Members) : Json :=
  .object (members.foldl (fun sorted (key, value) => insert key value sorted) [])

mutual

/-- The value with the members of every object sorted. -/
def sorted : Json → Json
  | array items => .array (sortedItems items)
  | object members => ofMembers (sortedMembers members)
  | other => other

def sortedItems : List Json → List Json
  | [] => []
  | item :: rest => sorted item :: sortedItems rest

def sortedMembers : Members → Members
  | [] => []
  | (key, value) :: rest => (key, sorted value) :: sortedMembers rest

end

def isNull : Json → Bool
  | null => true
  | _ => false

def bool? : Json → Option Bool
  | bool value => some value
  | _ => none

def string? : Json → Option String
  | string value => some value
  | _ => none

def array? : Json → Option (List Json)
  | array items => some items
  | _ => none

def object? : Json → Option Members
  | object members => some members
  | _ => none

/-- The value of a member, if there is one with that key. -/
def get? (key : String) : Json → Option Json
  | object members => members.lookup key
  | _ => none

/-- What kind of value this is, in the words of a message. -/
def shape : Json → String
  | null => "null"
  | bool _ => "boolean"
  | int _ | double _ => "number"
  | string _ => "string"
  | array _ => "array"
  | object _ => "object"

end Json

end EdmQuery
