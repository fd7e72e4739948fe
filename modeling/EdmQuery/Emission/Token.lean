import EdmQuery.Json.Printer

set_option autoImplicit false

/- JSON text that is written token by token. The caller places the separators; the layout knows
which containers are open and breaks lines, if it is to do so, such that the text looks as if it had
been printed at once. Each token turns into one or more writes. -/
namespace EdmQuery

inductive Token
  | openObject
  | closeObject
  | openArray
  | closeArray
  | key (name : String)
  | separator
  | scalar (value : Json)
deriving Inhabited

namespace Token

def pair (entry : String × Json) : List Token := [.key entry.1, .scalar entry.2]

/-- Groups of tokens with separators between them. -/
def separated : List (List Token) → List Token
  | [] => []
  | [group] => group
  | group :: rest => group ++ .separator :: separated rest

def pairs (entries : List (String × Json)) : List Token := separated (entries.map pair)

end Token

/-- Where the next token stands: for each open container, the innermost first, whether it has items
already, and whether a key waits for its value. -/
structure Layout where
  isPretty : Bool
  containers : List Bool
  afterKey : Bool
deriving DecidableEq, Repr

namespace Layout

def compact : Layout := ⟨false, [], false⟩

def pretty : Layout := ⟨true, [], false⟩

def level (layout : Layout) : Nat := layout.containers.length

/-- The text of a whole value; if it is indented, its lines continue at the current level. -/
def text (layout : Layout) (value : Json) : String :=
  if layout.isPretty then Json.indentLines layout.level (value.indented 0) else value.compact

/-- An item of a container stands on a line of its own. -/
def beginItem (layout : Layout) : Layout × List String :=
  match layout.containers with
  | [] => (layout, [])
  | _ :: outer =>
    ({ layout with containers := true :: outer },
      if layout.isPretty then [Json.newline layout.level] else [])

/-- A value after its key continues the line. -/
def beginValue (layout : Layout) : Layout × List String :=
  if layout.afterKey then ({ layout with afterKey := false }, []) else layout.beginItem

def openContainer (layout : Layout) (bracket : String) : Layout × List String :=
  let (begun, writes) := layout.beginValue
  ({ begun with containers := false :: begun.containers }, writes ++ [bracket])

def closeContainer (layout : Layout) (bracket : String) : Layout × List String :=
  match layout.containers with
  | [] => (layout, [bracket])
  | hasItems :: outer =>
    ({ layout with containers := outer },
      if hasItems && layout.isPretty then [Json.newline outer.length, bracket] else [bracket])

/-- The writes of a token, and the layout behind it. -/
def step (layout : Layout) : Token → Layout × List String
  | .openObject => layout.openContainer "\x7b"
  | .closeObject => layout.closeContainer "\x7d"
  | .openArray => layout.openContainer "["
  | .closeArray => layout.closeContainer "]"
  | .key name =>
    let (begun, writes) := layout.beginItem
    ({ begun with afterKey := true },
      writes ++ [begun.text (.string name), if layout.isPretty then ": " else ":"])
  | .separator => (layout, [","])
  | .scalar value =>
    let (begun, writes) := layout.beginValue
    (begun, writes ++ [begun.text value])

/-- The layout behind a list of tokens, and all their writes. -/
def run (layout : Layout) : List Token → Layout × List String
  | [] => (layout, [])
  | token :: rest =>
    let (next, writes) := layout.step token
    let (last, others) := run next rest
    (last, writes ++ others)

theorem run_append (layout : Layout) (first second : List Token) :
    layout.run (first ++ second) =
      (((layout.run first).1.run second).1,
        (layout.run first).2 ++ ((layout.run first).1.run second).2) := by
  induction first generalizing layout with
  | nil => rfl
  | cons token rest ih => simp only [List.cons_append, run, ih, List.append_assoc]

end Layout

end EdmQuery
