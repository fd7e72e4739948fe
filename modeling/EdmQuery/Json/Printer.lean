import EdmQuery.Json.Basic
import EdmQuery.Number.Shortest

set_option autoImplicit false

namespace EdmQuery.Json

def hexDigit (value : Nat) : Char :=
  if value < 10 then Char.ofNat ('0'.toNat + value) else Char.ofNat ('a'.toNat + value - 10)

def escapeChar (char : Char) : List Char :=
  if char = '"' then ['\\', '"']
  else if char = '\\' then ['\\', '\\']
  else if char.toNat < 0x20 then
    if char.toNat = 8 then ['\\', 'b']
    else if char.toNat = 9 then ['\\', 't']
    else if char.toNat = 10 then ['\\', 'n']
    else if char.toNat = 12 then ['\\', 'f']
    else if char.toNat = 13 then ['\\', 'r']
    else ['\\', 'u', '0', '0', hexDigit (char.toNat / 16), hexDigit (char.toNat % 16)]
  else [char]

/-- A string between quotes. -/
def quote (text : String) : String :=
  String.ofList ('"' :: text.toList.flatMap escapeChar ++ ['"'])

/-- The text of a value that holds no others. -/
def scalarText : Json → String
  | null => "null"
  | bool value => if value then "true" else "false"
  | int value => toString value
  | double value => value.jsonText
  | string value => quote value
  | array _ => "[]"
  | object _ => "\x7b\x7d"

mutual

def compact : Json → String
  | array [] => "[]"
  | array (item :: rest) => "[" ++ compact item ++ compactItems rest
  | object [] => "\x7b\x7d"
  | object ((key, value) :: rest) =>
    "\x7b" ++ quote key ++ ":" ++ compact value ++ compactMembers rest
  | other => scalarText other

/-- The items behind the first one, and the closing bracket. -/
def compactItems : List Json → String
  | [] => "]"
  | item :: rest => "," ++ compact item ++ compactItems rest

/-- The members behind the first one, and the closing brace. -/
def compactMembers : Members → String
  | [] => "\x7d"
  | (key, value) :: rest => "," ++ quote key ++ ":" ++ compact value ++ compactMembers rest

end

/-- A new line at a level. -/
def newline (level : Nat) : String := "\n".pushn ' ' (2 * level)

/-- The text with all lines behind the first one moved to a level. -/
def indentLines (level : Nat) (text : String) : String :=
  String.ofList (text.toList.flatMap fun char =>
    if char = '\n' then (newline level).toList else [char])

mutual

/-- The indented layout of a value that stands at a level. -/
def indented (level : Nat) : Json → String
  | array [] => "[]"
  | array (item :: rest) =>
    "[" ++ newline (level + 1) ++ indented (level + 1) item ++ indentedItems level rest
  | object [] => "\x7b\x7d"
  | object ((key, value) :: rest) =>
    "\x7b" ++ newline (level + 1) ++ quote key ++ ": " ++ indented (level + 1) value ++
      indentedMembers level rest
  | other => scalarText other

def indentedItems (level : Nat) : List Json → String
  | [] => newline level ++ "]"
  | item :: rest =>
    "," ++ newline (level + 1) ++ indented (level + 1) item ++ indentedItems level rest

def indentedMembers (level : Nat) : Members → String
  | [] => newline level ++ "\x7d"
  | (key, value) :: rest =>
    "," ++ newline (level + 1) ++ quote key ++ ": " ++ indented (level + 1) value ++
      indentedMembers level rest

end

end EdmQuery.Json
