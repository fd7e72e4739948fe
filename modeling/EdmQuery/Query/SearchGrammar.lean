import EdmQuery.Query.Parsing
import EdmQuery.Query.Search

set_option autoImplicit false

namespace EdmQuery

namespace Search

open Parsing

/-- The parser of one level further down, for groups and negations. -/
structure Nested where
  disjunction : Parser SearchExpression
  negation : Parser SearchExpression

def isWordChar (char : Char) : Bool :=
  !Text.isBlank char && char != '(' && char != ')' && char != '"'

/-- Characters up to white space, a parenthesis or a quote. -/
def word? (text : List Char) : Option (List Char × List Char) :=
  let word := text.takeWhile isWordChar
  if word = [] then none else some (word, text.dropWhile isWordChar)

/-- The text behind an operator word, gaps before it allowed. -/
def operator? (operator : String) (text : List Char) : Option (List Char) :=
  (word? (skipGap text)).bind fun (word, rest) =>
    if String.ofList word = operator then some rest else none

/-- The rest of a phrase behind its opening quote; a backslash takes the next character as it is. -/
def phraseRest : List Char → Parse (List Char × List Char)
  | [] => fail .unterminatedString []
  | '"' :: rest => .ok ([], rest)
  | ['\\'] => fail .unterminatedString []
  | '\\' :: char :: rest => (phraseRest rest).map fun (text, left) => (char :: text, left)
  | char :: rest => (phraseRest rest).map fun (text, left) => (char :: text, left)

def isOperatorWord (word : String) : Bool := word == "AND" || word == "OR" || word == "NOT"

def descend (deeper : Option Nested) (text : List Char) : Parse Nested :=
  match deeper with
  | some nested => .ok nested
  | none => .error ⟨.tooDeep, text⟩

/-- A group, a phrase or a word. -/
def primary (deeper : Option Nested) (text : List Char) : Parse (SearchExpression × List Char) :=
  match skipGap text with
  | '(' :: rest => do
    let nested ← descend deeper rest
    let (inner, rest) ← nested.disjunction rest
    let rest ← expect ')' .unexpected rest
    return (inner, rest)
  | '"' :: rest =>
    (phraseRest rest).map fun (text, left) => (.term (.phrase (String.ofList text)), left)
  | text =>
    match word? text with
    | none => fail .unexpected text
    | some (word, rest) =>
      if isOperatorWord (String.ofList word) then fail .unexpected text
      else .ok (.term (.word (String.ofList word)), rest)

def negation (deeper : Option Nested) (text : List Char) : Parse (SearchExpression × List Char) :=
  match operator? "NOT" text with
  | some rest => do
    let nested ← descend deeper rest
    let (operand, rest) ← nested.negation rest
    return (.not operand, rest)
  | none => primary deeper text

/-- Whether a conjunction ends here: at the end, before a closing parenthesis, or before `OR`. -/
def atBoundary (text : List Char) : Bool :=
  match skipGap text with
  | [] => true
  | ')' :: _ => true
  | _ => (operator? "OR" text).isSome

def moreConjuncts (operand : Parser SearchExpression) :
    Nat → SearchExpression → Parser SearchExpression
  | 0, left, text => .ok (left, text)
  | fuel + 1, left, text =>
    match operator? "AND" text with
    | some rest => do
      let (right, rest) ← operand rest
      moreConjuncts operand fuel (.and left right) rest
    | none =>
      if atBoundary text then .ok (left, text)
      else do
        let (right, rest) ← operand text
        moreConjuncts operand fuel (.and left right) rest

def conjunction (deeper : Option Nested) : Parser SearchExpression := fun text => do
  let (left, rest) ← negation deeper text
  moreConjuncts (negation deeper) rest.length left rest

def moreDisjuncts (operand : Parser SearchExpression) :
    Nat → SearchExpression → Parser SearchExpression
  | 0, left, text => .ok (left, text)
  | fuel + 1, left, text =>
    match operator? "OR" text with
    | some rest => do
      let (right, rest) ← operand rest
      moreDisjuncts operand fuel (.or left right) rest
    | none => .ok (left, text)

def disjunction (deeper : Option Nested) : Parser SearchExpression := fun text => do
  let (left, rest) ← conjunction deeper text
  moreDisjuncts (conjunction deeper) rest.length left rest

/-- The grammar with a number of levels left, none at zero. -/
def nested : Nat → Option Nested
  | 0 => none
  | levels + 1 => some ⟨disjunction (nested levels), negation (nested levels)⟩

/-- The expression of a search text. -/
def ofText (source : String) : Result SearchExpression :=
  complete (fun text => disjunction (nested maxDepth) (skipGap text)) .invalidSearch false source

end Search

end EdmQuery
