import EdmQuery.Primitive.Coercion
import EdmQuery.Query.Node
import EdmQuery.Query.Parsing

set_option autoImplicit false

namespace EdmQuery

namespace Literal

open Parsing

/-- The rest of a quoted text behind its opening quote; `segment` is where the search for the
closing one began. -/
def stringRest (segment : List Char) : List Char → Parse (List Char × List Char)
  | [] => fail .unterminatedString segment
  | '\'' :: '\'' :: rest => (stringRest rest rest).map fun (text, left) => ('\'' :: text, left)
  | '\'' :: rest => .ok ([], rest)
  | char :: rest => (stringRest segment rest).map fun (text, left) => (char :: text, left)

def string? : List Char → Option (Parse (Primitive × List Char))
  | '\'' :: rest =>
    some ((stringRest rest rest).map fun (text, left) => (.string (String.ofList text), left))
  | _ => none

/-- Reads the value of a token, or fails where the token began. -/
def valueOf (type : PrimitiveType) (token : String) (start rest : List Char) : Parse (Primitive × List Char) :=
  match type.convert? (.string token) with
  | some value => .ok (value, rest)
  | none => fail .invalidLiteral start

def binary? (text : List Char) : Option (Parse (Primitive × List Char)) :=
  if "binary'".toList.isPrefixOf text then
    let body := text.drop 7
    some ((stringRest body body).bind fun (token, rest) =>
      valueOf .binary (String.ofList token) text rest)
  else none

def isTokenChar (char : Char) : Bool :=
  Text.isAsciiLetter char || isAsciiDigit char || char = '-' || char = ':' || char = '.' ||
    char = '+'

/-- Whether the characters from `start` on are `count` digits. -/
def digitsAt (token : List Char) (start count : Nat) : Bool :=
  let digits := (token.drop start).take count
  digits.length == count && digits.all isAsciiDigit

def looksLikeDate (token : List Char) : Bool :=
  digitsAt token 0 4 && token[4]? == some '-' && digitsAt token 5 2 && token[7]? == some '-'

def looksLikeTime (token : List Char) : Bool :=
  digitsAt token 0 2 && token[2]? == some ':' && digitsAt token 3 2

def looksLikeGuid (token : List Char) : Bool :=
  token.length == 36 &&
    token.zipIdx.all fun (char, index) =>
      if index = 8 ∨ index = 13 ∨ index = 18 ∨ index = 23 then char == '-' else Guid.isHex char

/-- The type whose literals look like a token. -/
def tokenType? (token : List Char) : Option PrimitiveType :=
  if looksLikeGuid token then some .guid
  else if looksLikeDate token then
    if token.contains 'T' then some .dateTimeOffset else some .date
  else if looksLikeTime token then some .timeOfDay
  else none

def temporal? (text : List Char) : Option (Parse (Primitive × List Char)) :=
  let token := text.takeWhile isTokenChar
  (tokenType? token).map fun type =>
    valueOf type (String.ofList token) text (text.dropWhile isTokenChar)

/-- The parts of a number: its digits before and behind the point, and its exponent. -/
structure NumberToken where
  whole : List Char
  fraction : Option (List Char)
  exponent : Option (Bool × List Char)

/-- A point and at least one digit. -/
def fraction? : List Char → Option (List Char × List Char)
  | '.' :: rest =>
    let digits := rest.takeWhile isAsciiDigit
    if digits = [] then none else some (digits, rest.dropWhile isAsciiDigit)
  | _ => none

/-- An exponent mark, an optional sign and at least one digit. -/
def exponent? : List Char → Option ((Bool × List Char) × List Char)
  | mark :: rest =>
    if mark = 'e' ∨ mark = 'E' then
      let (down, rest) := match rest with
        | '+' :: digits => (false, digits)
        | '-' :: digits => (true, digits)
        | _ => (false, rest)
      let digits := rest.takeWhile isAsciiDigit
      if digits = [] then none else some ((down, digits), rest.dropWhile isAsciiDigit)
    else none
  | [] => none

def numberToken? (text : List Char) : Option (NumberToken × List Char) :=
  let whole := text.takeWhile isAsciiDigit
  if whole = [] then none
  else
    let rest := text.dropWhile isAsciiDigit
    let (fraction, rest) := match fraction? rest with
      | some (digits, rest) => (some digits, rest)
      | none => (none, rest)
    match exponent? rest with
    | some (exponent, rest) => some (⟨whole, fraction, some exponent⟩, rest)
    | none => some (⟨whole, fraction, none⟩, rest)

/-- An exponent makes a double and a point a decimal. Plain digits take the smallest of Int32,
Int64 and decimal that holds them. -/
def NumberToken.value? (token : NumberToken) : Option Primitive :=
  match token.exponent, token.fraction with
  | some (down, digits), fraction =>
    let fraction := fraction.getD []
    let magnitude : Int := digitsValue digits
    some (.double (Binary64.ofDecimal false (digitsValue (token.whole ++ fraction))
      ((if down then -magnitude else magnitude) - fraction.length)))
  | none, some fraction => (Decimal.read? (token.whole ++ '.' :: fraction)).map .decimal
  | none, none =>
    let value : Int := digitsValue token.whole
    (Primitive.int32? value).or ((Primitive.int64? value).or
      ((Decimal.read? token.whole).map .decimal))

def number? (text : List Char) : Option (Parse (Primitive × List Char)) :=
  (numberToken? text).map fun (token, rest) =>
    match token.value? with
    | some value => .ok (value, rest)
    | none => fail .invalidLiteral text

/-- The literals that are words. -/
def wordLiterals : List (String × Node) :=
  [("null", .null), ("true", .literal (.boolean true)), ("false", .literal (.boolean false)),
    ("INF", .literal (.double (.infinity false))), ("NaN", .literal (.double (.nan false)))]

def word? (text : List Char) : Option (Parse (Node × List Char)) :=
  (name? text).bind fun (name, rest) =>
    (wordLiterals.lookup name).map fun node => .ok (node, rest)

/-- The literal at the beginning of a text, if it looks like one. -/
def read? (text : List Char) : Option (Parse (Node × List Char)) :=
  let value? :=
    (binary? text).or ((string? text).or ((temporal? text).or (number? text)))
  (word? text).or (value?.map fun parsed =>
    parsed.map fun (value, rest) => (.literal value, rest))

end Literal

end EdmQuery
