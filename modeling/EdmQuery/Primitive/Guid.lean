import EdmQuery.Text.CharRanges
import EdmQuery.Json.Printer

set_option autoImplicit false

namespace EdmQuery

/-- A globally unique identifier of 128 bits. -/
structure Guid where
  value : Nat
  value_lt : value < Nat.pow 2 128
deriving DecidableEq, Repr

namespace Guid

instance : Inhabited Guid := ⟨⟨0, by decide⟩⟩

def compare (first second : Guid) : Ordering := Ord.compare first.value second.value

/-- The lowest `count` hexadecimal digits of a number, the highest of them first. -/
def hexDigits : Nat → Nat → List Char
  | 0, _ => []
  | count + 1, value => hexDigits count (value / 16) ++ [Json.hexDigit (value % 16)]

def render (guid : Guid) : String :=
  let digits := hexDigits 32 guid.value
  String.ofList (digits.take 8 ++ '-' :: (digits.drop 8).take 4 ++
    '-' :: (digits.drop 12).take 4 ++ '-' :: (digits.drop 16).take 4 ++ '-' :: digits.drop 20)

def isHex (char : Char) : Bool := (Text.hexDigitValue? char).isSome

def ofHex? (digits : List Char) : Option Guid :=
  if digits.length = 32 ∧ digits.all isHex then
    if within : Text.readHex digits < Nat.pow 2 128 then some ⟨Text.readHex digits, within⟩ else none
  else none

/-- The form with hyphens behind the 8th, 12th, 16th and 20th digit. -/
def ofHyphenated? (text : List Char) : Option Guid :=
  let hyphens := [text[8]?, text[13]?, text[18]?, text[23]?]
  if text.length = 36 ∧ hyphens.all (· == some '-') then
    ofHex? (text.take 8 ++ (text.drop 9).take 4 ++ (text.drop 14).take 4 ++
      (text.drop 19).take 4 ++ text.drop 24)
  else none

/-- Whether a text starts with `urn:uuid:` in any case. -/
def hasUrnScheme (text : List Char) : Bool :=
  (text.take 9).map Char.toLower == "urn:uuid:".toList

def read? (text : List Char) : Option Guid :=
  if text.length = 32 then ofHex? text
  else if text.length = 36 then ofHyphenated? text
  else if text.length = 38 ∧ text.head? = some '\x7b' ∧ text.getLast? = some '\x7d' then
    ofHyphenated? ((text.drop 1).take 36)
  else if text.length = 45 ∧ hasUrnScheme text then ofHyphenated? (text.drop 9)
  else none

end Guid

end EdmQuery
