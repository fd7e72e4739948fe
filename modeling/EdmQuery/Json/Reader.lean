import EdmQuery.Json.Basic
import EdmQuery.Number.DecimalReader
import EdmQuery.Text.CharRanges

set_option autoImplicit false

/- Reading JSON text. Members come in the order of the text and repeated keys stay repeated; whoever
needs a sorted value sorts it. Numbers without fraction and exponent are integers as far as 64 bits
go. All others are binary: the digits that fit 64 bits are scaled by one power of ten, which for
long numbers need not give the nearest one. Containers nest at most 127 deep. -/
namespace EdmQuery.Json

def isSpace (char : Char) : Bool :=
  char = ' ' || char = '\n' || char = '\t' || char = '\r'

def skipSpace (text : List Char) : List Char := text.dropWhile isSpace

/-- The significand collected so far and the power of ten that belongs to it. -/
structure Scaled where
  significand : Nat
  exponent : Int

def wordLimit : Nat := Nat.pow 2 64

/-- Digits before the point: from the first one that does not fit on they only raise the
exponent. -/
def Scaled.takeWhole (number : Scaled) : List Char → Scaled
  | [] => number
  | char :: rest =>
    let next := number.significand * 10 + (char.toNat - '0'.toNat)
    if next < wordLimit then takeWhole ⟨next, number.exponent⟩ rest
    else ⟨number.significand, number.exponent + 1 + rest.length⟩

/-- Digits behind the point: from the first one that does not fit on they are dropped. -/
def Scaled.takeFraction (number : Scaled) : List Char → Scaled
  | [] => number
  | char :: rest =>
    let next := number.significand * 10 + (char.toNat - '0'.toNat)
    if next < wordLimit then takeFraction ⟨next, number.exponent - 1⟩ rest else number

def tenPower (exponent : Nat) : Binary64 := Binary64.ofDecimal false 1 exponent

/-- Scales by one power of ten. An exponent below the table of powers is approached in steps, one
above it is out of range. -/
def scale? : Nat → Binary64 → Int → Option Binary64
  | 0, value, _ => some value
  | fuel + 1, value, exponent =>
    if exponent.natAbs ≤ 308 then
      if exponent < 0 then some (value.div (tenPower exponent.natAbs))
      else
        let scaled := value.mul (tenPower exponent.natAbs)
        if scaled.isFinite then some scaled else none
    else if value.isZero then some value
    else if 0 ≤ exponent then none
    else scale? fuel (value.div (tenPower 308)) (exponent + 308)

def Scaled.toBinary64? (number : Scaled) (negative : Bool) : Option Binary64 :=
  (scale? 8 (Binary64.ofNat number.significand) number.exponent).map fun value =>
    if negative then value.neg else value

/-- The parts of a number: digits before and behind the point, and the exponent with its sign. -/
structure NumberParts where
  negative : Bool
  whole : List Char
  fraction : Option (List Char)
  exponent : Option (Bool × List Char)

def NumberParts.value? (parts : NumberParts) : Option Json :=
  let start := (Scaled.mk 0 0).takeWhole parts.whole
  let total := digitsValue parts.whole
  match parts.fraction, parts.exponent with
  | none, none =>
    if parts.negative then
      if total = 0 ∨ Nat.pow 2 63 < total then (start.toBinary64? true).map Json.double
      else some (.int (-(total : Int)))
    else if total < wordLimit then some (.int total)
    else (start.toBinary64? false).map Json.double
  | fraction, exponent =>
    let number := start.takeFraction (fraction.getD [])
    match exponent with
    | none => (number.toBinary64? parts.negative).map Json.double
    | some (down, digits) =>
      let magnitude := digitsValue digits
      if magnitude < Nat.pow 2 31 then
        let shift : Int := if down then -(magnitude : Int) else magnitude
        let number : Scaled := ⟨number.significand, number.exponent + shift⟩
        (number.toBinary64? parts.negative).map Json.double
      else if number.significand = 0 || down then
        some (.double (if parts.negative then Binary64.zero.neg else Binary64.zero))
      else none

/-- Reads a number; nothing may be missing, and zero does not lead other digits. -/
def readNumber? (text : List Char) : Option (Json × List Char) :=
  let (negative, text) := match text with
    | '-' :: rest => (true, rest)
    | _ => (false, text)
  let whole := text.takeWhile isAsciiDigit
  let text := text.dropWhile isAsciiDigit
  if whole = [] ∨ (whole.head? = some '0' ∧ 1 < whole.length) then none
  else
    let (fraction, text) := match text with
      | '.' :: rest => (some (rest.takeWhile isAsciiDigit), rest.dropWhile isAsciiDigit)
      | _ => (none, text)
    if fraction = some [] then none
    else
      let (exponent, text) : Option (Bool × List Char) × List Char := match text with
        | mark :: rest =>
          if mark = 'e' ∨ mark = 'E' then
            let (down, rest) := match rest with
              | '+' :: digits => (false, digits)
              | '-' :: digits => (true, digits)
              | _ => (false, rest)
            (some (down, rest.takeWhile isAsciiDigit), rest.dropWhile isAsciiDigit)
          else (none, text)
        | [] => (none, text)
      if exponent.any (fun (_, digits) => digits.isEmpty) then none
      else (NumberParts.value? ⟨negative, whole, fraction, exponent⟩).map (·, text)

/-- Four hexadecimal digits. -/
def readUnit? : List Char → Option (Nat × List Char)
  | a :: b :: c :: d :: rest =>
    if [a, b, c, d].all fun char => (Text.hexDigitValue? char).isSome then
      some (Text.readHex [a, b, c, d], rest)
    else none
  | _ => none

def simpleEscape? : Char → Option Char
  | '"' => some '"'
  | '\\' => some '\\'
  | '/' => some '/'
  | 'b' => some '\x08'
  | 'f' => some '\x0c'
  | 'n' => some '\n'
  | 'r' => some '\r'
  | 't' => some '\t'
  | _ => none

/-- The character of a `u` escape, whose first half may need a second one. -/
def readEscaped? (text : List Char) : Option (Char × List Char) :=
  (readUnit? text).bind fun (unit, rest) =>
    if 0xd800 ≤ unit ∧ unit < 0xdc00 then
      match rest with
      | '\\' :: 'u' :: rest =>
        (readUnit? rest).bind fun (low, rest) =>
          if 0xdc00 ≤ low ∧ low < 0xe000 then
            some (Char.ofNat (0x10000 + (unit - 0xd800) * 0x400 + (low - 0xdc00)), rest)
          else none
      | _ => none
    else if 0xdc00 ≤ unit ∧ unit < 0xe000 then none
    else some (Char.ofNat unit, rest)

/-- The rest of a string behind its opening quote; `before` is in reverse. -/
def readString? : Nat → List Char → List Char → Option (String × List Char)
  | 0, _, _ => none
  | fuel + 1, before, text =>
    match text with
    | [] => none
    | '"' :: rest => some (String.ofList before.reverse, rest)
    | '\\' :: 'u' :: rest =>
      (readEscaped? rest).bind fun (char, rest) => readString? fuel (char :: before) rest
    | '\\' :: mark :: rest =>
      (simpleEscape? mark).bind fun char => readString? fuel (char :: before) rest
    | char :: rest =>
      if char = '\\' ∨ char.toNat < 0x20 then none else readString? fuel (char :: before) rest

/-- The rest of a text behind a word it starts with. -/
def dropWord? (word text : List Char) : Option (List Char) :=
  if word.isPrefixOf text then some (text.drop word.length) else none

mutual

/-- Reads a value; `depth` containers may still be opened. -/
def readValue? : Nat → Nat → List Char → Option (Json × List Char)
  | 0, _, _ => none
  | fuel + 1, depth, text =>
    match skipSpace text with
    | [] => none
    | '"' :: rest =>
      (readString? (rest.length + 1) [] rest).map fun (value, rest) => (.string value, rest)
    | '[' :: rest =>
      if depth = 0 then none
      else match skipSpace rest with
        | ']' :: rest => some (.array [], rest)
        | _ => (readItems? fuel (depth - 1) rest).map fun (items, rest) => (.array items, rest)
    | '\x7b' :: rest =>
      if depth = 0 then none
      else match skipSpace rest with
        | '\x7d' :: rest => some (.object [], rest)
        | _ => (readMembers? fuel (depth - 1) rest).map fun (members, rest) =>
            (.object members, rest)
    | text =>
      ((dropWord? "null".toList text).map (Json.null, ·)).or
        (((dropWord? "true".toList text).map (Json.bool true, ·)).or
          (((dropWord? "false".toList text).map (Json.bool false, ·)).or (readNumber? text)))

/-- Reads items up to the closing bracket. -/
def readItems? : Nat → Nat → List Char → Option (List Json × List Char)
  | 0, _, _ => none
  | fuel + 1, depth, text =>
    (readValue? fuel depth text).bind fun (item, rest) =>
      match skipSpace rest with
      | ',' :: rest => (readItems? fuel depth rest).map fun (items, rest) => (item :: items, rest)
      | ']' :: rest => some ([item], rest)
      | _ => none

/-- Reads members up to the closing brace. -/
def readMembers? : Nat → Nat → List Char → Option (Members × List Char)
  | 0, _, _ => none
  | fuel + 1, depth, text =>
    match skipSpace text with
    | '"' :: rest =>
      (readString? (rest.length + 1) [] rest).bind fun (key, rest) =>
        match skipSpace rest with
        | ':' :: rest =>
          (readValue? fuel depth rest).bind fun (value, rest) =>
            match skipSpace rest with
            | ',' :: rest =>
              (readMembers? fuel depth rest).map fun (members, rest) =>
                ((key, value) :: members, rest)
            | '\x7d' :: rest => some ([(key, value)], rest)
            | _ => none
        | _ => none
    | _ => none

end

/-- The value of a whole text, with members in the order of the text. -/
def read? (text : List Char) : Option Json :=
  match readValue? (2 * text.length + 2) 127 text with
  | some (value, rest) => if skipSpace rest = [] then some value else none
  | none => none

/-- The value of a whole text, with the members of every object sorted. -/
def readSorted? (text : String) : Option Json := (read? text.toList).map sorted

end EdmQuery.Json
