import EdmQuery.Number.DecimalReader
import EdmQuery.Text.CharProperties

set_option autoImplicit false

namespace EdmQuery

/-- Decimal digits, filled up with zeros to a width. -/
def padNat (width value : Nat) : String :=
  let digits := toString value
  "".pushn '0' (width - digits.length) ++ digits

/-- Between one and `most` digits, as many as there are, behind optional white space. -/
def readDigits? (most : Nat) (text : List Char) : Option (Nat × List Char) :=
  let digits := (text.take most).takeWhile isAsciiDigit
  if digits = [] then none else some (digitsValue digits, text.drop digits.length)

/-- The rest of a text behind a given character. -/
def dropChar? (char : Char) : List Char → Option (List Char)
  | first :: rest => if first = char then some rest else none
  | [] => none

namespace Calendar

def isLeapYear (year : Int) : Bool := year % 4 == 0 && (year % 100 != 0 || year % 400 == 0)

def daysInMonth (year : Int) (month : Nat) : Nat :=
  if month = 2 then if isLeapYear year then 29 else 28
  else if month = 4 ∨ month = 6 ∨ month = 9 ∨ month = 11 then 30
  else 31

def minYear : Int := -262143

def maxYear : Int := 262142

/-- Whether a day exists and its year is one of those supported. -/
def exists? (year : Int) (month day : Nat) : Bool :=
  minYear ≤ year && year ≤ maxYear && 1 ≤ month && month ≤ 12 && 1 ≤ day &&
    day ≤ daysInMonth year month

end Calendar

/-- A day of the calendar. -/
structure Date where
  year : Int
  month : Nat
  day : Nat
  valid : Calendar.exists? year month day = true
deriving DecidableEq, Repr

namespace Date

def of? (year : Int) (month day : Nat) : Option Date :=
  if valid : Calendar.exists? year month day = true then some ⟨year, month, day, valid⟩ else none

instance : Inhabited Date := ⟨⟨1970, 1, 1, by decide⟩⟩

/-- Days since 1 January 1970. Years are counted from March, so that the leap day ends one. -/
def toDays (date : Date) : Int :=
  let year := if date.month ≤ 2 then date.year - 1 else date.year
  let month : Int := if date.month ≤ 2 then (date.month : Int) + 9 else (date.month : Int) - 3
  let dayOfYear := (153 * month + 2) / 5 + date.day - 1
  365 * year + year / 4 - year / 100 + year / 400 + dayOfYear - 719468

def compare (first second : Date) : Ordering := Ord.compare first.toDays second.toDays

/-- At least four digits for the year, with a sign outside of four digits. -/
def renderYear (year : Int) : String :=
  if 0 ≤ year ∧ year < 10000 then padNat 4 year.toNat
  else (if year < 0 then "-" else "+") ++ padNat 4 year.natAbs

def render (date : Date) : String :=
  renderYear date.year ++ "-" ++ padNat 2 date.month ++ "-" ++ padNat 2 date.day

/-- A year of at most four digits, or of any number of digits behind a sign. -/
def readYear? (text : List Char) : Option (Int × List Char) :=
  match Text.trimStart text with
  | '-' :: rest => (readDigits? rest.length rest).map fun (year, rest) => (-(year : Int), rest)
  | '+' :: rest => (readDigits? rest.length rest).map fun (year, rest) => ((year : Int), rest)
  | text => (readDigits? 4 text).map fun (year, rest) => ((year : Int), rest)

def read? (text : List Char) : Option Date := do
  let (year, rest) ← readYear? text
  let rest ← dropChar? '-' rest
  let (month, rest) ← readDigits? 2 (Text.trimStart rest)
  let rest ← dropChar? '-' rest
  let (day, rest) ← readDigits? 2 (Text.trimStart rest)
  if rest = [] then of? year month day else none

end Date

end EdmQuery
