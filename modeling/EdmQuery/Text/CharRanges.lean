import EdmQuery.Text.Position

set_option autoImplicit false

namespace EdmQuery.Text

/-- Character numbers from `first` to `last` in steps. -/
structure CharRange where
  first : Nat
  last : Nat
  step : Nat
deriving Repr, Inhabited

def hexDigitValue? (char : Char) : Option Nat :=
  if '0' ≤ char ∧ char ≤ '9' then some (char.toNat - '0'.toNat)
  else if 'a' ≤ char ∧ char ≤ 'f' then some (char.toNat - 'a'.toNat + 10)
  else if 'A' ≤ char ∧ char ≤ 'F' then some (char.toNat - 'A'.toNat + 10)
  else none

/-- The value of hexadecimal digits; other characters count as zero. -/
def readHex (digits : List Char) : Nat :=
  digits.foldl (fun value char => value * 16 + (hexDigitValue? char).getD 0) 0

namespace CharRange

def contains (range : CharRange) (code : Nat) : Bool :=
  range.first ≤ code && code ≤ range.last && (code - range.first) % range.step == 0

def read (entry : List Char) : CharRange :=
  let step := if entry.contains '/' then 2 else 1
  let bounds := entry.takeWhile (· != '/')
  let first := readHex (bounds.takeWhile (· != '-'))
  let last := if bounds.contains '-' then readHex ((bounds.dropWhile (· != '-')).drop 1) else first
  ⟨first, last, step⟩

end CharRange

/-- Ranges in ascending order that do not overlap. -/
abbrev CharRanges := Array CharRange

namespace CharRanges

def ofRows (rows : List String) : CharRanges :=
  (rows.flatMap (fun row => pieces ' ' row.toList) |>.map CharRange.read).toArray

/-- Binary search among the ranges from `low` up to and without `high`. -/
def findBetween? (ranges : CharRanges) (code low high : Nat) : Option Nat :=
  if low < high then
    let middle := (low + high) / 2
    match ranges[middle]? with
    | none => none
    | some range =>
      if code < range.first then findBetween? ranges code low middle
      else if range.last < code then findBetween? ranges code (middle + 1) high
      else if range.contains code then some middle
      else none
  else none
termination_by high - low

/-- The index of the range that contains a character number. -/
def find? (ranges : CharRanges) (code : Nat) : Option Nat :=
  findBetween? ranges code 0 ranges.size

def contains (ranges : CharRanges) (char : Char) : Bool := (ranges.find? char.toNat).isSome

end CharRanges

end EdmQuery.Text
