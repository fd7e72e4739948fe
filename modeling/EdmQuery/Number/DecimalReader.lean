import EdmQuery.Number.Decimal

set_option autoImplicit false

/- Reading decimal numbers. The plain form has an optional sign, digits with underscores between
them and at most one point; the scientific form adds an exponent. Digits behind the point that no
longer fit are not lost silently: the first of them rounds the number, and reading ends there. Where
an exponent moves digits past the last place, the number is rounded to what is left of the places.
-/
namespace EdmQuery

/-- The value of an ASCII digit. -/
def digitValue? (char : Char) : Option Nat :=
  if '0' ≤ char ∧ char ≤ '9' then some (char.toNat - '0'.toNat) else none

def isAsciiDigit (char : Char) : Bool := (digitValue? char).isSome

/-- The number that decimal digits denote. -/
def digitsValue (digits : List Char) : Nat :=
  digits.foldl (fun value char => value * 10 + (char.toNat - '0'.toNat)) 0

/-- A non-empty sequence of ASCII digits, optionally behind a plus sign. -/
def readNat? (text : List Char) : Option Nat :=
  let digits := match text with
    | '+' :: rest => rest
    | _ => text
  if digits ≠ [] ∧ digits.all isAsciiDigit then some (digitsValue digits) else none

/-- Like `readNat?`, with a minus sign allowed as well. -/
def readInt? : List Char → Option Int
  | '-' :: rest =>
    if rest ≠ [] ∧ rest.all isAsciiDigit then some (-(digitsValue rest : Int)) else none
  | text => (readNat? text).map fun n => (n : Int)

namespace Decimal

/-- What has been read of a number. -/
structure Reading where
  negative : Bool
  point : Bool
  started : Bool
  mantissa : Nat
  scale : Nat

def Reading.finish? (state : Reading) : Option Decimal :=
  if state.started then ofParts? state.negative state.mantissa state.scale else none

/-- Ends the reading at a character that no longer fits: a digit rounds, a half goes up. -/
def Reading.roundBy? (state : Reading) (char : Char) : Option Decimal :=
  let digit := match digitValue? char with
    | some digit => some digit
    | none => if char = '_' || (char = '.' && state.point) then some 0 else none
  digit.bind fun digit =>
    if digit < 5 then { state with started := true }.finish?
    else if state.mantissa + 1 < mantissaLimit then
      ofParts? state.negative (state.mantissa + 1) state.scale
    else if state.scale = 0 then none
    else ofParts? state.negative ((state.mantissa + 5) / 10) (state.scale - 1)

def readUnsigned? (state : Reading) : List Char → Option Decimal
  | [] => state.finish?
  | char :: rest =>
    if state.point && state.started && maxScale ≤ state.scale then state.roundBy? char
    else match digitValue? char with
      | some digit =>
        let next := state.mantissa * 10 + digit
        if next < mantissaLimit then
          readUnsigned? { state with
            started := true
            mantissa := next
            scale := if state.point then state.scale + 1 else 0 } rest
        else if state.point then state.roundBy? char
        else none
      | none =>
        if char = '.' && !state.point then readUnsigned? { state with point := true } rest
        else if char = '_' && state.started then readUnsigned? state rest
        else none

/-- The plain form. -/
def read? (text : List Char) : Option Decimal :=
  match text with
  | '-' :: rest => readUnsigned? ⟨true, false, false, 0, 0⟩ rest
  | '+' :: rest => readUnsigned? ⟨false, false, false, 0, 0⟩ rest
  | _ => readUnsigned? ⟨false, false, false, 0, 0⟩ text

/-- The number with no more than so many places; a half goes away from zero. -/
def roundTo (places : Nat) (x : Decimal) : Decimal :=
  if h : x.scale ≤ places then x
  else { x with
    mantissa := divNearestUp x.mantissa (Nat.pow 10 (x.scale - places))
    scale := places
    mantissa_lt := Nat.lt_of_le_of_lt (divNearestUp_le (two_le_pow_ten (by omega)) _) x.mantissa_lt
    scale_le := Nat.le_trans (Nat.le_of_not_le h) x.scale_le }

theorem scale_roundTo_le (places : Nat) (x : Decimal) : (x.roundTo places).scale ≤ places := by
  unfold roundTo
  split
  · assumption
  · exact Nat.le_refl places

/-- Moves the point by a power of ten. It goes at most 28 places to the left, and digits that would
come to stand behind the 28th place are rounded away before. To the right it uses up the places of
the number and then, up to the power of the last place, multiplies. -/
def shift? (x : Decimal) (exponent : Int) : Option Decimal :=
  if exponent < 0 then
    let count := (-exponent).toNat
    if h : count ≤ 28 then
      some { x.roundTo (28 - count) with
        scale := (x.roundTo (28 - count)).scale + count
        scale_le := Nat.add_le_of_le_sub h (x.scale_roundTo_le _) }
    else none
  else if exponent ≤ x.scale then
    some { x with
      scale := x.scale - exponent.toNat
      scale_le := Nat.le_trans (Nat.sub_le ..) x.scale_le }
  else if maxScale < exponent then none
  else ofParts? x.negative (x.mantissa * Nat.pow 10 (exponent.toNat - x.scale)) 0

/-- The scientific form: a plain number, `e` or `E`, and an exponent below `2 ^ 32`. -/
def readScientific? (text : List Char) : Option Decimal :=
  let isMark (char : Char) : Bool := char = 'e' || char = 'E'
  let base := text.takeWhile (!isMark ·)
  match text.dropWhile (!isMark ·) with
  | [] => none
  | _ :: exponent =>
    let (negative, digits) := match exponent with
      | '-' :: rest => (true, rest)
      | _ => (false, exponent)
    (read? base).bind fun number => (readNat? digits).bind fun magnitude =>
      if Nat.pow 2 32 ≤ magnitude then none
      else number.shift? (if negative then -(magnitude : Int) else magnitude)

/-- Either form. -/
def ofText? (text : List Char) : Option Decimal :=
  (read? text).or (readScientific? text)

end Decimal

end EdmQuery
