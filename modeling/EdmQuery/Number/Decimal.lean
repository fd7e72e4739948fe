import EdmQuery.Number.Binary64

set_option autoImplicit false

namespace EdmQuery

/-- The number `± mantissa / 10 ^ scale`. -/
structure Decimal where
  negative : Bool
  mantissa : Nat
  scale : Nat
  mantissa_lt : mantissa < Nat.pow 2 96
  scale_le : scale ≤ 28
deriving DecidableEq, Repr

namespace Decimal

/-- The first mantissa that no longer fits. -/
def mantissaLimit : Nat := Nat.pow 2 96

def maxScale : Nat := 28

def zero : Decimal := ⟨false, 0, 0, by decide, by decide⟩

instance : Inhabited Decimal := ⟨zero⟩

/-- A number from its parts, if they are in range. Zero gets no sign. -/
def ofParts? (negative : Bool) (mantissa scale : Nat) : Option Decimal :=
  if h : mantissa < Nat.pow 2 96 ∧ scale ≤ 28 then
    some ⟨negative && mantissa != 0, mantissa, scale, h.1, h.2⟩
  else none

/-- An integer of less than 96 bits. -/
def ofInt? (n : Int) : Option Decimal := ofParts? (n < 0) n.natAbs 0

/-- A 64-bit integer always fits. -/
def ofInt64 (n : Int) : Decimal := (ofInt? n).getD zero

def isZero (x : Decimal) : Bool := x.mantissa == 0

/-- Negation changes the sign of zero, too. -/
def neg (x : Decimal) : Decimal := { x with negative := !x.negative }

/-- The signed mantissa of the number written with more places. -/
def scaledTo (places : Nat) (x : Decimal) : Int :=
  let magnitude : Int := (x.mantissa * Nat.pow 10 (places - x.scale) : Nat)
  if x.negative then -magnitude else magnitude

/-- The order of the numbers, whatever their places. -/
def compare (x y : Decimal) : Ordering :=
  let places := max x.scale y.scale
  Ord.compare (x.scaledTo places) (y.scaledTo places)

def sameNumber (x y : Decimal) : Bool := x.compare y == .eq

/-- `± mantissa / 10 ^ scale` with as many places as fit, or nothing if even the integer part does
not fit. -/
def fit? (negative : Bool) (mantissa scale : Nat) : Option Decimal :=
  let dropped := (List.range (scale + 1)).find? fun count =>
    scale - count ≤ maxScale && divNearestEven mantissa (Nat.pow 10 count) < mantissaLimit
  dropped.bind fun count =>
    ofParts? negative (divNearestEven mantissa (Nat.pow 10 count)) (scale - count)

/-- A zero term leaves the other as it is, places included. -/
def add? (x y : Decimal) : Option Decimal :=
  if x.isZero then some y
  else if y.isZero then some x
  else
    let places := max x.scale y.scale
    let sum := x.scaledTo places + y.scaledTo places
    fit? (sum < 0) sum.natAbs places

def sub? (x y : Decimal) : Option Decimal :=
  if x.isZero then some (if y.isZero then y else y.neg)
  else if y.isZero then some x
  else x.add? y.neg

/-- A product with a zero factor is the plain zero, and so is a product of two factors below
`2 ^ 32` that has more than 47 places. -/
def mul? (x y : Decimal) : Option Decimal :=
  if x.isZero || y.isZero then some zero
  else if x.mantissa < Nat.pow 2 32 && y.mantissa < Nat.pow 2 32 && 47 < x.scale + y.scale then some zero
  else fit? (x.negative != y.negative) (x.mantissa * y.mantissa) (x.scale + y.scale)

/-- Removes trailing zeros in groups. Eight at a time go only while the low 32 bits of the
mantissa vanish, so a short quotient keeps some of its zeros. -/
def dropZeros : Nat → Nat → Nat → Nat × Nat
  | fuel + 1, mantissa, scale =>
    if mantissa % Nat.pow 2 32 = 0 && 8 ≤ scale && mantissa % Nat.pow 10 8 = 0 then
      dropZeros fuel (mantissa / Nat.pow 10 8) (scale - 8)
    else
      let group (count : Nat) (number : Nat × Nat) : Nat × Nat :=
        if count ≤ number.2 && number.1 % Nat.pow 10 count = 0 then
          (number.1 / Nat.pow 10 count, number.2 - count)
        else number
      group 1 (group 2 (group 4 (mantissa, scale)))
  | 0, mantissa, scale => (mantissa, scale)

/-- The most places, at most nine and none beyond the 28th, by which a quotient can be extended. -/
def extension (quotient : Nat) (scale : Int) : Nat :=
  let fits (count : Nat) : Bool :=
    decide (scale + count ≤ 28) && decide (quotient * Nat.pow 10 count < mantissaLimit)
  ((List.range 10).reverse.find? fits).getD 0

/-- A quotient past the limit loses its last digit, rounded with ties to even; `inexact` says
that something positive was cut off before. -/
def loseDigit? (quotient : Nat) (scale : Int) (inexact : Bool) : Option (Nat × Int) :=
  if scale ≤ 0 then none
  else
    let digit := quotient % 10
    let shorter := quotient / 10
    let up := 5 < digit || (digit == 5 && (inexact || shorter % 2 == 1))
    some (if up then shorter + 1 else shorter, scale - 1)

/-- Long division: extends the quotient until it is exact or no place is left, and answers with
whether any place was added. -/
def divide? (divisor : Nat) : Nat → Bool → Nat → Nat → Int → Option (Nat × Int × Bool)
  | 0, _, _, _, _ => none
  | fuel + 1, extended, quotient, remainder, scale =>
    if remainder = 0 && 0 ≤ scale then some (quotient, scale, extended)
    else
      let extended := extended || remainder != 0
      let count :=
        if remainder = 0 then min 9 (-scale).toNat else extension quotient scale
      if remainder != 0 && count < 9 && scale + count < 0 then none
      else if remainder != 0 && count = 0 then
        let up := divisor < 2 * remainder || (2 * remainder == divisor && quotient % 2 == 1)
        let rounded := if up then quotient + 1 else quotient
        if rounded < mantissaLimit then some (rounded, scale, extended)
        else (loseDigit? rounded scale true).map fun (shorter, place) => (shorter, place, extended)
      else
        let next := quotient * Nat.pow 10 count + remainder * Nat.pow 10 count / divisor
        let rest := remainder * Nat.pow 10 count % divisor
        if mantissaLimit ≤ quotient * Nat.pow 10 count then none
        else if mantissaLimit ≤ next then
          (loseDigit? next (scale + count) (rest != 0)).map fun (shorter, place) =>
            (shorter, place, extended)
        else divide? divisor fuel extended next rest (scale + count)

/-- The quotient, or nothing if it does not fit or the divisor is zero. -/
def div? (x y : Decimal) : Option Decimal :=
  if y.isZero then none
  else if x.isZero then some zero
  else
    let start : Int := (x.scale : Int) - y.scale
    (divide? y.mantissa 64 false (x.mantissa / y.mantissa) (x.mantissa % y.mantissa) start).bind
      fun (quotient, scale, extended) =>
        let (mantissa, places) :=
          if extended then dropZeros 8 quotient scale.toNat else (quotient, scale.toNat)
        ofParts? (x.negative != y.negative) mantissa places

/-- The remainder of division truncated toward zero, with the sign of the dividend. -/
def rem? (x y : Decimal) : Option Decimal :=
  if y.isZero then none
  else if x.isZero then some zero
  else
    let places := max x.scale y.scale
    let dividend := (x.scaledTo places).natAbs
    let divisor := (y.scaledTo places).natAbs
    if dividend = divisor then some zero
    else if dividend < divisor then some x
    else ofParts? x.negative (dividend % divisor) places

/-- The integer part, with the sign of the number even if it is zero. -/
def truncate (x : Decimal) : Decimal :=
  { x with
    mantissa := x.mantissa / Nat.pow 10 x.scale
    scale := 0
    mantissa_lt := Nat.lt_of_le_of_lt (Nat.div_le_self ..) x.mantissa_lt
    scale_le := Nat.zero_le _ }

def isWhole (x : Decimal) : Bool := x.mantissa % Nat.pow 10 x.scale == 0

def one : Decimal := ⟨false, 1, 0, by decide, by decide⟩

def floor (x : Decimal) : Decimal :=
  if x.scale = 0 then x
  else if x.negative && !x.isWhole then (x.truncate.sub? one).getD x.truncate
  else x.truncate

def ceil (x : Decimal) : Decimal :=
  if x.scale = 0 then x
  else if x.negative || x.isWhole then x.truncate
  else (x.truncate.add? one).getD x.truncate

/-- The nearest integer; a half goes away from zero. -/
def round (x : Decimal) : Decimal :=
  if x.scale = 0 then x
  else (ofParts? x.negative (divNearestUp x.mantissa (Nat.pow 10 x.scale)) 0).getD x.truncate

/-- Powers of ten in binary floating point, by repeated squaring. -/
def binaryPower : Nat → Nat → Binary64 → Binary64 → Binary64
  | 0, _, _, result => result
  | fuel + 1, exponent, base, result =>
    let result := if exponent % 2 = 1 then result.mul base else result
    if exponent / 2 = 0 then result
    else binaryPower fuel (exponent / 2) (base.mul base) result

/-- The binary value. A number with a fraction is the sum of both parts, brought back to its
number of places by rounding. -/
def toBinary64 (x : Decimal) : Binary64 :=
  if x.scale = 0 then
    Binary64.ofInt (if x.negative then -(x.mantissa : Int) else x.mantissa)
  else
    let unit := Nat.pow 10 x.scale
    let whole := Binary64.ofNat (x.mantissa / unit)
    let fraction := (Binary64.ofNat (x.mantissa % unit)).div (Binary64.ofNat unit)
    let magnitude :=
      if fraction.isZero then whole
      else
        let places := binaryPower 8 x.scale (Binary64.ofNat 10) (Binary64.ofNat 1)
        (((whole.add fraction).mul places).round).div places
    if x.negative then magnitude.neg else magnitude

/-- The integer value, if the number is written without places. -/
def toInt? (x : Decimal) : Option Int :=
  if x.scale = 0 then some (if x.negative then -(x.mantissa : Int) else x.mantissa) else none

/-- All digits with exactly as many places as the number has. -/
def render (x : Decimal) : String :=
  let digits := toString x.mantissa
  let padded := "".pushn '0' (x.scale + 1 - digits.length) ++ digits
  let whole := padded.length - x.scale
  (if x.negative then "-" else "") ++ String.ofList (padded.toList.take whole) ++
    (if x.scale = 0 then "" else "." ++ String.ofList (padded.toList.drop whole))

end Decimal

end EdmQuery
