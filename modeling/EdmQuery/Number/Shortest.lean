import EdmQuery.Number.Binary64

set_option autoImplicit false

namespace EdmQuery

/-- A positive decimal number `digits * 10 ^ exponent`. -/
structure DecimalDigits where
  digits : Nat
  exponent : Int
deriving DecidableEq, Repr

namespace DecimalDigits

/-- The numbers that round to `significand * 2 ^ exponent`, measured in units of
`2 ^ (exponent - 2)`: from `low` to `high`, ends included if `closed`. -/
structure RoundingInterval where
  low : Nat
  center : Nat
  high : Nat
  closed : Bool

def roundingInterval (significand : Nat) (exponent : Int) : RoundingInterval :=
  let lowGap := if significand = Nat.pow 2 52 && decide (BinaryFormat.double.minExponent < exponent)
    then 1 else 2
  ⟨4 * significand - lowGap, 4 * significand, 4 * significand + 2, significand % 2 = 0⟩

/-- Whether `num / den`, in the units of the interval, lies in it. -/
def RoundingInterval.contains (interval : RoundingInterval) (num den : Nat) : Bool :=
  if interval.closed then interval.low * den ≤ num && num ≤ interval.high * den
  else interval.low * den < num && num < interval.high * den

/-- `value / unit` as a fraction of natural numbers, where both are given as a natural number
times a power of two and a power of ten. -/
def ratio (value : Nat) (twos : Int) (tens : Int) : Nat × Nat :=
  let num := value * (if 0 ≤ twos then Nat.pow 2 twos.toNat else 1) *
    (if tens < 0 then Nat.pow 10 (-tens).toNat else 1)
  let den := (if 0 ≤ twos then 1 else Nat.pow 2 (-twos).toNat) *
    (if tens < 0 then 1 else Nat.pow 10 tens.toNat)
  (num, den)

/-- The point of the grid `10 ^ place` that lies in the interval and nearest to its center, if
any. Only the two neighbours of the center can be that point. -/
def onGrid (interval : RoundingInterval) (twos place : Int) : Option Nat :=
  let (num, den) := ratio interval.center twos place
  let below := num / den
  let twice := 2 * (num % den)
  let inside (point : Nat) : Bool :=
    let (unit, size) := ratio 1 (-twos) (-place)
    interval.contains (point * unit) size
  let nearer := if twice < den || (twice == den && below % 2 == 0) then below else below + 1
  let farther := if nearer = below then below + 1 else below
  if inside nearer then some nearer
  else if inside farther then some farther
  else none

/-- The number of decimal digits before the point of `num / den`, negative below a tenth. -/
def decimalPoint (num den : Nat) : Int :=
  let guess : Int := ((Nat.log2 num : Int) - (Nat.log2 den : Int)) * 30103 / 100000
  let reaches (place : Int) : Bool :=
    if 0 ≤ place then decide (den * Nat.pow 10 place.toNat ≤ num)
    else decide (den ≤ num * Nat.pow 10 (-place).toNat)
  if reaches (guess + 1) then guess + 2
  else if reaches guess then guess + 1
  else if reaches (guess - 1) then guess
  else guess - 1

def search (interval : RoundingInterval) (twos point : Int) : Nat → Nat → DecimalDigits
  | 0, _ => ⟨0, 0⟩
  | fuel + 1, count =>
    match onGrid interval twos (point - count) with
    | some digits =>
      let (stripped, zeros) := stripTens 25 digits
      ⟨stripped, point - count + zeros⟩
    | none => search interval twos point fuel (count + 1)

/-- The fewest digits that read back as `significand * 2 ^ exponent`; of several numbers with so
few digits the nearest. Seventeen digits always suffice. -/
def shortest (significand : Nat) (exponent : Int) : DecimalDigits :=
  let interval := roundingInterval significand exponent
  let twos := exponent - 2
  let (num, den) := ratio interval.center twos 0
  search interval twos (decimalPoint num den) 18 1

/-- How many digits there are. -/
def size (number : DecimalDigits) : Nat := (toString number.digits).length

/-- The exponent of the first digit. -/
def scientificExponent (number : DecimalDigits) : Int := number.exponent + number.size - 1

/-- All digits and no exponent; without a fraction there is no point. -/
def positional (number : DecimalDigits) : String :=
  let text := toString number.digits
  if 0 ≤ number.exponent then text.pushn '0' number.exponent.toNat
  else
    let places := (-number.exponent).toNat
    if places < text.length then
      let whole := text.length - places
      String.ofList (text.toList.take whole) ++ "." ++ String.ofList (text.toList.drop whole)
    else "0." ++ "".pushn '0' (places - text.length) ++ text

/-- One digit before the point, the others behind it, and a signed exponent. -/
def scientific (number : DecimalDigits) : String :=
  let mantissa := match (toString number.digits).toList with
    | [] => ""
    | [digit] => digit.toString
    | digit :: rest => digit.toString ++ "." ++ String.ofList rest
  let exponent := number.scientificExponent
  mantissa ++ (if exponent < 0 then "e-" else "e+") ++ toString exponent.natAbs

end DecimalDigits

namespace Binary64

/-- The digits of the magnitude of a finite number, or none for zero. -/
def shortest? : Binary64 → Option DecimalDigits
  | .finite _ significand exponent =>
    if significand = 0 then none else some (DecimalDigits.shortest significand exponent)
  | _ => none

/-- The text of a number in a key, a query or a message: all digits, no exponent. -/
def positional : Binary64 → String
  | .nan _ => "NaN"
  | .infinity negative => if negative then "-INF" else "INF"
  | x@(.finite negative ..) =>
    (if negative then "-" else "") ++ match x.shortest? with
      | none => "0"
      | some number => number.positional

/-- The text of a finite number in JSON: positional with a point while the first digit stands
between `10 ^ -5` and `10 ^ 15`, otherwise with an exponent. -/
def jsonText (x : Binary64) : String :=
  (if x.isNegative then "-" else "") ++ match x.shortest? with
    | none => "0.0"
    | some number =>
      let exponent := number.scientificExponent
      if exponent < -5 || 15 < exponent then number.scientific
      else if 0 ≤ number.exponent then number.positional ++ ".0"
      else number.positional

end Binary64

end EdmQuery
