import EdmQuery.Number.Rounding

set_option autoImplicit false

/- Binary floating point in exact integer arithmetic. A number is not a number, an infinity, or `±
significand * 2 ^ exponent`; every operation computes its exact result as a quotient of natural
numbers and rounds once, to nearest with ties to even. Single precision is the same type rounded to
a narrower format. -/
namespace EdmQuery

/-- A binary floating-point number. Zeros keep their sign, and so does what is not a number, for
which it matters in the total order alone. -/
inductive Binary64
  | nan (negative : Bool)
  | infinity (negative : Bool)
  | finite (negative : Bool) (significand : Nat) (exponent : Int)
deriving DecidableEq, Repr, Inhabited

/-- How many bits a significand has, and the exponents between which its last bit may stand. -/
structure BinaryFormat where
  precision : Nat
  minExponent : Int
  maxExponent : Int
deriving DecidableEq, Repr

namespace BinaryFormat

def double : BinaryFormat := ⟨53, -1074, 971⟩

def single : BinaryFormat := ⟨24, -149, 104⟩

/-- The exponent of the leading bit of `num / den`, for positive arguments. -/
def leadingExponent (num den : Nat) : Int :=
  let guess : Int := (Nat.log2 num : Int) - (Nat.log2 den : Int)
  let reached :=
    if 0 ≤ guess then den <<< guess.toNat ≤ num else den ≤ num <<< (-guess).toNat
  if reached then guess else guess - 1

/-- `num / den` rounded to a format; what exceeds the format is an infinity. -/
def round (format : BinaryFormat) (negative : Bool) (num den : Nat) : Binary64 :=
  if num = 0 then .finite negative 0 format.minExponent
  else
    let exponent :=
      max format.minExponent (leadingExponent num den - (format.precision - 1 : Nat))
    let significand :=
      if 0 ≤ exponent then divNearestEven num (den <<< exponent.toNat)
      else divNearestEven (num <<< (-exponent).toNat) den
    let (significand, exponent) :=
      if significand = Nat.pow 2 format.precision then (Nat.pow 2 (format.precision - 1), exponent + 1)
      else (significand, exponent)
    if format.maxExponent < exponent then .infinity negative
    else .finite negative significand exponent

/-- `± significand * 2 ^ exponent` rounded to a format. -/
def roundScaled (format : BinaryFormat) (negative : Bool) (significand : Nat) (exponent : Int) :
    Binary64 :=
  if 0 ≤ exponent then format.round negative (significand <<< exponent.toNat) 1
  else format.round negative significand (1 <<< (-exponent).toNat)

/-- `± digits * 10 ^ exponent` rounded to a format. Exponents far outside the format are answered
without computing the power. -/
def ofDecimal (format : BinaryFormat) (negative : Bool) (digits : Nat) (exponent : Int) :
    Binary64 :=
  if digits = 0 then .finite negative 0 format.minExponent
  else if 400 < exponent then .infinity negative
  else if exponent + (Nat.log2 digits : Int) < -1200 then .finite negative 0 format.minExponent
  else if 0 ≤ exponent then format.round negative (digits * Nat.pow 10 exponent.toNat) 1
  else format.round negative digits (Nat.pow 10 (-exponent).toNat)

end BinaryFormat

namespace Binary64

open BinaryFormat (double single)

def zero : Binary64 := .finite false 0 double.minExponent

def ofNat (n : Nat) : Binary64 := double.round false n 1

def ofInt (n : Int) : Binary64 := double.round (n < 0) n.natAbs 1

def ofDecimal (negative : Bool) (digits : Nat) (exponent : Int) : Binary64 :=
  double.ofDecimal negative digits exponent

/-- The nearest single-precision number. -/
def toSingle : Binary64 → Binary64
  | .finite negative significand exponent =>
    match single.roundScaled negative significand exponent with
    | .finite sign narrowed place => double.roundScaled sign narrowed place
    | other => other
  | other => other

def isNaN : Binary64 → Bool
  | .nan _ => true
  | _ => false

def isFinite : Binary64 → Bool
  | .finite .. => true
  | _ => false

def isNegative : Binary64 → Bool
  | .nan negative => negative
  | .infinity negative => negative
  | .finite negative .. => negative

def isZero : Binary64 → Bool
  | .finite _ significand _ => significand == 0
  | _ => false

def neg : Binary64 → Binary64
  | .nan negative => .nan (!negative)
  | .infinity negative => .infinity (!negative)
  | .finite negative significand exponent => .finite (!negative) significand exponent

/-- The signed value in units of `2 ^ unit`, for a unit not above the exponent. -/
def scaledTo (unit : Int) (negative : Bool) (significand : Nat) (exponent : Int) : Int :=
  let magnitude : Int := (significand <<< (exponent - unit).toNat : Nat)
  if negative then -magnitude else magnitude

/-- What an operation without a result gives. -/
def invalid : Binary64 := .nan true

/-- A sum that is exactly zero is negative only if both terms are. -/
def add : Binary64 → Binary64 → Binary64
  | .nan negative, _ | _, .nan negative => .nan negative
  | .infinity first, .infinity second => if first = second then .infinity first else invalid
  | .infinity first, _ => .infinity first
  | _, .infinity second => .infinity second
  | .finite firstSign firstSignificand firstExponent,
    .finite secondSign secondSignificand secondExponent =>
    let unit := min firstExponent secondExponent
    let sum := scaledTo unit firstSign firstSignificand firstExponent +
      scaledTo unit secondSign secondSignificand secondExponent
    if sum = 0 then .finite (firstSign && secondSign) 0 double.minExponent
    else double.roundScaled (sum < 0) sum.natAbs unit

def sub : Binary64 → Binary64 → Binary64
  | .nan negative, _ | _, .nan negative => .nan negative
  | x, y => add x (neg y)

def mul : Binary64 → Binary64 → Binary64
  | .nan negative, _ | _, .nan negative => .nan negative
  | .infinity first, .infinity second => .infinity (first != second)
  | .infinity first, .finite second significand _ =>
    if significand = 0 then invalid else .infinity (first != second)
  | .finite first significand _, .infinity second =>
    if significand = 0 then invalid else .infinity (first != second)
  | .finite firstSign firstSignificand firstExponent,
    .finite secondSign secondSignificand secondExponent =>
    double.roundScaled (firstSign != secondSign) (firstSignificand * secondSignificand)
      (firstExponent + secondExponent)

def div : Binary64 → Binary64 → Binary64
  | .nan negative, _ | _, .nan negative => .nan negative
  | .infinity _, .infinity _ => invalid
  | .infinity first, .finite second _ _ => .infinity (first != second)
  | .finite first _ _, .infinity second => .finite (first != second) 0 double.minExponent
  | .finite firstSign firstSignificand firstExponent,
    .finite secondSign secondSignificand secondExponent =>
    let negative := firstSign != secondSign
    if secondSignificand = 0 then
      if firstSignificand = 0 then invalid else .infinity negative
    else
      let unit := min firstExponent secondExponent
      double.round negative (firstSignificand <<< (firstExponent - unit).toNat)
        (secondSignificand <<< (secondExponent - unit).toNat)

/-- The remainder of division truncated toward zero, with the sign of the dividend. -/
def rem : Binary64 → Binary64 → Binary64
  | .nan negative, _ | _, .nan negative => .nan negative
  | .infinity _, _ => invalid
  | x@(.finite ..), .infinity _ => x
  | .finite sign firstSignificand firstExponent, .finite _ secondSignificand secondExponent =>
    if secondSignificand = 0 then invalid
    else
      let unit := min firstExponent secondExponent
      double.roundScaled sign
        ((firstSignificand <<< (firstExponent - unit).toNat) %
          (secondSignificand <<< (secondExponent - unit).toNat)) unit

/-- How a number with a fraction becomes a whole one. -/
inductive Whole
  | truncate
  | floor
  | ceiling
  | nearestAwayFromZero
deriving DecidableEq, Repr

/-- The whole number chosen for a number; a zero keeps the sign. -/
def toWhole (mode : Whole) : Binary64 → Binary64
  | .finite negative significand exponent =>
    if 0 ≤ exponent then .finite negative significand exponent
    else
      let unit := 1 <<< (-exponent).toNat
      let down := significand / unit
      let exact := significand % unit = 0
      let chosen := match mode with
        | .truncate => down
        | .floor => if negative && !exact then down + 1 else down
        | .ceiling => if !negative && !exact then down + 1 else down
        | .nearestAwayFromZero => divNearestUp significand unit
      double.round negative chosen 1
  | other => other

def floor (x : Binary64) : Binary64 := toWhole .floor x
def ceil (x : Binary64) : Binary64 := toWhole .ceiling x

/-- The nearest whole number; a half goes away from zero. -/
def round (x : Binary64) : Binary64 := toWhole .nearestAwayFromZero x

/-- Whether a finite number has no fraction. -/
def isWhole : Binary64 → Bool
  | .finite _ significand exponent =>
    if 0 ≤ exponent then true else significand % (1 <<< (-exponent).toNat) == 0
  | _ => false

/-- The integer part of a finite number. -/
def toInt : Binary64 → Int
  | .finite negative significand exponent =>
    let magnitude : Int :=
      if 0 ≤ exponent then (significand <<< exponent.toNat : Nat)
      else (significand >>> (-exponent).toNat : Nat)
    if negative then -magnitude else magnitude
  | _ => 0

/-- The order of real numbers with both zeros equal; nothing compares with NaN. -/
def compare? : Binary64 → Binary64 → Option Ordering
  | .nan _, _ | _, .nan _ => none
  | .infinity first, .infinity second =>
    some (if first = second then .eq else if first then .lt else .gt)
  | .infinity first, _ => some (if first then .lt else .gt)
  | _, .infinity second => some (if second then .gt else .lt)
  | .finite firstSign firstSignificand firstExponent,
    .finite secondSign secondSignificand secondExponent =>
    let unit := min firstExponent secondExponent
    some (compare (scaledTo unit firstSign firstSignificand firstExponent)
      (scaledTo unit secondSign secondSignificand secondExponent))

/-- A total order: the order of `compare?`, with a negative zero below a positive one and what is
not a number below or above everything, as its sign says. -/
def totalCompare (x y : Binary64) : Ordering :=
  match x.compare? y with
  | some .eq => compare (!x.isNegative).toNat (!y.isNegative).toNat
  | some order => order
  | none => compare (rankOfNaN x) (rankOfNaN y)
where
  rankOfNaN (z : Binary64) : Int :=
    if z.isNaN then (if z.isNegative then -1 else 1) else 0

/-- Equality of numbers: both zeros are equal and NaN differs from itself. -/
def sameNumber (x y : Binary64) : Bool := x.compare? y == some .eq

end Binary64

end EdmQuery
