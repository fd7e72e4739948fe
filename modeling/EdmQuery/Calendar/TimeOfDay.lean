import EdmQuery.Calendar.Date

set_option autoImplicit false

namespace EdmQuery

namespace Calendar

def secondNanos : Nat := 1000000000

def isTime (hour minute second nanosecond : Nat) : Bool :=
  hour < 24 && minute < 60 && second < 60 && nanosecond < 2 * secondNanos &&
    (nanosecond < secondNanos || second == 59)

/-- A point and the digits of a fraction of a second, as many groups of three as it needs. -/
def renderFraction (nanosecond : Nat) : String :=
  if nanosecond = 0 then ""
  else if nanosecond % 1000000 = 0 then "." ++ padNat 3 (nanosecond / 1000000)
  else if nanosecond % 1000 = 0 then "." ++ padNat 6 (nanosecond / 1000)
  else "." ++ padNat 9 nanosecond

/-- The digits behind a point as nanoseconds; what comes after the ninth digit is cut off. -/
def readNanos? (text : List Char) : Option (Nat × List Char) :=
  let digits := text.takeWhile isAsciiDigit
  if digits = [] then none
  else
    let kept := digits.take 9
    some (digitsValue kept * Nat.pow 10 (9 - kept.length), text.drop digits.length)

/-- An optional fraction of a second. -/
def readFraction? : List Char → Option (Nat × List Char)
  | '.' :: rest => readNanos? rest
  | text => some (0, text)

end Calendar

structure TimeOfDay where
  hour : Nat
  minute : Nat
  second : Nat
  nanosecond : Nat
  valid : Calendar.isTime hour minute second nanosecond = true
deriving DecidableEq, Repr

namespace TimeOfDay

def of? (hour minute second nanosecond : Nat) : Option TimeOfDay :=
  if valid : Calendar.isTime hour minute second nanosecond = true then
    some ⟨hour, minute, second, nanosecond, valid⟩
  else none

instance : Inhabited TimeOfDay := ⟨⟨0, 0, 0, 0, by decide⟩⟩

/-- Second 60 is the leap second behind second 59. -/
def ofClock? (hour minute second nanosecond : Nat) : Option TimeOfDay :=
  if second = 60 then of? hour minute 59 (nanosecond + Calendar.secondNanos)
  else of? hour minute second nanosecond

def secondOfDay (time : TimeOfDay) : Nat := time.hour * 3600 + time.minute * 60 + time.second

/-- The second as it is written, 60 for a leap second. -/
def clockSecond (time : TimeOfDay) : Nat :=
  time.second + time.nanosecond / Calendar.secondNanos

def compare (first second : TimeOfDay) : Ordering :=
  (Ord.compare first.secondOfDay second.secondOfDay).then
    (Ord.compare first.nanosecond second.nanosecond)

def render (time : TimeOfDay) : String :=
  padNat 2 time.hour ++ ":" ++ padNat 2 time.minute ++ ":" ++ padNat 2 time.clockSecond ++
    Calendar.renderFraction (time.nanosecond % Calendar.secondNanos)

/-- Hours and minutes, each of one or two digits behind optional white space. -/
def readHourMinute? (text : List Char) : Option (Nat × Nat × List Char) := do
  let (hour, rest) ← readDigits? 2 (Text.trimStart text)
  let rest ← dropChar? ':' rest
  let (minute, rest) ← readDigits? 2 (Text.trimStart rest)
  return (hour, minute, rest)

/-- Hours, minutes, and optionally seconds with a fraction. -/
def read? (text : List Char) : Option TimeOfDay := do
  let (hour, minute, rest) ← readHourMinute? text
  match rest with
  | [] => of? hour minute 0 0
  | _ =>
    let rest ← dropChar? ':' rest
    let (second, rest) ← readDigits? 2 (Text.trimStart rest)
    let (nanosecond, rest) ← Calendar.readFraction? rest
    if rest = [] then ofClock? hour minute second nanosecond else none

end TimeOfDay

end EdmQuery
