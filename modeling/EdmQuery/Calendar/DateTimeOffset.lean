import EdmQuery.Calendar.TimeOfDay

set_option autoImplicit false

namespace EdmQuery

/-- A local date and time; the offset is in minutes, east of Greenwich positive, and less than a
day. -/
structure DateTimeOffset where
  date : Date
  time : TimeOfDay
  offset : Int
  offset_lt : offset.natAbs < 1440
deriving DecidableEq, Repr

namespace DateTimeOffset

/-- A moment read on a clock of universal time. -/
def universal (date : Date) (time : TimeOfDay) : DateTimeOffset := ⟨date, time, 0, by decide⟩

instance : Inhabited DateTimeOffset := ⟨universal default default⟩

/-- Seconds since 1 January 1970 in universal time. -/
def toSeconds (moment : DateTimeOffset) : Int :=
  moment.date.toDays * 86400 + moment.time.secondOfDay - moment.offset * 60

def compare (first second : DateTimeOffset) : Ordering :=
  (Ord.compare first.toSeconds second.toSeconds).then
    (Ord.compare first.time.nanosecond second.time.nanosecond)

def renderOffset (offset : Int) : String :=
  if offset = 0 then "Z"
  else
    (if offset < 0 then "-" else "+") ++ padNat 2 (offset.natAbs / 60) ++ ":" ++
      padNat 2 (offset.natAbs % 60)

def render (moment : DateTimeOffset) : String :=
  moment.date.render ++ "T" ++ moment.time.render ++ renderOffset moment.offset

/-- Exactly `count` digits. -/
def readFixed? (count : Nat) (text : List Char) : Option (Nat × List Char) :=
  let digits := text.take count
  if digits.length = count ∧ digits.all isAsciiDigit then
    some (digitsValue digits, text.drop count)
  else none

/-- `Z`, or a sign with hours and minutes; the minus sign may be the typographic one. -/
def readOffset? : List Char → Option (Int × List Char)
  | [] => none
  | mark :: rest =>
    if mark = 'Z' ∨ mark = 'z' then some (0, rest)
    else if mark = '+' ∨ mark = '-' ∨ mark = '−' then do
      let (hours, rest) ← readFixed? 2 rest
      let rest ← dropChar? ':' rest
      let (minutes, rest) ← readFixed? 2 rest
      if hours < 24 ∧ minutes < 60 then
        let magnitude : Int := (hours * 60 + minutes : Nat)
        return (if mark = '+' then magnitude else -magnitude, rest)
      else none
    else none

/-- The strict profile: every number has its full width, and an offset is given. The date and the
time are joined by `T` or a blank. -/
def read? (text : List Char) : Option DateTimeOffset := do
  let (year, rest) ← readFixed? 4 text
  let rest ← dropChar? '-' rest
  let (month, rest) ← readFixed? 2 rest
  let rest ← dropChar? '-' rest
  let (day, rest) ← readFixed? 2 rest
  let rest ← match rest with
    | mark :: rest => if mark = 'T' ∨ mark = 't' ∨ mark = ' ' then some rest else none
    | [] => none
  let (hour, rest) ← readFixed? 2 rest
  let rest ← dropChar? ':' rest
  let (minute, rest) ← readFixed? 2 rest
  let rest ← dropChar? ':' rest
  let (second, rest) ← readFixed? 2 rest
  let (nanosecond, rest) ← Calendar.readFraction? rest
  let (offset, rest) ← readOffset? rest
  if rest ≠ [] then none
  else
    let date ← Date.of? year month day
    let time ← TimeOfDay.ofClock? hour minute second nanosecond
    if within : offset.natAbs < 1440 then some ⟨date, time, offset, within⟩ else none

end DateTimeOffset

end EdmQuery
