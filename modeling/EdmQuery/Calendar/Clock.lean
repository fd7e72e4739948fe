import EdmQuery.Calendar.DateTimeOffset

set_option autoImplicit false

namespace EdmQuery

/-- The date that is so many days after 1 January 1970. Days are counted from 1 March of the year
zero, in cycles of 400 years. -/
def Date.ofDays? (days : Int) : Option Date :=
  let shifted := days + 719468
  let cycle := shifted / 146097
  let dayOfCycle := (shifted % 146097).toNat
  let yearOfCycle :=
    (dayOfCycle - dayOfCycle / 1460 + dayOfCycle / 36524 - dayOfCycle / 146096) / 365
  let dayOfYear := dayOfCycle - (365 * yearOfCycle + yearOfCycle / 4 - yearOfCycle / 100)
  let monthFromMarch := (5 * dayOfYear + 2) / 153
  let day := dayOfYear - (153 * monthFromMarch + 2) / 5 + 1
  let year : Int := yearOfCycle + cycle * 400
  if monthFromMarch < 10 then Date.of? year (monthFromMarch + 3) day
  else Date.of? (year + 1) (monthFromMarch - 9) day

def TimeOfDay.ofSeconds? (seconds nanosecond : Nat) : Option TimeOfDay :=
  TimeOfDay.of? (seconds / 3600) (seconds / 60 % 60) (seconds % 60) nanosecond

def DateTimeOffset.ofUnixTime (seconds : Int) (nanosecond : Nat) : DateTimeOffset :=
  universal ((Date.ofDays? (seconds / 86400)).getD default)
    ((TimeOfDay.ofSeconds? (seconds % 86400).toNat nanosecond).getD default)

end EdmQuery
