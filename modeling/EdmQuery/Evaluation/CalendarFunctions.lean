import EdmQuery.Evaluation.Function

set_option autoImplicit false

namespace EdmQuery.CalendarFunctions

def partResult (name : String) (part : Int) : Evaluated (Option Primitive) :=
  match Primitive.int32? part with
  | some value => .ok (some value)
  | none => .error (.overflow name)

/-- A part of a date. -/
def ofDate (name : String) (part : Date → Int) : FunctionDefinition :=
  .fixed name 1 fun _ arguments =>
    match arguments.head? with
    | none | some .null => .ok none
    | some (.primitive (.date date)) => partResult name (part date)
    | some (.primitive (.dateTimeOffset moment)) => partResult name (part moment.date)
    | some other => .error (.typeMismatch name "Edm.Date or Edm.DateTimeOffset" other.typeName)

/-- A part of a time of day. -/
def ofTime (name : String) (part : TimeOfDay → Nat) : FunctionDefinition :=
  .fixed name 1 fun _ arguments =>
    match arguments.head? with
    | none | some .null => .ok none
    | some (.primitive (.timeOfDay time)) => partResult name (part time)
    | some (.primitive (.dateTimeOffset moment)) => partResult name (part moment.time)
    | some other =>
      .error (.typeMismatch name "Edm.TimeOfDay or Edm.DateTimeOffset" other.typeName)

def functions : List FunctionDefinition :=
  [ofDate "year" Date.year,
    ofDate "month" fun date => date.month,
    ofDate "day" fun date => date.day,
    ofTime "hour" TimeOfDay.hour,
    ofTime "minute" TimeOfDay.minute,
    ofTime "second" TimeOfDay.second,
    .fixed "now" 0 fun context _ => .ok (some (.dateTimeOffset context.now))]

end EdmQuery.CalendarFunctions
