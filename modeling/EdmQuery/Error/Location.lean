set_option autoImplicit false

namespace EdmQuery

/-- A half-open range of bytes. The end may lie before the start; such a span is empty. -/
structure Span where
  start : Nat
  stop : Nat
deriving DecidableEq, Repr, Inhabited

namespace Span

def point (position : Nat) : Span := ⟨position, position⟩

def length (span : Span) : Nat := span.stop - span.start

def isEmpty (span : Span) : Bool := span.stop ≤ span.start

def render (span : Span) : String := toString span.start ++ ".." ++ toString span.stop

@[simp] theorem length_point (position : Nat) : (point position).length = 0 := by
  simp only [point, length, Nat.sub_self]

end Span

/-- The number of bytes of a text in UTF-8. -/
def utf8Size : List Char → Nat
  | [] => 0
  | char :: rest => char.utf8Size + utf8Size rest

@[simp] theorem utf8Size_append (first second : List Char) :
    utf8Size (first ++ second) = utf8Size first + utf8Size second := by
  induction first with
  | nil => simp only [List.nil_append, utf8Size, Nat.zero_add]
  | cons char rest ih => simp only [List.cons_append, utf8Size, ih, Nat.add_assoc]

/-- Where a failure lies in an expression: the column counts characters from one, the offset and
the length count bytes. -/
structure Location where
  column : Nat
  offset : Nat
  length : Nat
deriving DecidableEq, Repr, Inhabited

namespace Location

/-- How many characters start before a byte offset. -/
def startsBefore (offset : Nat) : List Char → Nat
  | [] => 0
  | char :: rest => if 0 < offset then 1 + startsBefore (offset - char.utf8Size) rest else 0

/-- A start past the end of the source is moved to its end; the length is kept. -/
def ofSpan (span : Span) (source : List Char) : Location :=
  let offset := min span.start (utf8Size source)
  ⟨startsBefore offset source + 1, offset, span.length⟩

/-- The point where the unconsumed rest of a source begins. -/
def atRemaining (source rest : List Char) : Location :=
  ofSpan (Span.point (utf8Size source - utf8Size rest)) source

def render (location : Location) : String := "column " ++ toString location.column

end Location

end EdmQuery
