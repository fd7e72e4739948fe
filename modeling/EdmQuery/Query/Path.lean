import EdmQuery.Text.Position

set_option autoImplicit false

namespace EdmQuery

/-- Names that lead from an instance to one of its properties, to a property of that property's
value, and so on. The empty path is the instance itself, written `$it`. -/
structure PropertyPath where
  segments : List String
deriving DecidableEq, Repr, Inhabited

namespace PropertyPath

def root : PropertyPath := ⟨[]⟩

def isRoot (path : PropertyPath) : Bool := path.segments.isEmpty

def first? (path : PropertyPath) : Option String := path.segments.head?

def tail (path : PropertyPath) : PropertyPath := ⟨path.segments.tail⟩

def push (path : PropertyPath) (segment : String) : PropertyPath := ⟨path.segments ++ [segment]⟩

def append (base relative : PropertyPath) : PropertyPath := ⟨base.segments ++ relative.segments⟩

/-- Reads a path between slashes; empty pieces and `$it` name nothing. -/
def ofText (text : String) : PropertyPath :=
  ⟨((Text.pieces '/' text.toList).map String.ofList).filter fun piece =>
    piece ≠ "" ∧ piece ≠ "$it"⟩

/-- Names joined by slashes. -/
def joinSlashes : List String → List Char
  | [] => []
  | [segment] => segment.toList
  | segment :: rest => segment.toList ++ '/' :: joinSlashes rest

def spell (path : PropertyPath) : List Char :=
  if path.segments = [] then "$it".toList else joinSlashes path.segments

def render (path : PropertyPath) : String := String.ofList path.spell

@[simp] theorem segments_push (path : PropertyPath) (segment : String) :
    (path.push segment).segments = path.segments ++ [segment] := rfl

@[simp] theorem segments_append (base relative : PropertyPath) :
    (base.append relative).segments = base.segments ++ relative.segments := rfl

end PropertyPath

end EdmQuery
