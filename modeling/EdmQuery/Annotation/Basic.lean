import EdmQuery.Value.Container

set_option autoImplicit false

namespace EdmQuery

/-- What an annotation is attached to. -/
inductive AnnotationTarget
  | service
  | type (name : String)
  | property (typeName name : String)
deriving DecidableEq, Repr

namespace AnnotationTarget

def render : AnnotationTarget → String
  | service => "$service"
  | type name => name
  | property typeName name => typeName ++ "/" ++ name

/-- The target that optional names stand for: without a type it is the service. -/
def ofNames : Option String → Option String → AnnotationTarget
  | none, _ => service
  | some typeName, none => type typeName
  | some typeName, some name => property typeName name

end AnnotationTarget

structure Annotation where
  term : String
  value : Value
deriving Inhabited

namespace Annotation

/-- The value of a term that is a record. -/
def record? (note : Annotation) : Option ComplexValue := note.value.complex?

end Annotation

end EdmQuery
