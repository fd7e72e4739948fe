import EdmQuery.Annotation.Basic
import EdmQuery.Emission.Request
import EdmQuery.Emission.Token

set_option autoImplicit false

namespace EdmQuery

mutual

def Value.tokens (level : MetadataLevel) (context : RequestContext) : Value → List Token
  | .primitive value => [.scalar value.toJson]
  | .complex value => value.tokens level context
  | .collection items =>
    .openArray :: (Token.separated (Value.itemTokens level context items) ++ [.closeArray])

def Value.itemTokens (level : MetadataLevel) (context : RequestContext) :
    List Value → List (List Token)
  | [] => []
  | item :: rest => item.tokens level context :: Value.itemTokens level context rest

def Value.optionTokens (level : MetadataLevel) (context : RequestContext) :
    Option Value → List Token
  | none => [.scalar .null]
  | some value => value.tokens level context

def ComplexValue.tokens (level : MetadataLevel) (context : RequestContext) :
    ComplexValue → List Token
  | ⟨id, type, bindings, parent?, entitySet?, isReference, metadata⟩ =>
    let container : ComplexValue :=
      ⟨id, type, bindings, parent?, entitySet?, isReference, metadata⟩
    let control := (container.controlInfo level).entries.map Token.pair
    let members :=
      if isReference then [] else ComplexValue.memberTokens level context bindings
    .openObject :: (Token.separated (control ++ members) ++ [.closeObject])

/-- The members of an object, one group of tokens for each. -/
def ComplexValue.memberTokens (level : MetadataLevel) (context : RequestContext) :
    List PropertyValue → List (List Token)
  | [] => []
  | ⟨property, value?, owner?, metadata⟩ :: rest =>
    let others := ComplexValue.memberTokens level context rest
    if context.writes property then
      let binding : PropertyValue := ⟨property, value?, owner?, metadata⟩
      (.key property.name :: Value.optionTokens level (context.optionsFor property) value?) ::
        ((binding.controlInfo level).entries.map Token.pair ++ others)
    else others

end

namespace ComplexValue

/-- The representation under the level that the request asks for. -/
def representation (context : RequestContext) (container : ComplexValue) : List Token :=
  container.tokens context.level context

/-- Several values as an array. -/
def representations (context : RequestContext) (containers : List ComplexValue) : List Token :=
  .openArray :: (Token.separated (containers.map (representation context)) ++ [.closeArray])

end ComplexValue

namespace Annotation

def memberTokens (note : Annotation) : List Token :=
  .key ("@" ++ note.term) :: note.value.tokens .none .default

/-- Annotations as members of an object, behind a separator if something stands before them. -/
def tokens (afterMember : Bool) (notes : List Annotation) : List Token :=
  if afterMember && !notes.isEmpty then
    .separator :: Token.separated (notes.map memberTokens)
  else Token.separated (notes.map memberTokens)

/-- Whether a member that follows the annotations needs a separator. -/
def needsSeparator (afterMember : Bool) (notes : List Annotation) : Bool :=
  afterMember || !notes.isEmpty

end Annotation

end EdmQuery
