import EdmQuery.Query.Search
import EdmQuery.Text.CaseMapping
import EdmQuery.Text.Position
import EdmQuery.Value.Basic

set_option autoImplicit false

namespace EdmQuery

/-- An answer for a term and an instance, none without an opinion. -/
abbrev SearchHandler := SearchTerm → ComplexValue → Option Bool

mutual

/-- Whether a text, in lower case, is part of what a value displays. -/
def Value.displays (needle : List Char) : Value → Bool
  | .primitive value => Text.occursIn needle (Text.lower value.render.toList)
  | .complex value => value.displays needle
  | .collection items => Value.anyDisplays needle items

def Value.anyDisplays (needle : List Char) : List Value → Bool
  | [] => false
  | item :: rest => item.displays needle || Value.anyDisplays needle rest

def Value.optionDisplays (needle : List Char) : Option Value → Bool
  | none => false
  | some value => value.displays needle

/-- Navigation properties are not looked into. -/
def ComplexValue.displays (needle : List Char) : ComplexValue → Bool
  | ⟨_, _, bindings, _, _, _, _⟩ => ComplexValue.anyBindingDisplays needle bindings

def ComplexValue.anyBindingDisplays (needle : List Char) : List PropertyValue → Bool
  | [] => false
  | ⟨property, value?, _, _⟩ :: rest =>
    (!property.isNavigation && Value.optionDisplays needle value?) ||
      ComplexValue.anyBindingDisplays needle rest

end

namespace SearchTerm

/-- Whether an instance displays the text of a term. -/
def isDisplayedBy (term : SearchTerm) (value : ComplexValue) : Bool :=
  value.displays (Text.lower term.text.toList)

end SearchTerm

namespace SearchExpression

/-- A term matches an instance or does not; nothing is unknown. -/
def accepts (handler? : Option SearchHandler) (value : ComplexValue) : SearchExpression → Bool
  | term leaf =>
    match handler?.bind fun handler => handler leaf value with
    | some answer => answer
    | none => leaf.isDisplayedBy value
  | and left right => left.accepts handler? value && right.accepts handler? value
  | or left right => left.accepts handler? value || right.accepts handler? value
  | not operand => !operand.accepts handler? value

end SearchExpression

end EdmQuery
