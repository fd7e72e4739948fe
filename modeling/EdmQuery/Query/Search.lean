set_option autoImplicit false

namespace EdmQuery

/-- A bare word or a quoted phrase. -/
structure SearchTerm where
  text : String
  isPhrase : Bool
deriving DecidableEq, Repr, Inhabited

namespace SearchTerm

def word (text : String) : SearchTerm := ⟨text, false⟩

def phrase (text : String) : SearchTerm := ⟨text, true⟩

/-- A phrase stands between quotes, with a backslash in front of each quote inside. -/
def spell (term : SearchTerm) : List Char :=
  if term.isPhrase then
    '"' :: term.text.toList.flatMap (fun char => if char = '"' then ['\\', '"'] else [char]) ++ ['"']
  else term.text.toList

def render (term : SearchTerm) : String := String.ofList term.spell

end SearchTerm

inductive SearchExpression
  | term (term : SearchTerm)
  | and (left right : SearchExpression)
  | or (left right : SearchExpression)
  | not (operand : SearchExpression)
deriving DecidableEq, Repr, Inhabited

namespace SearchExpression

/-- The terms from left to right. -/
def terms : SearchExpression → List SearchTerm
  | term leaf => [leaf]
  | and left right | or left right => left.terms ++ right.terms
  | not operand => operand.terms

def spell : SearchExpression → List Char
  | term leaf => leaf.spell
  | and left right => '(' :: left.spell ++ " AND ".toList ++ right.spell ++ [')']
  | or left right => '(' :: left.spell ++ " OR ".toList ++ right.spell ++ [')']
  | not operand => "NOT ".toList ++ operand.spell

def render (expression : SearchExpression) : String := String.ofList expression.spell

end SearchExpression

end EdmQuery
