import EdmQuery.Proofs.Words
import EdmQuery.Query.Filter

set_option autoImplicit false

namespace EdmQuery

/-- The literals that are read as what they were before they were written. -/
def Primitive.isPrintable : Primitive → Bool
  | boolean _ | string _ => true
  | integer ⟨.int32, value, _⟩ => 0 ≤ value
  | integer ⟨.int64, value, _⟩ => IntegerType.int32.maxValue < value
  | _ => false

namespace Node

open Parsing

/-- The words that begin something other than a path or a call. -/
def operandWords : List String := ["null", "true", "false", "INF", "NaN", "not"]

/-- A name for functions, lambda variables and the beginnings of paths. -/
def isFreeName (word : String) : Bool :=
  isName word && !operandWords.contains word && word != "$it"

def isNegation : Node → Bool
  | unary .not _ => true
  | _ => false

def isList : Node → Bool
  | list _ => true
  | _ => false

/-- A path from the instance on, which does not begin like a path of a variable in scope. -/
def isPrintablePath (scope : List String) (path : PropertyPath) : Bool :=
  match path.segments with
  | [] => true
  | first :: others => isFreeName first && !scope.contains first && others.all isName

def isPrintableVariable (scope : List String) (name : String) (path : PropertyPath) : Bool :=
  scope.contains name && path.segments.all isName

/-- What stands in the parentheses of a list that is the right operand of `in`. One item alone is
read as a list only if it could not stand for the collection itself. -/
def hasListShape : List Node → Bool
  | [] => false
  | [item] => !item.isReference && !item.isList
  | _ => true

mutual

/-- Whether an expression is read back from its text, under the lambda variables in scope. -/
def isPrintable (scope : List String) : Node → Bool
  | null => true
  | literal value => value.isPrintable
  | list items => 2 ≤ items.length && areAllPrintable scope items
  | property path => isPrintablePath scope path
  | ofVariable name path => isPrintableVariable scope name path
  | binary operator left right =>
    if operator.isLogical then isPrintable scope left && isPrintable scope right
    else !left.isNegation && isPrintable scope left && !right.isNegation &&
      (if operator = .isIn then isMembers scope right else isPrintable scope right)
  | unary .not operand => isPrintable scope operand
  | unary .negate operand => !operand.isNegation && isPrintable scope operand
  | call function arguments => isFreeName function && areAllPrintable scope arguments
  | lambda _ collection parameter predicate =>
    collection.isReference && isPrintable scope collection && isFreeName parameter &&
      isPrintable (parameter :: scope) predicate
  | bareLambda operator collection =>
    operator = .any && collection.isReference && isPrintable scope collection

/-- What can stand to the right of `in`: a list, or a path to a collection. -/
def isMembers (scope : List String) : Node → Bool
  | list items => hasListShape items && areAllPrintable scope items
  | property path => isPrintablePath scope path
  | ofVariable name path => isPrintableVariable scope name path
  | _ => false

def areAllPrintable (scope : List String) : List Node → Bool
  | [] => true
  | node :: rest => isPrintable scope node && areAllPrintable scope rest

end

mutual

/-- How many operators, lists, calls and lambdas stand inside of each other. -/
def nesting : Node → Nat
  | null | literal _ | property _ | ofVariable _ _ => 0
  | list items => nestingAll items + 1
  | binary _ left right => max left.nesting right.nesting + 1
  | unary _ operand => operand.nesting + 1
  | call _ arguments => nestingAll arguments + 1
  | lambda _ collection _ predicate => max collection.nesting predicate.nesting + 1
  | bareLambda _ collection => collection.nesting + 1

def nestingAll : List Node → Nat
  | [] => 0
  | node :: rest => max node.nesting (nestingAll rest)

end

mutual

/-- The expression as its text reads before it is known which names are lambda variables. -/
def unresolved : Node → Node
  | null => null
  | literal value => literal value
  | list items => list (unresolvedAll items)
  | property path => property path
  | ofVariable name path => property ⟨name :: path.segments⟩
  | binary operator left right => binary operator left.unresolved right.unresolved
  | unary operator operand => unary operator operand.unresolved
  | call function arguments => call function (unresolvedAll arguments)
  | lambda operator collection parameter predicate =>
    lambda operator collection.unresolved parameter predicate.unresolved
  | bareLambda operator collection => bareLambda operator collection.unresolved

def unresolvedAll : List Node → List Node
  | [] => []
  | node :: rest => node.unresolved :: unresolvedAll rest

end

@[simp] theorem unresolvedAll_eq_map (nodes : List Node) :
    unresolvedAll nodes = nodes.map unresolved := by
  induction nodes with
  | nil => rfl
  | cons node rest ih => rw [unresolvedAll, ih, List.map_cons]

section

variable {scope : List String}

theorem resolve_path {path : PropertyPath} (printable : isPrintablePath scope path = true) :
    Filter.resolve scope (property path) = property path := by
  obtain ⟨segments⟩ := path
  cases segments with
  | nil => rfl
  | cons first others =>
    simp only [isPrintablePath, Bool.and_eq_true, Bool.not_eq_true'] at printable
    simp only [Filter.resolve, PropertyPath.first?, List.head?_cons, printable.1.2,
      Bool.false_eq_true, if_false]

theorem resolve_variable {name : String} {path : PropertyPath}
    (printable : isPrintableVariable scope name path = true) :
    Filter.resolve scope (property ⟨name :: path.segments⟩) = ofVariable name path := by
  rw [isPrintableVariable, Bool.and_eq_true] at printable
  simp only [Filter.resolve, PropertyPath.first?, List.head?_cons, printable.1, if_true,
    PropertyPath.tail, List.tail_cons]

end

mutual

/-- Resolving the variables of what was read gives the expression that was written. -/
theorem resolve_unresolved (scope : List String) (node : Node)
    (printable : node.isPrintable scope = true) :
    Filter.resolve scope node.unresolved = node := by
  cases node with
  | null => rfl
  | literal value => rfl
  | property path => exact resolve_path printable
  | ofVariable name path => exact resolve_variable printable
  | list items =>
    rw [isPrintable, Bool.and_eq_true] at printable
    rw [unresolved, Filter.resolve, resolveAll_unresolvedAll scope items printable.2]
  | call function arguments =>
    rw [isPrintable, Bool.and_eq_true] at printable
    rw [unresolved, Filter.resolve, resolveAll_unresolvedAll scope arguments printable.2]
  | unary operator operand =>
    have inner : operand.isPrintable scope = true := by
      cases operator with
      | not => exact printable
      | negate =>
        rw [isPrintable, Bool.and_eq_true] at printable
        exact printable.2
    rw [unresolved, Filter.resolve, resolve_unresolved scope operand inner]
  | binary operator left right =>
    rw [unresolved, Filter.resolve]
    rw [isPrintable] at printable
    split at printable
    · rw [Bool.and_eq_true] at printable
      rw [resolve_unresolved scope left printable.1, resolve_unresolved scope right printable.2]
    · simp only [Bool.and_eq_true] at printable
      rw [resolve_unresolved scope left printable.1.1.2]
      have members := printable.2
      split at members
      · rw [resolve_members scope right members]
      · rw [resolve_unresolved scope right members]
  | lambda operator collection parameter predicate =>
    simp only [isPrintable, Bool.and_eq_true] at printable
    rw [unresolved, Filter.resolve, resolve_unresolved scope collection printable.1.1.2,
      resolve_unresolved (parameter :: scope) predicate printable.2]
  | bareLambda operator collection =>
    simp only [isPrintable, Bool.and_eq_true] at printable
    rw [unresolved, Filter.resolve, resolve_unresolved scope collection printable.2]

theorem resolve_members (scope : List String) (node : Node)
    (members : node.isMembers scope = true) : Filter.resolve scope node.unresolved = node := by
  cases node with
  | property path => exact resolve_path members
  | ofVariable name path => exact resolve_variable members
  | list items =>
    rw [isMembers, Bool.and_eq_true] at members
    rw [unresolved, Filter.resolve, resolveAll_unresolvedAll scope items members.2]
  | _ => cases members

theorem resolveAll_unresolvedAll (scope : List String) (nodes : List Node)
    (printable : areAllPrintable scope nodes = true) :
    Filter.resolveAll scope (unresolvedAll nodes) = nodes := by
  cases nodes with
  | nil => rfl
  | cons node rest =>
    rw [areAllPrintable, Bool.and_eq_true] at printable
    rw [unresolvedAll, Filter.resolveAll, resolve_unresolved scope node printable.1,
      resolveAll_unresolvedAll scope rest printable.2]

end

end Node

end EdmQuery
