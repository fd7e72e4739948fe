import EdmQuery.Evaluation.Engine
import EdmQuery.Evaluation.Search

set_option autoImplicit false

namespace EdmQuery.Selection

section

variable {α : Type} (instanceOf : α → ComplexValue)

/-- Keeps the items for which a filter is true. The first failure ends the whole. -/
def filter (registry : FunctionRegistry) (now : DateTimeOffset) (condition : Node)
    (items : List α) : Evaluated (List α) :=
  items.filterM fun item =>
    (condition.passes registry (.start (instanceOf item) now)).1

/-- Keeps the items that match a search expression. -/
def search (handler? : Option SearchHandler) (expression : SearchExpression) (items : List α) :
    List α :=
  items.filter fun item => expression.accepts handler? (instanceOf item)

/-- The values of the sort keys for one instance. -/
def sortKeys (registry : FunctionRegistry) : List OrderByItem → Evaluation (List (Option Primitive))
  | [] => .done (.ok [])
  | item :: rest => do
    let key ← Evaluation.done ((← item.key.evaluate registry).primitiveOrNull "$orderby")
    return key :: (← sortKeys registry rest)

/-- Every key that is not null has to compare with the first such key. -/
def checkColumn (column : List (Option Primitive)) : Evaluated Unit :=
  match column.filterMap id with
  | [] => .ok ()
  | first :: rest => (first :: rest).forM fun key => do
    let _ ← Comparison.sortOrder first key

/-- Null comes before every value. -/
def compareKeys : Option Primitive → Option Primitive → Ordering
  | none, none => .eq
  | none, some _ => .lt
  | some _, none => .gt
  | some x, some y =>
    match Comparison.sortOrder x y with
    | .ok ordering => ordering
    | .error _ => .eq

def compareDirected (direction : SortDirection) (x y : Option Primitive) : Ordering :=
  match direction with
  | .ascending => compareKeys x y
  | .descending => (compareKeys x y).swap

/-- The first key that differs decides. -/
def compareRows : List SortDirection → List (Option Primitive) → List (Option Primitive) → Ordering
  | direction :: directions, x :: xs, y :: ys =>
    (compareDirected direction x y).then (compareRows directions xs ys)
  | _, _, _ => .eq

/-- Puts an item behind all that it does not precede, given the sorted items in reverse. -/
def insertReversed (precedes : α → α → Bool) (item : α) : List α → List α
  | [] => [item]
  | last :: others =>
    if precedes item last then last :: insertReversed precedes item others
    else item :: last :: others

/-- Items that do not precede each other stay in their order. -/
def stableSort (precedes : α → α → Bool) (items : List α) : List α :=
  (items.foldl (fun sorted item => insertReversed precedes item sorted) []).reverse

/-- The columns of rows of a width. -/
def columns (width : Nat) (rows : List (List (Option Primitive))) :
    List (List (Option Primitive)) :=
  (List.range width).map fun index => rows.map fun row => (row[index]?).join

/-- Sorts the items by their keys. Nulls come first where a key ascends, and last where it
descends. Nothing is moved if some keys do not compare. -/
def orderBy (registry : FunctionRegistry) (now : DateTimeOffset) (order : List OrderByItem)
    (items : List α) : Evaluated (List α) :=
  if order.isEmpty then .ok items
  else do
    let keyed ← items.mapM fun item => do
      return ((← (sortKeys registry order (.start (instanceOf item) now)).1), item)
    (columns order.length (keyed.map Prod.fst)).forM checkColumn
    let directions := order.map OrderByItem.direction
    let precedes (x y : List (Option Primitive) × α) : Bool :=
      compareRows directions x.1 y.1 == .lt
    return (stableSort precedes keyed).map Prod.snd

end

end EdmQuery.Selection
