import EdmQuery.Value.Basic

set_option autoImplicit false

namespace EdmQuery

abbrev Edit (α : Type) := α → Building (α × Result Unit)

namespace Edit

section

variable {α : Type}

def skip : Edit α := fun value => pure (value, .ok ())

/-- Fails, if it does, without a change. -/
def check (condition : α → Result Unit) : Edit α := fun value => pure (value, condition value)

/-- The result of a computation takes the place of the value, unless it fails. -/
def ofBuild (change : α → Build α) : Edit α := fun value => do
  match ← (change value).run with
  | .ok changed => return (changed, .ok ())
  | .error error => return (value, .error error)

/-- The second edit starts where the first one ended, unless that failed. -/
def andThen (first second : Edit α) : Edit α := fun value => do
  match ← first value with
  | (changed, .ok ()) => second changed
  | (changed, .error error) => return (changed, .error error)

def inTurn : List (Edit α) → Edit α
  | [] => skip
  | edit :: rest => edit.andThen (inTurn rest)

/-- Edits the items of a list one by one, up to the first failure. -/
def each (edit : Edit α) : Edit (List α)
  | [] => pure ([], .ok ())
  | item :: rest => do
    match ← edit item with
    | (changed, .ok ()) =>
      let (others, outcome) ← each edit rest
      return (changed :: others, outcome)
    | (changed, .error error) => return (changed :: rest, .error error)

/-- An edited value, or the failure of the edit. -/
def toBuild (edit : Edit α) (value : α) : Build α := do
  let (changed, outcome) ← edit value
  Build.ofResult outcome
  return changed

end

end Edit

mutual

/-- Edits the containers in a value, also those within collections. -/
def Value.editContainers (edit : Edit ComplexValue) : Edit Value
  | .primitive value => pure (.primitive value, .ok ())
  | .complex value => do
    let (changed, outcome) ← edit value
    return (.complex changed, outcome)
  | .collection items => do
    let (changed, outcome) ← Value.editItems edit items
    return (.collection changed, outcome)

def Value.editItems (edit : Edit ComplexValue) : Edit (List Value)
  | [] => pure ([], .ok ())
  | item :: rest => do
    match ← Value.editContainers edit item with
    | (changed, .ok ()) =>
      let (others, outcome) ← Value.editItems edit rest
      return (changed :: others, outcome)
    | (changed, .error error) => return (changed :: rest, .error error)

end

namespace PropertyValue

/-- Edits the containers that a binding holds. -/
def editContainers (edit : Edit ComplexValue) : Edit PropertyValue := fun binding => do
  match binding.value? with
  | none => return (binding, .ok ())
  | some value =>
    let (changed, outcome) ← value.editContainers edit
    return ({ binding with value? := some changed }, outcome)

end PropertyValue

namespace ComplexValue

/-- Edits the bindings of a container one by one. -/
def editBindings (edit : Edit PropertyValue) : Edit ComplexValue := fun container => do
  let (bindings, outcome) ← Edit.each edit container.bindings
  return ({ container with bindings := bindings }, outcome)

end ComplexValue

end EdmQuery
