import EdmQuery.Emission.Representation
import EdmQuery.Emission.Output
import EdmQuery.Value.Container

set_option autoImplicit false

namespace EdmQuery

/-- How the rule of a generated property computes its value. -/
abbrev Generators := String → ComplexValue → Build (Option Value)

/-- How the entities that a navigation property of an instance leads to are found. -/
abbrev NavigationResolver := ComplexValue → Property → NavigationRequest → Build (Option Value)

/-- What values are prepared with. -/
structure Emitter where
  generators : Generators
  resolver? : Option NavigationResolver

namespace Emitter

/-- Rules and resolvers can make values of any depth; preparation goes down this far. -/
def maxDepth : Nat := 100000

/-- Computes the generated properties of the type. -/
def generate (emitter : Emitter) : Edit ComplexValue := fun container =>
  Edit.inTurn (container.type.properties.filterMap fun property =>
    property.kind.rule?.map fun rule => Edit.ofBuild fun current => do
      current.set property.name (.ofOption (← emitter.generators rule current))) container

/-- Binds the entities that a navigation property leads to. None is an empty collection, or null;
without a resolver nothing is bound. -/
def resolve (emitter : Emitter) (property : Property) (request : NavigationRequest) :
    Edit ComplexValue :=
  match emitter.resolver? with
  | none => Edit.skip
  | some resolver => Edit.ofBuild fun container => do
    let resolved ← match ← resolver container property request with
      | none =>
        if property.kind.navigation?.any (·.isCollection) then pure (some (.collection []))
        else pure none
      | some value => pure (some value)
    container.set property.name (.ofOption resolved)

/-- Binds one expanded navigation property, unless it is bound. -/
def expand (emitter : Emitter) (request : NavigationRequest) : Edit ComplexValue :=
  fun container =>
    match container.type.expandable request.path with
    | .error error => pure (container, .error error)
    | .ok property =>
      if container.has request.path then pure (container, .ok ())
      else emitter.resolve property request container

/-- Prepares what a binding holds, given how containers are prepared under a context. Related
entities that were not requested are never written and stay as they are. -/
def prepareBinding (prepare : RequestContext → Edit ComplexValue) (context : RequestContext) :
    Edit PropertyValue := fun binding =>
  if binding.property.isNavigation && (context.navigationRequest? binding.name).isNone then
    pure (binding, .ok ())
  else binding.editContainers (prepare (context.optionsFor binding.property))

def prepareWithin (emitter : Emitter) : Nat → RequestContext → Edit ComplexValue
  | 0, _ => Edit.check fun _ => .error (.internal "The value is nested too deeply")
  | depth + 1, context =>
    Edit.inTurn ([emitter.generate, Edit.check fun container => context.checkSelect container.type] ++
      context.expand.map emitter.expand ++
      [ComplexValue.editBindings (prepareBinding (emitter.prepareWithin depth) context)])

/-- Generates, checks and expands a value and everything below it that may be written. -/
def prepare (emitter : Emitter) (context : RequestContext) : Edit ComplexValue :=
  emitter.prepareWithin maxDepth context

/-- Binds the navigation properties along a path, without checking a request. Names that a type does
not declare are passed over. -/
def loadPath (emitter : Emitter) : List String → Edit ComplexValue
  | [] => Edit.skip
  | name :: rest => fun container =>
    match container.type.property? name with
    | none => pure (container, .ok ())
    | some property =>
      let bind : Edit ComplexValue :=
        if property.isNavigation && !container.has name then
          emitter.resolve property ⟨name, .default⟩
        else Edit.skip
      let descend : Edit ComplexValue := ComplexValue.editBindings fun binding =>
        if binding.name = name then binding.editContainers (emitter.loadPath rest)
        else pure (binding, .ok ())
      bind.andThen (if rest.isEmpty then Edit.skip else descend) container

/-- Prepares a value and writes it. -/
def emit (emitter : Emitter) (context : RequestContext) (layout : Layout) (output : Output)
    (container : ComplexValue) : Building (ComplexValue × Output × Result Unit) := do
  match ← emitter.prepare context container with
  | (prepared, .ok ()) =>
    return (prepared, output.writeTokens layout (prepared.representation context))
  | (prepared, .error error) => return (prepared, output, .error error)

/-- Prepares all values and writes them as an array. -/
def emitAll (emitter : Emitter) (context : RequestContext) (layout : Layout) (output : Output)
    (containers : List ComplexValue) : Building (List ComplexValue × Output × Result Unit) := do
  match ← Edit.each (emitter.prepare context) containers with
  | (prepared, .ok ()) =>
    return (prepared,
      output.writeTokens layout (ComplexValue.representations context prepared))
  | (prepared, .error error) => return (prepared, output, .error error)

end Emitter

end EdmQuery
