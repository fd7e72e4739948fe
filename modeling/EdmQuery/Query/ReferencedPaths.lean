import EdmQuery.Query.Node

set_option autoImplicit false

namespace EdmQuery

namespace Node

/-- Lambda variables with the paths of their collections, the innermost first. -/
abbrev PathScope := List (String × PropertyPath)

/-- The path of a reference from the instance on, if its variable is in scope. -/
def absolute? (scope : PathScope) : Node → Option PropertyPath
  | property path => some path
  | ofVariable name path => (scope.lookup name).map fun base => base.append path
  | _ => none

mutual

/-- All paths that are read, in the order of reading, with repetitions. -/
def reads (scope : PathScope) : Node → List PropertyPath
  | null | literal _ => []
  | property path => [path]
  | ofVariable name path => ((scope.lookup name).map fun base => base.append path).toList
  | list items => readsAll scope items
  | binary _ left right => reads scope left ++ reads scope right
  | unary _ operand => reads scope operand
  | call _ arguments => readsAll scope arguments
  | lambda _ collection parameter predicate =>
    match absolute? scope collection with
    | some path => path :: reads ((parameter, path) :: scope) predicate
    | none => reads scope predicate
  | bareLambda _ collection => (absolute? scope collection).toList

def readsAll (scope : PathScope) : List Node → List PropertyPath
  | [] => []
  | node :: rest => reads scope node ++ readsAll scope rest

end

/-- A list of paths without the root and without repetitions, each at its first place. -/
def distinctPaths (paths : List PropertyPath) : List PropertyPath :=
  paths.foldl (fun found path =>
    if path.isRoot || found.contains path then found else found ++ [path]) []

/-- The paths other than the root that an expression reads, each once. -/
def referencedPaths (node : Node) : List PropertyPath := distinctPaths (reads [] node)

end Node

end EdmQuery
