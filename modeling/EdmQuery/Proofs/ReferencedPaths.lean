import EdmQuery.Proofs.Agreement
import EdmQuery.Service.Basic

set_option autoImplicit false

namespace EdmQuery

/-- A service loads the paths of a query in the same way. -/
theorem Service.loadPaths_eq (service : Service) (paths : List PropertyPath) :
    service.loadPaths paths = service.emitter.loadPaths paths := rfl

namespace Node

open Evaluation

variable {covered : List String → Prop} {scope : PathScope} {first second : EvaluationContext}

/-- The results of an expression in two contexts are the same error, or differ in identities and in
bound related entities at most. -/
def GivesSame (registry : FunctionRegistry) (first second : EvaluationContext) (node : Node) :
    Prop :=
  Evaluated.Related Operand.SameStored ((node.evaluate registry).value first)
    ((node.evaluate registry).value second)

def AllGiveSame (registry : FunctionRegistry) (first second : EvaluationContext)
    (nodes : List Node) : Prop :=
  Evaluated.Related (fun xs ys => xs.map Operand.stored = ys.map Operand.stored)
    ((evaluateAll registry nodes).value first) ((evaluateAll registry nodes).value second)

/-- A reference that is read leads to the same along whatever is left of the covered paths. -/
theorem related_reference (registry : FunctionRegistry)
    (agree : first.Agree covered scope second) {node : Node} {path : PropertyPath}
    (absolute : absolute? scope node = some path) (covers : covered path.segments) :
    Evaluated.Related (fun x y => ∀ rest, covered (path.segments ++ rest) → Operand.Alike rest x y)
      ((node.evaluate registry).value first) ((node.evaluate registry).value second) := by
  have begins : covered (path.segments ++ []) := by
    rw [List.append_nil]
    exact covers
  refine Evaluated.Related.forall_of_each begins fun rest inside => ?_
  cases node with
  | property own =>
    cases absolute
    exact agree.deeper (navigate_alike (agree.current _ inside))
  | ofVariable name own =>
    obtain ⟨base, found, rfl⟩ := Option.map_eq_some_iff.1 absolute
    obtain ⟨x, y, held, other, alike⟩ := agree.bound name base found
    rw [PropertyPath.segments_append, List.append_assoc] at inside
    refine agree.deeper ?_
    show Evaluated.Related _ (variableOperand name own first.deepened)
      (variableOperand name own second.deepened)
    have bound : first.deepened.lookup? name = some x := held
    have boundToo : second.deepened.lookup? name = some y := other
    rw [variableOperand, variableOperand, bound, boundToo]
    exact navigate_alike (alike _ inside)
  | _ => cases absolute

/-- A variable that no lambda binds is missing in both contexts. -/
theorem related_unbound (registry : FunctionRegistry) (agree : first.Agree covered scope second)
    {node : Node} (reference : node.isReference = true) (absolute : absolute? scope node = none)
    (relation : Operand → Operand → Prop) :
    Evaluated.Related relation ((node.evaluate registry).value first)
      ((node.evaluate registry).value second) := by
  cases node with
  | property path => cases absolute
  | ofVariable name path =>
    obtain ⟨missing, other⟩ := agree.unbound name (Option.map_eq_none_iff.1 absolute)
    refine agree.deeper ?_
    show Evaluated.Related _ (variableOperand name path first.deepened)
      (variableOperand name path second.deepened)
    have unbound : first.deepened.lookup? name = none := missing
    have unboundToo : second.deepened.lookup? name = none := other
    rw [variableOperand, variableOperand, unbound, unboundToo]
    exact .error _
  | _ => cases reference

theorem reads_reference {node : Node} (reference : node.isReference = true) :
    reads scope node = (absolute? scope node).toList := by
  cases node with
  | property path => rfl
  | ofVariable name path => rfl
  | _ => cases reference

theorem givesSame_reference (registry : FunctionRegistry)
    (agree : first.Agree covered scope second) {node : Node} (reference : node.isReference = true)
    (covers : ∀ path ∈ reads scope node, covered path.segments) :
    GivesSame registry first second node := by
  rw [reads_reference reference] at covers
  cases absolute : absolute? scope node with
  | none => exact related_unbound registry agree reference absolute _
  | some path =>
    rw [absolute] at covers
    have inside := covers path (List.mem_singleton.2 rfl)
    refine (related_reference registry agree absolute inside).imp fun x y alike => ?_
    have here := alike [] (by rw [List.append_nil]; exact inside)
    exact here.sameStored

/-- The items of a collection that a reference leads to agree along what is left of the paths. -/
theorem related_lambdaItems? (operator : LambdaOperator) {path : List String} {x y : Operand}
    (covers : covered path)
    (alike : ∀ rest, covered (path ++ rest) → Operand.Alike rest x y) :
    Evaluated.Related (Option.Rel (List.Forall₂ fun u v =>
        ∀ rest, covered (path ++ rest) → Value.Related (ComplexValue.Alike rest) u v))
      (lambdaItems? operator x) (lambdaItems? operator y) := by
  have begins : covered (path ++ []) := by
    rw [List.append_nil]
    exact covers
  have shapes := alike [] begins
  cases x <;> cases y <;> try exact False.elim shapes
  · exact .ok .none
  · rename_i value other
    have same : value = other := shapes
    subst same
    exact .error _
  · exact .error _
  · exact .ok (.some (forall₂_of_allRelated ComplexValue.Alike (fun rest => covered (path ++ rest))
      begins alike))

section

variable {registry : FunctionRegistry}

theorem allGiveSame_cons {node : Node} {rest : List Node}
    (one : GivesSame registry first second node) (others : AllGiveSame registry first second rest) :
    AllGiveSame registry first second (node :: rest) := by
  rw [AllGiveSame, evaluateAll]
  refine related_bind (keeps_evaluate registry node) one fun x y same => ?_
  refine related_bind (keeps_evaluateAll registry rest) others fun xs ys equal => ?_
  refine .ok ?_
  rw [List.map_cons, List.map_cons, same, equal]

variable (agree : first.Agree covered scope second)

include agree

theorem givesSame_list {items : List Node}
    (inner : AllGiveSame registry first.deepened second.deepened items) :
    GivesSame registry first second (.list items) := by
  rw [GivesSame, evaluate]
  refine agree.deeper (related_bind (keeps_evaluateAll registry items) inner ?_)
  intro xs ys same
  refine .ok ?_
  show Operand.list (Operand.storedAll xs) = Operand.list (Operand.storedAll ys)
  rw [Operand.storedAll_eq_map, Operand.storedAll_eq_map, same]

theorem givesSame_binary {left right : Node} (operator : BinaryOperator)
    (one : GivesSame registry first.deepened second.deepened left)
    (other : GivesSame registry first.deepened second.deepened right) :
    GivesSame registry first second (.binary operator left right) := by
  rw [GivesSame, evaluate]
  exact agree.deeper (related_binary (keeps_evaluate registry left)
    (keeps_evaluate registry right) one other operator)

theorem givesSame_unary {operand : Node} (operator : UnaryOperator)
    (inner : GivesSame registry first.deepened second.deepened operand) :
    GivesSame registry first second (.unary operator operand) := by
  have keeps := keeps_evaluate registry operand
  cases operator with
  | not =>
    rw [GivesSame, evaluate]
    refine agree.deeper (related_bind keeps inner fun x y same => ?_)
    refine related_done (eq_of_sameStored (Operand.truth_stored "not") same) ?_
    intro truth _
    exact .ok rfl
  | negate =>
    rw [GivesSame, evaluate]
    refine agree.deeper (related_bind keeps inner fun x y same => ?_)
    exact .of_eq (fun _ => rfl) (eq_of_sameStored Arithmetic.applyNegate_stored same)

theorem givesSame_call (plain : registry.IsPlain) (name : String) {arguments : List Node}
    (inner : AllGiveSame registry first.deepened second.deepened arguments) :
    GivesSame registry first second (.call name arguments) := by
  rw [GivesSame, evaluate]
  refine agree.deeper (related_done rfl fun function called => ?_)
  have closed := plain function (FunctionRegistry.mem_of_calledFunction called)
  refine related_bind (keeps_evaluateAll registry arguments) inner fun xs ys same => ?_
  rw [value_ofContext, value_ofContext, closed.call_eq agree.deepened.now same]
  exact .of_eq (fun _ => rfl) rfl

theorem givesSame_lambda (operator : LambdaOperator) (parameter : String)
    {collection predicate : Node} (reference : collection.isReference = true)
    (leads : ∀ path, absolute? scope collection = some path → covered path.segments)
    (body : ∀ path, absolute? scope collection = some path → ∀ x y,
      (∀ rest, covered (path.segments ++ rest) → Value.Related (ComplexValue.Alike rest) x y) →
        GivesSame registry (first.deepened.bind parameter (.ofValue x))
          (second.deepened.bind parameter (.ofValue y)) predicate) :
    GivesSame registry first second (.lambda operator collection parameter predicate) := by
  have keeps := keeps_evaluate registry collection
  rw [GivesSame, evaluate]
  refine agree.deeper ?_
  cases absolute : absolute? scope collection with
  | none =>
    have missing := related_unbound registry agree.deepened reference absolute fun _ _ => False
    exact related_bind keeps missing fun _ _ impossible => impossible.elim
  | some path =>
    have covers := leads path absolute
    have base := related_reference registry agree.deepened absolute covers
    refine related_bind keeps base fun x y alike => ?_
    rw [value_bind (keeps_done _), value_bind (keeps_done _), value_done, value_done]
    refine (related_lambdaItems? operator covers alike).bind fun items? others? paired => ?_
    cases paired with
    | none => exact .ok rfl
    | some paired =>
      exact related_quantify (keeps_evaluate registry predicate) operator (body path absolute)
        paired false

theorem givesSame_bareLambda (operator : LambdaOperator) {collection : Node}
    (inner : GivesSame registry first.deepened second.deepened collection) :
    GivesSame registry first second (.bareLambda operator collection) := by
  rw [GivesSame, evaluate]
  refine agree.deeper (related_bind (keeps_evaluate registry collection) inner ?_)
  intro x y same
  rw [value_bind (keeps_done _), value_bind (keeps_done _), value_done, value_done]
  have results : (lambdaItems? operator x).map (bareResult operator) =
      (lambdaItems? operator y).map (bareResult operator) := by
    rw [← bareResult_stored operator x, same, bareResult_stored]
  have whole : ∀ (context : EvaluationContext) (items? : Evaluated (Option (List Value))),
      (items? >>= fun items? => (pure (Operand.ofBool (bareResult operator items?)) :
        Evaluation Operand).value context) =
          (items?.map (bareResult operator)).map Operand.ofBool := by
    intro context items?
    cases items? <;> rfl
  rw [whole, whole, results]
  exact .of_eq (fun _ => rfl) rfl

end

mutual

/-- An expression gives the same in contexts that agree along the paths that it reads. -/
theorem givesSame_of_agree {registry : FunctionRegistry} (plain : registry.IsPlain)
    (scope : PathScope) (first second : EvaluationContext)
    (agree : first.Agree covered scope second) (node : Node)
    (quantified : node.quantifiesPaths = true)
    (covers : ∀ path ∈ reads scope node, covered path.segments) :
    GivesSame registry first second node := by
  cases node with
  | null => exact agree.deeper (.ok rfl)
  | literal value => exact agree.deeper (.ok rfl)
  | list items =>
    exact givesSame_list agree
      (allGiveSame_of_agree plain scope _ _ agree.deepened items quantified covers)
  | property path => exact givesSame_reference registry agree rfl covers
  | ofVariable name path => exact givesSame_reference registry agree rfl covers
  | binary operator left right =>
    rw [quantifiesPaths, Bool.and_eq_true] at quantified
    rw [reads, List.forall_mem_append] at covers
    exact givesSame_binary agree operator
      (givesSame_of_agree plain scope _ _ agree.deepened left quantified.1 covers.1)
      (givesSame_of_agree plain scope _ _ agree.deepened right quantified.2 covers.2)
  | unary operator operand =>
    exact givesSame_unary agree operator
      (givesSame_of_agree plain scope _ _ agree.deepened operand quantified covers)
  | call name arguments =>
    exact givesSame_call agree plain name
      (allGiveSame_of_agree plain scope _ _ agree.deepened arguments quantified covers)
  | lambda operator collection parameter predicate =>
    rw [quantifiesPaths, Bool.and_eq_true] at quantified
    rw [reads] at covers
    refine givesSame_lambda agree operator parameter quantified.1 ?_ ?_
    · intro path absolute
      rw [absolute, List.forall_mem_cons] at covers
      exact covers.1
    · intro path absolute x y along
      rw [absolute, List.forall_mem_cons] at covers
      have bound := agree.deepened.bind parameter fun rest inside =>
        Operand.alike_of_related (along rest inside)
      exact givesSame_of_agree plain _ _ _ bound predicate quantified.2 covers.2
  | bareLambda operator collection =>
    rw [reads, ← reads_reference quantified] at covers
    exact givesSame_bareLambda agree operator
      (givesSame_reference registry agree.deepened quantified covers)

theorem allGiveSame_of_agree {registry : FunctionRegistry} (plain : registry.IsPlain)
    (scope : PathScope) (first second : EvaluationContext)
    (agree : first.Agree covered scope second) (nodes : List Node)
    (quantified : allQuantifyPaths nodes = true)
    (covers : ∀ path ∈ readsAll scope nodes, covered path.segments) :
    AllGiveSame registry first second nodes := by
  cases nodes with
  | nil => exact .ok rfl
  | cons node rest =>
    rw [allQuantifyPaths, Bool.and_eq_true] at quantified
    rw [readsAll, List.forall_mem_append] at covers
    exact allGiveSame_cons
      (givesSame_of_agree plain scope _ _ agree node quantified.1 covers.1)
      (allGiveSame_of_agree plain scope _ _ agree rest quantified.2 covers.2)

end

theorem mem_added {path next : PropertyPath} {found : List PropertyPath}
    (inside : path ∈ found ∨ path = next) : path.isRoot = true ∨
      path ∈ (if next.isRoot || found.contains next then found else found ++ [next]) := by
  by_cases known : (next.isRoot || found.contains next) = true
  · rw [if_pos known]
    rcases inside with held | rfl
    · exact .inr held
    · rwa [Bool.or_eq_true, List.contains_iff_mem] at known
  · rw [if_neg known]
    rcases inside with held | rfl
    · exact .inr (List.mem_append_left _ held)
    · exact .inr (List.mem_append_right _ (List.mem_singleton.2 rfl))

/-- No path but the root is lost. -/
theorem mem_distinctPaths {path : PropertyPath} {paths : List PropertyPath}
    (inside : path ∈ paths) : path.isRoot = true ∨ path ∈ distinctPaths paths := by
  have kept : ∀ (rest found : List PropertyPath), path ∈ found ∨ path ∈ rest →
      path.isRoot = true ∨ path ∈ rest.foldl (fun found path =>
        if path.isRoot || found.contains path then found else found ++ [path]) found := by
    intro rest
    induction rest with
    | nil =>
      intro found present
      rcases present with held | none
      · exact .inr held
      · cases none
    | cons next rest ih =>
      intro found present
      rw [List.mem_cons, ← or_assoc] at present
      rcases present with present | later
      · rcases mem_added present with root | held
        · exact .inl root
        · exact ih _ (.inl held)
      · exact ih _ (.inr later)
  exact kept paths [] (.inr inside)

/-- Loading the paths that a filter reads is enough: whatever else is loaded into another copy of an
instance, the filter gives the same for both. -/
theorem evaluate_of_referencedPaths {source : String} {filter : Node}
    (parsed : Filter.ofText source = .ok filter) {emitter : Emitter} (steady : emitter.IsSteady)
    (entity : ComplexValue) {paths : List PropertyPath}
    (covers : ∀ path ∈ filter.referencedPaths, path ∈ paths) {early late : Supply}
    {one other : ComplexValue} {supply left more right : Supply}
    (loaded : emitter.loadPaths filter.referencedPaths (entity.copy early).1 supply =
      ((one, .ok ()), left))
    (loadedMore : emitter.loadPaths paths (entity.copy late).1 more = ((other, .ok ()), right))
    (now : DateTimeOffset) :
    (filter.evaluate .standard (.start one now)).1.map Operand.stored =
      (filter.evaluate .standard (.start other now)).1.map Operand.stored := by
  have agree : (EvaluationContext.start one now).Agree
      (fun segments => segments = [] ∨ (⟨segments⟩ : PropertyPath) ∈ filter.referencedPaths) []
      (EvaluationContext.start other now) := by
    refine ⟨rfl, rfl, ?_, fun _ _ => ⟨rfl, rfl⟩, fun _ _ none => (by cases none)⟩
    intro segments inside
    have twins : (entity.copy early).1.Twins (entity.copy late).1 :=
      entity.anonymous_copy early late
    refine ComplexValue.alike_of_loadPaths steady twins loaded loadedMore ⟨segments⟩ ?_
    rcases inside with root | inside
    · exact .inl (List.isEmpty_iff.2 root)
    · exact .inr ⟨inside, covers _ inside⟩
  refine (givesSame_of_agree FunctionRegistry.standard_isPlain [] _ _ agree filter
    (Filter.quantifiesPaths_of_ofText parsed) ?_).map_eq
  intro path read
  rcases mem_distinctPaths read with root | inside
  · exact .inl (List.isEmpty_iff.1 root)
  · exact .inr inside

def personType : ComplexType :=
  ⟨"Person", true, some "name", false, true, [.declared "name" (.primitive .string)]⟩

def flightType : ComplexType :=
  ⟨"Flight", true, some "id", false, true,
    [.declared "id" (.primitive .string), .navigation "crew" ⟨"Person", true, none, true⟩,
      .navigation "pilot" ⟨"Person", false, none, true⟩]⟩

/-- The one person who is the pilot and all of the crew of every flight. -/
def pilot : ComplexValue :=
  ⟨⟨0⟩, personType, [.unattached (.declared "name" (.primitive .string))
    (some (.primitive (.string "Amelia")))], none, none, false, []⟩

def flight : ComplexValue :=
  ⟨⟨0⟩, flightType, [⟨.declared "id" (.primitive .string), some (.primitive (.string "BA1")),
    some ⟨0⟩, []⟩], none, some "flights", false, []⟩

def crewed : Emitter :=
  ⟨fun _ _ => pure none, some fun _ property _ =>
    pure (some (if property.name = "crew" then .collection [.complex pilot] else .complex pilot))⟩

theorem crewed_isSteady : crewed.IsSteady := by
  intro resolver found
  cases found
  intro first second property request early late same
  rfl

theorem evaluate_of_referencedPaths_crew :
    let filter : Node := .lambda .any (.property ⟨["crew"]⟩) "c"
      (.binary .equal (.ofVariable "c" ⟨["name"]⟩) (.literal (.string "Amelia")))
    let paths : List PropertyPath := [⟨["pilot"]⟩, ⟨["crew", "name"]⟩, ⟨["crew"]⟩]
    let first := crewed.loadPaths filter.referencedPaths (flight.copy ⟨10⟩).1 ⟨20⟩
    let second := crewed.loadPaths paths (flight.copy ⟨30⟩).1 ⟨40⟩
    Filter.ofText "crew/any(c:c/name eq 'Amelia')" = .ok filter ∧ crewed.IsSteady ∧
      (∀ path ∈ filter.referencedPaths, path ∈ paths) ∧ first.1.2 = .ok () ∧ second.1.2 = .ok () ∧
        (filter.evaluate .standard (.start first.1.1 default)).1.map Operand.stored =
          (filter.evaluate .standard (.start second.1.1 default)).1.map Operand.stored := by
  intro filter paths first second
  have parsed : Filter.ofText "crew/any(c:c/name eq 'Amelia')" = .ok filter := by rfl
  have covers : ∀ path ∈ filter.referencedPaths, path ∈ paths := by decide
  have loaded : first = ((first.1.1, .ok ()), first.2) := by rfl
  have loadedMore : second = ((second.1.1, .ok ()), second.2) := by rfl
  exact ⟨parsed, crewed_isSteady, covers, rfl, rfl,
    evaluate_of_referencedPaths parsed crewed_isSteady flight covers loaded loadedMore default⟩

/-- A whole instance as the result shows what else was loaded. -/
theorem evaluate_root_differs :
    let first := crewed.loadPaths [] (flight.copy ⟨10⟩).1 ⟨20⟩
    let second := crewed.loadPaths [⟨["pilot"]⟩] (flight.copy ⟨30⟩).1 ⟨40⟩
    Filter.ofText "$it" = .ok (.property .root) ∧ (property .root).referencedPaths = [] ∧
      ((ComplexValue.entityOfRecord flightType "flights"
        (.object [("id", .string "BA1")])).run ⟨0⟩).1 = .ok flight ∧ crewed.IsSteady ∧
      first.1.2 = .ok () ∧ second.1.2 = .ok () ∧
      ((property .root).evaluate .standard (.start first.1.1 default)).1 =
        .ok (.complex first.1.1) ∧
      ((property .root).evaluate .standard (.start second.1.1 default)).1 =
        .ok (.complex second.1.1) ∧
      first.1.1.equals second.1.1 = false := by
  refine ⟨rfl, rfl, rfl, crewed_isSteady, rfl, rfl, rfl, rfl, ?_⟩
  decide +kernel

end Node

end EdmQuery
