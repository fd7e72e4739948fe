import EdmQuery.Proofs.Outlines
import Mathlib.Data.List.Forall2
import Mathlib.Data.List.Nodup
import Mathlib.Data.List.Perm.Basic

set_option autoImplicit false

/- The order of complex types. Compiling in rounds comes to registering the types one after the
other in some order. If each type that refers to a complex type is one that can be put off, then
rounds find such an order whenever there is one. The types that come of two orders have the same
outlines, and in an unambiguous document they are the same. -/
namespace EdmQuery

namespace SchemaDocument

variable {document : SchemaDocument} {builder changed extended last final other : SchemaBuilder}
  {declared : TypeDocument} {order pending : List TypeDocument}

def register (document : SchemaDocument) (builder : SchemaBuilder) (type : TypeDocument) :
    Result SchemaBuilder := do
  builder.addType (← document.compileType builder false type)

theorem register_eq_ok : document.register builder declared = .ok changed ↔
    ∃ compiled, document.compileType builder false declared = .ok compiled ∧
      document.qualify declared.name ∉ builder.types.map ComplexType.name ∧
      changed = { builder with types := builder.types ++ [compiled.toSealed] } := by
  constructor
  · intro done
    obtain ⟨compiled, compiles, adds⟩ := Result.bind_eq_ok done
    rw [SchemaBuilder.addType_eq_ok, (name_of_compileType compiles).1] at adds
    exact ⟨compiled, compiles, adds⟩
  · rintro ⟨compiled, compiles, new, rfl⟩
    rw [← (name_of_compileType compiles).1] at new
    rw [register, compiles]
    exact SchemaBuilder.addType_eq_ok.2 ⟨new, rfl⟩

/-- The type is what the document declares, compiled at some time and sealed. -/
def IsCompiled (document : SchemaDocument) (declared : TypeDocument) (type : ComplexType) : Prop :=
  ∃ builder compiled, document.compileType builder false declared = .ok compiled ∧
    type = compiled.toSealed

theorem IsCompiled.name_eq {type : ComplexType} (compiled : document.IsCompiled declared type) :
    type.name = document.qualify declared.name := by
  obtain ⟨builder, unsealed, compiles, rfl⟩ := compiled
  exact (name_of_compileType compiles).1

/-- Registering types adds one type for each. -/
theorem eq_of_registers (done : order.foldlM document.register builder = .ok last) :
    ∃ added, last = { builder with types := builder.types ++ added } ∧
      List.Forall₂ document.IsCompiled order added := by
  induction order generalizing builder with
  | nil =>
    cases done
    exact ⟨[], by rw [List.append_nil], .nil⟩
  | cons first rest ih =>
    rw [List.foldlM_cons] at done
    obtain ⟨between, one, later⟩ := Result.bind_eq_ok done
    obtain ⟨compiled, compiles, -, rfl⟩ := register_eq_ok.1 one
    obtain ⟨added, rfl, declares⟩ := ih later
    exact ⟨compiled.toSealed :: added, by rw [List.append_assoc]; rfl,
      .cons ⟨builder, compiled, compiles, rfl⟩ declares⟩

theorem names_of_isCompiled {added : List ComplexType}
    (declares : List.Forall₂ document.IsCompiled order added) :
    added.map ComplexType.name = order.map fun type => document.qualify type.name := by
  induction declares with
  | nil => rfl
  | cons one _ ih => rw [List.map_cons, List.map_cons, one.name_eq, ih]

theorem HoldsComplex.register (holds : document.HoldsComplex builder)
    (among : declared ∈ document.complexTypes)
    (done : document.register builder declared = .ok changed) : document.HoldsComplex changed := by
  obtain ⟨compiled, compiles, new, rfl⟩ := register_eq_ok.1 done
  obtain ⟨named, isComplex⟩ := name_of_compileType compiles
  have both : ∀ type ∈ builder.types ++ [compiled.toSealed],
      type.isEntity = false ∧ type.name ∈ document.complexNames := by
    intro type registered
    rcases List.mem_append.1 registered with old | added
    · exact ⟨holds.complex type old, holds.named type old⟩
    · rw [List.mem_singleton.1 added]
      exact ⟨isComplex, List.mem_map.2 ⟨declared, among, named.symm⟩⟩
  exact ⟨holds.namespaceName, fun type inside => (both type inside).1,
    SchemaBuilder.nodup_addType holds.apart (named ▸ new), fun type inside => (both type inside).2⟩

theorem HoldsComplex.registers (holds : document.HoldsComplex builder)
    (among : ∀ type ∈ order, type ∈ document.complexTypes)
    (done : order.foldlM document.register builder = .ok last) : document.HoldsComplex last :=
  Result.keeps_foldlM (fun _ type inside _ before => before.register (among type inside)) holds done

/-- A round registers types, and puts the others off. -/
theorem exists_registers_of_compilePending {deferred : List (TypeDocument × Error)}
    (done : document.compilePending pending builder = .ok (changed, deferred)) :
    ∃ order : List TypeDocument, order.foldlM document.register builder = .ok changed ∧
      (order ++ deferred.map Prod.fst).Perm pending := by
  induction pending generalizing builder changed deferred with
  | nil =>
    cases done
    exact ⟨[], rfl, .nil⟩
  | cons declared rest ih =>
    rw [compilePending] at done
    cases compiles : document.compileType builder false declared with
    | ok compiled =>
      rw [compiles] at done
      obtain ⟨between, adds, later⟩ := Result.bind_eq_ok done
      obtain ⟨order, registers, same⟩ := ih later
      refine ⟨declared :: order, ?_, same.cons _⟩
      have one : document.register builder declared = .ok between := by
        rw [register, compiles]
        exact adds
      rw [List.foldlM_cons, one]
      exact registers
    | error error =>
      rw [compiles] at done
      dsimp only at done
      split at done
      · obtain ⟨⟨between, others⟩, later, result⟩ := Result.bind_eq_ok done
        cases result
        obtain ⟨order, registers, same⟩ := ih later
        exact ⟨order, registers, List.perm_middle.trans (same.cons _)⟩
      · cases done

theorem exists_registers_of_compileComplex {rounds : Nat} (enough : pending.length < rounds)
    (done : document.compileComplex rounds pending builder = .ok last) :
    ∃ order : List TypeDocument, order.Perm pending ∧ order.foldlM document.register builder = .ok last := by
  induction rounds generalizing pending builder with
  | zero => omega
  | succ rounds ih =>
    obtain ⟨⟨between, deferred⟩, round, later⟩ := Result.bind_eq_ok done
    obtain ⟨order, registers, same⟩ := exists_registers_of_compilePending round
    cases deferred with
    | nil =>
      cases later
      rw [List.map_nil, List.append_nil] at same
      exact ⟨order, same, registers⟩
    | cons first others =>
      dsimp only at later
      split at later
      · cases later
      · rename_i fewer
        have lengths := same.length_eq
        rw [List.length_append, List.length_map] at lengths
        obtain ⟨after, rearranged, registersAfter⟩ := ih (by rw [List.length_map]; omega) later
        refine ⟨order ++ after, (rearranged.append_left order).trans same, ?_⟩
        rw [List.foldlM_append, registers]
        exact registersAfter

/-- Some order of the complex types leads to the builder. -/
def Reaches (document : SchemaDocument) (final : SchemaBuilder) : Prop :=
  ∃ order : List TypeDocument, order.Perm document.complexTypes ∧
    order.foldlM document.register (.empty document.namespaceName) = .ok final

theorem reaches_of_compileComplex (done : document.compileComplex
    (document.complexTypes.length + 1) document.complexTypes (.empty document.namespaceName) =
      .ok final) : document.Reaches final :=
  exists_registers_of_compileComplex (Nat.lt_succ_self _) done

/-- A type that is compiled is compiled among more names as well. -/
theorem HoldsComplex.compiles_of_names (holds : document.HoldsComplex builder)
    (more : document.HoldsComplex changed)
    (names : builder.types.map ComplexType.name ⊆ changed.types.map ComplexType.name)
    (compiles : ∃ compiled, document.compileType builder false declared = .ok compiled) :
    ∃ compiled, document.compileType changed false declared = .ok compiled := by
  obtain ⟨compiled, done⟩ := compiles
  obtain ⟨twin, doneToo, -⟩ := compileType_of_resolves (fun name inside =>
    holds.resolves_of_names more names (exists_of_compileType done name inside)) done
  exact ⟨twin, doneToo⟩

theorem names_of_register (done : document.register builder declared = .ok changed) :
    changed.types.map ComplexType.name =
      builder.types.map ComplexType.name ++ [document.qualify declared.name] := by
  obtain ⟨compiled, compiles, -, rfl⟩ := register_eq_ok.1 done
  rw [← (name_of_compileType compiles).1, List.map_append, List.map_singleton]
  rfl

theorem names_of_registers (done : order.foldlM document.register builder = .ok last) :
    last.types.map ComplexType.name =
      builder.types.map ComplexType.name ++ order.map fun type => document.qualify type.name := by
  obtain ⟨added, rfl, declares⟩ := eq_of_registers done
  rw [List.map_append, names_of_isCompiled declares]

/-- Every type that was registered can be compiled in the end. -/
theorem compiles_of_registers (among : ∀ type ∈ order, type ∈ document.complexTypes)
    (holds : document.HoldsComplex builder)
    (done : order.foldlM document.register builder = .ok last) :
    ∀ type ∈ order, ∃ compiled, document.compileType last false type = .ok compiled := by
  have names := names_of_registers done
  have holdsLast := holds.registers among done
  induction order generalizing builder with
  | nil => exact fun _ inside => (by cases inside)
  | cons first rest ih =>
    obtain ⟨amongFirst, amongRest⟩ := List.forall_mem_cons.1 among
    rw [List.foldlM_cons] at done
    obtain ⟨between, one, later⟩ := Result.bind_eq_ok done
    obtain ⟨compiled, compiles, -⟩ := register_eq_ok.1 one
    rw [List.forall_mem_cons]
    refine ⟨holds.compiles_of_names holdsLast ?_ ⟨compiled, compiles⟩,
      ih amongRest (holds.register amongFirst one) later (names_of_registers later)⟩
    rw [names]
    exact List.subset_append_left _ _

/-- As long as a name of the end is missing, a type whose name is missing can be compiled: the first
one of the order. -/
theorem exists_missing (among : ∀ type ∈ order, type ∈ document.complexTypes)
    (holds : document.HoldsComplex builder) (holdsMore : document.HoldsComplex extended)
    (done : order.foldlM document.register builder = .ok last)
    (covered : builder.types.map ComplexType.name ⊆ extended.types.map ComplexType.name)
    (missing : ¬ last.types.map ComplexType.name ⊆ extended.types.map ComplexType.name) :
    ∃ type ∈ order, (∃ compiled, document.compileType extended false type = .ok compiled) ∧
      document.qualify type.name ∉ extended.types.map ComplexType.name := by
  induction order generalizing builder with
  | nil =>
    cases done
    exact absurd covered missing
  | cons first rest ih =>
    obtain ⟨amongFirst, amongRest⟩ := List.forall_mem_cons.1 among
    rw [List.foldlM_cons] at done
    obtain ⟨between, one, later⟩ := Result.bind_eq_ok done
    by_cases inside : document.qualify first.name ∈ extended.types.map ComplexType.name
    · have coveredNext :
          between.types.map ComplexType.name ⊆ extended.types.map ComplexType.name := by
        rw [names_of_register one]
        exact List.append_subset.2 ⟨covered, List.cons_subset.2 ⟨inside, List.nil_subset _⟩⟩
      obtain ⟨type, along, found⟩ :=
        ih amongRest (holds.register amongFirst one) later coveredNext
      exact ⟨type, List.mem_cons_of_mem _ along, found⟩
    · obtain ⟨compiled, compiles, -⟩ := register_eq_ok.1 one
      exact ⟨first, List.mem_cons_self,
        holds.compiles_of_names holdsMore covered ⟨compiled, compiles⟩, inside⟩

theorem holdsComplex_empty (document : SchemaDocument) :
    document.HoldsComplex (.empty document.namespaceName) :=
  ⟨rfl, fun _ inside => (by cases inside), List.nodup_nil, fun _ inside => (by cases inside)⟩

namespace Reaches

theorem exists_declared (reaches : document.Reaches final) :
    ∃ order added, order.Perm document.complexTypes ∧
      final = { SchemaBuilder.empty document.namespaceName with types := added } ∧
        List.Forall₂ document.IsCompiled order added := by
  obtain ⟨order, same, done⟩ := reaches
  obtain ⟨added, rfl, declares⟩ := eq_of_registers done
  exact ⟨order, added, same, rfl, declares⟩

theorem holds (reaches : document.Reaches final) : document.HoldsComplex final := by
  obtain ⟨order, same, done⟩ := reaches
  exact (holdsComplex_empty document).registers (fun _ inside => same.subset inside) done

theorem names (reaches : document.Reaches final) :
    (final.types.map ComplexType.name).Perm document.complexNames := by
  obtain ⟨order, same, done⟩ := reaches
  rw [names_of_registers done]
  exact same.map _

theorem apart (reaches : document.Reaches final) : document.complexNames.Nodup :=
  reaches.names.nodup_iff.1 reaches.holds.apart

theorem compiles (reaches : document.Reaches final) : ∀ type ∈ document.complexTypes,
    ∃ compiled, document.compileType final false type = .ok compiled := by
  obtain ⟨order, same, done⟩ := reaches
  intro type inside
  exact compiles_of_registers (fun _ inside => same.subset inside) (holdsComplex_empty document)
    done type (same.mem_iff.2 inside)

theorem exists_missing (reaches : document.Reaches final) (holds : document.HoldsComplex extended)
    (missing : ¬ document.complexNames ⊆ extended.types.map ComplexType.name) :
    ∃ type ∈ document.complexTypes,
      (∃ compiled, document.compileType extended false type = .ok compiled) ∧
        document.qualify type.name ∉ extended.types.map ComplexType.name := by
  have names := reaches.names
  obtain ⟨order, same, done⟩ := reaches
  obtain ⟨type, along, found⟩ := SchemaDocument.exists_missing
    (fun _ inside => same.subset inside) (holdsComplex_empty document) holds done
    (List.nil_subset _) (fun covered => missing (fun _ inside => covered (names.mem_iff.2 inside)))
  exact ⟨type, same.subset along, found⟩

end Reaches

/-- Some complex types are registered, and the others are left to register. -/
structure Remains (document : SchemaDocument) (builder : SchemaBuilder)
    (pending : List TypeDocument) : Prop where
  holds : document.HoldsComplex builder
  names : (builder.types.map ComplexType.name ++
    pending.map fun type => document.qualify type.name).Perm document.complexNames
  among : ∀ type ∈ pending, type ∈ document.complexTypes

namespace Remains

variable {rest kept : List TypeDocument} {compiled : ComplexType}

theorem start (document : SchemaDocument) :
    document.Remains (.empty document.namespaceName) document.complexTypes :=
  ⟨holdsComplex_empty document, .refl _, fun _ inside => inside⟩

theorem of_perm (remains : document.Remains builder pending) (same : rest.Perm pending) :
    document.Remains builder rest :=
  ⟨remains.holds, ((same.map _).append_left _).trans remains.names,
    fun type inside => remains.among type (same.subset inside)⟩

/-- What is left is not registered. -/
theorem new (remains : document.Remains builder pending) (apart : document.complexNames.Nodup)
    (inside : declared ∈ pending) :
    document.qualify declared.name ∉ builder.types.map ComplexType.name := by
  intro taken
  have disjoint := (List.nodup_append.1 (remains.names.nodup_iff.2 apart)).2.2
  exact disjoint _ taken _ (List.mem_map_of_mem inside) rfl

theorem register (remains : document.Remains builder (declared :: rest))
    (apart : document.complexNames.Nodup)
    (done : document.compileType builder false declared = .ok compiled) :
    ∃ changed, builder.addType compiled = .ok changed ∧ document.Remains changed rest ∧
      builder.types.map ComplexType.name ⊆ changed.types.map ComplexType.name := by
  obtain ⟨amongFirst, amongRest⟩ := List.forall_mem_cons.1 remains.among
  have registers := register_eq_ok.2 ⟨compiled, done, remains.new apart List.mem_cons_self, rfl⟩
  have names := names_of_register registers
  obtain ⟨_, compiles, adds⟩ := Result.bind_eq_ok registers
  cases compiles.symm.trans done
  refine ⟨_, adds, ⟨remains.holds.register amongFirst registers, ?_, amongRest⟩, ?_⟩
  · rw [names, List.append_assoc]
    exact remains.names
  · rw [names]
    exact List.subset_append_left _ _

/-- As long as something is left, something of it can be compiled. -/
theorem exists_next (remains : document.Remains builder pending)
    (reaches : document.Reaches final) (left : pending ≠ []) :
    ∃ type ∈ pending, ∃ compiled, document.compileType builder false type = .ok compiled := by
  have missing : ¬ document.complexNames ⊆ builder.types.map ComplexType.name := by
    intro covered
    obtain ⟨first, others, rfl⟩ := List.exists_cons_of_ne_nil left
    have inEnd : document.qualify first.name ∈ document.complexNames :=
      List.mem_map_of_mem (remains.among first List.mem_cons_self)
    exact remains.new reaches.apart List.mem_cons_self (covered inEnd)
  obtain ⟨type, among, compiles, absent⟩ := reaches.exists_missing remains.holds missing
  have inEnd : document.qualify type.name ∈ document.complexNames := List.mem_map_of_mem among
  rw [← remains.names.mem_iff, List.mem_append] at inEnd
  rcases inEnd with registered | pending
  · exact absurd registered absent
  · obtain ⟨other, inside, named⟩ := List.mem_map.1 pending
    have itself := List.inj_on_of_nodup_map reaches.apart (remains.among other inside) among named
    exact ⟨type, itself ▸ inside, compiles⟩

/-- A round goes through, and puts off only what could not be compiled when it began. -/
theorem compilePending (remains : document.Remains builder (pending ++ kept))
    (reaches : document.Reaches final) (visible : document.ShowsReferences) :
    ∃ changed deferred, document.compilePending pending builder = .ok (changed, deferred) ∧
      document.Remains changed (deferred.map Prod.fst ++ kept) ∧
      ∀ type ∈ deferred.map Prod.fst, ∀ compiled,
        document.compileType builder false type ≠ .ok compiled := by
  induction pending generalizing builder kept with
  | nil => exact ⟨builder, [], rfl, remains, fun _ inside => (by cases inside)⟩
  | cons declared rest ih =>
    rw [SchemaDocument.compilePending]
    cases compiles : document.compileType builder false declared with
    | ok compiled =>
      obtain ⟨between, adds, remainsNext, names⟩ := remains.register reaches.apart compiles
      obtain ⟨changed, deferred, round, remainsLast, fails⟩ := ih remainsNext
      refine ⟨changed, deferred, ?_, remainsLast, fun type inside compiled done => ?_⟩
      · dsimp only
        rw [adds]
        exact round
      · obtain ⟨twin, later⟩ :=
          remains.holds.compiles_of_names remainsNext.holds names ⟨compiled, done⟩
        exact fails type inside twin later
    | error error =>
      have inFront : (rest ++ declared :: kept).Perm (declared :: rest ++ kept) := List.perm_middle
      obtain ⟨changed, deferred, round, remainsLast, fails⟩ := ih (remains.of_perm inFront)
      have among := remains.among declared (List.mem_append_left _ List.mem_cons_self)
      obtain ⟨compiled, compilesLast⟩ := reaches.compiles declared among
      have refers := visible.refersToComplex among reaches.holds compilesLast
        (fun done => by rw [compiles] at done; cases done)
      refine ⟨changed, (declared, error) :: deferred, ?_, ?_, ?_⟩
      · dsimp only
        rw [if_pos refers, round]
        rfl
      · exact remainsLast.of_perm List.perm_middle.symm
      · rw [List.map_cons, List.forall_mem_cons]
        refine ⟨fun compiled done => ?_, fails⟩
        rw [compiles] at done
        cases done

/-- Each round registers something, so rounds come to an end with nothing left. -/
theorem compileComplex {rounds : Nat} (remains : document.Remains builder pending)
    (reaches : document.Reaches final) (visible : document.ShowsReferences)
    (enough : pending.length < rounds) :
    ∃ changed, document.compileComplex rounds pending builder = .ok changed := by
  induction rounds generalizing pending builder with
  | zero => omega
  | succ rounds ih =>
    have whole : document.Remains builder (pending ++ []) := by
      rw [List.append_nil]
      exact remains
    obtain ⟨changed, deferred, round, remainsNext, fails⟩ := whole.compilePending reaches visible
    rw [List.append_nil] at remainsNext
    obtain ⟨order, -, same⟩ := exists_registers_of_compilePending round
    have lengths := same.length_eq
    rw [List.length_append, List.length_map] at lengths
    rw [SchemaDocument.compileComplex, round]
    cases deferred with
    | nil => exact ⟨changed, rfl⟩
    | cons first others =>
      have fewer : (first :: others).length ≠ pending.length := by
        intro equal
        have none : order = [] := List.length_eq_zero_iff.1 (by omega)
        rw [none, List.nil_append] at same
        obtain ⟨type, inside, compiled, compiles⟩ := remains.exists_next reaches
          (fun empty => by rw [empty] at equal; cases equal)
        exact fails type (same.mem_iff.2 inside) compiled compiles
      obtain ⟨last, later⟩ := ih remainsNext (by rw [List.length_map]; omega)
      exact ⟨last, (if_neg fewer).trans later⟩

end Remains

/-- If the complex types compile in some order, rounds find one. -/
theorem Reaches.compileComplex (reaches : document.Reaches final)
    (visible : document.ShowsReferences) : ∃ complex, document.compileComplex
      (document.complexTypes.length + 1) document.complexTypes (.empty document.namespaceName) =
        .ok complex ∧ document.Reaches complex := by
  obtain ⟨complex, done⟩ :=
    (Remains.start document).compileComplex reaches visible (Nat.lt_succ_self _)
  exact ⟨complex, done, reaches_of_compileComplex done⟩

theorem IsCompiled.outline_eq {type twin : ComplexType} (one : document.IsCompiled declared type)
    (another : document.IsCompiled declared twin) : type.outline = twin.outline := by
  obtain ⟨builder, compiled, compiles, rfl⟩ := one
  obtain ⟨changed, compiledToo, compilesToo, rfl⟩ := another
  obtain ⟨_, again, same⟩ :=
    compileType_of_resolves (exists_of_compileType compilesToo) compiles
  cases again.symm.trans compilesToo
  exact ComplexType.toSealed_of_outline same

theorem outlines_eq {types twins : List ComplexType}
    (one : List.Forall₂ document.IsCompiled order types)
    (another : List.Forall₂ document.IsCompiled order twins) :
    types.map ComplexType.outline = twins.map ComplexType.outline := by
  induction one generalizing twins with
  | nil =>
    cases another
    rfl
  | cons first _ ih =>
    cases another with
    | cons firstToo restToo =>
      rw [List.map_cons, List.map_cons, first.outline_eq firstToo, ih restToo]

/-- The types that come of two orders have the same outlines. -/
theorem Reaches.outlines_perm (reaches : document.Reaches final)
    (reachesToo : document.Reaches other) :
    (other.types.map ComplexType.outline).Perm (final.types.map ComplexType.outline) := by
  obtain ⟨order, types, along, rfl, declares⟩ := reaches.exists_declared
  obtain ⟨orderToo, typesToo, alongToo, rfl, declaresToo⟩ := reachesToo.exists_declared
  obtain ⟨lined, declaresLined, same⟩ :=
    List.perm_comp_forall₂ (alongToo.trans along.symm) declares
  rw [outlines_eq declaresToo declaresLined]
  exact same.map _

namespace IsUnambiguous

/-- Every type that was registered is compiled to the same in the end. -/
theorem compiled_of_registers (unambiguous : document.IsUnambiguous)
    (among : ∀ type ∈ order, type ∈ document.complexTypes)
    (sameNamespace : builder.namespaceName = document.namespaceName)
    (holds : document.HoldsComplex last)
    (done : order.foldlM document.register builder = .ok last) :
    ∀ type ∈ order, ∃ compiled, document.compileType last false type = .ok compiled ∧
      compiled.toSealed ∈ last.types := by
  induction order generalizing builder with
  | nil => exact fun _ inside => (by cases inside)
  | cons first rest ih =>
    obtain ⟨amongFirst, amongRest⟩ := List.forall_mem_cons.1 among
    rw [List.foldlM_cons] at done
    obtain ⟨between, one, later⟩ := Result.bind_eq_ok done
    obtain ⟨compiled, compiles, -, rfl⟩ := register_eq_ok.1 one
    obtain ⟨added, result, -⟩ := eq_of_registers later
    have stay : builder.types ++ [compiled.toSealed] ⊆ last.types := by
      rw [result]
      exact List.subset_append_left _ _
    rw [List.forall_mem_cons]
    refine ⟨⟨compiled, ?_, ?_⟩, ih amongRest (by exact sameNamespace) later⟩
    · exact unambiguous.compileType_of_subset amongFirst sameNamespace holds
        (fun type inside => stay (List.mem_append_left _ inside)) compiles
    · exact stay (List.mem_append_right _ (List.mem_singleton.2 rfl))

/-- Where every type is compiled to what is registered, an order registers nothing else. -/
theorem subset_of_registers (unambiguous : document.IsUnambiguous)
    (among : ∀ type ∈ order, type ∈ document.complexTypes)
    (sameNamespace : builder.namespaceName = document.namespaceName)
    (holds : document.HoldsComplex other)
    (compiled : ∀ type ∈ document.complexTypes, ∃ compiled,
      document.compileType other false type = .ok compiled ∧ compiled.toSealed ∈ other.types)
    (done : order.foldlM document.register builder = .ok last)
    (subset : builder.types ⊆ other.types) : last.types ⊆ other.types := by
  induction order generalizing builder with
  | nil =>
    cases done
    exact subset
  | cons first rest ih =>
    obtain ⟨amongFirst, amongRest⟩ := List.forall_mem_cons.1 among
    rw [List.foldlM_cons] at done
    obtain ⟨between, one, later⟩ := Result.bind_eq_ok done
    obtain ⟨early, compiles, -, rfl⟩ := register_eq_ok.1 one
    obtain ⟨late, compilesToo, registered⟩ := compiled first amongFirst
    have compilesLater :=
      unambiguous.compileType_of_subset amongFirst sameNamespace holds subset compiles
    cases compilesLater.symm.trans compilesToo
    exact ih amongRest (by exact sameNamespace) later
      (List.append_subset.2 ⟨subset, List.cons_subset.2 ⟨registered, List.nil_subset _⟩⟩)

theorem types_subset (unambiguous : document.IsUnambiguous) (reaches : document.Reaches final)
    (reachesToo : document.Reaches other) : final.types ⊆ other.types := by
  have holds := reachesToo.holds
  obtain ⟨order, along, done⟩ := reaches
  obtain ⟨orderToo, alongToo, doneToo⟩ := reachesToo
  refine unambiguous.subset_of_registers (fun _ inside => along.subset inside) rfl holds ?_ done
    (List.nil_subset _)
  intro type inside
  exact unambiguous.compiled_of_registers (fun _ inside => alongToo.subset inside) rfl holds doneToo
    type (alongToo.mem_iff.2 inside)

/-- The types that come of two orders are the same in an unambiguous document. -/
theorem types_perm (unambiguous : document.IsUnambiguous) (reaches : document.Reaches final)
    (reachesToo : document.Reaches other) : other.types.Perm final.types := by
  rw [List.perm_ext_iff_of_nodup (reachesToo.holds.apart.of_map _) (reaches.holds.apart.of_map _)]
  exact fun type => ⟨fun inside => unambiguous.types_subset reachesToo reaches inside,
    fun inside => unambiguous.types_subset reaches reachesToo inside⟩

end IsUnambiguous

end SchemaDocument

end EdmQuery
