import EdmQuery.Proofs.Layouts
import EdmQuery.Proofs.RefusedWrites

set_option autoImplicit false

namespace EdmQuery

open Layout (WritesItem)

theorem Layout.writes_scalar (value : Json) (layout : Layout) :
    layout.Writes [.scalar value] layout.beginValue.1
      (String.join layout.beginValue.2 ++ value.laidOut layout.isPretty layout.level) := by
  have whole : value.tokens (fun _ => true) [] = [.scalar value] := by cases value <;> rfl
  rw [← whole]
  exact layout.writes_tokens _ _ value

theorem Layout.writesItem_pairs (entries : Json.Members) {isPretty : Bool} {outer : List Bool} :
    List.Forall₂ (WritesItem isPretty outer) (entries.map Token.pair)
      (entries.map (Json.laidOutMember isPretty (outer.length + 1))) := by
  induction entries with
  | nil => exact .nil
  | cons entry rest ih =>
    refine .cons (writesItem_member ?_) ih
    have written := Layout.writes_scalar entry.2 ⟨isPretty, true :: outer, true⟩
    have begun : (⟨isPretty, true :: outer, true⟩ : Layout).beginValue =
        (inside isPretty true outer, []) := rfl
    rw [begun, String.join_nil, String.empty_append] at written
    exact written

mutual

/-- The tokens of a value write its document as it is laid out at its place. -/
theorem Value.writes_tokens (level : MetadataLevel) (context : RequestContext) (value : Value)
    (layout : Layout) :
    layout.Writes (value.tokens level context) layout.beginValue.1
      (String.join layout.beginValue.2 ++
        (value.tree level context).laidOut layout.isPretty layout.level) := by
  cases value with
  | primitive value =>
    rw [Value.tokens, Value.tree]
    exact layout.writes_scalar value.toJson
  | complex value =>
    rw [Value.tokens, Value.tree]
    exact ComplexValue.writes_tokens level context value layout
  | collection items =>
    have opens : ∀ other : Layout, other.step .openArray = other.openContainer "[" := fun _ => rfl
    have closes : ∀ other : Layout, other.step .closeArray = other.closeContainer "]" :=
      fun _ => rfl
    have written := Layout.writes_container opens closes layout
      (Value.writesItem_itemTokens level context items)
    rwa [layout.beginValue_eq.2, ← Json.laidOut_array] at written

theorem Value.writesItem_itemTokens (level : MetadataLevel) (context : RequestContext)
    (items : List Value) {isPretty : Bool} {outer : List Bool} :
    List.Forall₂ (WritesItem isPretty outer) (Value.itemTokens level context items)
      ((Value.itemTrees level context items).map (Json.laidOut isPretty (outer.length + 1))) := by
  cases items with
  | nil => exact .nil
  | cons item rest =>
    refine .cons (fun hasItems => ?_) (Value.writesItem_itemTokens level context rest)
    rw [← Layout.join_beginItem_inside]
    exact Value.writes_tokens level context item (Layout.inside isPretty hasItems outer)

theorem Value.writes_optionTokens (level : MetadataLevel) (context : RequestContext)
    (value? : Option Value) (layout : Layout) :
    layout.Writes (Value.optionTokens level context value?) layout.beginValue.1
      (String.join layout.beginValue.2 ++
        (Value.optionTree level context value?).laidOut layout.isPretty layout.level) := by
  cases value? with
  | none => exact layout.writes_scalar .null
  | some value => exact Value.writes_tokens level context value layout

theorem ComplexValue.writes_tokens (level : MetadataLevel) (context : RequestContext)
    (container : ComplexValue) (layout : Layout) :
    layout.Writes (container.tokens level context) layout.beginValue.1
      (String.join layout.beginValue.2 ++
        (container.tree level context).laidOut layout.isPretty layout.level) := by
  obtain ⟨id, type, bindings, parent?, entitySet?, isReference, metadata⟩ := container
  have opens : ∀ other : Layout, other.step .openObject = other.openContainer "\x7b" :=
    fun _ => rfl
  have closes : ∀ other : Layout, other.step .closeObject = other.closeContainer "\x7d" :=
    fun _ => rfl
  let control := (ComplexValue.controlInfo
    ⟨id, type, bindings, parent?, entitySet?, isReference, metadata⟩ level).entries
  have members : List.Forall₂ (WritesItem layout.isPretty layout.beginValue.1.containers)
      (control.map Token.pair ++
        if isReference then [] else ComplexValue.memberTokens level context bindings)
      ((control ++ if isReference then [] else ComplexValue.memberTrees level context bindings).map
        (Json.laidOutMember layout.isPretty (layout.beginValue.1.containers.length + 1))) := by
    rw [List.map_append]
    refine List.rel_append (Layout.writesItem_pairs control) ?_
    cases isReference with
    | true => exact .nil
    | false => exact ComplexValue.writesItem_memberTokens level context bindings
  have written := Layout.writes_container opens closes layout members
  rw [layout.beginValue_eq.2, ← Json.laidOut_object] at written
  rw [ComplexValue.tokens, ComplexValue.tree]
  exact written

theorem ComplexValue.writesItem_memberTokens (level : MetadataLevel) (context : RequestContext)
    (bindings : List PropertyValue) {isPretty : Bool} {outer : List Bool} :
    List.Forall₂ (WritesItem isPretty outer) (ComplexValue.memberTokens level context bindings)
      ((ComplexValue.memberTrees level context bindings).map
        (Json.laidOutMember isPretty (outer.length + 1))) := by
  match bindings with
  | [] => exact .nil
  | ⟨property, value?, owner?, metadata⟩ :: rest =>
    have others := @ComplexValue.writesItem_memberTokens level context rest isPretty outer
    rw [ComplexValue.memberTokens, ComplexValue.memberTrees]
    split
    · have value := Value.writes_optionTokens level (context.optionsFor property) value?
        ⟨isPretty, true :: outer, true⟩
      have begun : (⟨isPretty, true :: outer, true⟩ : Layout).beginValue =
          (Layout.inside isPretty true outer, []) := rfl
      rw [begun, String.join_nil, String.empty_append] at value
      rw [List.map_cons, List.map_append]
      exact .cons (Layout.writesItem_member value)
        (List.rel_append (Layout.writesItem_pairs _) others)
    · exact others

end

theorem ComplexValue.writesItem_representations (context : RequestContext)
    (containers : List ComplexValue) {isPretty : Bool} {outer : List Bool} :
    List.Forall₂ (WritesItem isPretty outer) (containers.map (representation context))
      ((containers.map (tree context.level context)).map
        (Json.laidOut isPretty (outer.length + 1))) := by
  induction containers with
  | nil => exact .nil
  | cons container rest ih =>
    refine .cons (fun hasItems => ?_) ih
    rw [← Layout.join_beginItem_inside]
    exact container.writes_tokens context.level context (Layout.inside isPretty hasItems outer)

/-- The tokens of several values write the array of their documents. -/
theorem ComplexValue.writes_representations (context : RequestContext)
    (containers : List ComplexValue) (layout : Layout) :
    layout.Writes (representations context containers) layout.beginValue.1
      (String.join layout.beginValue.2 ++ (Json.array
        (containers.map (tree context.level context))).laidOut layout.isPretty layout.level) := by
  have opens : ∀ other : Layout, other.step .openArray = other.openContainer "[" := fun _ => rfl
  have closes : ∀ other : Layout, other.step .closeArray = other.closeContainer "]" :=
    fun _ => rfl
  have written := Layout.writes_container opens closes layout
    (ComplexValue.writesItem_representations context containers)
  rwa [layout.beginValue_eq.2, ← Json.laidOut_array] at written

/-- Without line breaks, nothing is written before a value. -/
theorem Layout.beginValue_of_compact {layout : Layout} (compact : layout.isPretty = false) :
    layout.beginValue.2 = [] := by
  obtain ⟨isPretty, containers, afterKey⟩ := layout
  cases compact
  cases afterKey with
  | true => rfl
  | false =>
    cases containers with
    | nil => rfl
    | cons hasItems outer => rfl

/-- An output that takes all texts has them behind what was written before. -/
theorem Output.eq_append_of_writeAll {texts : List String} {output written : Output}
    (done : output.writeAll texts = (written, .ok ())) :
    written = output.append (String.join texts) := by
  induction texts generalizing output with
  | nil =>
    rw [String.join_nil, append_empty]
    exact (congrArg Prod.fst done).symm
  | cons text rest ih =>
    by_cases within : (output.append text).IsWithin
    · rw [writeAll, write_of_isWithin within] at done
      rw [ih done, append_append, String.join_cons]
    · rw [writeAll, write_of_not_isWithin within] at done
      cases done

/-- What is emitted, to an output that takes it, is the document of the prepared value, laid out for
the place where it is written. -/
theorem Emitter.emit_laidOut {emitter : Emitter} {context : RequestContext} {layout : Layout}
    {output written : Output} {container prepared : ComplexValue} {supply after : Supply}
    (done : emitter.emit context layout output container supply =
      ((prepared, written, .ok ()), after)) :
    written = output.append (String.join layout.beginValue.2 ++
      (prepared.tree context.level context).laidOut layout.isPretty layout.level) := by
  rw [emit_of_prepare (prepare_of_emit done), Prod.mk.injEq, Prod.mk.injEq] at done
  rw [Output.eq_append_of_writeAll done.1.2]
  have text := (ComplexValue.writes_tokens context.level context prepared layout).2
  exact congrArg output.append text

/-- A prepared value is written as its document to an output without a limit. -/
theorem Emitter.emit_of_unlimited {emitter : Emitter} {context : RequestContext}
    {container prepared : ComplexValue} {supply after : Supply}
    (ready : emitter.prepare context container supply = ((prepared, .ok ()), after))
    (layout : Layout) {output : Output} (unlimited : output.limit? = none) :
    emitter.emit context layout output container supply =
      ((prepared, output.append (String.join layout.beginValue.2 ++
        (prepared.tree context.level context).laidOut layout.isPretty layout.level), .ok ()),
          after) := by
  have text := (prepared.writes_tokens context.level context layout).2
  rw [emit_of_prepare ready, Output.writeTokens_of_unlimited _ _ unlimited, ← text]
  rfl

namespace Emitter

/-- A value is written as a whole and exactly, or not at all: nothing is written if preparing it
fails, and otherwise the document of the prepared value. -/
theorem emit_all_or_nothing (emitter : Emitter) (context : RequestContext) (layout : Layout)
    (output : Output) (container : ComplexValue) (supply : Supply)
    (compact : layout.isPretty = false) (unlimited : output.limit? = none) :
    ∃ prepared outcome after,
      emitter.prepare context container supply = ((prepared, outcome), after) ∧
        ((∃ error, outcome = .error error ∧
            emitter.emit context layout output container supply =
              ((prepared, output, .error error), after)) ∨
          (outcome = .ok () ∧
            emitter.emit context layout output container supply =
              ((prepared, output.append (prepared.tree context.level context).compact, .ok ()),
                after))) := by
  rcases ready : emitter.prepare context container supply with ⟨⟨prepared, outcome⟩, after⟩
  refine ⟨prepared, outcome, after, rfl, ?_⟩
  cases outcome with
  | error error =>
    refine .inl ⟨error, rfl, ?_⟩
    simp only [emit, bind, StateT.bind, ready]
    rfl
  | ok done =>
    have written := emit_of_unlimited ready layout unlimited
    rw [Layout.beginValue_of_compact compact, compact, String.join_nil,
      String.empty_append] at written
    exact .inr ⟨rfl, written⟩

theorem compact_boarded :
    (boardedFlight.tree .minimal boardingRequest).compact = boardedText ++ boardedRest := by
  decide +kernel

theorem prepare_unknown : boarding.prepare ⟨some ["wings"], [], .minimal⟩ (boarded []) ⟨2⟩ =
    ((boarded [], .error (.invalidSelect "wings")), ⟨2⟩) := rfl

/-- A flight is written with the pilot that is bound on the way. When something unknown is selected,
nothing is written. -/
theorem emit_all_or_nothing_boarded :
    Layout.compact.isPretty = false ∧ Output.unlimited.limit? = none ∧
      boarding.prepare boardingRequest (boarded []) ⟨2⟩ = ((boardedFlight, .ok ()), ⟨2⟩) ∧
      boarding.emit boardingRequest .compact .unlimited (boarded []) ⟨2⟩ =
        ((boardedFlight, Output.unlimited.append (boardedText ++ boardedRest), .ok ()), ⟨2⟩) ∧
      boarding.emit ⟨some ["wings"], [], .minimal⟩ .compact .unlimited (boarded []) ⟨2⟩ =
        ((boarded [], .unlimited, .error (.invalidSelect "wings")), ⟨2⟩) := by
  refine ⟨rfl, rfl, prepare_boarded, ?_, ?_⟩
  · obtain ⟨prepared, outcome, after, ready, emits⟩ := emit_all_or_nothing boarding boardingRequest
      .compact .unlimited (boarded []) ⟨2⟩ rfl rfl
    rw [prepare_boarded, Prod.mk.injEq, Prod.mk.injEq] at ready
    obtain ⟨⟨rfl, rfl⟩, rfl⟩ := ready
    rcases emits with ⟨error, failed, -⟩ | ⟨-, written⟩
    · cases failed
    · rw [written]
      show ((boardedFlight, Output.unlimited.append
        (boardedFlight.tree .minimal boardingRequest).compact, _), _) = _
      rw [compact_boarded]
  · obtain ⟨prepared, outcome, after, ready, emits⟩ := emit_all_or_nothing boarding
      ⟨some ["wings"], [], .minimal⟩ .compact .unlimited (boarded []) ⟨2⟩ rfl rfl
    rw [prepare_unknown, Prod.mk.injEq, Prod.mk.injEq] at ready
    obtain ⟨⟨rfl, rfl⟩, rfl⟩ := ready
    rcases emits with ⟨error, failed, unwritten⟩ | ⟨finished, -⟩
    · rw [unwritten, ← Except.error.inj failed]
    · cases finished

end Emitter

end EdmQuery
