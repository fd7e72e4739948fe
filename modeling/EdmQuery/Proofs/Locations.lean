import EdmQuery.Proofs.SearchRemainders

set_option autoImplicit false

namespace EdmQuery

theorem utf8Size_eq (text : List Char) : utf8Size text = (String.ofList text).utf8ByteSize := by
  induction text with
  | nil => rfl
  | cons char rest ih =>
    rw [utf8Size, ih, String.ofList_cons, String.utf8ByteSize_append, String.utf8ByteSize_singleton]

namespace Location

/-- A point between two characters of a source, or at one of its ends. The offset counts the bytes in
front of it, and the column the characters from one on. -/
structure IsPointOf (source : String) (location : Location) : Prop where
  inSource : location.offset ≤ source.utf8ByteSize
  boundary : String.Pos.Raw.IsValid source ⟨location.offset⟩
  column : ∃ before after, source = before ++ after ∧ before.utf8ByteSize = location.offset ∧
    location.column = before.length + 1
  length : location.length = 0

theorem startsBefore_append (before after : List Char) :
    startsBefore (utf8Size before) (before ++ after) = before.length := by
  induction before with
  | nil => cases after <;> rfl
  | cons char rest ih =>
    have positive := char.utf8Size_pos
    rw [List.cons_append, startsBefore, utf8Size, if_pos (by omega), Nat.add_sub_cancel_left, ih,
      List.length_cons, Nat.add_comm]

/-- The rest of a source begins behind what was consumed of it. -/
theorem atRemaining_append (before after : List Char) :
    atRemaining (before ++ after) after = ⟨before.length + 1, utf8Size before, 0⟩ := by
  have consumed : utf8Size (before ++ after) - utf8Size after = utf8Size before := by
    rw [utf8Size_append, Nat.add_sub_cancel]
  have inside : min (utf8Size before) (utf8Size (before ++ after)) = utf8Size before := by
    rw [utf8Size_append]
    exact Nat.min_eq_left (Nat.le_add_right _ _)
  rw [atRemaining, consumed, ofSpan, Span.length_point]
  simp only [Span.point, inside, startsBefore_append]

theorem isPointOf_atRemaining {source : String} {rest : List Char} (left : rest <:+ source.toList) :
    (atRemaining source.toList rest).IsPointOf source := by
  obtain ⟨consumed, split⟩ := left
  have whole : source = String.ofList consumed ++ String.ofList rest := by
    rw [← String.ofList_append, split, String.ofList_toList]
  have size := utf8Size_eq consumed
  rw [← split, atRemaining_append]
  constructor
  · rw [whole, String.utf8ByteSize_append, ← size]
    exact Nat.le_add_right _ _
  · refine String.Pos.Raw.isValid_iff_exists_append.2 ⟨_, _, whole, ?_⟩
    rw [size]
    rfl
  · exact ⟨_, _, whole, size.symm, by rw [String.length_ofList]⟩
  · rfl

end Location

/-- An error at a point of a source. Only the one for a word that is no operator has no location. -/
def Error.PointsInto (source : String) (error : Error) : Prop :=
  match error.location with
  | some location => location.IsPointOf source
  | none => error.code = .unknownOperator

namespace Parsing

theorem pointsInto_failureError (fallback : ErrorCode) {source : String} {failure : ParseFailure}
    (left : failure.rest <:+ source.toList) :
    (failureError fallback source failure).PointsInto source :=
  Location.isPointOf_atRemaining left

theorem pointsInto_leftoverError (fallback : ErrorCode) (inFilter : Bool) {source : String}
    {rest : List Char} (left : rest <:+ source.toList) :
    (leftoverError fallback inFilter source rest).PointsInto source := by
  rw [leftoverError]
  split
  · rfl
  · exact Location.isPointOf_atRemaining left

/-- A parser that leaves an end of its text fails at a point of the source, and so does what checks
that it has left nothing else. -/
theorem pointsInto_of_complete {α : Type} {parser : Parser α} (leaves : LeavesSuffix parser)
    {fallback : ErrorCode} {inFilter : Bool} {source : String} {error : Error}
    (refused : complete parser fallback inFilter source = .error error) :
    error.PointsInto source := by
  have left := leaves source.toList
  rw [complete] at refused
  split at refused
  · rename_i failure fails
    rw [fails] at left
    cases refused
    exact pointsInto_failureError fallback left
  · rename_i value rest read
    rw [read] at left
    split at refused
    · cases refused
    · cases refused
      exact pointsInto_leftoverError fallback inFilter ((skipGap_suffix rest).trans left)

end Parsing

section

open Parsing

variable {source : String} {error : Error}

theorem Filter.pointsInto_of_ofText (refused : ofText source = .error error) :
    error.PointsInto source :=
  pointsInto_of_complete leavesSuffix_topExpression (Result.map_eq_error refused)

theorem Filter.pointsInto_of_orderByOfText (refused : orderByOfText source = .error error) :
    error.PointsInto source :=
  pointsInto_of_complete (fun text => leavesSuffix_orderByItems _ text) (Result.map_eq_error refused)

theorem Search.pointsInto_of_ofText (refused : ofText source = .error error) :
    error.PointsInto source := by
  have leaves := leavesSuffix_disjunction (nested_leavesSuffix maxDepth)
  exact pointsInto_of_complete (fun text => (leaves _).trans (skipGap_suffix text)) refused

end

/-- If a filter, an ordering or a search is refused with a location, that is a point of its text. -/
theorem isPointOf_of_refused {source : String} {error : Error} {location : Location}
    (refused : Filter.ofText source = .error error ∨ Filter.orderByOfText source = .error error ∨
      Search.ofText source = .error error)
    (located : error.location = some location) : location.IsPointOf source := by
  have points : error.PointsInto source := by
    rcases refused with filter | ordering | search
    · exact Filter.pointsInto_of_ofText filter
    · exact Filter.pointsInto_of_orderByOfText ordering
    · exact Search.pointsInto_of_ofText search
  rw [Error.PointsInto, located] at points
  exact points

/-- Eight characters stand in front of the end, and ten bytes. -/
theorem isPointOf_of_refused_phrase :
    let error := Parsing.failureError .invalidSearch "é AND \"ü" ⟨.unterminatedString, []⟩
    Search.ofText "é AND \"ü" = .error error ∧ error.location = some ⟨9, 10, 0⟩ ∧
      Location.IsPointOf "é AND \"ü" ⟨9, 10, 0⟩ := by
  have refused : Search.ofText "é AND \"ü" = .error (Parsing.failureError .invalidSearch
      "é AND \"ü" ⟨.unterminatedString, []⟩) := rfl
  have located : (Parsing.failureError .invalidSearch "é AND \"ü"
      ⟨.unterminatedString, []⟩).location = some ⟨9, 10, 0⟩ := rfl
  exact ⟨refused, located, isPointOf_of_refused (.inr (.inr refused)) located⟩

end EdmQuery
