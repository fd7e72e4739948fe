import EdmQuery.Proofs.CalendarText
import EdmQuery.Proofs.EmissionText

set_option autoImplicit false

namespace EdmQuery

/-- A text without a line break. -/
def IsLine (text : String) : Prop := '\n' ∉ text.toList

instance (text : String) : Decidable (IsLine text) :=
  inferInstanceAs (Decidable ('\n' ∉ text.toList))

namespace IsLine

theorem append {first second : String} (one : IsLine first) (other : IsLine second) :
    IsLine (first ++ second) := by
  rw [IsLine, String.toList_append, List.mem_append, not_or]
  exact ⟨one, other⟩

theorem ofList {chars : List Char} (none : '\n' ∉ chars) : IsLine (String.ofList chars) := by
  rwa [IsLine, String.toList_ofList]

theorem pushn {text : String} (line : IsLine text) {char : Char} (other : char ≠ '\n')
    (count : Nat) : IsLine (text.pushn char count) := by
  rw [IsLine, toList_pushn, List.mem_append, not_or]
  exact ⟨line, fun inside => other (List.eq_of_mem_replicate inside).symm⟩

theorem natural (number : Nat) : IsLine (toString number) := by
  intro inside
  rw [toString_toList] at inside
  have digit := isAsciiDigit_of_mem_toDigits inside
  exact absurd digit (by decide)

theorem integer (number : Int) : IsLine (toString number) := by
  cases number with
  | ofNat number => exact natural number
  | negSucc number => exact append (by decide) (natural (number + 1))

end IsLine

theorem DecimalDigits.isLine_positional (number : DecimalDigits) : IsLine number.positional := by
  have digits := IsLine.natural number.digits
  unfold positional
  dsimp only
  split
  · exact digits.pushn (by decide) _
  · split
    · refine ((IsLine.ofList ?_).append (by decide)).append (IsLine.ofList ?_)
      · exact fun inside => digits (List.mem_of_mem_take inside)
      · exact fun inside => digits (List.mem_of_mem_drop inside)
    · have zeros : IsLine ("".pushn '0' ((-number.exponent).toNat -
          (toString number.digits).length)) := IsLine.pushn (by decide) (by decide) _
      exact (IsLine.append (by decide) zeros).append digits

theorem DecimalDigits.isLine_scientific (number : DecimalDigits) : IsLine number.scientific := by
  have digits := IsLine.natural number.digits
  have single : ∀ digit : Char, '\n' ≠ digit → IsLine digit.toString := by
    intro digit other
    rw [IsLine, Char.toString, String.toList_singleton, List.mem_singleton]
    exact other
  unfold IsLine at digits
  unfold scientific
  dsimp only
  refine (IsLine.append ?_ (by split <;> decide)).append (IsLine.natural _)
  split
  · decide
  · rename_i digit spelled
    rw [spelled, List.mem_singleton] at digits
    exact single digit digits
  · rename_i digit rest _ spelled
    rw [spelled, List.mem_cons, not_or] at digits
    exact ((single digit digits.1).append (by decide)).append (.ofList digits.2)

theorem Binary64.isLine_jsonText (value : Binary64) : IsLine value.jsonText := by
  unfold jsonText
  refine IsLine.append (by split <;> decide) ?_
  split
  · decide
  · rename_i number _
    dsimp only
    split
    · exact number.isLine_scientific
    · split
      · exact number.isLine_positional.append (by decide)
      · exact number.isLine_positional

namespace Json

theorem newline_not_mem_escapeChar (char : Char) : '\n' ∉ escapeChar char := by
  have hex : ∀ value < 16, hexDigit value ≠ '\n' := by decide
  unfold escapeChar
  by_cases control : char.toNat < 0x20
  · have high := hex (char.toNat / 16) (by omega)
    have low := hex (char.toNat % 16) (by omega)
    rw [if_pos control]
    repeat' split
    all_goals simp [high.symm, low.symm]
  · have other : '\n' ≠ char := fun same => control (same ▸ by decide)
    rw [if_neg control]
    repeat' split
    all_goals simp [other]

theorem isLine_quote (text : String) : IsLine (quote text) := by
  refine .ofList fun inside => ?_
  rw [List.mem_append, List.mem_cons, List.mem_flatMap, List.mem_singleton] at inside
  rcases inside with (opening | ⟨char, -, escaped⟩) | closing
  · cases opening
  · exact newline_not_mem_escapeChar char escaped
  · cases closing

theorem isLine_scalarText (value : Json) : IsLine value.scalarText := by
  cases value with
  | null => decide
  | bool value => cases value <;> decide
  | int value => exact .integer value
  | double value => exact value.isLine_jsonText
  | string value => exact isLine_quote value
  | array items => exact (by decide : IsLine "[]")
  | object members => exact (by decide : IsLine "\x7b\x7d")

@[simp] theorem indentLines_append (level : Nat) (first second : String) :
    indentLines level (first ++ second) = indentLines level first ++ indentLines level second := by
  simp only [indentLines, String.toList_append, List.flatMap_append, String.ofList_append]

/-- Where no line is broken, nothing is moved. -/
theorem indentLines_of_isLine (level : Nat) {text : String} (line : IsLine text) :
    indentLines level text = text := by
  have same : ∀ chars : List Char, '\n' ∉ chars →
      (chars.flatMap fun char =>
        if char = '\n' then (newline level).toList else [char]) = chars := by
    intro chars none
    induction chars with
    | nil => rfl
    | cons char rest ih =>
      rw [List.mem_cons, not_or] at none
      rw [List.flatMap_cons, if_neg (fun same => none.1 same.symm), ih none.2,
        List.singleton_append]
  rw [indentLines, same _ line, String.ofList_toList]

theorem toList_newline (level : Nat) :
    (newline level).toList = '\n' :: List.replicate (2 * level) ' ' := by
  rw [newline, toList_pushn]
  rfl

theorem indentLines_newline (level start : Nat) :
    indentLines level (newline start) = newline (start + level) := by
  have spaces : IsLine (String.ofList (List.replicate (2 * start) ' ')) :=
    .ofList fun inside => by cases List.eq_of_mem_replicate inside
  have broken : newline start = "\n" ++ String.ofList (List.replicate (2 * start) ' ') := by
    rw [← String.toList_inj, String.toList_append, toList_newline, String.toList_ofList (l := List.replicate _ _)]
    rfl
  have moved : indentLines level "\n" = newline level := by
    rw [← String.toList_inj, indentLines, String.toList_ofList]
    exact List.append_nil _
  rw [broken, indentLines_append, indentLines_of_isLine level spaces, moved, ← String.toList_inj,
    String.toList_append, String.toList_ofList, toList_newline, toList_newline, List.cons_append,
    List.replicate_append_replicate]
  congr 2
  omega

/-- The texts of the items of a container that stands at a level, with line breaks of a kind. -/
def enclosed (lineBreak : Nat → String) (level : Nat) : List String → String
  | [] => ""
  | first :: rest => lineBreak (level + 1) ++
      ("," ++ lineBreak (level + 1)).intercalate (first :: rest) ++ lineBreak level

def indentedMember (level : Nat) (member : String × Json) : String :=
  quote member.1 ++ ": " ++ indented level member.2

theorem indentedItems_eq (level : Nat) (item : Json) (rest : List Json) :
    indented (level + 1) item ++ indentedItems level rest =
      ("," ++ newline (level + 1)).intercalate ((item :: rest).map (indented (level + 1))) ++
        newline level ++ "]" := by
  induction rest generalizing item with
  | nil => simp only [indentedItems, List.map_cons, List.map_nil, String.intercalate_singleton,
      String.append_assoc]
  | cons next rest ih =>
    have later := ih next
    rw [List.map_cons] at later ⊢
    simp only [indentedItems, List.map_cons, String.intercalate_cons_cons, String.append_assoc]
      at later ⊢
    rw [later]

theorem indented_array (level : Nat) (items : List Json) : indented level (array items) =
    "[" ++ enclosed newline level (items.map (indented (level + 1))) ++ "]" := by
  cases items with
  | nil => rfl
  | cons item rest =>
    have later := indentedItems_eq level item rest
    rw [List.map_cons] at later ⊢
    simp only [indented, enclosed, String.append_assoc] at later ⊢
    rw [later]

theorem indentedMembers_eq (level : Nat) (member : String × Json) (rest : Members) :
    indentedMember (level + 1) member ++ indentedMembers level rest =
      ("," ++ newline (level + 1)).intercalate
        ((member :: rest).map (indentedMember (level + 1))) ++ newline level ++ "\x7d" := by
  induction rest generalizing member with
  | nil => simp only [indentedMembers, List.map_cons, List.map_nil, String.intercalate_singleton,
      String.append_assoc]
  | cons next rest ih =>
    have later := ih next
    rw [List.map_cons] at later ⊢
    simp only [indentedMembers, indentedMember, List.map_cons, String.intercalate_cons_cons,
      String.append_assoc] at later ⊢
    rw [later]

theorem indented_object (level : Nat) (members : Members) : indented level (object members) =
    "\x7b" ++ enclosed newline level (members.map (indentedMember (level + 1))) ++ "\x7d" := by
  cases members with
  | nil => rfl
  | cons member rest =>
    have later := indentedMembers_eq level member rest
    rw [List.map_cons] at later ⊢
    simp only [indented, enclosed, indentedMember, String.append_assoc] at later ⊢
    rw [later]

theorem indentLines_intercalate (level : Nat) (separator : String) (texts : List String) :
    indentLines level (separator.intercalate texts) =
      (indentLines level separator).intercalate (texts.map (indentLines level)) := by
  induction texts with
  | nil => exact indentLines_of_isLine level (by decide : IsLine "")
  | cons text rest ih =>
    cases rest with
    | nil => simp only [List.map_cons, List.map_nil, String.intercalate_singleton]
    | cons next others =>
      rw [List.map_cons] at ih
      simp only [List.map_cons, String.intercalate_cons_cons, indentLines_append, ih]

theorem indentLines_enclosed (level start : Nat) (texts : List String) :
    indentLines level (enclosed newline start texts) =
      enclosed newline (start + level) (texts.map (indentLines level)) := by
  cases texts with
  | nil => exact indentLines_of_isLine level (by decide : IsLine "")
  | cons first rest =>
    simp only [enclosed, indentLines_append, indentLines_newline, indentLines_intercalate,
      indentLines_of_isLine level (by decide : IsLine ","), List.map_cons,
      Nat.add_right_comm start 1 level]

mutual

/-- A value that is printed at one level and moved by another is printed at their sum. -/
theorem indentLines_indented (level start : Nat) (value : Json) :
    indentLines level (value.indented start) = value.indented (start + level) := by
  cases value with
  | array items =>
    have moved := indentLines_indentedAll level (start + 1) items
    rw [indented_array, indented_array, indentLines_append, indentLines_append,
      indentLines_enclosed, moved, indentLines_of_isLine level (by decide : IsLine "["),
      indentLines_of_isLine level (by decide : IsLine "]"), Nat.add_right_comm]
  | object members =>
    have moved := indentLines_indentedMembers level (start + 1) members
    rw [indented_object, indented_object, indentLines_append, indentLines_append,
      indentLines_enclosed, moved, indentLines_of_isLine level (by decide : IsLine "\x7b"),
      indentLines_of_isLine level (by decide : IsLine "\x7d"), Nat.add_right_comm]
  | null => exact indentLines_of_isLine level (isLine_scalarText _)
  | bool value => exact indentLines_of_isLine level (isLine_scalarText (bool value))
  | int value => exact indentLines_of_isLine level (isLine_scalarText (int value))
  | double value => exact indentLines_of_isLine level (isLine_scalarText (double value))
  | string value => exact indentLines_of_isLine level (isLine_scalarText (string value))

theorem indentLines_indentedAll (level start : Nat) (items : List Json) :
    (items.map (indented start)).map (indentLines level) =
      items.map (indented (start + level)) := by
  cases items with
  | nil => rfl
  | cons item rest =>
    rw [List.map_cons, List.map_cons, List.map_cons, indentLines_indented level start item,
      indentLines_indentedAll level start rest]

theorem indentLines_indentedMembers (level start : Nat) (members : Members) :
    (members.map (indentedMember start)).map (indentLines level) =
      members.map (indentedMember (start + level)) := by
  cases members with
  | nil => rfl
  | cons member rest =>
    obtain ⟨key, value⟩ := member
    rw [List.map_cons, List.map_cons, List.map_cons, indentLines_indentedMembers level start rest]
    simp only [indentedMember, indentLines_append, indentLines_indented level start value,
      indentLines_of_isLine level (isLine_quote key),
      indentLines_of_isLine level (by decide : IsLine ": ")]

end

end Json

end EdmQuery
