import Mathlib.Data.Nat.Find
import Mathlib.Order.Bounds.Basic
import EdmQuery.Evaluation.Arithmetic
import EdmQuery.Evaluation.StandardFunctions

set_option autoImplicit false

namespace EdmQuery

namespace Text

section

variable {needle text : List Char}

/-- The first position at which the rest of the text starts with the other one. -/
theorem positionOf?_eq_some (position : Nat) : positionOf? needle text = some position ↔
    needle <+: text.drop position ∧ ∀ earlier < position, ¬ needle <+: text.drop earlier := by
  induction text generalizing position with
  | nil =>
    rw [positionOf?]
    cases needle with
    | nil =>
      rw [List.isEmpty_nil, if_pos rfl, Option.some_inj]
      constructor
      · rintro rfl
        exact ⟨List.nil_prefix, fun _ below => absurd below (Nat.not_lt_zero _)⟩
      · intro first
        by_contra later
        exact first.2 0 (by omega) List.nil_prefix
    | cons char rest => simp [List.isEmpty_cons]
  | cons char rest ih =>
    rw [positionOf?]
    by_cases here : needle.isPrefixOf (char :: rest) = true
    · have stands := List.isPrefixOf_iff_prefix.1 here
      rw [if_pos here, Option.some_inj]
      constructor
      · rintro rfl
        exact ⟨stands, fun _ below => absurd below (Nat.not_lt_zero _)⟩
      · intro first
        by_contra later
        exact first.2 0 (by omega) stands
    · have absent : ¬ needle <+: char :: rest := fun stands =>
        here (List.isPrefixOf_iff_prefix.2 stands)
      rw [if_neg here, Option.map_eq_some_iff]
      constructor
      · rintro ⟨found, isFound, rfl⟩
        obtain ⟨stands, first⟩ := (ih found).1 isFound
        refine ⟨stands, fun earlier below => ?_⟩
        cases earlier with
        | zero => exact absent
        | succ earlier => exact first earlier (by omega)
      · rintro ⟨stands, first⟩
        cases position with
        | zero => exact absurd stands absent
        | succ found =>
          exact ⟨found, (ih found).2 ⟨stands, fun earlier below => first (earlier + 1) (by omega)⟩,
            rfl⟩

theorem positionOf?_eq_none : positionOf? needle text = none ↔
    ∀ position, ¬ needle <+: text.drop position := by
  constructor
  · intro missing position stands
    have found : ∃ position, needle <+: text.drop position := ⟨position, stands⟩
    classical
    have least := (positionOf?_eq_some (Nat.find found)).2
      ⟨Nat.find_spec found, fun _ below => Nat.find_min found below⟩
    rw [missing] at least
    cases least
  · intro nowhere
    cases found : positionOf? needle text with
    | none => rfl
    | some position => exact absurd ((positionOf?_eq_some position).1 found).1 (nowhere position)

theorem positionOf?_le {position : Nat} (found : positionOf? needle text = some position) :
    position ≤ text.length := by
  obtain ⟨stands, first⟩ := (positionOf?_eq_some position).1 found
  by_contra beyond
  have behind : text.drop position = [] := List.drop_eq_nil_of_le (by omega)
  rw [behind, List.prefix_nil] at stands
  exact first 0 (by omega) (stands ▸ List.nil_prefix)

/-- A part as long as another text is that text where the text goes on with it. -/
theorem part_eq_iff {start : Int} :
    part text start (some needle.length) = needle ↔ needle <+: text.drop start.toNat := by
  rw [List.prefix_iff_eq_take, part]
  exact eq_comm

end

/-- The bytes of a text in UTF-8. -/
def bytes (text : List Char) : List UInt8 := text.flatMap String.utf8EncodeChar

theorem bytes_append (first second : List Char) :
    bytes (first ++ second) = bytes first ++ bytes second :=
  List.flatMap_append

theorem bytes_cons (char : Char) (rest : List Char) :
    bytes (char :: rest) = String.utf8EncodeChar char ++ bytes rest :=
  List.flatMap_cons

theorem toByteArray_bytes (text : List Char) : (bytes text).toByteArray = text.utf8Encode := by
  rw [List.utf8Encode, bytes]

/-- The bytes of a text start with those of another one only if its characters do. -/
theorem bytes_prefix_iff {needle text : List Char} :
    bytes needle <+: bytes text ↔ needle <+: text := by
  constructor
  · rintro ⟨rest, joined⟩
    refine List.isPrefix_of_utf8Encode_append_eq_utf8Encode rest.toByteArray ?_
    rw [← toByteArray_bytes, ← toByteArray_bytes, ← joined, List.toByteArray_append]
  · rintro ⟨rest, rfl⟩
    exact ⟨bytes rest, (bytes_append needle rest).symm⟩

/-- The first byte of a text is the first one of a character. -/
theorem exists_lead {needle : List Char} (some : needle ≠ []) :
    ∃ lead others, bytes needle = lead :: others ∧ lead.IsUTF8FirstByte := by
  obtain ⟨char, rest, rfl⟩ := List.exists_cons_of_ne_nil some
  have nonempty : 0 < (String.utf8EncodeChar char).length := by
    rw [String.length_utf8EncodeChar]
    exact char.utf8Size_pos
  refine ⟨_, (String.utf8EncodeChar char).tail ++ bytes rest, ?_,
    UInt8.isUTF8FirstByte_getElem_zero_utf8EncodeChar (c := char)⟩
  rw [bytes_cons, ← List.cons_append, List.getElem_zero_eq_head, List.cons_head_tail]

/-- Bytes that start like a character do not start within one. -/
theorem eq_zero_of_isUTF8FirstByte {char : Char} {offset : Nat} {lead : UInt8}
    {others rest : List UInt8} (leads : lead.IsUTF8FirstByte)
    (inside : offset < (String.utf8EncodeChar char).length)
    (stands : lead :: others <+: (String.utf8EncodeChar char ++ rest).drop offset) :
    offset = 0 := by
  have here : (String.utf8EncodeChar char)[offset] = lead := by
    rw [List.drop_append_of_le_length inside.le, List.drop_eq_getElem_cons inside] at stands
    exact (List.cons_prefix_cons.1 stands).1.symm
  exact UInt8.isUTF8FirstByte_getElem_utf8EncodeChar.1 (here ▸ leads)

/-- Where the bytes of a text occur, the text itself occurs behind whole characters. -/
theorem exists_position_of_bytes {needle text : List Char} (some : needle ≠ []) {offset : Nat}
    (stands : bytes needle <+: (bytes text).drop offset) :
    ∃ position, offset = (bytes (text.take position)).length ∧ needle <+: text.drop position := by
  obtain ⟨lead, others, encoded, leads⟩ := exists_lead some
  induction text generalizing offset with
  | nil =>
    rw [encoded, bytes, List.flatMap_nil, List.drop_nil, List.prefix_nil] at stands
    cases stands
  | cons char rest ih =>
    by_cases inside : offset < (String.utf8EncodeChar char).length
    · have start : offset = 0 := by
        rw [encoded, bytes_cons] at stands
        exact eq_zero_of_isUTF8FirstByte leads inside stands
      rw [start, List.drop_zero, bytes_prefix_iff] at stands
      exact ⟨0, start, stands⟩
    · rw [bytes_cons, List.drop_append, List.drop_eq_nil_of_le (not_lt.1 inside),
        List.nil_append] at stands
      obtain ⟨position, reached, later⟩ := ih stands
      refine ⟨position + 1, ?_, later⟩
      rw [List.take_succ_cons, bytes_cons, List.length_append]
      omega

theorem drop_bytes (text : List Char) (position : Nat) :
    (bytes text).drop (bytes (text.take position)).length = bytes (text.drop position) := by
  have split : bytes text = bytes (text.take position) ++ bytes (text.drop position) := by
    rw [← bytes_append, List.take_append_drop]
  rw [split, List.drop_left]

theorem length_bytes_take_mono (text : List Char) {first second : Nat} (before : first ≤ second) :
    (bytes (text.take first)).length ≤ (bytes (text.take second)).length := by
  obtain ⟨between, joined⟩ := List.take_prefix_take_left (l := text) before
  rw [← joined, bytes_append, List.length_append]
  exact Nat.le_add_right ..

/-- A search through the bytes ends at the same place as one through the characters. -/
theorem isLeast_offset {needle text : List Char} {position : Nat}
    (found : positionOf? needle text = some position) :
    IsLeast {offset | bytes needle <+: (bytes text).drop offset}
      (bytes (text.take position)).length := by
  obtain ⟨stands, first⟩ := (positionOf?_eq_some position).1 found
  constructor
  · rw [Set.mem_ofPred_eq, drop_bytes]
    exact bytes_prefix_iff.2 stands
  · rintro offset occurs
    by_cases some : needle = []
    · subst some
      rw [positionOf?_nil] at found
      cases found
      exact Nat.zero_le offset
    · obtain ⟨other, rfl, later⟩ := exists_position_of_bytes some occurs
      exact length_bytes_take_mono text (not_lt.1 fun before => first other before later)

theorem positionOf?_eq_none_of_bytes {needle text : List Char}
    (missing : positionOf? needle text = none) (offset : Nat) :
    ¬ bytes needle <+: (bytes text).drop offset := by
  intro occurs
  have some : needle ≠ [] := by
    rintro rfl
    rw [positionOf?_nil] at missing
    cases missing
  obtain ⟨position, -, stands⟩ := exists_position_of_bytes some occurs
  exact positionOf?_eq_none.1 missing position stands

end Text

namespace FunctionRegistry

/-- What a function gives when it is called with primitive arguments. -/
def Gives (registry : FunctionRegistry) (context : EvaluationContext) (name : String)
    (arguments : List Primitive) (value : Primitive) : Prop :=
  ∃ function, registry.find? name = some function ∧
    function.call context (arguments.map .primitive) = .ok (some value)

section

variable {context : EvaluationContext} {name : String} {value : Primitive}

theorem gives_iff {registry : FunctionRegistry} {function : FunctionDefinition}
    (found : registry.find? name = some function) {arguments : List Primitive} :
    registry.Gives context name arguments value ↔
      function.call context (arguments.map .primitive) = .ok (some value) := by
  constructor
  · rintro ⟨other, again, called⟩
    cases found.symm.trans again
    exact called
  · exact fun called => ⟨function, found, called⟩

theorem evaluated_some_iff {result : Evaluated Primitive} :
    (some <$> result = .ok (some value)) ↔ result = .ok value := by
  cases result with
  | error error => exact ⟨nofun, nofun⟩
  | ok given => exact ⟨fun same => by cases same; rfl, fun same => by cases same; rfl⟩

/-- A function of two texts gives its result for their characters. -/
theorem gives_ofTexts {result : List Char → List Char → Evaluated Primitive}
    (found : standard.find? name = some (TextFunctions.ofTexts name result)) {s t : String} :
    standard.Gives context name [.string s, .string t] value ↔
      result s.toList t.toList = .ok value :=
  (gives_iff found).trans evaluated_some_iff

theorem gives_length {t : String} : standard.Gives context "length" [.string t] value ↔
    countResult "length" t.toList.length = .ok value :=
  (gives_iff rfl).trans evaluated_some_iff

theorem evaluated_text_iff {characters : List Char} {text : String} :
    (.ok (some (.string (String.ofList characters))) : Evaluated (Option Primitive)) =
        .ok (some (.string text)) ↔ characters = text.toList := by
  rw [Except.ok.injEq, Option.some_inj, Primitive.string.injEq]
  exact ⟨fun same => by rw [← same, String.toList_ofList],
    fun same => by rw [same, String.ofList_toList]⟩

theorem find?_substring : standard.find? "substring" = some TextFunctions.substring := rfl

theorem gives_part {s part : String} {start length : TypedInteger} :
    standard.Gives context "substring" [.string s, .integer start, .integer length]
        (.string part) ↔
      Text.part s.toList start.value (some length.value) = part.toList :=
  (gives_iff find?_substring).trans evaluated_text_iff

theorem gives_rest {s part : String} {start : TypedInteger} :
    standard.Gives context "substring" [.string s, .integer start] (.string part) ↔
      Text.part s.toList start.value none = part.toList :=
  (gives_iff find?_substring).trans evaluated_text_iff

end

end FunctionRegistry

/-- Positions and lengths of this type are given. -/
def TypedInteger.ofCount (count : Nat) (fits : count ≤ 2147483647) : TypedInteger :=
  ⟨.int32, count, (IntegerType.contains_iff ..).2 ⟨by show (-2147483648 : Int) ≤ count; omega,
    by show (count : Int) ≤ 2147483647; omega⟩⟩

theorem countResult_eq (function : String) {count : Nat} (fits : count ≤ 2147483647) :
    countResult function count = .ok (.integer (.ofCount count fits)) := by
  have inside : IntegerType.int32.contains (count : Int) = true :=
    (TypedInteger.ofCount count fits).inside
  rw [countResult, Primitive.int32?, Primitive.ofInt?, TypedInteger.of?, dif_pos inside]
  rfl

namespace TextFunctions

open FunctionRegistry (standard)

/-- A text begins at a position of another one: the part from there on that is as long as the text
is the text. -/
def StandsAt (context : EvaluationContext) (s t : String) (start : TypedInteger) : Prop :=
  ∃ length, standard.Gives context "length" [.string t] (.integer length) ∧
    standard.Gives context "substring" [.string s, .integer start, .integer length] (.string t)

/-- How the functions on two texts agree on positions. -/
structure PositionsAgree (context : EvaluationContext) (s t : String) : Prop where
  /-- The first position is given, or minus one where there is none. -/
  indexOf : ∃ position, standard.Gives context "indexof" [.string s, .string t]
      (.integer position) ∧
    (0 ≤ position.value ∧ StandsAt context s t position ∧
        (∀ start, 0 ≤ start.value → StandsAt context s t start →
          position.value ≤ start.value) ∨
      position.value = -1 ∧ ∀ start, 0 ≤ start.value → ¬ StandsAt context s t start)
  /-- A search through the bytes of both texts comes to the same place. -/
  bytes : ∃ position, standard.Gives context "indexof" [.string s, .string t]
      (.integer position) ∧
    (0 ≤ position.value → IsLeast
      {offset | Text.bytes t.toList <+: (Text.bytes s.toList).drop offset}
      (Text.bytes (s.toList.take position.value.toNat)).length) ∧
    (position.value = -1 → ∀ offset, ¬ Text.bytes t.toList <+: (Text.bytes s.toList).drop offset)
  contains : ∃ holds position,
    standard.Gives context "contains" [.string s, .string t] (.boolean holds) ∧
      standard.Gives context "indexof" [.string s, .string t] (.integer position) ∧
      (holds = true ↔ position.value ≠ -1)
  startsWith : ∃ holds,
    standard.Gives context "startswith" [.string s, .string t] (.boolean holds) ∧
      ∀ zero, zero.value = 0 → (holds = true ↔ StandsAt context s t zero)
  endsWith : ∃ holds whole length start,
    standard.Gives context "endswith" [.string s, .string t] (.boolean holds) ∧
      standard.Gives context "length" [.string s] (.integer whole) ∧
      standard.Gives context "length" [.string t] (.integer length) ∧
      Arithmetic.ofPrimitives .subtract (.integer whole) (.integer length) =
        .ok (.integer start) ∧
      (holds = true ↔ length.value ≤ whole.value ∧
        standard.Gives context "substring" [.string s, .integer start] (.string t))
  concat : ∀ zero count, zero.value = 0 → 0 ≤ count.value → ∃ front back,
    standard.Gives context "substring" [.string s, .integer zero, .integer count]
        (.string front) ∧
      standard.Gives context "substring" [.string s, .integer count] (.string back) ∧
      standard.Gives context "concat" [.string front, .string back] (.string s)

section

variable {context : EvaluationContext} {s t : String}

theorem standsAt_iff (fits : t.toList.length ≤ 2147483647) {start : TypedInteger} :
    StandsAt context s t start ↔ t.toList <+: s.toList.drop start.value.toNat := by
  rw [← Text.part_eq_iff]
  constructor
  · rintro ⟨length, measured, cut⟩
    rw [FunctionRegistry.gives_length, countResult_eq _ fits] at measured
    cases measured
    exact FunctionRegistry.gives_part.1 cut
  · intro cut
    exact ⟨_, FunctionRegistry.gives_length.2 (countResult_eq _ fits),
      FunctionRegistry.gives_part.2 cut⟩

theorem indexOf_eq (fits : s.toList.length ≤ 2147483647) :
    (∃ position : Nat, ∃ small : position ≤ 2147483647,
        Text.positionOf? t.toList s.toList = some position ∧
          indexOf s.toList t.toList = .ok (.integer (.ofCount position small))) ∨
      Text.positionOf? t.toList s.toList = none ∧
        indexOf s.toList t.toList = .ok (.integer ⟨.int32, -1, by decide⟩) := by
  cases found : Text.positionOf? t.toList s.toList with
  | some position =>
    have small : position ≤ 2147483647 := (Text.positionOf?_le found).trans fits
    refine .inl ⟨position, small, rfl, ?_⟩
    rw [indexOf, found, ← countResult_eq "indexof" small]
  | none =>
    refine .inr ⟨rfl, ?_⟩
    rw [indexOf, found]
    rfl

theorem value_ofCount {count : Nat} (small : count ≤ 2147483647) :
    (TypedInteger.ofCount count small).value = count := rfl

/-- The number of characters that one text is longer than another one. -/
theorem subtract_ofCount {whole count : Nat} (wholeFits : whole ≤ 2147483647)
    (fits : count ≤ 2147483647) :
    ∃ start : TypedInteger, start.value = (whole : Int) - count ∧
      Arithmetic.ofPrimitives .subtract (.integer (.ofCount whole wholeFits))
        (.integer (.ofCount count fits)) = .ok (.integer start) := by
  have inside : IntegerType.int64.contains ((whole : Int) - count) = true := by
    refine (IntegerType.contains_iff ..).2 ⟨?_, ?_⟩
    · show (-9223372036854775808 : Int) ≤ _
      omega
    · show _ ≤ (9223372036854775807 : Int)
      omega
  refine ⟨⟨.int64, _, inside⟩, rfl, ?_⟩
  have given : Primitive.int64? ((whole : Int) - count) = some (.integer ⟨.int64, _, inside⟩) := by
    rw [Primitive.int64?, Primitive.ofInt?, TypedInteger.of?, dif_pos inside]
    rfl
  show Arithmetic.ofIntegers .subtract (whole : Int) (count : Int) = _
  simp only [Arithmetic.ofIntegers, Arithmetic.resultOf?, Arithmetic.isDivision,
    Arithmetic.isOverflowing, Bool.false_and, Bool.false_eq_true, if_false, given]

theorem isSuffixOf_iff {start : TypedInteger}
    (difference : start.value = (s.toList.length : Int) - t.toList.length) :
    t.toList.isSuffixOf s.toList = true ↔
      (t.toList.length : Int) ≤ s.toList.length ∧
        Text.part s.toList start.value none = t.toList := by
  have count (shorter : t.toList.length ≤ s.toList.length) :
      start.value.toNat = s.toList.length - t.toList.length := by omega
  rw [List.isSuffixOf_iff_suffix, Text.part]
  constructor
  · intro ends
    have shorter := ends.length_le
    refine ⟨by omega, ?_⟩
    show s.toList.drop _ = _
    rw [count shorter]
    exact (List.suffix_iff_eq_drop.1 ends).symm
  · rintro ⟨shorter, rest⟩
    rw [List.suffix_iff_eq_drop, ← count (by omega)]
    exact rest.symm

end

/-- The functions that search a text, cut it and put it together agree on positions. -/
theorem positionsAgree {s t : String} (textFits : s.length ≤ 2147483647)
    (fits : t.length ≤ 2147483647) (context : EvaluationContext) :
    PositionsAgree context s t := by
  rw [← String.length_toList] at textFits fits
  have searched := indexOf_eq (t := t) textFits
  refine ⟨?indexOf, ?bytes, ?contains, ?startsWith, ?endsWith, ?concat⟩
  case indexOf =>
    rcases searched with ⟨position, small, found, given⟩ | ⟨missing, given⟩
    · refine ⟨_, (FunctionRegistry.gives_ofTexts rfl).2 given, .inl ?_⟩
      obtain ⟨stands, first⟩ := (Text.positionOf?_eq_some position).1 found
      refine ⟨Int.natCast_nonneg position, (standsAt_iff fits).2 stands,
        fun start natural there => ?_⟩
      by_contra before
      refine first start.value.toNat ?_ ((standsAt_iff fits).1 there)
      rw [value_ofCount] at before
      omega
    · refine ⟨_, (FunctionRegistry.gives_ofTexts rfl).2 given, .inr ⟨rfl, fun start _ there => ?_⟩⟩
      exact Text.positionOf?_eq_none.1 missing _ ((standsAt_iff fits).1 there)
  case bytes =>
    rcases searched with ⟨position, small, found, given⟩ | ⟨missing, given⟩
    · refine ⟨_, (FunctionRegistry.gives_ofTexts rfl).2 given,
        fun _ => Text.isLeast_offset found, fun none => ?_⟩
      rw [value_ofCount] at none
      omega
    · exact ⟨_, (FunctionRegistry.gives_ofTexts rfl).2 given,
        fun natural => absurd natural (by decide),
        fun _ => Text.positionOf?_eq_none_of_bytes missing⟩
  case contains =>
    rcases searched with ⟨position, small, found, given⟩ | ⟨missing, given⟩
    · refine ⟨_, _, (FunctionRegistry.gives_ofTexts rfl).2 rfl,
        (FunctionRegistry.gives_ofTexts rfl).2 given, ?_⟩
      rw [Text.occursIn, found, value_ofCount]
      exact iff_of_true rfl (by omega)
    · refine ⟨_, _, (FunctionRegistry.gives_ofTexts rfl).2 rfl,
        (FunctionRegistry.gives_ofTexts rfl).2 given, ?_⟩
      rw [Text.occursIn, missing]
      exact iff_of_false Bool.false_ne_true (not_not.2 rfl)
  case startsWith =>
    refine ⟨_, (FunctionRegistry.gives_ofTexts rfl).2 rfl, fun zero isZero => ?_⟩
    rw [standsAt_iff fits, isZero]
    exact List.isPrefixOf_iff_prefix
  case endsWith =>
    obtain ⟨start, difference, subtracted⟩ := subtract_ofCount textFits fits
    refine ⟨_, _, _, start, (FunctionRegistry.gives_ofTexts rfl).2 rfl,
      FunctionRegistry.gives_length.2 (countResult_eq _ textFits),
      FunctionRegistry.gives_length.2 (countResult_eq _ fits), subtracted, ?_⟩
    rw [FunctionRegistry.gives_rest]
    exact isSuffixOf_iff difference
  case concat =>
    intro zero count isZero natural
    refine ⟨_, _, FunctionRegistry.gives_part.2 (String.toList_ofList ..).symm,
      FunctionRegistry.gives_rest.2 (String.toList_ofList ..).symm,
      (FunctionRegistry.gives_ofTexts rfl).2 ?_⟩
    have joined := Text.part_append_part s.toList count.value.toNat
    rw [Int.toNat_of_nonneg natural] at joined
    rw [String.toList_ofList, String.toList_ofList, isZero, joined, textResult,
      String.ofList_toList]

/-- A context around an empty instance. -/
def plainContext : EvaluationContext :=
  .start ⟨⟨1⟩, .untyped, [], none, none, false, []⟩ default

/-- A text with wide characters, in which another one stands behind a start that overlaps it. -/
theorem positionsAgree_wide :
    ("añaña→".length ≤ 2147483647 ∧ "aña→".length ≤ 2147483647) ∧
      PositionsAgree plainContext "añaña→" "aña→" ∧
      standard.Gives plainContext "indexof" [.string "añaña→", .string "aña→"]
        (.integer ⟨.int32, 2, by decide⟩) := by
  have lengths : "añaña→".length ≤ 2147483647 ∧ "aña→".length ≤ 2147483647 := by decide
  exact ⟨lengths, positionsAgree lengths.1 lengths.2 plainContext,
    (FunctionRegistry.gives_ofTexts rfl).2 rfl⟩

end TextFunctions

end EdmQuery
