import EdmQuery.Proofs.Words
import EdmQuery.Text.Category

set_option autoImplicit false

namespace EdmQuery.Text

namespace CharRanges

variable {ranges : CharRanges}

/-- What the search finds is a range that contains the number. -/
theorem contains_of_findBetween? {code low high index : Nat}
    (found : findBetween? ranges code low high = some index) :
    ∃ range ∈ ranges, range.contains code = true := by
  fun_induction findBetween? ranges code low high with
  | case1 => cases found
  | case2 low high below middle range there before ih => exact ih found
  | case3 low high below middle range there before behind ih => exact ih found
  | case4 low high below middle range there before behind inside =>
    exact ⟨range, Array.mem_of_getElem? there, inside⟩
  | case5 => cases found
  | case6 => cases found

/-- Whether the ranges that a row spells have none of some numbers. -/
def rowAvoids (codes : List Nat) (row : List Char) : Bool :=
  (pieces ' ' row).all fun entry => codes.all fun code => !(CharRange.read entry).contains code

theorem not_contains_ofRows {rows : List String} {codes : List Nat}
    (avoid : ∀ row ∈ rows, rowAvoids codes row.toList = true) {char : Char}
    (inside : char.toNat ∈ codes) : (ofRows rows).contains char = false := by
  refine Bool.eq_false_iff.2 fun found => ?_
  obtain ⟨index, found⟩ := Option.isSome_iff_exists.1 found
  obtain ⟨range, among, holds⟩ := contains_of_findBetween? found
  rw [ofRows, List.mem_toArray] at among
  obtain ⟨entry, spelled, rfl⟩ := List.mem_map.1 among
  obtain ⟨row, listed, piece⟩ := List.mem_flatMap.1 spelled
  have avoids := List.all_eq_true.1 (List.all_eq_true.1 (avoid row listed) entry piece) _ inside
  rw [holds] at avoids
  cases avoids

/-- A row is looked at by its characters, so that they need not be read out of it. -/
theorem rowAvoids_ofList {codes : List Nat} (row : List Char)
    (avoids : rowAvoids codes row = true) : rowAvoids codes (String.ofList row).toList = true := by
  rwa [String.toList_ofList]

end CharRanges

/-- The numbers of the white space beyond ASCII. -/
def wideBlanks : List Nat :=
  [0x85, 0xa0, 0x1680, 0x2000, 0x2001, 0x2002, 0x2003, 0x2004, 0x2005, 0x2006, 0x2007, 0x2008,
    0x2009, 0x200a, 0x2028, 0x2029, 0x202f, 0x205f, 0x3000]

theorem mem_wideBlanks {char : Char} (blank : isBlank char = true) (wide : 128 ≤ char.toNat) :
    char.toNat ∈ wideBlanks := by
  simp only [isBlank, Bool.or_eq_true, Bool.and_eq_true, decide_eq_true_eq, beq_iff_eq] at blank
  simp only [wideBlanks, List.mem_cons, List.not_mem_nil]
  omega

theorem alphabeticTable_of_mem_wideBlanks {char : Char} (inside : char.toNat ∈ wideBlanks) :
    alphabeticTable.contains char = false := by
  rw [alphabeticTable]
  refine CharRanges.not_contains_ofRows ?_ inside
  simp only [List.forall_mem_cons]
  repeat refine ⟨CharRanges.rowAvoids_ofList _ (by decide +kernel), ?_⟩
  exact fun row none => by cases none

theorem numberTables_of_mem_wideBlanks {char : Char} (inside : char.toNat ∈ wideBlanks) :
    ∀ entry ∈ categoryTables, entry.1.startsWith "N" = true → entry.2.contains char = false := by
  have avoids : ∀ rows : List String,
      (∀ row ∈ rows, CharRanges.rowAvoids wideBlanks row.toList = true) →
        (CharRanges.ofRows rows).contains char = false :=
    fun rows avoid => CharRanges.not_contains_ofRows avoid inside
  rw [categoryTables]
  simp only [List.forall_mem_cons]
  -- the tables of letters and of marks, those of numbers, and all the others
  iterate 8 refine ⟨fun starts => absurd starts (by simp), ?_⟩
  iterate 3
    refine ⟨fun _ => avoids _ ?_, ?_⟩
    · simp only [List.forall_mem_cons]
      repeat refine ⟨CharRanges.rowAvoids_ofList _ (by decide +kernel), ?_⟩
      exact fun row none => by cases none
  iterate 18 refine ⟨fun starts => absurd starts (by simp), ?_⟩
  exact fun entry none => by cases none

/-- No letter and no number is white space. -/
theorem isAlphanumeric_of_isBlank {char : Char} (blank : isBlank char = true) :
    isAlphanumeric char = false := by
  by_cases ascii : char.toNat < 128
  · have codes : ∀ code < 128, isBlank (Char.ofNat code) = true →
        isAlphanumeric (Char.ofNat code) = false := by decide
    exact forall_ascii (fun char => isBlank char = true → isAlphanumeric char = false) codes char
      ascii blank
  · have inside := mem_wideBlanks blank (Nat.not_lt.1 ascii)
    rw [isAlphanumeric, isAlphabetic, isNumeric, if_neg ascii, if_neg ascii,
      alphabeticTable_of_mem_wideBlanks inside, Bool.false_or, List.any_eq_false]
    intro ranges among
    obtain ⟨entry, listed, rfl⟩ := List.mem_map.1 among
    obtain ⟨listed, starts⟩ := List.mem_filter.1 listed
    rw [numberTables_of_mem_wideBlanks inside entry listed starts]
    exact Bool.false_ne_true

/-- A text of nothing but white space. -/
def IsGap (text : List Char) : Prop := ∀ char ∈ text, isBlank char = true

def StartsTight (text : List Char) : Prop :=
  ∃ char rest, text = char :: rest ∧ isBlank char = false

def EndsTight (text : List Char) : Prop :=
  ∃ before char, text = before ++ [char] ∧ isBlank char = false

/-- A text that neither starts nor ends with white space. -/
structure IsTight (text : List Char) : Prop where
  starts : StartsTight text
  ends : EndsTight text

/-- What a text is with white space around it. -/
def Spaced (core text : List Char) : Prop :=
  ∃ before after, IsGap before ∧ IsGap after ∧ text = before ++ core ++ after

variable {before core text after : List Char}

theorem isGap_nil : IsGap [] := fun _ none => by cases none

theorem spaced_self (core : List Char) : Spaced core core :=
  ⟨[], [], isGap_nil, isGap_nil, (List.append_nil core).symm⟩

theorem StartsTight.append (tight : StartsTight text) (after : List Char) :
    StartsTight (text ++ after) := by
  obtain ⟨char, rest, rfl, solid⟩ := tight
  exact ⟨char, rest ++ after, List.cons_append, solid⟩

theorem EndsTight.append (before : List Char) (tight : EndsTight text) :
    EndsTight (before ++ text) := by
  obtain ⟨others, char, rfl, solid⟩ := tight
  exact ⟨before ++ others, char, (List.append_assoc ..).symm, solid⟩

/-- A text that is not empty and has no white space in it. -/
theorem isTight_of_solid (some : text ≠ []) (solid : ∀ char ∈ text, isBlank char = false) :
    IsTight text := by
  constructor
  · obtain ⟨char, rest, rfl⟩ := List.exists_cons_of_ne_nil some
    exact ⟨char, rest, rfl, solid char List.mem_cons_self⟩
  · have last := List.dropLast_concat_getLast some
    exact ⟨_, _, last.symm, solid _ (List.getLast_mem some)⟩

theorem trimStart_gap_append (gap : IsGap before) (tight : StartsTight text) :
    trimStart (before ++ text) = text := by
  obtain ⟨char, rest, rfl, solid⟩ := tight
  exact (Parsing.stopsAt_cons solid).dropWhile_append gap

theorem trimEnd_append_gap (gap : IsGap after) (tight : EndsTight text) :
    trimEnd (text ++ after) = text := by
  obtain ⟨others, char, rfl, solid⟩ := tight
  have back : IsGap after.reverse := fun char inside => gap char (List.mem_reverse.1 inside)
  have reversed :
      (others ++ [char] ++ after).reverse = after.reverse ++ char :: others.reverse := by
    simp
  rw [trimEnd, reversed, (Parsing.stopsAt_cons solid).dropWhile_append back, List.reverse_cons,
    List.reverse_reverse]

/-- White space around a text is trimmed away, and nothing of the text itself. -/
theorem Spaced.trim_eq (spaced : Spaced core text) (tight : IsTight core) : trim text = core := by
  obtain ⟨before, after, gapBefore, gapAfter, rfl⟩ := spaced
  rw [trim, List.append_assoc, trimStart_gap_append gapBefore (tight.starts.append after),
    trimEnd_append_gap gapAfter tight.ends]

end EdmQuery.Text
