import EdmQuery.Proofs.LiteralText
import EdmQuery.Proofs.OperatorText

set_option autoImplicit false

namespace EdmQuery

namespace Parsing

/-- The characters that could make another token of a word in front of them. -/
def continuesWord (char : Char) : Bool :=
  isNamePart char || Literal.isTokenChar char || char = '\''

/-- A text that leaves a word in front of it as it is. -/
abbrev EndsWord (rest : List Char) : Prop := StopsAt continuesWord rest

section

variable {rest : List Char}

theorem StopsAt.mono {inClass smaller : Char → Bool} (stops : StopsAt inClass rest)
    (sub : ∀ char, smaller char = true → inClass char = true) : StopsAt smaller rest := by
  intro char inside
  rw [Bool.eq_false_iff]
  intro outside
  have atHead := stops char inside
  rw [sub char outside] at atHead
  cases atHead

theorem EndsWord.stopsAt_namePart (ends : EndsWord rest) : StopsAt isNamePart rest := by
  apply ends.mono
  intro char part
  rw [continuesWord, part, Bool.true_or, Bool.true_or]

theorem EndsWord.stopsAt_tokenChar (ends : EndsWord rest) :
    StopsAt Literal.isTokenChar rest := by
  apply ends.mono
  intro char part
  rw [continuesWord, part, Bool.or_true, Bool.true_or]

theorem EndsWord.unquoted (ends : EndsWord rest) (tail : List Char) : rest ≠ '\'' :: tail := by
  rintro rfl
  have atHead := ends '\'' rfl
  rw [continuesWord, decide_eq_true rfl, Bool.or_true] at atHead
  cases atHead

theorem Delimited.endsWord (delimited : Delimited rest) : EndsWord rest :=
  delimited.stopsAt (by decide) (by decide) (by decide)

end

theorem isGap_of_nameStart {char : Char} (start : isNameStart char = true) :
    isGap char = false := by
  rw [Bool.eq_false_iff]
  intro gap
  have codes : ∀ code < 128, isGap (Char.ofNat code) = true →
      isNameStart (Char.ofNat code) = false := by decide
  have ascii : char.toNat < 128 := by
    simp only [isGap, Bool.or_eq_true, decide_eq_true_eq] at gap
    rcases gap with ((rfl | rfl) | rfl) | rfl <;> decide
  have other := forall_ascii (fun char => isGap char = true → isNameStart char = false) codes char
    ascii gap
  rw [start] at other
  cases other

theorem ne_of_nameStart {char other : Char} (start : isNameStart char = true)
    (noStart : isNameStart other = false) : char ≠ other := by
  rintro rfl
  rw [start] at noStart
  cases noStart

/-- A name is made of a first character that starts names, and others. -/
theorem isName_cons {word : String} (named : isName word = true) :
    ∃ first others, word.toList = first :: others ∧ isNameStart first = true := by
  obtain ⟨first, others, spelled, start, -⟩ := (isName_iff word).1 named
  exact ⟨first, others, spelled, start⟩

theorem skipGap_name {word : String} (named : isName word = true) (rest : List Char) :
    skipGap (word.toList ++ rest) = word.toList ++ rest := by
  obtain ⟨first, others, spelled, start⟩ := isName_cons named
  rw [spelled, List.cons_append, skipGap_cons (isGap_of_nameStart start)]

end Parsing

namespace Node

open Parsing

/-- A word that begins a path or a call. -/
def isLeadingWord (word : String) : Bool := isName word && !operandWords.contains word

theorem isLeadingWord_of_isFreeName {word : String} (free : isFreeName word = true) :
    isLeadingWord word = true := by
  rw [isFreeName, Bool.and_eq_true] at free
  exact free.1

theorem ne_root_of_isFreeName {word : String} (free : isFreeName word = true) : word ≠ "$it" := by
  rw [isFreeName, Bool.and_eq_true, bne_iff_ne] at free
  exact free.2

theorem isName_of_isLeadingWord {word : String} (leading : isLeadingWord word = true) :
    isName word = true := by
  rw [isLeadingWord, Bool.and_eq_true] at leading
  exact leading.1

theorem isLeadingWord_root : isLeadingWord "$it" = true := by decide

theorem lookup_of_isLeadingWord {word : String} (leading : isLeadingWord word = true) :
    Literal.wordLiterals.lookup word = none := by
  rw [isLeadingWord, Bool.and_eq_true, Bool.not_eq_true'] at leading
  rw [List.lookup_eq_none_iff]
  intro entry inside
  rw [bne_iff_ne]
  rintro rfl
  have listed : ∀ entry ∈ Literal.wordLiterals, operandWords.contains entry.1 = true := by decide
  rw [listed entry inside] at leading
  cases leading.2

theorem ne_not_of_isLeadingWord {word : String} (leading : isLeadingWord word = true) :
    word ≠ "not" := by
  rintro rfl
  exact absurd leading (by decide)

end Node

namespace Filter

open Parsing Node

section

variable {deeper : Option Nested} {word : String} {rest : List Char}

/-- A leading word is neither `not` nor a literal nor a group, so a path or a call begins. -/
theorem keyword?_not_of_leading (leading : isLeadingWord word = true) (ends : EndsWord rest) :
    keyword? "not" (skipGap (word.toList ++ rest)) = none := by
  have named := isName_of_isLeadingWord leading
  rw [skipGap_name named]
  apply keyword?_eq_none
  intro name behind read
  rw [name?_append named ends.stopsAt_namePart] at read
  cases read
  exact ne_not_of_isLeadingWord leading

theorem primary_of_leading (leading : isLeadingWord word = true) (ends : EndsWord rest) :
    primary deeper (word.toList ++ rest) = pathOrCall deeper (word.toList ++ rest) := by
  have named := isName_of_isLeadingWord leading
  have noLiteral : Literal.read? (word.toList ++ rest) = none :=
    Literal.read?_eq_none named (lookup_of_isLeadingWord leading) ends.stopsAt_namePart
      ends.stopsAt_tokenChar ends.unquoted
  obtain ⟨first, others, spelled, start⟩ := isName_cons named
  have notGroup : first ≠ '(' := ne_of_nameStart start (by decide)
  rw [primary, skipGap_name named]
  split
  · rename_i behind same
    rw [spelled, List.cons_append, List.cons.injEq] at same
    exact absurd same.1 notGroup
  · rw [noLiteral]

theorem minus_of_leading (leading : isLeadingWord word = true) (ends : EndsWord rest) :
    minus deeper (word.toList ++ rest) = pathOrCall deeper (word.toList ++ rest) := by
  have named := isName_of_isLeadingWord leading
  obtain ⟨first, others, spelled, start⟩ := isName_cons named
  have noSign : first ≠ '-' := ne_of_nameStart start (by decide)
  rw [minus, skipGap_name named]
  split
  · rename_i behind same
    rw [spelled, List.cons_append, List.cons.injEq] at same
    exact absurd same.1 noSign
  · exact primary_of_leading leading ends

/-- The segments of a path behind its first word. -/
def spellSegments (segments : List String) : List Char :=
  segments.flatMap fun segment => '/' :: segment.toList

theorem joinSlashes_cons (first : String) (others : List String) :
    PropertyPath.joinSlashes (first :: others) = first.toList ++ spellSegments others := by
  induction others generalizing first with
  | nil => rw [PropertyPath.joinSlashes, spellSegments, List.flatMap_nil, List.append_nil]
  | cons second others ih =>
    rw [PropertyPath.joinSlashes, ih]
    · rfl
    · intro none
      cases none

theorem spellVariable_eq (name : String) (path : PropertyPath) :
    spellVariable name path = name.toList ++ spellSegments path.segments := by
  obtain ⟨segments⟩ := path
  cases segments with
  | nil => rw [spellSegments, List.flatMap_nil, List.append_nil]; rfl
  | cons first others =>
    show name.toList ++ '/' :: PropertyPath.spell ⟨first :: others⟩ = _
    rw [PropertyPath.spell, if_neg (List.cons_ne_nil first others), joinSlashes_cons]
    rfl

theorem length_le_spellSegments (segments : List String) :
    segments.length ≤ (spellSegments segments).length := by
  induction segments with
  | nil => exact Nat.le_refl 0
  | cons segment others ih =>
    rw [spellSegments] at ih ⊢
    rw [List.flatMap_cons, List.length_append, List.length_cons, List.length_cons]
    omega

theorem endsWord_slash (rest : List Char) : EndsWord ('/' :: rest) := stopsAt_cons (by decide)

theorem endsWord_open (rest : List Char) : EndsWord ('(' :: rest) := stopsAt_cons (by decide)

theorem endsWord_segments (segments : List String) (ends : EndsWord rest) :
    EndsWord (spellSegments segments ++ rest) := by
  cases segments with
  | nil => exact ends
  | cons segment others => exact endsWord_slash _

/-- Segments are gathered one by one. A segment may be called like a lambda, as long as no
parenthesis follows it. -/
theorem pathRest_segments (segments : List String) (named : segments.all isName = true)
    (fuel : Nat) (path : PropertyPath) (ends : EndsWord rest)
    (noCall : ∀ tail, rest ≠ '(' :: tail) :
    pathRest deeper (segments.length + fuel) path (spellSegments segments ++ rest) =
      pathRest deeper fuel ⟨path.segments ++ segments⟩ rest := by
  induction segments generalizing path with
  | nil =>
    rw [List.length_nil, Nat.zero_add, List.append_nil]
    rfl
  | cons segment others ih =>
    rw [List.all_cons, Bool.and_eq_true] at named
    have read : name? (segment.toList ++ (spellSegments others ++ rest)) =
        some (segment, spellSegments others ++ rest) :=
      name?_append named.1 (endsWord_segments others ends).stopsAt_namePart
    have noOpen : ∀ tail, spellSegments others ++ rest ≠ '(' :: tail := by
      cases others with
      | nil => exact noCall
      | cons next later =>
        intro tail same
        cases same
    have text : spellSegments (segment :: others) ++ rest =
        '/' :: (segment.toList ++ (spellSegments others ++ rest)) := by
      rw [spellSegments, List.flatMap_cons, List.cons_append, List.cons_append, List.append_assoc]
      rfl
    have count : (segment :: others).length + fuel = others.length + fuel + 1 := by
      rw [List.length_cons]
      omega
    rw [text, count, pathRest, read]
    dsimp only
    split
    · rename_i body none same
      exact absurd same (noOpen body)
    · rw [ih named.2, PropertyPath.segments_push, List.append_assoc]
      rfl

/-- A path ends where nothing continues it. -/
theorem pathRest_end (fuel : Nat) (path : PropertyPath) (delimited : Delimited rest) :
    pathRest deeper fuel path rest = .ok (.property path, rest) := by
  cases fuel with
  | zero => rfl
  | succ fuel =>
    rw [pathRest]
    intro tail
    exact delimited.head_ne (by decide) tail

theorem lambdaOperator?_keyword (operator : LambdaOperator) :
    lambdaOperator? operator.keyword = some operator := by
  cases operator <;> decide

/-- A path ends where a lambda over it begins. -/
theorem pathRest_lambda (fuel : Nat) (path : PropertyPath) (operator : LambdaOperator)
    (body : List Char) :
    pathRest deeper (fuel + 1) path ('/' :: (operator.keyword.toList ++ '(' :: body)) =
      lambdaBody deeper operator (.property path) body := by
  have named : isName operator.keyword = true := by
    cases operator <;> decide
  rw [pathRest, name?_append named (endsWord_open body).stopsAt_namePart]
  simp only [lambdaOperator?_keyword]

theorem pathOrCall_segments (deeper : Option Nested) {first : String} {segments : List String}
    (free : isFreeName first = true) (named : segments.all isName = true) (ends : EndsWord rest)
    (noCall : ∀ tail, rest ≠ '(' :: tail) :
    ∃ fuel, rest.length ≤ fuel ∧
      pathOrCall deeper (first.toList ++ (spellSegments segments ++ rest)) =
        pathRest deeper fuel ⟨first :: segments⟩ rest := by
  have isNamed := isName_of_isLeadingWord (isLeadingWord_of_isFreeName free)
  have read : name? (first.toList ++ (spellSegments segments ++ rest)) =
      some (first, spellSegments segments ++ rest) :=
    name?_append isNamed (endsWord_segments segments ends).stopsAt_namePart
  have noOpen : ∀ tail, spellSegments segments ++ rest ≠ '(' :: tail := by
    cases segments with
    | nil => exact noCall
    | cons next later =>
      intro tail same
      cases same
  have enough := length_le_spellSegments segments
  obtain ⟨spare, length⟩ : ∃ spare, (spellSegments segments ++ rest).length =
      segments.length + (rest.length + spare) := by
    refine ⟨(spellSegments segments).length - segments.length, ?_⟩
    rw [List.length_append]
    omega
  refine ⟨rest.length + spare, by omega, ?_⟩
  rw [pathOrCall, read]
  simp only [if_neg (ne_root_of_isFreeName free)]
  rw [length, pathRest_segments segments named _ _ ends noCall]
  rfl

/-- A path is read from its first word on, up to what ends it. -/
theorem pathOrCall_path (deeper : Option Nested) {scope : List String} {path : PropertyPath}
    (printable : isPrintablePath scope path = true) (ends : EndsWord rest)
    (noCall : ∀ tail, rest ≠ '(' :: tail) :
    ∃ fuel, rest.length ≤ fuel ∧
      pathOrCall deeper (path.spell ++ rest) = pathRest deeper fuel path rest := by
  obtain ⟨segments⟩ := path
  cases segments with
  | nil =>
    refine ⟨rest.length, Nat.le_refl _, ?_⟩
    show pathOrCall deeper ("$it".toList ++ rest) = _
    rw [pathOrCall, name?_append (by decide) ends.stopsAt_namePart]
    rfl
  | cons first others =>
    simp only [isPrintablePath, Bool.and_eq_true] at printable
    rw [PropertyPath.spell, if_neg (List.cons_ne_nil first others), joinSlashes_cons,
      List.append_assoc]
    exact pathOrCall_segments deeper printable.1.1 printable.2 ends noCall

/-- The first word of a path, and what stands behind it. -/
theorem spell_path {scope : List String} {path : PropertyPath}
    (printable : isPrintablePath scope path = true) :
    ∃ word segments, isLeadingWord word = true ∧
      path.spell = word.toList ++ spellSegments segments := by
  obtain ⟨segments⟩ := path
  cases segments with
  | nil => exact ⟨"$it", [], isLeadingWord_root, rfl⟩
  | cons first others =>
    simp only [isPrintablePath, Bool.and_eq_true] at printable
    refine ⟨first, others, isLeadingWord_of_isFreeName printable.1.1, ?_⟩
    rw [PropertyPath.spell, if_neg (List.cons_ne_nil first others), joinSlashes_cons]

end

end Filter

end EdmQuery
