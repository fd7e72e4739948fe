import EdmQuery.Proofs.TopLevel

set_option autoImplicit false

namespace EdmQuery

namespace RequestContext

/-- No beginning of a text closes more parentheses than it opens, and the whole closes them all. -/
structure IsBalanced (text : List Char) : Prop where
  within : ∀ before, before <+: text → before.count ')' ≤ before.count '('
  total : text.count ')' = text.count '('

/-- Wherever the separator stands in a text, a parenthesis in front of it is still open. -/
def HasNoneOutside (separator : Char) (text : List Char) : Prop :=
  ∀ before after, text = before ++ separator :: after → before.count ')' < before.count '('

/-- What is read behind some open parentheses closes all of them and all that it opens, and at no
place more than are open there. -/
structure Closes (opened : Nat) (text : List Char) : Prop where
  within : ∀ before, before <+: text → before.count ')' ≤ opened + before.count '('
  total : text.count ')' = opened + text.count '('

/-- A whole piece, or what is left of it behind some open parentheses. -/
structure IsPiece (separator : Char) (opened : Nat) (text : List Char) : Prop where
  closes : Closes opened text
  inside : ∀ before after, text = before ++ separator :: after →
    before.count ')' < opened + before.count '('

variable {separator char : Char} {opened now : Nat} {text rest : List Char}

theorem closes_zero_iff : Closes 0 text ↔ IsBalanced text := by
  constructor
  · intro ⟨within, total⟩
    simp only [Nat.zero_add] at within total
    exact ⟨within, total⟩
  · intro ⟨within, total⟩
    constructor
    · simpa only [Nat.zero_add] using within
    · simpa only [Nat.zero_add] using total

theorem isPiece_zero_iff :
    IsPiece separator 0 text ↔ IsBalanced text ∧ HasNoneOutside separator text := by
  constructor
  · intro ⟨closes, inside⟩
    simp only [Nat.zero_add] at inside
    exact ⟨closes_zero_iff.1 closes, inside⟩
  · intro ⟨balanced, inside⟩
    constructor
    · exact closes_zero_iff.2 balanced
    · intro before after split
      rw [Nat.zero_add]
      exact inside before after split

/-- What is open behind a character and what is closed by it was open before, or is opened by it. -/
theorem balance_of_openedBehind? (behind : openedBehind? opened char = some now)
    (before : List Char) :
    now + before.count '(' + (char :: before).count ')' =
      opened + (char :: before).count '(' + before.count ')' := by
  rw [openedBehind?] at behind
  split at behind
  · rename_i isOpen
    subst isOpen
    cases behind
    simp only [List.count_cons_self, List.count_cons_of_ne (show '(' ≠ ')' by decide)]
    omega
  · rename_i noOpen
    split at behind
    · rename_i isClose
      subst isClose
      split at behind
      · cases behind
      · cases behind
        simp only [List.count_cons_self, List.count_cons_of_ne (show ')' ≠ '(' by decide)]
        omega
    · rename_i noClose
      cases behind
      simp only [List.count_cons_of_ne noOpen, List.count_cons_of_ne noClose]

theorem openedBehind?_eq_none (behind : openedBehind? opened char = none) :
    char = ')' ∧ opened = 0 := by
  rw [openedBehind?] at behind
  split at behind
  · cases behind
  · split at behind
    · rename_i isClose
      split at behind
      · rename_i noneOpen
        exact ⟨isClose, noneOpen⟩
      · cases behind
    · cases behind

theorem closes_nil : Closes opened [] ↔ opened = 0 := by
  constructor
  · intro closes
    have total := closes.total
    simp only [List.count_nil] at total
    omega
  · rintro rfl
    constructor
    · intro before start
      rw [List.prefix_nil.1 start]
      exact Nat.le_refl _
    · rfl

theorem closes_cons (behind : openedBehind? opened char = some now) :
    Closes opened (char :: rest) ↔ Closes now rest := by
  have balance := balance_of_openedBehind? behind
  constructor
  · intro closes
    constructor
    · intro before start
      have bound := closes.within (char :: before) (List.cons_prefix_cons.2 ⟨rfl, start⟩)
      have same := balance before
      omega
    · have total := closes.total
      have same := balance rest
      omega
  · intro closes
    constructor
    · intro before start
      rcases List.prefix_cons_iff.1 start with rfl | ⟨others, rfl, startBehind⟩
      · simp only [List.count_nil, Nat.zero_le]
      · have bound := closes.within others startBehind
        have same := balance others
        omega
    · have total := closes.total
      have same := balance rest
      omega

theorem not_closes_cons (behind : openedBehind? opened char = none) :
    ¬ Closes opened (char :: rest) := by
  intro closes
  obtain ⟨rfl, rfl⟩ := openedBehind?_eq_none behind
  have bound := closes.within [')'] (List.cons_prefix_cons.2 ⟨rfl, List.nil_prefix⟩)
  exact absurd bound (by decide)

theorem isPiece_nil : IsPiece separator 0 [] := by
  constructor
  · exact closes_nil.2 rfl
  · intro before after split
    cases before <;> cases split

theorem isPiece_cons (whole : char ≠ separator ∨ opened ≠ 0)
    (behind : openedBehind? opened char = some now) :
    IsPiece separator opened (char :: rest) ↔ IsPiece separator now rest := by
  have balance := balance_of_openedBehind? behind
  constructor
  · intro piece
    constructor
    · exact (closes_cons behind).1 piece.closes
    · intro before after split
      have bound := piece.inside (char :: before) after (by rw [split, List.cons_append])
      have same := balance before
      omega
  · intro piece
    constructor
    · exact (closes_cons behind).2 piece.closes
    · intro before after split
      cases before with
      | nil =>
        cases split
        have someOpen : opened ≠ 0 := whole.resolve_left fun other => other rfl
        simp only [List.count_nil]
        omega
      | cons first others =>
        cases split
        have bound := piece.inside others after rfl
        have same := balance others
        omega

theorem splitTopLevel?_of_none (behind : openedBehind? opened char = none) :
    splitTopLevel? separator opened (char :: rest) = none := by
  obtain ⟨rfl, rfl⟩ := openedBehind?_eq_none behind
  rw [splitTopLevel?, if_neg fun cut => cut.2.2.2 rfl]
  rfl

/-- A text is cut just if its parentheses are closed. -/
theorem isSome_splitTopLevel?_iff :
    (splitTopLevel? separator opened text).isSome ↔ Closes opened text := by
  induction text generalizing opened with
  | nil =>
    rw [closes_nil]
    cases opened <;> simp [splitTopLevel?]
  | cons char rest ih =>
    -- a separator that cuts, a parenthesis that closes too much, and any other character
    by_cases cut : char = separator ∧ opened = 0 ∧ char ≠ '(' ∧ char ≠ ')'
    · obtain ⟨rfl, rfl, noOpen, noClose⟩ := cut
      rw [splitTopLevel?_separator noOpen noClose, Option.isSome_map, ih,
        closes_cons (openedBehind?_self noOpen noClose)]
    · cases behind : openedBehind? opened char with
      | none =>
        rw [splitTopLevel?_of_none behind]
        exact iff_of_false Bool.false_ne_true (not_closes_cons behind)
      | some now => rw [splitTopLevel?_cons cut behind, Option.isSome_map, ih, closes_cons behind]

/-- Pieces with separators between them begin as the first piece does. -/
theorem intercalate_cons (separator char : Char) (piece : List Char) (others : List (List Char)) :
    [separator].intercalate ((char :: piece) :: others) =
      char :: [separator].intercalate (piece :: others) := by
  cases others with
  | nil => rw [List.intercalate_singleton, List.intercalate_singleton]
  | cons next others =>
    rw [List.intercalate_cons_cons, List.intercalate_cons_cons, List.cons_append, List.cons_append]

section

variable (noOpen : separator ≠ '(') (noClose : separator ≠ ')')

include noOpen noClose

/-- What a text is cut into are pieces that make it up. Only the first of them may close parentheses
that were open before. -/
theorem isPiece_of_splitTopLevel? {pieces : List (List Char)}
    (cut : splitTopLevel? separator opened text = some pieces) :
    ∃ piece others, pieces = piece :: others ∧ IsPiece separator opened piece ∧
      (∀ other ∈ others, IsPiece separator 0 other) ∧ [separator].intercalate pieces = text := by
  induction text generalizing opened pieces with
  | nil =>
    cases opened with
    | zero =>
      cases cut
      exact ⟨[], [], rfl, isPiece_nil, List.forall_mem_nil _, rfl⟩
    | succ opened => cases cut
  | cons char rest ih =>
    by_cases here : char = separator ∧ opened = 0 ∧ char ≠ '(' ∧ char ≠ ')'
    · obtain ⟨rfl, rfl, -⟩ := here
      rw [splitTopLevel?_separator noOpen noClose] at cut
      obtain ⟨later, cutLater, rfl⟩ := Option.map_eq_some_iff.1 cut
      obtain ⟨piece, others, rfl, first, more, joined⟩ := ih cutLater
      refine ⟨[], piece :: others, rfl, isPiece_nil, List.forall_mem_cons.2 ⟨first, more⟩, ?_⟩
      rw [List.intercalate_cons_cons, joined, List.nil_append, List.singleton_append]
    · cases behind : openedBehind? opened char with
      | none =>
        rw [splitTopLevel?_of_none behind] at cut
        cases cut
      | some now =>
        rw [splitTopLevel?_cons here behind] at cut
        obtain ⟨later, cutLater, rfl⟩ := Option.map_eq_some_iff.1 cut
        obtain ⟨piece, others, rfl, first, more, joined⟩ := ih cutLater
        -- a separator that does not cut stands inside of parentheses, as it is none of them itself
        have whole : char ≠ separator ∨ opened ≠ 0 := by
          by_contra both
          rw [not_or, not_not, not_not] at both
          obtain ⟨rfl, rfl⟩ := both
          exact here ⟨rfl, rfl, noOpen, noClose⟩
        refine ⟨char :: piece, others, rfl, (isPiece_cons whole behind).2 first, more, ?_⟩
        rw [List.modifyHead_cons, intercalate_cons, joined]

end

/-- What is left of a piece is not cut, whatever stands behind it. -/
theorem IsPiece.splitTopLevel?_append (piece : IsPiece separator opened text) (rest : List Char) :
    splitTopLevel? separator opened (text ++ rest) =
      (splitTopLevel? separator 0 rest).map (List.modifyHead (text ++ ·)) := by
  induction text generalizing opened with
  | nil =>
    obtain rfl := closes_nil.1 piece.closes
    exact passes_nil rest
  | cons char others ih =>
    -- nothing stands in front of the first character, so a separator there needs an open parenthesis
    have whole : char ≠ separator ∨ opened ≠ 0 := by
      by_cases same : char = separator
      · have someOpen := piece.inside [] others (by rw [same, List.nil_append])
        simp only [List.count_nil] at someOpen
        exact .inr (by omega)
      · exact .inl same
    cases behind : openedBehind? opened char with
    | none => exact absurd piece.closes (not_closes_cons behind)
    | some now =>
      have later := (isPiece_cons whole behind).1 piece
      have uncut : ¬ (char = separator ∧ opened = 0 ∧ char ≠ '(' ∧ char ≠ ')') :=
        fun cut => whole.elim (· cut.1) (· cut.2.1)
      rw [List.cons_append, splitTopLevel?_cons uncut behind, ih later, Option.map_map]
      simp only [Function.comp_def, List.modifyHead_modifyHead, List.cons_append]

theorem IsPiece.passes (piece : IsPiece separator 0 text) : Passes separator 0 text :=
  piece.splitTopLevel?_append

/-- Pieces with separators between them are cut there again. -/
theorem splitTopLevel?_intercalate (noOpen : separator ≠ '(') (noClose : separator ≠ ')')
    {pieces : List (List Char)} (some : pieces ≠ [])
    (all : ∀ piece ∈ pieces, IsPiece separator 0 piece) :
    splitTopLevel? separator 0 ([separator].intercalate pieces) = .some pieces := by
  have joined : Joined separator Eq pieces ([separator].intercalate pieces) := .intercalate some
  obtain ⟨found, same, cut⟩ := joined.splitTopLevel?_eq noOpen noClose
    fun piece among text same => same ▸ (all piece among).passes
  rw [List.forall₂_eq_eq_eq] at same
  rw [cut, same]

theorem splitTopLevel_eq_ok_iff {option : String} {pieces : List (List Char)} :
    splitTopLevel separator option text = .ok pieces ↔
      splitTopLevel? separator 0 text = some pieces := by
  rw [splitTopLevel]
  cases splitTopLevel? separator 0 text with
  | none => exact iff_of_false nofun nofun
  | some found => rw [Except.ok.injEq, Option.some.injEq]

/-- A text is cut at a separator just if its parentheses are balanced. What it is cut into are the
balanced texts without a separator outside of parentheses that make it up with separators between
them, and there is no other way to make it up of such texts. -/
theorem splitTopLevel_ok_iff (noOpen : separator ≠ '(') (noClose : separator ≠ ')')
    (option : String) (text : List Char) :
    ((∃ pieces, splitTopLevel separator option text = .ok pieces) ↔ IsBalanced text) ∧
    ∀ pieces, splitTopLevel separator option text = .ok pieces ↔
      pieces ≠ [] ∧ (∀ piece ∈ pieces, IsBalanced piece ∧ HasNoneOutside separator piece) ∧
        [separator].intercalate pieces = text := by
  simp only [splitTopLevel_eq_ok_iff, ← isPiece_zero_iff]
  refine ⟨?_, fun pieces => ⟨fun cut => ?_, ?_⟩⟩
  · rw [← closes_zero_iff, ← isSome_splitTopLevel?_iff, Option.isSome_iff_exists]
  · obtain ⟨piece, others, rfl, first, more, joined⟩ :=
      isPiece_of_splitTopLevel? noOpen noClose cut
    exact ⟨List.cons_ne_nil _ _, List.forall_mem_cons.2 ⟨first, more⟩, joined⟩
  · rintro ⟨some, all, rfl⟩
    exact splitTopLevel?_intercalate noOpen noClose some all

/-- Commas inside of parentheses do not count, and two that follow each other have an empty piece
between them. -/
theorem splitTopLevel_ok_iff_nested :
    let text := "gate($select=ñ,rank;$expand=crew(name,id)),,pilot".toList
    let pieces := ["gate($select=ñ,rank;$expand=crew(name,id))".toList, [], "pilot".toList]
    ',' ≠ '(' ∧ ',' ≠ ')' ∧ splitTopLevel ',' "$expand" text = .ok pieces ∧ IsBalanced text ∧
      (∀ piece ∈ pieces, IsBalanced piece ∧ HasNoneOutside ',' piece) ∧
      [','].intercalate pieces = text := by
  intro text pieces
  have cut : splitTopLevel ',' "$expand" text = .ok pieces := by
    dsimp only [text, pieces]
    cbv
  have exactly := splitTopLevel_ok_iff (show ',' ≠ '(' by decide) (show ',' ≠ ')' by decide)
    "$expand" text
  exact ⟨by decide, by decide, cut, exactly.1.1 ⟨pieces, cut⟩, ((exactly.2 pieces).1 cut).2⟩

end RequestContext

end EdmQuery
