import Mathlib.Data.List.TakeWhile
import EdmQuery.Proofs.Separators
import EdmQuery.Proofs.TopLevel
import EdmQuery.Proofs.WhiteSpace

set_option autoImplicit false

namespace EdmQuery

open Text RequestContext

/-- Segments of letters, numbers and underscores with slashes between them. -/
def IsPropertyPath (path : String) : Prop :=
  ∃ segments : List (List Char), segments ≠ [] ∧
    (∀ segment ∈ segments, segment ≠ [] ∧
      ∀ char ∈ segment, Text.isAlphanumeric char = true ∨ char = '_') ∧
    path.toList = ['/'].intercalate segments

def IsSelectItem (name : String) : Prop := name = "*" ∨ IsPropertyPath name

/-- A selection as it is written. -/
def SelectText (names : List String) (text : List Char) : Prop :=
  Joined ',' (fun name => Spaced name.toList) names text

mutual

/-- A request that can be written: what it selects is not empty, and no two of its expansions have
the same path. -/
def RequestContext.IsWritable : RequestContext → Prop
  | ⟨select?, expand, level⟩ =>
    (∀ names ∈ select?, names ≠ [] ∧ ∀ name ∈ names, IsSelectItem name) ∧
    (expand.map NavigationRequest.path).Nodup ∧ NavigationRequest.AllWritable expand ∧
    level = .minimal

def NavigationRequest.AllWritable : List NavigationRequest → Prop
  | [] => True
  | ⟨path, options⟩ :: rest =>
    IsPropertyPath path ∧ options.IsWritable ∧ NavigationRequest.AllWritable rest

end

mutual

/-- How many expansions stand in each other at most. -/
def RequestContext.expandLevels : RequestContext → Nat
  | ⟨_, expand, _⟩ => NavigationRequest.levelsOf expand

def NavigationRequest.levelsOf : List NavigationRequest → Nat
  | [] => 0
  | ⟨_, options⟩ :: rest => max (options.expandLevels + 1) (NavigationRequest.levelsOf rest)

end

mutual

/-- An expansion as it is written, with its options between parentheses if it has any. -/
inductive NavigationRequest.Writes : NavigationRequest → List Char → Prop
  | plain {path : String} {text : List Char} (spaced : Spaced path.toList text) :
    NavigationRequest.Writes ⟨path, RequestContext.default⟩ text
  | nested {path : String} {options : RequestContext} {gap inner text : List Char}
    (blank : IsGap gap) (written : RequestContext.Writes options inner)
    (spaced : Spaced (path.toList ++ gap ++ ('(' :: inner ++ [')'])) text) :
    NavigationRequest.Writes ⟨path, options⟩ text

/-- The options of an expansion as they are written. -/
inductive RequestContext.Writes : RequestContext → List Char → Prop
  | select {names : List String} {value text : List Char} (selected : SelectText names value)
    (spaced : Spaced ("$select=".toList ++ value) text) :
    RequestContext.Writes ⟨some names, [], .minimal⟩ text
  | expand {requests : List NavigationRequest} {value text : List Char}
    (expanded : Joined ',' NavigationRequest.Writes requests value)
    (spaced : Spaced ("$expand=".toList ++ value) text) :
    RequestContext.Writes ⟨none, requests, .minimal⟩ text
  | both {names : List String} {requests : List NavigationRequest}
    {selection expansion first second : List Char} (selected : SelectText names selection)
    (spacedFirst : Spaced ("$select=".toList ++ selection) first)
    (expanded : Joined ',' NavigationRequest.Writes requests expansion)
    (spacedSecond : Spaced ("$expand=".toList ++ expansion) second) :
    RequestContext.Writes ⟨some names, requests, .minimal⟩ (first ++ ';' :: second)

end

/-- An expansion that can be written. -/
structure NavigationRequest.IsWritable (request : NavigationRequest) : Prop where
  path : IsPropertyPath request.path
  options : request.options.IsWritable

theorem NavigationRequest.allWritable_iff {requests : List NavigationRequest} :
    NavigationRequest.AllWritable requests ↔ ∀ request ∈ requests, request.IsWritable := by
  induction requests with
  | nil => simp only [AllWritable, List.not_mem_nil, false_implies, implies_true]
  | cons request rest ih =>
    obtain ⟨path, options⟩ := request
    rw [AllWritable, ih, List.forall_mem_cons, ← and_assoc]
    exact and_congr_left fun _ => ⟨fun both => ⟨both.1, both.2⟩, fun valid => ⟨valid.1, valid.2⟩⟩

namespace RequestContext

variable {context : RequestContext}

theorem IsWritable.selected (valid : context.IsWritable) {names : List String}
    (selects : context.select? = some names) :
    names ≠ [] ∧ ∀ name ∈ names, IsSelectItem name := by
  obtain ⟨select?, expand, level⟩ := context
  exact valid.1 names selects

theorem IsWritable.distinct (valid : context.IsWritable) :
    (context.expand.map NavigationRequest.path).Nodup := by
  obtain ⟨select?, expand, level⟩ := context
  exact valid.2.1

theorem IsWritable.expanded (valid : context.IsWritable) :
    ∀ request ∈ context.expand, request.IsWritable := by
  obtain ⟨select?, expand, level⟩ := context
  exact NavigationRequest.allWritable_iff.1 valid.2.2.1

theorem expandLevels_eq (context : RequestContext) :
    context.expandLevels = NavigationRequest.levelsOf context.expand := by
  cases context
  rfl

end RequestContext

/-- The options of an expansion have a level less than the list that it stands in. -/
theorem NavigationRequest.expandLevels_lt {requests : List NavigationRequest}
    {request : NavigationRequest} (among : request ∈ requests) :
    request.options.expandLevels < NavigationRequest.levelsOf requests := by
  induction requests with
  | nil => cases among
  | cons held rest ih =>
    obtain ⟨path, options⟩ := held
    rw [levelsOf]
    rcases List.mem_cons.1 among with rfl | later
    · exact Nat.lt_of_lt_of_le (Nat.lt_succ_self _) (Nat.le_max_left _ _)
    · exact Nat.lt_of_lt_of_le (ih later) (Nat.le_max_right _ _)

/-- What holds of an expansion as soon as it holds of those in its options holds of all. -/
theorem NavigationRequest.induction_expand {holds : NavigationRequest → Prop}
    (step : ∀ request : NavigationRequest,
      (∀ inner ∈ request.options.expand, holds inner) → holds request)
    (request : NavigationRequest) : holds request := by
  induction levels : request.options.expandLevels using Nat.strongRecOn generalizing request with
  | ind levels ih =>
    refine step request fun inner among => ih _ ?_ inner rfl
    have deeper := expandLevels_lt among
    rwa [← RequestContext.expandLevels_eq, levels] at deeper

/-- Characters that neither enclose anything nor stand between items or options. -/
def IsFree (text : List Char) : Prop := ∀ char ∈ text, char ∉ ['(', ')', ',', ';']

section

variable {path name : String} {separator : Char} {opened : Nat} {core text value : List Char}

theorem IsFree.passes (free : IsFree text) (between : separator ∈ [',', ';']) :
    RequestContext.Passes separator opened text := by
  refine RequestContext.passes_of_all fun char inside => ?_
  have outside := free char inside
  refine RequestContext.passes_char ?_ ?_ (.inl ?_)
  · rintro rfl
    exact outside (by decide)
  · rintro rfl
    exact outside (by decide)
  · rintro rfl
    exact outside (List.mem_cons_of_mem _ (List.mem_cons_of_mem _ between))

theorem Text.IsGap.isFree (gap : IsGap text) : IsFree text := by
  have solid : ∀ char ∈ ['(', ')', ',', ';'], isBlank char = false :=
    forall_mem_of_all (by decide)
  intro char inside special
  have blank := gap char inside
  rw [solid char special] at blank
  cases blank

/-- Each character of a path is a letter or a number, or one of two others. -/
theorem IsPropertyPath.mem (valid : IsPropertyPath path) {char : Char}
    (inside : char ∈ path.toList) :
    Text.isAlphanumeric char = true ∨ char = '_' ∨ char = '/' := by
  obtain ⟨segments, -, solid, spelled⟩ := valid
  rw [spelled] at inside
  rcases mem_intercalate inside with rfl | ⟨segment, among, inside⟩
  · exact .inr (.inr rfl)
  · exact ((solid segment among).2 char inside).imp_right .inl

theorem IsPropertyPath.isFree (valid : IsPropertyPath path) : IsFree path.toList := by
  have others : ∀ char ∈ ['(', ')', ',', ';'],
      Text.isAlphanumeric char = false ∧ char ≠ '_' ∧ char ≠ '/' :=
    forall_mem_of_all (by decide)
  intro char inside special
  obtain ⟨notName, noLine, noSlash⟩ := others char special
  rcases valid.mem inside with name | line | slash
  · rw [notName] at name
    cases name
  · exact noLine line
  · exact noSlash slash

theorem IsPropertyPath.isTight (valid : IsPropertyPath path) : IsTight path.toList := by
  refine isTight_of_solid ?_ fun char inside => ?_
  · obtain ⟨segments, some, solid, spelled⟩ := valid
    obtain ⟨segment, rest, rfl⟩ := List.exists_cons_of_ne_nil some
    have first := (solid segment List.mem_cons_self).1
    rw [spelled]
    cases rest with
    | nil => rwa [List.intercalate_singleton]
    | cons next others =>
      rw [List.intercalate_cons_cons, List.append_assoc]
      exact List.append_ne_nil_of_left_ne_nil first _
  · refine Bool.eq_false_iff.2 fun blank => ?_
    rcases valid.mem inside with name | rfl | rfl
    · rw [isAlphanumeric_of_isBlank blank] at name
      cases name
    · cases blank
    · cases blank

theorem IsPropertyPath.isPath (valid : IsPropertyPath path) :
    RequestContext.isPath path.toList = true := by
  obtain ⟨segments, some, solid, spelled⟩ := valid
  have free : ∀ segment ∈ segments, '/' ∉ segment := by
    intro segment among inside
    rcases (solid segment among).2 _ inside with name | line
    · exact absurd name (by decide)
    · cases line
  rw [spelled, RequestContext.isPath, pieces_intercalate some free, List.all_eq_true]
  intro segment among
  obtain ⟨more, chars⟩ := solid segment among
  rw [RequestContext.isSegment, Bool.and_eq_true, Bool.not_eq_true', List.isEmpty_eq_false_iff,
    List.all_eq_true]
  refine ⟨more, fun char inside => ?_⟩
  rw [Bool.or_eq_true, beq_iff_eq]
  exact chars char inside

theorem IsSelectItem.isFree (valid : IsSelectItem name) : IsFree name.toList := by
  rcases valid with rfl | valid
  · exact fun char inside => by rw [List.mem_singleton.1 inside]; decide
  · exact valid.isFree

theorem IsSelectItem.isTight (valid : IsSelectItem name) : IsTight name.toList := by
  rcases valid with rfl | valid
  · exact isTight_of_solid (by decide) (forall_mem_of_all (by decide))
  · exact valid.isTight

/-- A text is what it is without the white space at its end. -/
def Trimmable {α : Type} (writes : α → List Char → Prop) (item : α) : Prop :=
  ∀ text, writes item text → ∃ core gap, text = core ++ gap ∧ IsGap gap ∧ writes item core ∧
    EndsTight core

theorem Joined.trimmable {α : Type} {writes : α → List Char → Prop} {items : List α}
    (separator : Char) (trims : ∀ item ∈ items, Trimmable writes item) :
    Trimmable (Joined separator writes) items := by
  intro text joined
  induction joined with
  | one written =>
    obtain ⟨core, gap, rfl, blank, rest, tight⟩ := trims _ List.mem_cons_self _ written
    exact ⟨core, gap, rfl, blank, .one rest, tight⟩
  | @more item items piece text written others ih =>
    obtain ⟨core, gap, rfl, blank, rest, tight⟩ :=
      ih fun item inside => trims item (List.mem_cons_of_mem _ inside)
    refine ⟨piece ++ separator :: core, gap, by simp, blank, .more written rest, ?_⟩
    exact EndsTight.append piece (EndsTight.append [separator] tight)

theorem Text.Spaced.trimmable (spaced : Spaced core text) (tight : EndsTight core) :
    ∃ front gap, text = front ++ gap ∧ IsGap gap ∧ Spaced core front ∧ EndsTight front := by
  obtain ⟨before, after, blankBefore, blankAfter, rfl⟩ := spaced
  refine ⟨before ++ core, after, rfl, blankAfter, ?_, tight.append before⟩
  exact ⟨before, [], blankBefore, isGap_nil, (List.append_nil _).symm⟩

theorem Text.Spaced.passes (spaced : Spaced core text) (between : separator ∈ [',', ';'])
    (passes : Passes separator opened core) : Passes separator opened text := by
  obtain ⟨before, after, blankBefore, blankAfter, rfl⟩ := spaced
  exact ((blankBefore.isFree.passes between).append passes).append
    (blankAfter.isFree.passes between)

theorem IsSelectItem.passes (valid : IsSelectItem name) (between : separator ∈ [',', ';'])
    (spaced : Spaced name.toList text) : Passes separator opened text :=
  spaced.passes between (valid.isFree.passes between)

/-- Where commas do not separate, nothing in an option separates. -/
theorem passes_select {names : List String} (valid : ∀ name ∈ names, IsSelectItem name)
    (between : separator ∈ [',', ';']) (commas : Passes separator opened [','])
    (selected : SelectText names value) (spaced : Spaced ("$select=".toList ++ value) text) :
    Passes separator opened text := by
  have key : IsFree "$select=".toList := forall_mem_of_all (by decide)
  have items := selected.passes commas fun name among _ => (valid name among).passes between
  exact spaced.passes between ((key.passes between).append items)

theorem passes_expand {requests : List NavigationRequest}
    (passes : ∀ request ∈ requests, ∀ text, request.Writes text → Passes separator opened text)
    (between : separator ∈ [',', ';']) (commas : Passes separator opened [','])
    (expanded : Joined ',' NavigationRequest.Writes requests value)
    (spaced : Spaced ("$expand=".toList ++ value) text) : Passes separator opened text := by
  have key : IsFree "$expand=".toList := forall_mem_of_all (by decide)
  exact spaced.passes between ((key.passes between).append (expanded.passes commas passes))

/-- The options of an expansion are not cut between their parentheses, if the expansions in them are
not. -/
theorem RequestContext.Writes.passes {options : RequestContext} (valid : options.IsWritable)
    (passes : ∀ request ∈ options.expand, ∀ text, request.Writes text →
      Passes separator (opened + 1) text)
    (between : separator ∈ [',', ';']) (written : options.Writes text) :
    Passes separator (opened + 1) text := by
  have enclosed : ∀ char ∈ [',', ';'], Passes separator (opened + 1) [char] := by
    intro char special
    have plain : ∀ char ∈ [',', ';'], char ≠ '(' ∧ char ≠ ')' := forall_mem_of_all (by decide)
    exact passes_char (plain char special).1 (plain char special).2 (.inr (Nat.succ_ne_zero opened))
  have commas := enclosed ',' (by decide)
  cases written with
  | select selected spaced =>
    exact passes_select (valid.selected rfl).2 between commas selected spaced
  | expand expanded spaced => exact passes_expand passes between commas expanded spaced
  | both selected spacedFirst expanded spacedSecond =>
    have first := passes_select (valid.selected rfl).2 between commas selected spacedFirst
    have second := passes_expand passes between commas expanded spacedSecond
    exact first.append ((enclosed ';' (by decide)).append second)

/-- What an expansion is written as is not cut, wherever it stands. -/
theorem NavigationRequest.Writes.passes {request : NavigationRequest} (valid : request.IsWritable)
    (between : separator ∈ [',', ';']) (written : request.Writes text) :
    Passes separator opened text := by
  induction request using NavigationRequest.induction_expand generalizing separator opened text with
  | step request ih =>
    cases written with
    | plain spaced => exact spaced.passes between (valid.path.isFree.passes between)
    | @nested path _ gap _ _ blank written spaced =>
      have head : Passes separator opened (path.toList ++ gap) :=
        (valid.path.isFree.passes between).append (blank.isFree.passes between)
      -- between the parentheses one more is open, so that commas do not separate there
      refine spaced.passes between (head.append (RequestContext.Passes.parenthesized ?_))
      exact written.passes valid.options (fun inner among text written =>
        ih inner among (valid.options.expanded inner among) between written) between

end

end EdmQuery
