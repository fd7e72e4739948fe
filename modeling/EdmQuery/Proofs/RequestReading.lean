import EdmQuery.Proofs.RequestTexts

set_option autoImplicit false

namespace EdmQuery

open Text RequestContext

section

variable {path name : String} {text value : List Char}

theorem IsSelectItem.trimmable (valid : IsSelectItem name) :
    Trimmable (fun name => Spaced name.toList) name :=
  fun _ spaced => spaced.trimmable valid.isTight.ends

/-- A path with options starts with the path and ends with a parenthesis. -/
theorem isTight_nested (valid : IsPropertyPath path) {gap inner : List Char} :
    IsTight (path.toList ++ gap ++ ('(' :: inner ++ [')'])) :=
  ⟨(valid.isTight.starts.append gap).append _, EndsTight.append _ ⟨_, _, rfl, by decide⟩⟩

theorem NavigationRequest.trimmable {request : NavigationRequest} (valid : request.IsWritable) :
    Trimmable NavigationRequest.Writes request := by
  intro text written
  cases written with
  | plain spaced =>
    obtain ⟨front, gap, rfl, blank, spaced, tight⟩ := spaced.trimmable valid.path.isTight.ends
    exact ⟨front, gap, rfl, blank, .plain spaced, tight⟩
  | @nested name options between inner text blankBetween written spaced =>
    obtain ⟨front, gap, rfl, blank, spaced, tight⟩ :=
      spaced.trimmable (isTight_nested valid.path).ends
    exact ⟨front, gap, rfl, blank, .nested blankBetween written spaced, tight⟩

/-- The white space behind the last item of an option is trimmed away with that behind it. -/
theorem trim_option {α : Type} {writes : α → List Char → Prop} {item : α} {key : List Char}
    (starts : StartsTight key) (trims : Trimmable writes item) (written : writes item value)
    (spaced : Spaced (key ++ value) text) : ∃ core, writes item core ∧ trim text = key ++ core := by
  obtain ⟨core, gap, rfl, blank, written, ends⟩ := trims _ written
  obtain ⟨before, after, blankBefore, blankAfter, rfl⟩ := spaced
  refine ⟨core, written, Spaced.trim_eq ⟨before, gap ++ after, blankBefore, ?_, by simp⟩
    ⟨starts.append core, ends.append key⟩⟩
  exact fun char inside => (List.mem_append.1 inside).elim (blank char) (blankAfter char)

/-- Reading each of the pieces reads all of them. -/
theorem mapM_of_forall₂ {α β : Type} {writes : α → β → Prop} {read : β → Result α}
    {items : List α} {pieces : List β}
    (reads : ∀ item ∈ items, ∀ piece, writes item piece → read piece = .ok item)
    (written : List.Forall₂ writes items pieces) : pieces.mapM read = .ok items := by
  induction written with
  | nil => rfl
  | cons first others ih =>
    rw [List.mapM_cons, reads _ List.mem_cons_self _ first,
      ih fun item inside => reads item (List.mem_cons_of_mem _ inside)]
    rfl

theorem selectItems_eq {names : List String} (valid : ∀ name ∈ names, IsSelectItem name)
    (selected : SelectText names text) : selectItems text = .ok names := by
  obtain ⟨pieces, spaced, cut⟩ := selected.splitTopLevel?_eq (by decide) (by decide)
    fun name among _ => (valid name among).passes (by decide)
  rw [selectItems, splitTopLevel, cut]
  refine mapM_of_forall₂ (fun name among piece spaced => ?_) spaced
  have item : (trim piece = ['*'] || isPath (trim piece)) = true := by
    rw [spaced.trim_eq (valid name among).isTight, Bool.or_eq_true, decide_eq_true_eq]
    rcases valid name among with rfl | valid
    · exact .inl rfl
    · exact .inr valid.isPath
  simp only [item, if_true]
  rw [spaced.trim_eq (valid name among).isTight, String.ofList_toList]

theorem parseSelect_eq {names : List String} (valid : ∀ name ∈ names, IsSelectItem name)
    (selected : SelectText names text) (context : RequestContext) :
    context.parseSelect text = .ok (context.addSelect names) := by
  rw [parseSelect, selectItems_eq valid selected]
  rfl

/-- What becomes of a context that expansions are added to. -/
def settle : RequestContext × Result Unit → Result RequestContext
  | (context, .ok ()) => .ok context
  | (_, .error error) => .error error

theorem readOption_select {names : List String} (valid : ∀ name ∈ names, IsSelectItem name)
    (selected : SelectText names value) (spaced : Spaced ("$select=".toList ++ value) text)
    (expand : ExpandReader) (raw : List Char) (options : RequestContext) :
    readOption expand raw options text = .ok (options.addSelect names) := by
  have trims := Joined.trimmable ',' fun name among => (valid name among).trimmable
  obtain ⟨core, selected, trimmed⟩ := trim_option ⟨'$', _, rfl, by decide⟩ trims selected spaced
  rw [readOption, trimmed]
  exact parseSelect_eq valid selected options

theorem readOption_expand {requests : List NavigationRequest}
    (valid : ∀ request ∈ requests, request.IsWritable)
    (expanded : Joined ',' NavigationRequest.Writes requests value)
    (spaced : Spaced ("$expand=".toList ++ value) text) (expand : ExpandReader) (raw : List Char)
    (options : RequestContext) :
    ∃ core, Joined ',' NavigationRequest.Writes requests core ∧
      readOption expand raw options text = settle (expand core options) := by
  have trims := Joined.trimmable ','
    fun request among => NavigationRequest.trimmable (valid request among)
  obtain ⟨core, expanded, trimmed⟩ := trim_option ⟨'$', _, rfl, by decide⟩ trims expanded spaced
  refine ⟨core, expanded, ?_⟩
  rw [readOption, trimmed]
  rfl

/-- Nested options are refused with the text in which they nest too deep. -/
def nestedTooDeep (raw : String) : Error :=
  .parse .expressionTooDeep "$expand: options nest more than 32 levels deep" raw

/-- What fits within a limit is read, and what does not is refused. -/
structure Yields {α : Type} (levels limit : Nat) (value : α) (result : Result α) : Prop where
  fits : levels ≤ limit → result = .ok value
  exceeds : limit < levels → ∃ raw, result = .error (nestedTooDeep raw)

theorem Yields.of_ok {α : Type} {limit : Nat} {value : α} {result : Result α}
    (read : result = .ok value) : Yields 0 limit value result :=
  ⟨fun _ => read, fun exceeds => absurd exceeds (Nat.not_lt_zero _)⟩

theorem Yields.map {α β : Type} {levels limit : Nat} {value : α} {result : Result α}
    (yields : Yields levels limit value result) (change : α → β) :
    Yields levels limit (change value) (result.map change) := by
  constructor
  · intro fits
    rw [yields.fits fits]
    rfl
  · intro exceeds
    obtain ⟨raw, refused⟩ := yields.exceeds exceeds
    exact ⟨raw, by rw [refused]; rfl⟩

end

section

variable {limit : Nat} {expand : ExpandReader} {text inner : List Char}
  {context options : RequestContext} {requests : List NavigationRequest}
  {request : NavigationRequest}

/-- Expansions of different paths with requests that can be written. -/
structure Requestable (requests : List NavigationRequest) : Prop where
  distinct : (requests.map NavigationRequest.path).Nodup
  each : ∀ request ∈ requests, request.IsWritable

theorem RequestContext.IsWritable.requestable (valid : context.IsWritable) :
    Requestable context.expand :=
  ⟨valid.distinct, valid.expanded⟩

/-- A reader that reads each list of expansions within a limit as it was written. -/
def ReadsWithin (limit : Nat) (expand : ExpandReader) : Prop :=
  ∀ (context : RequestContext) {requests : List NavigationRequest} {text : List Char},
    Requestable requests → Joined ',' NavigationRequest.Writes requests text →
    context.expand = [] →
    Yields (NavigationRequest.levelsOf requests) limit { context with expand := requests }
      (settle (expand text context))

theorem readOptions_yields (raw : List Char) (reads : ReadsWithin limit expand)
    (valid : options.IsWritable) (written : options.Writes inner) :
    Yields options.expandLevels limit options
      ((splitTopLevel ';' "$expand" inner) >>= fun pieces =>
        pieces.foldlM (readOption expand raw) RequestContext.default) := by
  have enclosed : Passes ';' 0 [','] := passes_char (by decide) (by decide) (.inl (by decide))
  have expansions : ∀ request ∈ options.expand, ∀ text, request.Writes text → Passes ';' 0 text :=
    fun request among _ written => written.passes (valid.expanded request among) (by decide)
  cases written with
  | @select names value _ selected spaced =>
    have names := (valid.selected rfl).2
    have passes := passes_select names (by decide) enclosed selected spaced
    rw [splitTopLevel, passes.splitTopLevel?_eq]
    refine .of_ok ?_
    have read := readOption_select names selected spaced expand raw RequestContext.default
    exact (bind_pure _).trans read
  | @expand requests value _ expanded spaced =>
    have passes := passes_expand expansions (by decide) enclosed expanded spaced
    rw [splitTopLevel, passes.splitTopLevel?_eq]
    obtain ⟨core, expanded, read⟩ := readOption_expand valid.expanded expanded spaced expand raw
      RequestContext.default
    have yields := reads RequestContext.default valid.requestable expanded rfl
    rw [← read] at yields
    exact (bind_pure (readOption expand raw RequestContext.default inner)).symm ▸ yields
  | @both names requests _ _ first second selected spacedFirst expanded spacedSecond =>
    have items := (valid.selected rfl).2
    have passesFirst := passes_select items (by decide) enclosed selected spacedFirst
    have passesSecond := passes_expand expansions (by decide) enclosed expanded spacedSecond
    rw [splitTopLevel, passesFirst.splitTopLevel?_append (by decide) (by decide),
      passesSecond.splitTopLevel?_eq]
    have readFirst := readOption_select items selected spacedFirst expand raw RequestContext.default
    -- the selection is there already when the expansions are read
    let before := RequestContext.default.addSelect names
    obtain ⟨core, expanded, read⟩ :=
      readOption_expand valid.expanded expanded spacedSecond expand raw before
    have yields := reads before valid.requestable expanded rfl
    rw [← read] at yields
    have run : ((readOption expand raw RequestContext.default first >>= fun options =>
        readOption expand raw options second >>= pure) : Result RequestContext) =
        readOption expand raw before second := by
      rw [readFirst]
      exact bind_pure (readOption expand raw before second)
    exact run.symm ▸ yields

/-- Options start at the first opening parenthesis and end with the closing one at the end. -/
theorem splitOptions_nested {head : List Char}
    (noOpen : ∀ char ∈ head, decide (char ≠ '(') = true) (raw inner : List Char) :
    splitOptions raw (head ++ ('(' :: inner ++ [')'])) = .ok (head, some inner) := by
  have stops : Parsing.StopsAt (fun char => decide (char ≠ '(')) ('(' :: (inner ++ [')'])) :=
    Parsing.stopsAt_cons (by decide)
  rw [splitOptions, List.cons_append, stops.dropWhile_append noOpen]
  simp only [List.reverse_append, List.reverse_singleton, List.singleton_append,
    List.reverse_reverse, stops.takeWhile_append noOpen]

theorem readItem_yields (raw : List Char) (reads : ReadsWithin limit expand)
    (valid : request.IsWritable) (written : request.Writes text) :
    Yields request.options.expandLevels limit request (readItem expand raw text) := by
  obtain ⟨path, options⟩ := valid
  have noOpen : ∀ char ∈ request.path.toList, decide (char ≠ '(') = true := fun char inside =>
    decide_eq_true fun same => path.isFree char inside (same ▸ List.mem_cons_self)
  cases written with
  | @plain name _ spaced =>
    have whole : splitOptions raw name.toList = .ok (name.toList, none) := by
      rw [splitOptions, List.dropWhile_eq_nil_iff.2 noOpen]
    refine .of_ok ?_
    rw [readItem, spaced.trim_eq path.isTight, whole]
    have named : trim name.toList = name.toList := (spaced_self _).trim_eq path.isTight
    simp only [Except.bind, bind, named, path.isPath, if_true, String.ofList_toList]
    rfl
  | @nested name _ gap inner _ blank written spaced =>
    have head : ∀ char ∈ name.toList ++ gap, decide (char ≠ '(') = true := fun char inside =>
      (List.mem_append.1 inside).elim (noOpen char) fun inside =>
        decide_eq_true fun same => blank.isFree char inside (same ▸ List.mem_cons_self)
    have named : trim (name.toList ++ gap) = name.toList :=
      Spaced.trim_eq ⟨[], gap, isGap_nil, blank, rfl⟩ path.isTight
    have read : readItem expand raw text = (splitTopLevel ';' "$expand" inner >>= fun pieces =>
        pieces.foldlM (readOption expand raw) RequestContext.default).map
          (NavigationRequest.mk name) := by
      rw [readItem, spaced.trim_eq (isTight_nested path), splitOptions_nested head raw inner]
      simp only [bind, Except.bind, named, path.isPath, if_true, String.ofList_toList]
      cases splitTopLevel ';' "$expand" inner with
      | error _ => rfl
      | ok pieces =>
        cases pieces.foldlM (readOption expand raw) RequestContext.default <;> rfl
    exact read ▸ (readOptions_yields raw reads options written).map _

theorem addItems_yields (raw : List Char) (reads : ReadsWithin limit expand)
    {pieces : List (List Char)}
    (each : ∀ request ∈ requests, request.IsWritable)
    (distinct : ((context.expand ++ requests).map NavigationRequest.path).Nodup)
    (written : List.Forall₂ NavigationRequest.Writes requests pieces) :
    Yields (NavigationRequest.levelsOf requests) (limit + 1)
      { context with expand := context.expand ++ requests }
      (settle (addItems expand raw pieces context)) := by
  induction written generalizing context with
  | nil =>
    rw [List.append_nil]
    cases context
    exact .of_ok rfl
  | @cons request piece requests pieces first others ih =>
    have item := readItem_yields raw reads (each request List.mem_cons_self) first
    have deepest : NavigationRequest.levelsOf (request :: requests) =
        max (request.options.expandLevels + 1) (NavigationRequest.levelsOf requests) := by
      cases request
      rfl
    rw [addItems]
    by_cases fits : request.options.expandLevels ≤ limit
    · have new : request.path ∉ context.expand.map NavigationRequest.path := by
        intro held
        rw [List.map_append, List.nodup_append] at distinct
        exact distinct.2.2 _ held _ List.mem_cons_self rfl
      have added : (context.addExpand request).expand = context.expand ++ [request] :=
        Keyed.put_of_not_mem NavigationRequest.path request context.expand new
      have rest := @ih (context.addExpand request)
        (fun other among => each other (List.mem_cons_of_mem _ among))
        (by rw [added, List.append_assoc]; exact distinct)
      rw [added, List.append_assoc] at rest
      rw [item.fits fits]
      exact ⟨fun all => rest.fits (by omega), fun exceeds => rest.exceeds (by omega)⟩
    · -- the first expansion that nests too deep ends the reading, whatever stands behind it
      obtain ⟨deep, refused⟩ := item.exceeds (Nat.lt_of_not_le fits)
      rw [refused]
      exact ⟨fun all => absurd all (by omega), fun _ => ⟨deep, rfl⟩⟩

/-- What is written within the levels that are left is read, by induction on how many are left. -/
theorem expandWithin_readsWithin (limit : Nat) : ReadsWithin limit (expandWithin limit) := by
  induction limit with
  | zero =>
    intro context requests text requestable joined _
    obtain ⟨request, rest, rfl⟩ := List.exists_cons_of_ne_nil joined.ne_nil
    have deep := NavigationRequest.expandLevels_lt (List.mem_cons_self (a := request) (l := rest))
    exact ⟨fun fits => absurd deep (by omega), fun _ => ⟨String.ofList text, rfl⟩⟩
  | succ limit ih =>
    intro context requests text requestable joined fresh
    have passes : ∀ request ∈ requests, ∀ text, request.Writes text → Passes ',' 0 text :=
      fun request among _ written => written.passes (requestable.each request among) (by decide)
    obtain ⟨pieces, written, cut⟩ := joined.splitTopLevel?_eq (by decide) (by decide) passes
    have distinct := requestable.distinct
    rw [← List.nil_append requests, ← fresh] at distinct
    have yields := addItems_yields text ih requestable.each distinct written
    rw [fresh, List.nil_append] at yields
    rw [expandWithin, splitTopLevel, cut]
    exact yields

end

theorem exists_selectText {names : List String} (some : names ≠ []) :
    ∃ text, SelectText names text :=
  Joined.exists_text some fun name _ => ⟨name.toList, spaced_self _⟩

/-- Each expansion can be written. -/
theorem NavigationRequest.exists_writes {request : NavigationRequest}
    (valid : request.options.IsWritable) : ∃ text, request.Writes text := by
  induction request using NavigationRequest.induction_expand with
  | step request ih =>
    obtain ⟨path, options⟩ := request
    have nested : ∀ inner, options.Writes inner → ∃ text, (mk path options).Writes text :=
      fun inner written => ⟨_, .nested isGap_nil written (spaced_self _)⟩
    have expansion : options.expand ≠ [] → ∃ text, Joined ',' Writes options.expand text :=
      fun some => Joined.exists_text some fun inner among =>
        ih inner among (valid.expanded inner among).options
    obtain ⟨select?, expand, level⟩ := options
    obtain rfl : level = .minimal := valid.2.2.2
    match select?, expand with
    | none, [] => exact ⟨_, .plain (spaced_self _)⟩
    | some names, [] =>
      obtain ⟨value, selected⟩ := exists_selectText (valid.selected rfl).1
      exact nested _ (.select selected (spaced_self _))
    | none, inner :: rest =>
      obtain ⟨value, expanded⟩ := expansion (List.cons_ne_nil inner rest)
      exact nested _ (.expand expanded (spaced_self _))
    | some names, inner :: rest =>
      obtain ⟨selection, selected⟩ := exists_selectText (valid.selected rfl).1
      obtain ⟨value, expanded⟩ := expansion (List.cons_ne_nil inner rest)
      exact nested _ (.both selected (spaced_self _) expanded (spaced_self _))

/-- The texts of the two options for a request; an option that asks for nothing is left out. -/
structure RequestContext.IsWritten (context : RequestContext) (select? expand? : Option String) :
    Prop where
  selected : Option.Rel (fun names text => SelectText names text.toList) context.select? select?
  expanded : (context.expand = [] ∧ expand? = none) ∨ ∃ text, expand? = some text ∧
    Joined ',' NavigationRequest.Writes context.expand text.toList

/-- The expansions are added to what was selected. -/
theorem ofOptions_of_selection {select? expand? : Option String} {context : RequestContext}
    (selection : (match select? with
      | some text => RequestContext.default.parseSelect text.toList
      | none => .ok RequestContext.default) = .ok context) :
    ofOptions select? expand? = match expand? with
      | some text => settle (context.parseExpand text.toList)
      | none => .ok context := by
  unfold ofOptions
  cases select? with
  | none =>
    cases selection
    cases expand? <;> rfl
  | some text =>
    dsimp only at selection ⊢
    rw [selection]
    cases expand? <;> rfl

theorem RequestContext.IsWritable.exists_isWritten {context : RequestContext}
    (valid : context.IsWritable) : ∃ select? expand?, context.IsWritten select? expand? := by
  have selection : ∃ select?, Option.Rel
      (fun names (text : String) => SelectText names text.toList) context.select? select? := by
    cases selects : context.select? with
    | none => exact ⟨none, .none⟩
    | some names =>
      obtain ⟨text, selected⟩ := exists_selectText (valid.selected selects).1
      exact ⟨some (String.ofList text), .some (by rwa [String.toList_ofList])⟩
  obtain ⟨select?, selected⟩ := selection
  by_cases none : context.expand = []
  · exact ⟨select?, Option.none, selected, .inl ⟨none, rfl⟩⟩
  · obtain ⟨text, expanded⟩ := Joined.exists_text none fun request among =>
      NavigationRequest.exists_writes (valid.expanded request among).options
    refine ⟨select?, some (String.ofList text), selected, .inr ⟨_, rfl, ?_⟩⟩
    rwa [String.toList_ofList]

/-- Each request can be written, and however it is written, it is read as that request as long as
its expansions nest at most 32 levels deep. Deeper ones are refused. -/
theorem RequestContext.ofOptions_isWritten {context : RequestContext} (valid : context.IsWritable) :
    (∃ select? expand?, context.IsWritten select? expand?) ∧
    ∀ select? expand?, context.IsWritten select? expand? →
      (context.expandLevels ≤ 32 → ofOptions select? expand? = .ok context) ∧
      (33 ≤ context.expandLevels →
        ∃ raw, ofOptions select? expand? = .error (nestedTooDeep raw)) := by
  refine ⟨valid.exists_isWritten, fun select? expand? written => ?_⟩
  have yields : Yields context.expandLevels 32 context (ofOptions select? expand?) := by
    obtain ⟨select, expand, level⟩ := context
    obtain rfl : level = .minimal := valid.2.2.2
    have selection : (match select? with
        | some text => RequestContext.default.parseSelect text.toList
        | none => .ok RequestContext.default) = .ok ⟨select, [], .minimal⟩ := by
      cases written.selected with
      | none => rfl
      | some selected => exact parseSelect_eq (valid.selected rfl).2 selected _
    rw [ofOptions_of_selection selection]
    rcases written.expanded with ⟨rfl, rfl⟩ | ⟨text, rfl, expanded⟩
    · exact .of_ok rfl
    · exact expandWithin_readsWithin 32 ⟨select, [], .minimal⟩ valid.requestable expanded rfl
  exact ⟨yields.fits, yields.exceeds⟩

/-- Expansions in each other, so many levels. -/
def chainRequest : Nat → RequestContext
  | 0 => .default
  | levels + 1 => ⟨none, [⟨"next", chainRequest levels⟩], .minimal⟩

theorem expandLevels_chainRequest (levels : Nat) : (chainRequest levels).expandLevels = levels := by
  induction levels with
  | zero => rfl
  | succ levels ih =>
    rw [chainRequest, expandLevels, NavigationRequest.levelsOf, NavigationRequest.levelsOf, ih]
    exact Nat.max_eq_left (Nat.zero_le _)

theorem isPropertyPath_of_name {name : String} (some : name.toList ≠ [])
    (solid : ∀ char ∈ name.toList, Text.isAlphanumeric char = true ∨ char = '_') :
    IsPropertyPath name := by
  refine ⟨[name.toList], List.cons_ne_nil _ _, ?_, (List.intercalate_singleton ..).symm⟩
  intro segment among
  rw [List.mem_singleton.1 among]
  exact ⟨some, solid⟩

theorem isWritable_default : RequestContext.default.IsWritable :=
  ⟨fun names none => (by cases none), List.nodup_nil, trivial, rfl⟩

theorem isWritable_chainRequest (levels : Nat) : (chainRequest levels).IsWritable := by
  induction levels with
  | zero => exact isWritable_default
  | succ levels ih =>
    have path : IsPropertyPath "next" :=
      isPropertyPath_of_name (by decide) (forall_mem_of_all (by decide))
    exact ⟨fun names none => (by cases none), List.nodup_cons.2 ⟨List.not_mem_nil, List.nodup_nil⟩,
      ⟨path, ih, trivial⟩, rfl⟩

theorem RequestContext.ofOptions_isWritten_pilot :
    ofOptions (some " id , *") (some "pilot ( $select= name ; $expand=base ) ,crew") =
      .ok ⟨some ["id", "*"], [⟨"pilot", ⟨some ["name"], [⟨"base", .default⟩], .minimal⟩⟩,
        ⟨"crew", .default⟩], .minimal⟩ ∧
    ∃ select? expand? raw, ofOptions select? expand? = .error (nestedTooDeep raw) := by
  have paths : ∀ name ∈ ["id", "pilot", "name", "base", "crew"], IsPropertyPath name := by
    simp only [List.forall_mem_cons]
    repeat refine ⟨isPropertyPath_of_name (by decide) (forall_mem_of_all (by decide)), ?_⟩
    exact fun name none => by cases none
  have gap : IsGap [' '] := forall_mem_of_all (by decide)
  have around : ∀ core : List Char, Spaced core ([' '] ++ core ++ [' ']) :=
    fun core => ⟨[' '], [' '], gap, gap, rfl⟩
  have before : ∀ core : List Char, Spaced core ([' '] ++ core) :=
    fun core => ⟨[' '], [], gap, isGap_nil, (List.append_nil _).symm⟩
  have base : RequestContext.IsWritable ⟨some ["name"], [⟨"base", .default⟩], .minimal⟩ := by
    refine ⟨?_, by decide +kernel, ⟨paths "base" (by decide), isWritable_default, trivial⟩, rfl⟩
    intro names same
    cases same
    refine ⟨by decide, fun name among => ?_⟩
    rw [List.mem_singleton.1 among]
    exact .inr (paths "name" (by decide))
  constructor
  · refine ((RequestContext.ofOptions_isWritten ?_).2 _ _ ?_).1 (by decide)
    · refine ⟨?_, by decide +kernel, ⟨paths "pilot" (by decide), base, paths "crew" (by decide),
        isWritable_default, trivial⟩, rfl⟩
      intro names same
      cases same
      refine ⟨by decide, ?_⟩
      simp only [List.forall_mem_cons]
      exact ⟨.inr (paths "id" (by decide)), .inl rfl, fun name none => by cases none⟩
    · refine ⟨.some ?_, .inr ⟨_, rfl, ?_⟩⟩
      · have selection : SelectText ["id", "*"] (" id ".toList ++ ',' :: " *".toList) :=
          .more (around "id".toList) (.one (before "*".toList))
        exact selection
      · have name : SelectText ["name"] " name".toList := .one (before "name".toList)
        have expansion : Joined ',' NavigationRequest.Writes [⟨"base", .default⟩] "base".toList :=
          .one (.plain (spaced_self _))
        have options : RequestContext.Writes ⟨some ["name"], [⟨"base", .default⟩], .minimal⟩
            (" $select= name ".toList ++ ';' :: " $expand=base ".toList) :=
          .both name (around _) expansion (around _)
        have pilot : NavigationRequest.Writes
            ⟨"pilot", ⟨some ["name"], [⟨"base", .default⟩], .minimal⟩⟩
            "pilot ( $select= name ; $expand=base ) ".toList :=
          .nested gap options ⟨[], [' '], isGap_nil, gap, rfl⟩
        have crew : NavigationRequest.Writes ⟨"crew", .default⟩ "crew".toList :=
          .plain (spaced_self _)
        exact Joined.more pilot (.one crew)
  · have deep := RequestContext.ofOptions_isWritten (isWritable_chainRequest 33)
    obtain ⟨⟨select?, expand?, written⟩, reads⟩ := deep
    refine ⟨select?, expand?, (reads select? expand? written).2 ?_⟩
    exact Nat.le_of_eq (expandLevels_chainRequest 33).symm

end EdmQuery
