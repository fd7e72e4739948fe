import EdmQuery.Value.Edit

set_option autoImplicit false

namespace EdmQuery

theorem Result.bind_eq_ok {ε α β : Type} {first : Except ε α} {next : α → Except ε β} {result : β}
    (done : first >>= next = .ok result) :
    ∃ value, first = .ok value ∧ next value = .ok result := by
  cases first with
  | error error => cases done
  | ok value => exact ⟨value, rfl, done⟩

theorem Build.bind_eq_ok {α β : Type} {first : Build α} {next : α → Build β} {result : β}
    {supply rest : Supply} (done : (first >>= next).run supply = (.ok result, rest)) :
    ∃ value middle, first.run supply = (.ok value, middle) ∧
      (next value).run middle = (.ok result, rest) := by
  have whole : (first >>= next).run supply =
      ExceptT.bindCont next (first.run supply).1 (first.run supply).2 := rfl
  rcases ran : first.run supply with ⟨outcome, middle⟩
  rw [whole, ran] at done
  cases outcome with
  | error error => cases done
  | ok value => exact ⟨value, middle, rfl, done⟩

theorem Build.bind_of_ok {α β : Type} {first : Build α} {next : α → Build β} {value : α}
    {supply middle : Supply} (done : first.run supply = (.ok value, middle)) :
    (first >>= next).run supply = (next value).run middle := by
  have whole : (first >>= next).run supply =
      ExceptT.bindCont next (first.run supply).1 (first.run supply).2 := rfl
  rw [whole, done]
  rfl

theorem Build.ofResult_eq_ok {α : Type} {result : Result α} {value : α} {supply rest : Supply} :
    (Build.ofResult result).run supply = (.ok value, rest) ↔ result = .ok value ∧ supply = rest :=
  Prod.ext_iff

theorem Result.keeps_foldlM {α β : Type} {holds : β → Prop} {step : β → α → Result β}
    {items : List α} (kept : ∀ state, ∀ item ∈ items, ∀ next, holds state →
      step state item = .ok next → holds next)
    {state last : β} (before : holds state) (done : items.foldlM step state = .ok last) :
    holds last := by
  induction items generalizing state with
  | nil =>
    cases done
    exact before
  | cons item rest ih =>
    rw [List.foldlM_cons] at done
    obtain ⟨next, one, later⟩ := Result.bind_eq_ok done
    exact ih (fun state other inside => kept state other (List.mem_cons_of_mem _ inside))
      (kept state item List.mem_cons_self next before one) later

theorem Build.keeps_foldlM {α β : Type} {holds : β → Prop} {step : β → α → Build β}
    {items : List α} (kept : ∀ state, ∀ item ∈ items, ∀ next supply rest, holds state →
      (step state item).run supply = (.ok next, rest) → holds next)
    {state last : β} {supply rest : Supply} (before : holds state)
    (done : (items.foldlM step state).run supply = (.ok last, rest)) : holds last := by
  induction items generalizing state supply with
  | nil =>
    cases done
    exact before
  | cons item others ih =>
    rw [List.foldlM_cons] at done
    obtain ⟨next, middle, one, later⟩ := Build.bind_eq_ok done
    exact ih (fun state other inside => kept state other (List.mem_cons_of_mem _ inside))
      (kept state item List.mem_cons_self next supply middle before one) later

theorem Result.foldlM_related {α β : Type} {relates : β → β → Prop} {step other : β → α → Result β}
    {items : List α} (kept : ∀ item ∈ items, ∀ state twin next, relates state twin →
      step state item = .ok next → ∃ nextTwin, other twin item = .ok nextTwin ∧
        relates next nextTwin)
    {state twin last : β} (before : relates state twin)
    (done : items.foldlM step state = .ok last) :
    ∃ lastTwin, items.foldlM other twin = .ok lastTwin ∧ relates last lastTwin := by
  induction items generalizing state twin with
  | nil =>
    cases done
    exact ⟨twin, rfl, before⟩
  | cons item rest ih =>
    obtain ⟨keptFirst, keptRest⟩ := List.forall_mem_cons.1 kept
    rw [List.foldlM_cons] at done
    obtain ⟨next, one, later⟩ := Result.bind_eq_ok done
    obtain ⟨nextTwin, oneTwin, between⟩ := keptFirst state twin next before one
    rw [List.foldlM_cons, oneTwin]
    exact ih keptRest between later

theorem Build.foldlM_related {α β : Type} {relates : β → β → Prop} {step other : β → α → Build β}
    {items : List α} (kept : ∀ item ∈ items, ∀ state twin next supply rest, relates state twin →
      (step state item).run supply = (.ok next, rest) →
        ∃ nextTwin, (other twin item).run supply = (.ok nextTwin, rest) ∧ relates next nextTwin)
    {state twin last : β} {supply rest : Supply} (before : relates state twin)
    (done : (items.foldlM step state).run supply = (.ok last, rest)) :
    ∃ lastTwin, (items.foldlM other twin).run supply = (.ok lastTwin, rest) ∧
      relates last lastTwin := by
  induction items generalizing state twin supply with
  | nil =>
    cases done
    exact ⟨twin, rfl, before⟩
  | cons item others ih =>
    obtain ⟨keptFirst, keptRest⟩ := List.forall_mem_cons.1 kept
    rw [List.foldlM_cons] at done
    obtain ⟨next, middle, one, later⟩ := Build.bind_eq_ok done
    obtain ⟨nextTwin, oneTwin, between⟩ := keptFirst state twin next supply middle before one
    rw [List.foldlM_cons, Build.bind_of_ok oneTwin]
    exact ih keptRest between later

/-- A property that is added is new and stands behind the others. -/
theorem ComplexType.eq_of_addProperty {type changed : ComplexType} {property : Property}
    (done : type.addProperty property = .ok changed) :
    property.name ∉ type.properties.map Property.name ∧
      changed = { type with properties := type.properties ++ [property] } := by
  rw [addProperty] at done
  split at done
  · cases done
  · split at done
    · cases done
    · rename_i absent
      cases done
      rw [Keyed.contains_iff] at absent
      exact ⟨absent, rfl⟩

namespace Edit

variable {α : Type} {value between changed : α} {supply middle rest : Supply} {error : Error}

theorem ofBuild_of_ok {change : α → Build α}
    (ran : (change value).run supply = (.ok changed, rest)) :
    ofBuild change value supply = ((changed, .ok ()), rest) := by
  simp only [ofBuild, Bind.bind, StateT.bind, ran]
  rfl

theorem ofBuild_of_error {change : α → Build α}
    (ran : (change value).run supply = (.error error, rest)) :
    ofBuild change value supply = ((value, .error error), rest) := by
  simp only [ofBuild, Bind.bind, StateT.bind, ran]
  rfl

theorem andThen_of_ok {first second : Edit α}
    (ran : first value supply = ((between, .ok ()), middle)) :
    first.andThen second value supply = second between middle := by
  simp only [andThen, Bind.bind, StateT.bind, ran]

theorem andThen_of_error {first second : Edit α}
    (ran : first value supply = ((between, .error error), middle)) :
    first.andThen second value supply = ((between, .error error), middle) := by
  simp only [andThen, Bind.bind, StateT.bind, ran]
  rfl

theorem run_toBuild (edit : Edit α) (value : α) (supply : Supply) :
    (edit.toBuild value).run supply =
      ((edit value supply).1.2.map fun _ => (edit value supply).1.1, (edit value supply).2) := by
  have whole : (edit.toBuild value).run supply =
      (Build.ofResult (edit value supply).1.2 >>= fun _ =>
        (pure (edit value supply).1.1 : Build α)).run (edit value supply).2 := rfl
  rw [whole]
  cases (edit value supply).1.2 <;> rfl

theorem toBuild_of_ok {edit : Edit α}
    (done : edit value supply = ((changed, .ok ()), rest)) :
    (edit.toBuild value).run supply = (.ok changed, rest) := by
  rw [run_toBuild, done]
  rfl

theorem run_of_toBuild {edit : Edit α}
    (done : (edit.toBuild value).run supply = (.ok changed, rest)) :
    edit value supply = ((changed, .ok ()), rest) := by
  rw [run_toBuild] at done
  rcases ran : edit value supply with ⟨⟨after, outcome⟩, last⟩
  rw [ran] at done
  cases outcome with
  | error error => cases done
  | ok _ =>
    cases done
    rfl

theorem run_of_ofBuild {change : α → Build α} {value changed : α} {supply rest : Supply}
    (done : ofBuild change value supply = ((changed, .ok ()), rest)) :
    (change value).run supply = (.ok changed, rest) := by
  rcases ran : (change value).run supply with ⟨outcome, middle⟩
  simp only [ofBuild, bind, StateT.bind, ran] at done
  cases outcome with
  | error error => cases done
  | ok value =>
    cases done
    rfl

theorem andThen_eq_ok {first second : Edit α} {value changed : α} {supply rest : Supply}
    (done : first.andThen second value supply = ((changed, .ok ()), rest)) :
    ∃ between middle, first value supply = ((between, .ok ()), middle) ∧
      second between middle = ((changed, .ok ()), rest) := by
  rcases ran : first value supply with ⟨⟨between, outcome⟩, middle⟩
  simp only [andThen, bind, StateT.bind, ran] at done
  cases outcome with
  | error error => cases done
  | ok _ => exact ⟨between, middle, rfl, done⟩

/-- What each of several edits keeps, they keep together, also where one of them fails. -/
theorem keeps_of_inTurn {holds : α → Prop} {edits : List (Edit α)}
    (each : ∀ edit ∈ edits, ∀ value supply, holds value → holds (edit value supply).1.1)
    {value : α} (supply : Supply) (before : holds value) :
    holds (inTurn edits value supply).1.1 := by
  induction edits generalizing value supply with
  | nil => exact before
  | cons edit others ih =>
    have first := each edit List.mem_cons_self value supply before
    rcases ran : edit value supply with ⟨⟨between, outcome⟩, middle⟩
    rw [ran] at first
    cases outcome with
    | error error =>
      rw [inTurn, andThen_of_error ran]
      exact first
    | ok done =>
      rw [inTurn, andThen_of_ok ran]
      exact ih (fun other inside => each other (List.mem_cons_of_mem _ inside)) middle first

/-- What a computation keeps where it succeeds, an edit that makes it keeps. -/
theorem keeps_of_ofBuild {holds : α → Prop} {change : α → Build α} {value : α} {supply : Supply}
    (kept : ∀ changed rest, (change value).run supply = (.ok changed, rest) → holds changed)
    (before : holds value) : holds (ofBuild change value supply).1.1 := by
  rcases ran : (change value).run supply with ⟨outcome, rest⟩
  cases outcome with
  | error error =>
    rw [ofBuild_of_error ran]
    exact before
  | ok changed =>
    rw [ofBuild_of_ok ran]
    exact kept changed rest ran

theorem inTurn_append_eq_ok {first second : List (Edit α)} {value changed : α}
    {supply rest : Supply}
    (done : inTurn (first ++ second) value supply = ((changed, .ok ()), rest)) :
    ∃ between middle, inTurn first value supply = ((between, .ok ()), middle) ∧
      inTurn second between middle = ((changed, .ok ()), rest) := by
  induction first generalizing value supply with
  | nil => exact ⟨value, supply, rfl, done⟩
  | cons edit others ih =>
    obtain ⟨between, middle, early, late⟩ := andThen_eq_ok done
    obtain ⟨last, final, ran, remaining⟩ := ih late
    exact ⟨last, final, (andThen_of_ok early).trans ran, remaining⟩

/-- What each of several edits does to a value, they do together. -/
theorem relates_of_inTurn {relation : α → α → Prop} (reflexive : ∀ value, relation value value)
    (transitive : ∀ first second third, relation first second → relation second third →
      relation first third) {edits : List (Edit α)}
    (each : ∀ edit ∈ edits, ∀ before after supply rest,
      edit before supply = ((after, .ok ()), rest) → relation before after)
    {value changed : α} {supply rest : Supply}
    (done : inTurn edits value supply = ((changed, .ok ()), rest)) : relation value changed := by
  induction edits generalizing value supply with
  | nil =>
    cases done
    exact reflexive _
  | cons edit others ih =>
    obtain ⟨between, middle, first, later⟩ := andThen_eq_ok done
    exact transitive _ _ _ (each edit List.mem_cons_self _ _ _ _ first)
      (ih (fun other inside => each other (List.mem_cons_of_mem _ inside)) later)

end Edit

end EdmQuery
