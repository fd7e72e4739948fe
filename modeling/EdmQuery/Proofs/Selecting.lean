import EdmQuery.Proofs.Related
import EdmQuery.Proofs.Runs
import EdmQuery.Service.Basic

set_option autoImplicit false

namespace EdmQuery

section

variable {ε α β : Type}

theorem Result.forall₂_of_mapM {step : α → Except ε β} {items : List α} {results : List β}
    (done : items.mapM step = .ok results) :
    List.Forall₂ (fun item result => step item = .ok result) items results := by
  induction items generalizing results with
  | nil =>
    cases done
    exact .nil
  | cons item rest ih =>
    rw [List.mapM_cons] at done
    obtain ⟨result, first, done⟩ := Result.bind_eq_ok done
    obtain ⟨others, later, done⟩ := Result.bind_eq_ok done
    cases done
    exact .cons first (ih later)

theorem Build.forall₂_of_mapM {step : α → Build β} {items : List α} {results : List β}
    {supply rest : Supply} (done : (items.mapM step).run supply = (.ok results, rest)) :
    List.Forall₂ (fun item result => ∃ early late, (step item).run early = (.ok result, late))
      items results := by
  induction items generalizing results supply with
  | nil =>
    cases done
    exact .nil
  | cons item others ih =>
    rw [List.mapM_cons] at done
    obtain ⟨result, middle, first, done⟩ := Build.bind_eq_ok done
    obtain ⟨more, last, later, done⟩ := Build.bind_eq_ok done
    cases done
    exact .cons ⟨supply, middle, first⟩ (ih later)

end

namespace Selection

variable {α : Type} {instanceOf : α → ComplexValue} {registry : FunctionRegistry}
  {now : DateTimeOffset} {items left : List α}

theorem mem_of_filterAuxM {ε : Type} {passes : α → Except ε Bool} {collected : List α}
    (done : items.filterAuxM passes collected = .ok left) {item : α} (inside : item ∈ left) :
    item ∈ items ∨ item ∈ collected := by
  induction items generalizing collected with
  | nil =>
    cases done
    exact .inr inside
  | cons first rest ih =>
    rw [List.filterAuxM] at done
    obtain ⟨passed, -, later⟩ := Result.bind_eq_ok done
    rcases ih later with among | before
    · exact .inl (List.mem_cons_of_mem _ among)
    · cases passed with
      | false => exact .inr before
      | true =>
        rcases List.mem_cons.1 before with rfl | old
        · exact .inl List.mem_cons_self
        · exact .inr old

theorem mem_of_filter {condition : Node}
    (done : filter instanceOf registry now condition items = .ok left) {item : α}
    (inside : item ∈ left) : item ∈ items := by
  rw [filter, List.filterM] at done
  obtain ⟨collected, passed, result⟩ := Result.bind_eq_ok done
  cases result
  rcases mem_of_filterAuxM passed (List.mem_reverse.1 inside) with among | none
  · exact among
  · cases none

theorem mem_of_insertReversed {precedes : α → α → Bool} {item other : α}
    (inside : other ∈ insertReversed precedes item items) : other = item ∨ other ∈ items := by
  induction items with
  | nil => exact .inl (List.mem_singleton.1 inside)
  | cons last rest ih =>
    rw [insertReversed] at inside
    split at inside
    · rcases List.mem_cons.1 inside with rfl | later
      · exact .inr List.mem_cons_self
      · exact (ih later).imp_right (List.mem_cons_of_mem _)
    · exact List.mem_cons.1 inside

theorem mem_of_stableSort {precedes : α → α → Bool} {item : α}
    (inside : item ∈ stableSort precedes items) : item ∈ items := by
  have collected : ∀ sorted : List α,
      item ∈ items.foldl (fun sorted next => insertReversed precedes next sorted) sorted →
        item ∈ items ∨ item ∈ sorted := by
    clear inside
    induction items with
    | nil => exact fun sorted held => .inr held
    | cons first rest ih =>
      intro sorted held
      rcases ih _ held with later | before
      · exact .inl (List.mem_cons_of_mem _ later)
      · rcases mem_of_insertReversed before with rfl | old
        · exact .inl List.mem_cons_self
        · exact .inr old
  rcases collected [] (List.mem_reverse.1 inside) with among | none
  · exact among
  · cases none

theorem mem_of_orderBy {order : List OrderByItem}
    (done : orderBy instanceOf registry now order items = .ok left) {item : α}
    (inside : item ∈ left) : item ∈ items := by
  rw [orderBy] at done
  split at done
  · cases done
    exact inside
  · obtain ⟨keyed, keys, done⟩ := Result.bind_eq_ok done
    obtain ⟨-, -, result⟩ := Result.bind_eq_ok done
    cases result
    obtain ⟨row, sorted, rfl⟩ := List.mem_map.1 inside
    obtain ⟨other, among, read⟩ :=
      exists_of_forall₂ (Result.forall₂_of_mapM keys) (mem_of_stableSort sorted)
    obtain ⟨row, -, same⟩ := Result.bind_eq_ok read
    cases same
    exact among

end Selection

theorem Query.mem_of_page {α : Type} {query : Query} {items : List α} {item : α}
    (inside : item ∈ query.page items) : item ∈ items := by
  rw [page] at inside
  split at inside
  · exact List.mem_of_mem_drop (List.mem_of_mem_take inside)
  · exact List.mem_of_mem_drop inside

namespace Service

variable {service : Service} {query : Query} {set : String}

theorem mem_of_arrange {entities left : List ComplexValue}
    (done : service.arrange query entities = .ok left) {entity : ComplexValue}
    (inside : entity ∈ left) : entity ∈ entities := by
  rw [arrange] at done
  -- Whether there is a filter or not, what is sorted comes from the entities.
  have sorts : ∃ filtered, (∀ other ∈ filtered, other ∈ entities) ∧
      Selection.orderBy id service.functions service.now query.orderBy
        (query.search?.elim filtered fun expression =>
          Selection.search id service.source.searchHandler? expression filtered) = .ok left := by
    cases filtering : query.filter? with
    | none =>
      rw [filtering] at done
      obtain ⟨filtered, same, sorts⟩ := Result.bind_eq_ok done
      cases same
      refine ⟨entities, fun _ held => held, ?_⟩
      cases searching : query.search? <;> (rw [searching] at sorts; exact sorts)
    | some condition =>
      rw [filtering] at done
      obtain ⟨filtered, passes, sorts⟩ := Result.bind_eq_ok done
      refine ⟨filtered, fun _ held => Selection.mem_of_filter passes held, ?_⟩
      cases searching : query.search? <;> (rw [searching] at sorts; exact sorts)
  obtain ⟨filtered, kept, sorts⟩ := sorts
  have found := Selection.mem_of_orderBy sorts inside
  refine kept entity ?_
  cases searching : query.search? with
  | none =>
    rw [searching] at found
    exact found
  | some expression =>
    rw [searching] at found
    exact List.mem_of_mem_filter found

/-- What a query selects was read and then loaded. -/
theorem exists_of_select {supply rest : Supply} {selected : List ComplexValue}
    (done : (service.select set query).run supply = (.ok selected, rest)) :
    ∃ read middle, (service.entities set).run supply = (.ok read, middle) ∧
      ∀ entity ∈ selected, ∃ origin ∈ read, ∃ early late,
        service.loadPaths query.paths origin early = ((entity, .ok ()), late) := by
  obtain ⟨read, middle, reads, done⟩ := Build.bind_eq_ok done
  obtain ⟨loaded, last, loads, done⟩ := Build.bind_eq_ok done
  obtain ⟨arranged, final, arranges, result⟩ := Build.bind_eq_ok done
  cases result
  refine ⟨read, middle, reads, fun entity inside => ?_⟩
  have among : entity ∈ loaded := by
    have kept := Query.mem_of_page inside
    cases evaluated : service.arrange query loaded with
    | error error =>
      rw [evaluated] at arranges
      cases arranges
    | ok left =>
      rw [evaluated] at arranges
      cases arranges
      exact mem_of_arrange evaluated kept
  obtain ⟨origin, present, early, late, loaded⟩ :=
    exists_of_forall₂ (Build.forall₂_of_mapM loads) among
  exact ⟨origin, present, early, late, Edit.run_of_toBuild loaded⟩

end Service

end EdmQuery
