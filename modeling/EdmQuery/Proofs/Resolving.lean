import EdmQuery.Proofs.Enrichment
import EdmQuery.Service.RecordStore

set_option autoImplicit false

namespace EdmQuery

section

variable {α β γ : Type}

theorem Build.alike_mapM {see : α → β} {read : γ → Build α}
    (each : ∀ item, Build.Alike see (read item) (read item)) (items : List γ) :
    Build.Alike (List.map see) (items.mapM read) (items.mapM read) := by
  induction items with
  | nil => exact .pure rfl
  | cons item rest ih =>
    rw [List.mapM_cons]
    refine (each item).bind fun first second same => ih.bind fun others more alike => .pure ?_
    rw [List.map_cons, List.map_cons, same, alike]

theorem Build.makes_mapM {holds : ComplexValue → Prop} {containersOf : α → List ComplexValue}
    {read : γ → Build α} (each : ∀ item, (read item).Makes holds [] containersOf)
    (items : List γ) :
    (items.mapM read).Makes holds [] fun results => results.flatMap containersOf := by
  induction items with
  | nil => exact .pure (fun container inside => by cases inside) fun id => Nat.le_refl _
  | cons item rest ih =>
    rw [List.mapM_cons]
    refine (each item).bind fun result all => ?_
    refine (ih.frame all).bind fun results both => .pure (fun container inside => ?_) fun id => ?_
    · rw [List.flatMap_cons, List.mem_append] at inside
      exact both container (List.mem_append.2 inside.symm)
    · refine Nat.le_of_eq ?_
      rw [List.flatMap_cons, identities_append, identities_append, List.count_append,
        List.count_append, Nat.add_comm]

end

theorem Value.itemContainers_eq (items : List Value) :
    itemContainers items = items.flatMap containers := by
  induction items with
  | nil => rfl
  | cons item rest ih => rw [itemContainers, ih, List.flatMap_cons]

namespace ComplexValue

variable {ofType : ComplexType → Prop} {holds : ComplexValue → Prop}

theorem makes_fill (kept : KeptByReading ofType holds) (hereditary : Hereditary ofType)
    {container : ComplexValue} (typed : ofType container.type)
    (all : ∀ inner ∈ container.containers, holds inner) (raw : Json) :
    (container.fill raw).Makes holds (identities container.containers) containers := by
  cases given : recordMembers raw with
  | error error =>
    rw [fill, given]
    exact .throw error
  | ok members =>
    rw [fill, given]
    have reads := ComplexType.makes_readers kept hereditary container.type typed
    exact (grows_bindAll kept hereditary.untyped reads (picked container.type members)).toBuild rfl
      all

theorem makes_entityOfRecord (kept : KeptByReading ofType holds) (hereditary : Hereditary ofType)
    (named : ∀ (container : ComplexValue) set, holds container → holds (container.setEntitySet set))
    {type : ComplexType} (typed : ofType type) (set : String) (raw : Json) :
    (entityOfRecord type set raw).Makes holds [] containers := by
  cases given : recordMembers raw with
  | error error =>
    rw [entityOfRecord, given]
    exact .throw error
  | ok members =>
    rw [entityOfRecord, given]
    cases checked : checkEntityType type with
    | error error =>
      rw [newEntity, checked]
      exact .throw error
    | ok _ =>
      rw [newEntity, checked]
      show Build.Makes holds (liftM (ComplexValue.ofType type) >>= fun entity =>
        (entity.setEntitySet set).fill (.object members)) [] containers
      refine Build.makes_ofType fun id => ?_
      refine makes_fill kept hereditary typed (fun inner inside => ?_) (.object members)
      rw [setEntitySet, containers, containersBelow, List.mem_singleton] at inside
      subst inside
      exact named _ set (kept.empty id type typed)

end ComplexValue

theorem ComplexType.keptByReading_storesAll :
    KeptByReading ComplexType.StoresAll fun container => container.type.StoresAll where
  empty _ _ stores := stores
  bind _ _ _ stores _ := stores
  relinked _ _ stores := stores

namespace RecordStore

variable {store : RecordStore}

/-- Parents of the same type, set and key have the same record. -/
theorem recordOf?_congr {first second : ComplexValue} (types : first.type = second.type)
    (sets : first.entitySet? = second.entitySet?) (keys : first.key? = second.key?) :
    store.recordOf? first = store.recordOf? second := by
  rw [recordOf?, recordOf?, types, sets, keys]

theorem resolve_congr {first second : ComplexValue} (types : first.type = second.type)
    (sets : first.entitySet? = second.entitySet?) (keys : first.key? = second.key?)
    (property : Property) (request other : NavigationRequest) :
    store.resolve first property request = store.resolve second property other := by
  rw [resolve, resolve, recordOf?_congr types sets keys]

theorem alike_related (target : ComplexType) (set? : Option String) (record : Json) :
    Build.Alike Value.anonymous (related target set? record) (related target set? record) := by
  refine Build.alike_ofType fun first second same => ?_
  refine (ComplexValue.alike_fill (ComplexValue.anonymous_inSet same set?) record).bind
    fun one other alike => .pure ?_
  exact congrArg Value.complex alike

theorem makes_related {target : ComplexType} (stores : target.StoresAll) (set? : Option String)
    (record : Json) :
    (related target set? record).Makes (fun container => container.type.StoresAll) []
      Value.containers := by
  refine Build.makes_ofType fun id => ?_
  refine (ComplexValue.makes_fill ComplexType.keptByReading_storesAll
    ComplexType.hereditary_storesAll stores (fun inner inside => ?_) record).bind
      fun container all => .pure all fun id => Nat.le_refl _
  rw [ComplexValue.containers, ComplexValue.containersBelow, List.mem_singleton] at inside
  subst inside
  exact stores

/-- What a store can answer: nothing, an error, related entities or one related entity. -/
theorem resolve_cases (store : RecordStore) (parent : ComplexValue) (property : Property)
    (request : NavigationRequest) :
    store.resolve parent property request = pure none ∨
      (∃ error, store.resolve parent property request = throw error) ∨
        ∃ target set?, (∃ name, store.schema.type? name = some target) ∧
          ((∃ records : List Json, store.resolve parent property request =
              (do return some (.collection (← records.mapM (related target set?))))) ∨
            ∃ record, store.resolve parent property request =
              (do return some (← related target set? record))) := by
  rw [resolve]
  cases property.kind.navigation? with
  | none => exact .inl rfl
  | some binding =>
    dsimp only
    cases known : store.schema.type? binding.targetType with
    | none => exact .inr (.inl ⟨_, rfl⟩)
    | some target =>
      have typed : ∃ name, store.schema.type? name = some target := ⟨_, known⟩
      dsimp only
      cases (store.recordOf? parent).bind (·.get? property.name) with
      | none => exact .inl rfl
      | some raw =>
        cases raw with
        | null => exact .inl rfl
        | array records =>
          cases binding.isCollection with
          | true => exact .inr (.inr ⟨target, binding.targetSet?, typed, .inl ⟨records, rfl⟩⟩)
          | false => exact .inr (.inl ⟨_, rfl⟩)
        | object members =>
          cases binding.isCollection with
          | true => exact .inr (.inl ⟨_, rfl⟩)
          | false => exact .inr (.inr ⟨target, binding.targetSet?, typed, .inr ⟨_, rfl⟩⟩)
        | _ => exact .inr (.inl ⟨_, rfl⟩)

/-- A store over a compiled schema knows parents by their keys. -/
theorem isByKey_resolve (compiled : store.schema.IsCompiled) : store.resolve.IsByKey where
  alike first second property request other types sets keys := by
    rw [← resolve_congr types sets keys property request other]
    rcases store.resolve_cases first property request with
      same | ⟨error, same⟩ | ⟨target, set?, -, ⟨records, same⟩ | ⟨record, same⟩⟩
    · rw [same]
      exact .pure rfl
    · rw [same]
      exact .throw error
    · rw [same]
      have each := Build.alike_mapM (alike_related target set?) records
      exact each.bind fun items others alike => .pure (Value.alike_collection alike)
    · rw [same]
      refine (alike_related target set? record).bind fun value other alike => .pure ?_
      exact congrArg some alike
  structured parent property request supply value rest found := by
    rcases store.resolve_cases parent property request with
      same | ⟨error, same⟩ | ⟨target, set?, -, ⟨records, same⟩ | ⟨record, same⟩⟩
    · rw [same] at found
      cases found
    · rw [same] at found
      cases found
    · rw [same] at found
      obtain ⟨items, middle, -, result⟩ := Build.bind_eq_ok found
      cases result
      rfl
    · rw [same] at found
      obtain ⟨one, middle, reads, result⟩ := Build.bind_eq_ok found
      obtain ⟨container, created, -, reads⟩ := Build.bind_eq_ok reads
      obtain ⟨filled, last, -, reads⟩ := Build.bind_eq_ok reads
      cases reads
      cases result
      rfl
  stored parent property request supply value rest found := by
    rcases store.resolve_cases parent property request with
      same | ⟨error, same⟩ | ⟨target, set?, ⟨name, known⟩, ⟨records, same⟩ | ⟨record, same⟩⟩
    · rw [same] at found
      cases found
    · rw [same] at found
      cases found
    · rw [same] at found
      obtain ⟨items, middle, reads, result⟩ := Build.bind_eq_ok found
      have makes := Build.makes_mapM
        (makes_related (compiled.storesAll_type? known) set?) records supply
      rw [reads] at makes
      cases result
      intro inner inside
      rw [Value.containers, Value.itemContainers_eq] at inside
      exact makes.1 inner inside
    · rw [same] at found
      obtain ⟨one, middle, reads, result⟩ := Build.bind_eq_ok found
      have makes := makes_related (compiled.storesAll_type? known) set? record supply
      rw [reads] at makes
      cases result
      exact makes.1

end RecordStore

end EdmQuery
