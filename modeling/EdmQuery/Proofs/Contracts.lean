import EdmQuery.Proofs.Containment
import EdmQuery.Proofs.Runs

set_option autoImplicit false

namespace EdmQuery

variable {α β : Type} {fails other : Error → Prop}

/-- Something holds of every result, and something of every error. -/
structure Build.Ensures (fails : Error → Prop) (holds : α → Prop) (build : Build α) : Prop where
  ok : ∀ {supply value rest}, build.run supply = (.ok value, rest) → holds value
  error : ∀ {supply error rest}, build.run supply = (.error error, rest) → fails error

theorem Build.bind_eq_error {first : Build α} {next : α → Build β} {error : Error}
    {supply rest : Supply} (failed : (first >>= next).run supply = (.error error, rest)) :
    first.run supply = (.error error, rest) ∨
      ∃ value middle, first.run supply = (.ok value, middle) ∧
        (next value).run middle = (.error error, rest) := by
  have whole : (first >>= next).run supply =
      ExceptT.bindCont next (first.run supply).1 (first.run supply).2 := rfl
  rcases ran : first.run supply with ⟨outcome, middle⟩
  rw [whole, ran] at failed
  cases outcome with
  | error found =>
    cases failed
    exact .inl rfl
  | ok value => exact .inr ⟨value, middle, rfl, failed⟩

theorem Build.bind_of_error {first : Build α} {next : α → Build β} {error : Error}
    {supply rest : Supply} (failed : first.run supply = (.error error, rest)) :
    (first >>= next).run supply = (.error error, rest) := by
  have whole : (first >>= next).run supply =
      ExceptT.bindCont next (first.run supply).1 (first.run supply).2 := rfl
  rw [whole, failed]
  rfl

namespace Build.Ensures

variable {holds : α → Prop} {later : β → Prop}

theorem pure {value : α} (holding : holds value) :
    Build.Ensures fails holds (Pure.pure value) where
  ok done := by
    cases done
    exact holding
  error failed := by cases failed

theorem throw {error : Error} (failing : fails error) :
    Build.Ensures fails holds (MonadExcept.throw error) where
  ok done := by cases done
  error failed := by
    cases failed
    exact failing

theorem bind {first : Build α} {next : α → Build β} (early : first.Ensures fails holds)
    (late : ∀ value, holds value → (next value).Ensures fails later) :
    (first >>= next).Ensures fails later where
  ok done := by
    obtain ⟨value, middle, ran, remaining⟩ := Build.bind_eq_ok done
    exact (late value (early.ok ran)).ok remaining
  error failed := by
    rcases Build.bind_eq_error failed with ran | ⟨value, middle, ran, remaining⟩
    · exact early.error ran
    · exact (late value (early.ok ran)).error remaining

theorem imp {build : Build α} {more : α → Prop} (ensures : build.Ensures fails holds)
    (results : ∀ value, holds value → more value) : build.Ensures fails more where
  ok done := results _ (ensures.ok done)
  error := ensures.error

theorem imp_error {build : Build α} (ensures : build.Ensures fails holds)
    (errors : ∀ error, fails error → other error) : build.Ensures other holds where
  ok := ensures.ok
  error failed := errors _ (ensures.error failed)

theorem ofBuilding {building : Building α} (each : ∀ supply, holds (building supply).1) :
    Build.Ensures fails holds (liftM building) where
  ok done := by
    cases done
    exact each _
  error failed := by cases failed

theorem ofResult {result : Result α} (ok : ∀ value, result = .ok value → holds value)
    (error : ∀ error, result = .error error → fails error) :
    (Build.ofResult result).Ensures fails holds where
  ok done := ok _ (congrArg Prod.fst done)
  error failed := error _ (congrArg Prod.fst failed)

theorem mapM {read : β → Build α} {items : List β}
    (each : ∀ item ∈ items, (read item).Ensures fails holds) :
    (items.mapM read).Ensures fails fun results => ∀ result ∈ results, holds result := by
  induction items with
  | nil => exact .pure fun result inside => by cases inside
  | cons item rest ih =>
    rw [List.mapM_cons]
    refine (each item List.mem_cons_self).bind fun result holding => ?_
    refine (ih fun other inside => each other (List.mem_cons_of_mem _ inside)).bind
      fun results all => .pure ?_
    exact List.forall_mem_cons.2 ⟨holding, all⟩

end Build.Ensures

namespace Edit

variable {edit first second : Edit α} {value changed : α} {supply rest : Supply} {error : Error}

theorem toBuild_congr (same : first value = second value) :
    first.toBuild value = second.toBuild value := by
  rw [toBuild, toBuild, same]

theorem toBuild_of_error (failed : edit value supply = ((changed, .error error), rest)) :
    (edit.toBuild value).run supply = (.error error, rest) := by
  rw [run_toBuild, failed]
  rfl

theorem toBuild_check (condition : α → Result Unit) (value : α) :
    (check condition).toBuild value =
      (do Build.ofResult (condition value); return value) := rfl

theorem toBuild_ofBuild (change : α → Build α) (value : α) :
    (ofBuild change).toBuild value = change value := by
  funext supply
  rcases ran : (change value).run supply with ⟨outcome, rest⟩
  refine Eq.trans ?_ ran.symm
  cases outcome with
  | ok changed => exact toBuild_of_ok (ofBuild_of_ok ran)
  | error error => exact toBuild_of_error (ofBuild_of_error ran)

theorem toBuild_andThen (first second : Edit α) (value : α) :
    (first.andThen second).toBuild value = first.toBuild value >>= second.toBuild := by
  funext supply
  show ((first.andThen second).toBuild value).run supply =
    (first.toBuild value >>= second.toBuild).run supply
  rcases ran : first value supply with ⟨⟨between, outcome⟩, middle⟩
  cases outcome with
  | ok done =>
    rw [Build.bind_of_ok (toBuild_of_ok ran), run_toBuild, run_toBuild, andThen_of_ok ran]
  | error error =>
    rw [Build.bind_of_error (toBuild_of_error ran), toBuild_of_error (andThen_of_error ran)]

theorem toBuild_each (edit : Edit α) (items : List α) :
    (each edit).toBuild items = items.mapM edit.toBuild := by
  induction items with
  | nil => rfl
  | cons item items ih =>
    rw [List.mapM_cons, ← ih]
    funext supply
    show ((each edit).toBuild (item :: items)).run supply =
      (edit.toBuild item >>= fun changed => (each edit).toBuild items >>= fun others =>
        (pure (changed :: others) : Build (List α))).run supply
    rcases ran : edit item supply with ⟨⟨changed, outcome⟩, middle⟩
    cases outcome with
    | error error =>
      rw [Build.bind_of_error (toBuild_of_error ran), run_toBuild]
      simp only [each, Bind.bind, StateT.bind, ran]
      rfl
    | ok done =>
      rw [Build.bind_of_ok (toBuild_of_ok ran), run_toBuild]
      rcases later : each edit items middle with ⟨⟨others, outcome⟩, last⟩
      simp only [each, Bind.bind, StateT.bind, ran, later]
      cases outcome with
      | error error =>
        refine Eq.trans ?_ (Build.bind_of_error (toBuild_of_error later)).symm
        rfl
      | ok done =>
        refine Eq.trans ?_ (Build.bind_of_ok (toBuild_of_ok later)).symm
        rfl

theorem editItems_eq_each (edit : Edit ComplexValue) :
    Value.editItems edit = each (Value.editContainers edit) := by
  funext items
  induction items with
  | nil => rfl
  | cons item items ih =>
    funext supply
    rcases ran : Value.editContainers edit item supply with ⟨⟨changed, outcome⟩, middle⟩
    cases outcome <;> simp only [Value.editItems, each, Bind.bind, StateT.bind, ran, ih]

/-- An edit of what stands inside something else. -/
theorem toBuild_wrapped (edit : Edit α) (value : α) (wrap : α → β) {whole : Edit β} {wrapped : β}
    (runs : ∀ supply, whole wrapped supply =
      ((wrap (edit value supply).1.1, (edit value supply).1.2), (edit value supply).2)) :
    whole.toBuild wrapped = (do return wrap (← edit.toBuild value)) := by
  funext supply
  show (whole.toBuild wrapped).run supply = _
  rw [run_toBuild, runs]
  rcases ran : edit value supply with ⟨⟨changed, outcome⟩, middle⟩
  cases outcome with
  | error error =>
    refine Eq.trans ?_ (Build.bind_of_error (toBuild_of_error ran)).symm
    rfl
  | ok done =>
    refine Eq.trans ?_ (Build.bind_of_ok (toBuild_of_ok ran)).symm
    rfl

end Edit

/-- An edit keeps something where it succeeds, and fails with some errors alone. -/
def Edit.Keeps (fails : Error → Prop) (holds : α → Prop) (edit : Edit α) : Prop :=
  ∀ value, holds value → (edit.toBuild value).Ensures fails holds

namespace Edit.Keeps

variable {holds : α → Prop} {edit first second : Edit α}

theorem skip : Edit.Keeps fails holds Edit.skip := fun _ before => .pure before

theorem unconstrained : Edit.Keeps (fun _ => True) (fun _ => True) edit :=
  fun _ _ => ⟨fun _ => trivial, fun _ => trivial⟩

theorem check {condition : α → Result Unit}
    (each : ∀ value error, holds value → condition value = .error error → fails error) :
    Edit.Keeps fails holds (Edit.check condition) := by
  intro value before
  rw [toBuild_check]
  have checked : (Build.ofResult (condition value)).Ensures fails fun _ => True :=
    .ofResult (fun _ _ => trivial) fun error => each value error before
  exact checked.bind fun _ _ => .pure before

theorem ofBuild {change : α → Build α}
    (each : ∀ value, holds value → (change value).Ensures fails holds) :
    Edit.Keeps fails holds (Edit.ofBuild change) := by
  intro value before
  rw [toBuild_ofBuild]
  exact each value before

theorem andThen (early : first.Keeps fails holds) (late : second.Keeps fails holds) :
    (first.andThen second).Keeps fails holds := by
  intro value before
  rw [toBuild_andThen]
  exact (early value before).bind late

theorem inTurn {edits : List (Edit α)} (each : ∀ edit ∈ edits, edit.Keeps fails holds) :
    (Edit.inTurn edits).Keeps fails holds := by
  induction edits with
  | nil => exact .skip
  | cons edit rest ih =>
    exact (each edit List.mem_cons_self).andThen
      (ih fun other inside => each other (List.mem_cons_of_mem _ inside))

end Edit.Keeps

section

variable {holds : ComplexValue → Prop} {edit : Edit ComplexValue}

mutual

theorem Value.keeps_editContainers (keeps : edit.Keeps fails holds) :
    Edit.Keeps fails (fun value => ∀ inner ∈ value.held, holds inner)
      (Value.editContainers edit) := by
  intro value all
  match value with
  | .primitive value => exact .pure all
  | .complex value =>
    rw [Edit.toBuild_wrapped edit value .complex fun supply => rfl]
    refine (keeps value (all value (List.mem_singleton.2 rfl))).bind fun changed kept => .pure ?_
    intro inner inside
    exact List.mem_singleton.1 inside ▸ kept
  | .collection items =>
    rw [Edit.toBuild_wrapped (Value.editItems edit) items .collection fun supply => rfl]
    exact (Value.keeps_editItems keeps items all).bind fun changed kept => .pure kept

theorem Value.keeps_editItems (keeps : edit.Keeps fails holds) :
    Edit.Keeps fails (fun items => ∀ inner ∈ Value.heldByItems items, holds inner)
      (Value.editItems edit) := by
  intro items all
  match items with
  | [] => exact .pure all
  | item :: rest =>
    have first := Value.keeps_editContainers keeps item fun inner inside =>
      all inner (List.mem_append_left _ inside)
    have others := Value.keeps_editItems keeps rest fun inner inside =>
      all inner (List.mem_append_right _ inside)
    rw [Edit.editItems_eq_each, Edit.toBuild_each] at others ⊢
    rw [List.mapM_cons]
    refine first.bind fun changed kept => others.bind fun remaining more => .pure ?_
    intro inner inside
    exact (List.mem_append.1 inside).elim (kept inner) (more inner)

end

/-- An edit of what a binding holds leaves the property. -/
theorem PropertyValue.keeps_editContainers (keeps : edit.Keeps fails holds)
    (property : Property) :
    Edit.Keeps fails (fun binding => binding.property = property ∧
        ∀ inner ∈ binding.held, holds inner) (PropertyValue.editContainers edit) := by
  intro binding both
  cases held : binding.value? with
  | none =>
    have unchanged : (PropertyValue.editContainers edit).toBuild binding = pure binding := by
      simp only [Edit.toBuild, PropertyValue.editContainers, held]
      rfl
    rw [unchanged]
    exact .pure both
  | some value =>
    have inside : ∀ inner ∈ value.held, holds inner := by
      have all := both.2
      rw [PropertyValue.held, held] at all
      exact all
    rw [Edit.toBuild_wrapped (Value.editContainers edit) value
      (fun changed => { binding with value? := some changed }) fun supply => by
        simp only [PropertyValue.editContainers, held]
        rfl]
    exact (Value.keeps_editContainers keeps value inside).bind fun changed kept =>
      .pure ⟨both.1, kept⟩

/-- What an edit keeps of each binding, the edit of all bindings keeps of the container. -/
theorem ComplexValue.keeps_editBindings {kept : ComplexValue → Prop} {bound : PropertyValue → Prop}
    {edit : Edit PropertyValue} (keeps : edit.Keeps fails bound)
    (parts : ∀ container, kept container → ∀ binding ∈ container.bindings, bound binding)
    (whole : ∀ container bindings, kept container → (∀ binding ∈ bindings, bound binding) →
      kept { container with bindings := bindings }) :
    Edit.Keeps fails kept (ComplexValue.editBindings edit) := by
  intro container before
  rw [Edit.toBuild_wrapped (Edit.each edit) container.bindings
    (fun bindings => { container with bindings := bindings }) fun supply => rfl, Edit.toBuild_each]
  have each : ∀ binding ∈ container.bindings, (edit.toBuild binding).Ensures fails bound :=
    fun binding inside => keeps binding (parts container before binding inside)
  exact (Build.Ensures.mapM each).bind fun bindings all => .pure (whole _ _ before all)

end

end EdmQuery
