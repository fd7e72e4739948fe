import EdmQuery.Proofs.Loading

set_option autoImplicit false

/- What stands along a path that was loaded. A container is completed along a path if everything
there is what the original container, asked step by step, would have answered. Loading a path
completes a container along it, and loading other paths before or after changes nothing of that; so
two copies of an instance agree along each path that was loaded into both. -/
namespace EdmQuery

namespace ComplexValue

/-- Two containers have the same binding under a name, up to identities. -/
def SameUnder (name : String) (first second : ComplexValue) : Prop :=
  (first.get? name).map PropertyValue.anonymous = (second.get? name).map PropertyValue.anonymous

variable {first second : ComplexValue} {name : String}

theorem SameUnder.has_eq (same : first.SameUnder name second) :
    first.has name = second.has name := by
  have found := congrArg Option.isSome same
  rwa [Option.isSome_map, Option.isSome_map, ← has_eq_isSome, ← has_eq_isSome] at found

theorem SameUnder.value?_eq (same : first.SameUnder name second) :
    (first.value? name).map Value.anonymous = (second.value? name).map Value.anonymous := by
  have values : ∀ container : ComplexValue, (container.value? name).map Value.anonymous =
      ((container.get? name).map PropertyValue.anonymous).bind PropertyValue.value? := by
    intro container
    rw [value?]
    cases container.get? name with
    | none => rfl
    | some binding =>
      rw [Option.map_some, Option.bind_some, Option.bind_some, PropertyValue.anonymous,
        PropertyValue.erased_eq]
      rfl
  rw [values, values, same]

theorem Twins.sameUnder (twins : first.Twins second) (name : String) :
    first.SameUnder name second := by
  have found : ∀ container : ComplexValue, container.anonymous.get? name =
      (container.get? name).map PropertyValue.anonymous := by
    intro container
    have named : ∀ binding : PropertyValue, binding.anonymous.name = binding.name :=
      fun binding => congrArg Property.name (PropertyValue.property_erased _ binding)
    rw [anonymous_eq, get?, get?, Keyed.find?, Keyed.find?, List.find?_map]
    simp only [Function.comp_def, named]
  rw [SameUnder, ← found, ← found, twins]

end ComplexValue

namespace Emitter

variable {emitter : Emitter}

theorem anonymous_orEmpty (property : Property) (found? : Option Value) :
    (orEmpty property found?).map Value.anonymous =
      orEmpty property (found?.map Value.anonymous) := by
  cases found? with
  | none =>
    rw [Option.map_none, orEmpty]
    split <;> rfl
  | some value => rfl

theorem answer_eq (steady : emitter.IsSteady) (property : Property) {first second : ComplexValue}
    (same : first.stored = second.stored) (early late : Supply) :
    (emitter.answer property first early).map (Option.map Value.anonymous) =
      (emitter.answer property second late).map (Option.map Value.anonymous) := by
  rw [answer, answer]
  cases resolving : emitter.resolver? with
  | none => rfl
  | some resolver =>
    have answers := steady resolver resolving first second property ⟨property.name, .default⟩
      early late same
    have ordered : ∀ found : Result (Option Value),
        (found.map (orEmpty property)).map (Option.map Value.anonymous) =
          (found.map (Option.map Value.anonymous)).map (orEmpty property) := by
      intro found
      cases found with
      | error error => rfl
      | ok found? => exact congrArg Except.ok (anonymous_orEmpty property found?)
    simp only [ordered, answers]

theorem exists_of_map_eq {first second : Result (Option Value)} {value? : Option Value}
    (same : first.map (Option.map Value.anonymous) = second.map (Option.map Value.anonymous))
    (answered : second = .ok value?) :
    ∃ other?, first = .ok other? ∧ other?.map Value.anonymous = value?.map Value.anonymous := by
  subst answered
  cases first with
  | error error => cases same
  | ok other? => exact ⟨other?, rfl, Except.ok.inj same⟩

theorem anonymous_adopt {value? other? : Option Value}
    (same : value?.map Value.anonymous = other?.map Value.anonymous) (first second : ContainerId)
    (name : String) :
    (value?.map (Value.adopt ⟨first, name⟩)).map Value.anonymous =
      (other?.map (Value.adopt ⟨second, name⟩)).map Value.anonymous := by
  have adopted : ∀ (owner : ContainerId) (held? : Option Value),
      (held?.map (Value.adopt ⟨owner, name⟩)).map Value.anonymous =
        (held?.map Value.anonymous).map (Value.adopt ⟨⟨0⟩, name⟩) := by
    intro owner held?
    rw [Option.map_map, Option.map_map]
    exact congrArg (Option.map · held?)
      (funext fun value => Value.erased_adopt (fun _ => true) ⟨owner, name⟩ value)
  rw [adopted, same, ← adopted second]

/-- Two containers of the same content are answered the same where they are bound alike. -/
theorem fetch_alike (steady : emitter.IsSteady) {property : Property}
    {first second : ComplexValue} (same : first.stored = second.stored)
    (bound : first.SameUnder property.name second) {value? : Option Value}
    (fetched : emitter.fetch property second = .ok value?) :
    ∃ other?, emitter.fetch property first = .ok other? ∧
      other?.map Value.anonymous = value?.map Value.anonymous := by
  rw [fetch] at fetched ⊢
  rw [bound.has_eq]
  split at fetched
  · rename_i open_
    rw [if_pos open_]
    cases answered : emitter.answer property second ⟨0⟩ with
    | error error =>
      rw [answered] at fetched
      cases fetched
    | ok answer? =>
      obtain ⟨other?, given, alike⟩ :=
        exists_of_map_eq (answer_eq steady property same ⟨0⟩ ⟨0⟩) answered
      rw [answered] at fetched
      cases fetched
      rw [given]
      exact ⟨_, rfl, anonymous_adopt alike _ _ _⟩
  · rename_i closed
    rw [if_neg closed]
    cases fetched
    exact ⟨_, rfl, bound.value?_eq⟩

/-- Nothing is asked for what is bound. -/
theorem fetch_of_has {property : Property} {container : ComplexValue}
    (held : emitter.follows property = true → container.has property.name = true) :
    emitter.fetch property container = .ok (container.value? property.name) := by
  have closed : ¬ (emitter.follows property && !container.has property.name) = true := by
    intro open_
    rw [Bool.and_eq_true, Bool.not_eq_true'] at open_
    rw [held open_.1] at open_
    cases open_.2
  rw [fetch, if_neg closed]

/-- Where the first step of a path leads: to what would have been fetched there. -/
theorem Binds.fetch_eq (steady : emitter.IsSteady) {property : Property}
    {before after : ComplexValue} (binds : emitter.Binds property before after) :
    ∃ value?, emitter.fetch property before = .ok value? ∧
      value?.map Value.anonymous = (after.value? property.name).map Value.anonymous := by
  rcases binds.eq_or_bind with ⟨held, rfl⟩ | ⟨follows, open_, supply, value?, answered, rfl⟩
  · exact ⟨_, fetch_of_has held, rfl⟩
  · obtain ⟨other?, given, alike⟩ :=
      exists_of_map_eq (answer_eq steady property rfl ⟨0⟩ supply) answered
    have bound : (before.bind property value?).value? property.name =
        value?.map (Value.adopt ⟨before.id, property.name⟩) := by
      rw [ComplexValue.value?, ComplexValue.get?_bind, if_pos rfl]
      rfl
    rw [fetch, follows, open_, given, bound]
    exact ⟨_, rfl, anonymous_adopt alike _ _ _⟩

end Emitter

namespace ComplexValue

/-- Along a path, a container holds what another one, asked step by step, would have answered. -/
def Completed (emitter : Emitter) : List String → ComplexValue → ComplexValue → Prop
  | [], before, after => before.stored = after.stored
  | name :: rest, before, after =>
    before.stored = after.stored ∧
      match before.type.property? name with
      | none => before.SameUnder name after
      | some property =>
        (emitter.follows property = true → after.has name = true) ∧
          ∃ value?, emitter.fetch property before = .ok value? ∧
            Value.OptionRelated (Completed emitter rest) value? (after.value? name)

variable {emitter : Emitter}

theorem Completed.stored_eq {path : List String} {before after : ComplexValue}
    (completed : Completed emitter path before after) : before.stored = after.stored := by
  cases path with
  | nil => exact completed
  | cons name rest => exact completed.1

theorem Completed.of_twins (steady : emitter.IsSteady) {path : List String}
    {twin before after : ComplexValue} (twins : twin.Twins before)
    (completed : Completed emitter path before after) : Completed emitter path twin after := by
  have stored : twin.stored = before.stored := stored_eq_of_anonymous twins
  induction path generalizing twin before after with
  | nil => exact stored.trans completed
  | cons name rest ih =>
    obtain ⟨same, next⟩ := completed
    refine ⟨stored.trans same, ?_⟩
    rw [type_eq_of_stored stored]
    cases found : before.type.property? name with
    | none =>
      rw [found] at next
      exact (twins.sameUnder name).trans next
    | some property =>
      have named : property.name = name := (Keyed.keyOf_of_find? _ found).1
      rw [found] at next
      obtain ⟨held, value?, fetched, related⟩ := next
      obtain ⟨other?, given, alike⟩ :=
        Emitter.fetch_alike steady stored (named ▸ twins.sameUnder name) fetched
      refine ⟨held, other?, given, ?_⟩
      refine Value.OptionRelated.comp ?_ (Value.optionRelated_of_anonymous alike) related
      intro x y z inner later
      exact ih inner later (stored_eq_of_anonymous inner)

/-- What is completed from one answer is completed from the same answer to another request. -/
theorem completed_of_twinAnswers (steady : emitter.IsSteady) {path : List String}
    {twin? before? after? : Option Value}
    (twins : twin?.map Value.anonymous = before?.map Value.anonymous)
    (completed : Value.OptionRelated (Completed emitter path) before? after?) :
    Value.OptionRelated (Completed emitter path) twin? after? := by
  refine Value.OptionRelated.comp ?_ (Value.optionRelated_of_anonymous twins) completed
  intro x y z inner later
  exact later.of_twins steady inner

/-- A path that is loaded is completed. -/
theorem completed_of_loads (steady : emitter.IsSteady) {path : List String}
    {before after : ComplexValue} (loads : emitter.Loads path before after) :
    Completed emitter path before after := by
  induction path generalizing before after with
  | nil => exact loads.stored_eq
  | cons name rest ih =>
    refine ⟨loads.stored_eq, ?_⟩
    rcases loads.cases with ⟨found, rfl⟩ | ⟨property, bound, found, named, binds, descends⟩
    · rw [found]
      exact rfl
    · rw [found]
      subst named
      obtain ⟨value?, fetched, alike⟩ := binds.fetch_eq steady
      refine ⟨fun follows => ?_, value?, fetched, ?_⟩
      · rw [descends.has_eq]
        exact binds.has_of_follows follows
      · have below : Value.OptionRelated (Completed emitter rest) (bound.value? property.name)
            (after.value? property.name) := descends.value?_related.imp fun x y inner => ih inner
        exact completed_of_twinAnswers steady alike below

/-- What is completed along a path stays so when another path is loaded. -/
theorem Completed.loads {path other : List String} {before between after : ComplexValue}
    (completed : Completed emitter path before between)
    (loads : emitter.Loads other between after) : Completed emitter path before after := by
  induction path generalizing other before between after with
  | nil => exact completed.stored_eq.trans loads.stored_eq
  | cons name rest ih =>
    obtain ⟨same, next⟩ := completed
    have types : before.type = between.type := type_eq_of_stored same
    refine ⟨same.trans loads.stored_eq, ?_⟩
    cases found : before.type.property? name with
    | none =>
      rw [found] at next
      rw [types] at found
      show (before.get? name).map _ = (after.get? name).map _
      rw [loads.get?_eq fun _ => found]
      exact next
    | some property =>
      have named : property.name = name := (Keyed.keyOf_of_find? _ found).1
      rw [found] at next
      rw [types] at found
      subst named
      obtain ⟨held, value?, fetched, related⟩ := next
      by_cases begins : other.head? = some property.name
      · obtain ⟨others, rfl⟩ := List.head?_eq_some_iff.1 begins
        obtain ⟨bound, binds, descends⟩ := loads.cases_declared found
        have unchanged : bound = between := binds.eq_self held
        subst unchanged
        refine ⟨fun follows => ?_, value?, fetched, ?_⟩
        · rw [descends.has_eq]
          exact held follows
        · refine Value.OptionRelated.comp ?_ related descends.value?_related
          intro x y z inner later
          exact ih inner later
      · have kept : after.get? property.name = between.get? property.name :=
          loads.get?_eq fun first => absurd first begins
        refine ⟨fun follows => ?_, value?, fetched, ?_⟩
        · rw [has_eq_isSome, kept, ← has_eq_isSome]
          exact held follows
        · rw [ComplexValue.value?, kept]
          exact related

/-- A container that is completed after another path was loaded is so from the start. -/
theorem Completed.of_loads (steady : emitter.IsSteady) {path other : List String}
    {before between after : ComplexValue} (loads : emitter.Loads other before between)
    (completed : Completed emitter path between after) :
    Completed emitter path before after := by
  induction path generalizing other before between after with
  | nil => exact loads.stored_eq.trans completed.stored_eq
  | cons name rest ih =>
    obtain ⟨same, next⟩ := completed
    have types : before.type = between.type := type_eq_of_stored loads.stored_eq
    refine ⟨loads.stored_eq.trans same, ?_⟩
    rw [types]
    cases found : between.type.property? name with
    | none =>
      rw [found] at next
      rw [← types] at found
      show (before.get? name).map _ = (after.get? name).map _
      rw [← loads.get?_eq fun _ => found]
      exact next
    | some property =>
      have named : property.name = name := (Keyed.keyOf_of_find? _ found).1
      rw [found] at next
      rw [← types] at found
      subst named
      obtain ⟨held, value?, fetched, related⟩ := next
      refine ⟨held, ?_⟩
      by_cases begins : other.head? = some property.name
      · obtain ⟨others, rfl⟩ := List.head?_eq_some_iff.1 begins
        obtain ⟨bound, binds, descends⟩ := loads.cases_declared found
        obtain ⟨other?, given, alike⟩ := binds.fetch_eq steady
        have there : emitter.fetch property between = .ok (between.value? property.name) := by
          apply Emitter.fetch_of_has
          intro follows
          rw [descends.has_eq]
          exact binds.has_of_follows follows
        rw [fetched] at there
        cases there
        have below : Value.OptionRelated (Completed emitter rest) (bound.value? property.name)
            (after.value? property.name) := by
          refine Value.OptionRelated.comp ?_ descends.value?_related related
          intro x y z loaded inner
          exact ih loaded inner
        exact ⟨other?, given, completed_of_twinAnswers steady alike below⟩
      · have kept : between.get? property.name = before.get? property.name :=
          loads.get?_eq fun first => absurd first begins
        have bound : before.SameUnder property.name between := by
          rw [SameUnder, kept]
        obtain ⟨other?, given, alike⟩ :=
          Emitter.fetch_alike steady loads.stored_eq bound fetched
        exact ⟨other?, given, completed_of_twinAnswers steady alike related⟩

/-- What is completed along a path stays so when other paths are loaded. -/
theorem Completed.loadPaths {path : List String} {others : List PropertyPath}
    {before between after : ComplexValue} {supply rest : Supply}
    (completed : Completed emitter path before between)
    (done : emitter.loadPaths others between supply = ((after, .ok ()), rest)) :
    Completed emitter path before after := by
  induction others generalizing between supply with
  | nil =>
    cases done
    exact completed
  | cons first others ih =>
    obtain ⟨next, middle, one, later⟩ := Edit.andThen_eq_ok done
    exact ih (completed.loads ⟨supply, middle, one⟩) later

/-- Loading several paths completes a container along each of them. -/
theorem completed_of_loadPaths (steady : emitter.IsSteady) {paths : List PropertyPath}
    {before after : ComplexValue} {supply rest : Supply}
    (done : emitter.loadPaths paths before supply = ((after, .ok ()), rest)) :
    ∀ path ∈ paths, Completed emitter path.segments before after := by
  induction paths generalizing before supply with
  | nil =>
    intro path inside
    cases inside
  | cons first others ih =>
    obtain ⟨between, middle, one, later⟩ := Edit.andThen_eq_ok done
    have loads : emitter.Loads first.segments before between := ⟨supply, middle, one⟩
    intro path inside
    rcases List.mem_cons.1 inside with rfl | inside
    · exact (completed_of_loads steady loads).loadPaths later
    · exact (ih later path inside).of_loads steady loads

/-- Whoever follows a path from one container or the other finds the same, as far as the containers
that are passed hold it by themselves. -/
def Alike : List String → ComplexValue → ComplexValue → Prop
  | [], first, second => first.stored = second.stored
  | name :: rest, first, second =>
    first.stored = second.stored ∧
      (first.type.property? name = none → first.has name = second.has name) ∧
        Value.OptionRelated (Alike rest) (first.value? name) (second.value? name)

theorem Alike.stored_eq {path : List String} {first second : ComplexValue}
    (alike : Alike path first second) : first.stored = second.stored := by
  cases path with
  | nil => exact alike
  | cons name rest => exact alike.1

theorem Twins.alike {first second : ComplexValue} (twins : first.Twins second)
    (path : List String) : Alike path first second := by
  have stored : first.stored = second.stored := stored_eq_of_anonymous twins
  induction path generalizing first second with
  | nil => exact stored
  | cons name rest ih =>
    have same := twins.sameUnder name
    refine ⟨stored, fun _ => same.has_eq, ?_⟩
    refine (Value.optionRelated_of_anonymous same.value?_eq).imp ?_
    intro x y inner
    exact ih inner (stored_eq_of_anonymous inner)

theorem Completed.alike {path : List String} {before first second : ComplexValue}
    (one : Completed emitter path before first) (other : Completed emitter path before second) :
    Alike path first second := by
  induction path generalizing before first second with
  | nil => exact one.stored_eq.symm.trans other.stored_eq
  | cons name rest ih =>
    obtain ⟨same, next⟩ := one
    obtain ⟨equal, later⟩ := other
    refine ⟨same.symm.trans equal, ?_⟩
    rw [← type_eq_of_stored same]
    cases found : before.type.property? name with
    | none =>
      rw [found] at next later
      have under : first.SameUnder name second := Eq.trans (Eq.symm next) later
      refine ⟨fun _ => under.has_eq, ?_⟩
      refine (Value.optionRelated_of_anonymous under.value?_eq).imp ?_
      intro x y twins
      exact twins.alike rest
    | some property =>
      rw [found] at next later
      obtain ⟨-, value?, fetched, related⟩ := next
      obtain ⟨-, other?, again, alike⟩ := later
      rw [fetched] at again
      cases again
      refine ⟨fun none => (by cases none), ?_⟩
      refine Value.OptionRelated.comp ?_ (related.symm fun x y inner => inner) alike
      intro x y z left right
      exact ih left right

/-- Two copies of an instance agree along every path that was loaded into both. -/
theorem alike_of_loadPaths (steady : emitter.IsSteady) {paths others : List PropertyPath}
    {first second one other : ComplexValue} (twins : first.Twins second)
    {early late left right : Supply}
    (loaded : emitter.loadPaths paths first early = ((one, .ok ()), left))
    (loadedMore : emitter.loadPaths others second late = ((other, .ok ()), right))
    (path : PropertyPath) (inside : path.isRoot = true ∨ path ∈ paths ∧ path ∈ others) :
    Alike path.segments one other := by
  rcases inside with root | ⟨inside, also⟩
  · have start : ∀ container, Completed emitter [] container container := fun _ => rfl
    rw [PropertyPath.isRoot, List.isEmpty_iff] at root
    rw [root]
    have kept := ((start second).loadPaths loadedMore).of_twins steady twins
    exact ((start first).loadPaths loaded).alike kept
  · have completed := completed_of_loadPaths steady loadedMore path also
    exact (completed_of_loadPaths steady loaded path inside).alike (completed.of_twins steady twins)

end ComplexValue

end EdmQuery
