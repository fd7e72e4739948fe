import EdmQuery.Proofs.Containment

set_option autoImplicit false

namespace EdmQuery

namespace Supply

/-- Between two states of a supply identities may be lost, and new ones come from the supply, each of
them once. -/
def Draws (first last : Supply) (before after : List ContainerId) : Prop :=
  first.next ≤ last.next ∧ ∀ id, after.count id ≤ before.count id +
    if first.next ≤ id.number ∧ id.number < last.next then 1 else 0

/-- The identities of a state were all given out before, and each stands once. -/
def Covers (supply : Supply) (ids : List ContainerId) : Prop :=
  ∀ id, ids.count id ≤ if id.number < supply.next then 1 else 0

variable {first middle last : Supply} {before between after others rest : List ContainerId}

theorem draws_of_count_le (fewer : ∀ id, after.count id ≤ before.count id) :
    first.Draws first before after :=
  ⟨Nat.le_refl _, fun id => Nat.le_trans (fewer id) (Nat.le_add_right _ _)⟩

theorem draws_self (ids : List ContainerId) : first.Draws first ids ids :=
  draws_of_count_le fun _ => Nat.le_refl _

theorem Draws.trans (early : first.Draws middle before between)
    (late : middle.Draws last between after) : first.Draws last before after := by
  refine ⟨Nat.le_trans early.1 late.1, fun id => ?_⟩
  have one := early.2 id
  have two := late.2 id
  have := early.1
  have := late.1
  split at one <;> split at two <;> split <;> omega

/-- What is set aside stays as it is. -/
theorem Draws.frame (draws : first.Draws last before after) (aside : List ContainerId) :
    first.Draws last (before ++ aside) (after ++ aside) := by
  refine ⟨draws.1, fun id => ?_⟩
  have := draws.2 id
  rw [List.count_append, List.count_append]
  omega

theorem Draws.of_count_le (draws : first.Draws last before after)
    (fewer : ∀ id, rest.count id ≤ after.count id) : first.Draws last before rest :=
  draws.trans (draws_of_count_le fewer)

theorem Draws.of_le_count (draws : first.Draws last before after)
    (more : ∀ id, before.count id ≤ others.count id) : first.Draws last others after :=
  (draws_of_count_le more).trans draws

/-- What was not touched may be kept beside. -/
theorem Draws.keep (draws : first.Draws last before after) (ids : List ContainerId) :
    first.Draws last ids ids :=
  ⟨draws.1, fun _ => Nat.le_add_right _ _⟩

theorem draws_fresh (supply : Supply) : supply.Draws ⟨supply.next + 1⟩ [] [⟨supply.next⟩] := by
  refine ⟨Nat.le_succ _, fun id => ?_⟩
  rw [List.count_singleton, List.count_nil]
  by_cases same : ({ number := supply.next } : ContainerId) == id
  · have equal := eq_of_beq same
    subst equal
    simp
  · simp only [if_neg same, Nat.zero_le]

theorem Covers.draws (covers : first.Covers before) (draws : first.Draws last before after) :
    last.Covers after := by
  intro id
  have held := covers id
  have more := draws.2 id
  have := draws.1
  split at held <;> split at more <;> split <;> omega

theorem Covers.nodup (covers : first.Covers before) : before.Nodup := by
  rw [List.nodup_iff_count]
  intro id
  have held := covers id
  split at held <;> omega

end Supply

/-- The containers in a result, none in an error. -/
def made {α : Type} (containersOf : α → List ComplexValue) : Result α → List ComplexValue
  | .ok value => containersOf value
  | .error _ => []

section

variable {α β : Type} {holds : ComplexValue → Prop}

/-- From identities that are spent, a computation makes containers of a kind. -/
def Building.Makes (holds : ComplexValue → Prop) (computation : Building α)
    (spent : List ContainerId) (containersOf : α → List ComplexValue) : Prop :=
  ∀ supply, (∀ container ∈ containersOf (computation supply).1, holds container) ∧
    supply.Draws (computation supply).2 spent (identities (containersOf (computation supply).1))

def Build.Makes (holds : ComplexValue → Prop) (computation : Build α) (spent : List ContainerId)
    (containersOf : α → List ComplexValue) : Prop :=
  Building.Makes holds computation.run spent (made containersOf)

namespace Building.Makes

variable {spent : List ContainerId} {containersOf : α → List ComplexValue}
  {laterOf : β → List ComplexValue}

theorem pure {value : α} (all : ∀ container ∈ containersOf value, holds container)
    (fewer : ∀ id, (identities (containersOf value)).count id ≤ spent.count id) :
    Building.Makes holds (Pure.pure value) spent containersOf :=
  fun _ => ⟨all, Supply.draws_of_count_le fewer⟩

theorem bind {computation : Building α} {next : α → Building β}
    (makes : Building.Makes holds computation spent containersOf)
    (later : ∀ value, (∀ container ∈ containersOf value, holds container) →
      Building.Makes holds (next value) (identities (containersOf value)) laterOf) :
    Building.Makes holds (computation >>= next) spent laterOf := by
  intro supply
  obtain ⟨all, draws⟩ := makes supply
  obtain ⟨allLater, drawsLater⟩ := later _ all (computation supply).2
  exact ⟨allLater, draws.trans drawsLater⟩

theorem frame {computation : Building α}
    (makes : Building.Makes holds computation spent containersOf) {aside : List ComplexValue}
    (all : ∀ container ∈ aside, holds container) :
    Building.Makes holds computation (spent ++ identities aside)
      fun value => containersOf value ++ aside := by
  intro supply
  obtain ⟨made, draws⟩ := makes supply
  refine ⟨fun container inside => ?_, ?_⟩
  · rcases List.mem_append.1 inside with inside | inside
    · exact made container inside
    · exact all container inside
  · rw [identities_append]
    exact draws.frame _

end Building.Makes

namespace Build.Makes

variable {spent : List ContainerId} {containersOf : α → List ComplexValue}
  {laterOf : β → List ComplexValue}

theorem pure {value : α} (all : ∀ container ∈ containersOf value, holds container)
    (fewer : ∀ id, (identities (containersOf value)).count id ≤ spent.count id) :
    Build.Makes holds (Pure.pure value) spent containersOf :=
  fun _ => ⟨all, Supply.draws_of_count_le fewer⟩

theorem throw (error : Error) : Build.Makes holds (throw error : Build α) spent containersOf := by
  refine fun _ => ⟨fun container inside => (by cases inside), Supply.draws_of_count_le fun id => ?_⟩
  exact Nat.zero_le _

theorem ofResult {result : Result α}
    (all : ∀ value, result = .ok value → ∀ container ∈ containersOf value, holds container)
    (fewer : ∀ value, result = .ok value →
      ∀ id, (identities (containersOf value)).count id ≤ spent.count id) :
    Build.Makes holds (Build.ofResult result) spent containersOf := by
  cases result with
  | error error => exact throw error
  | ok value => exact pure (all value rfl) (fewer value rfl)

theorem bind {computation : Build α} {next : α → Build β}
    (makes : Build.Makes holds computation spent containersOf)
    (later : ∀ value, (∀ container ∈ containersOf value, holds container) →
      Build.Makes holds (next value) (identities (containersOf value)) laterOf) :
    Build.Makes holds (computation >>= next) spent laterOf := by
  intro supply
  obtain ⟨all, draws⟩ := makes supply
  have whole : (computation >>= next).run supply =
      ExceptT.bindCont next (computation.run supply).1 (computation.run supply).2 := rfl
  rw [whole]
  rcases ran : computation.run supply with ⟨outcome, middle⟩
  rw [ran] at all draws
  cases outcome with
  | error error =>
    refine ⟨fun container inside => (by cases inside), draws.of_count_le fun id => ?_⟩
    exact Nat.zero_le _
  | ok value =>
    obtain ⟨allLater, drawsLater⟩ := later value all middle
    exact ⟨allLater, draws.trans drawsLater⟩

theorem frame {computation : Build α}
    (makes : Build.Makes holds computation spent containersOf) {aside : List ComplexValue}
    (all : ∀ container ∈ aside, holds container) :
    Build.Makes holds computation (spent ++ identities aside)
      fun value => containersOf value ++ aside := by
  intro supply
  obtain ⟨made, draws⟩ := Building.Makes.frame makes all supply
  cases outcome : (computation.run supply).1 with
  | error error =>
    rw [outcome] at draws
    refine ⟨fun container inside => (by cases inside), draws.of_count_le fun id => ?_⟩
    exact Nat.zero_le _
  | ok value =>
    rw [outcome] at made draws
    exact ⟨made, draws⟩

theorem of_le_count {computation : Build α} {others : List ContainerId}
    (makes : Build.Makes holds computation spent containersOf)
    (more : ∀ id, spent.count id ≤ others.count id) :
    Build.Makes holds computation others containersOf :=
  fun supply => ⟨(makes supply).1, (makes supply).2.of_le_count more⟩

end Build.Makes

end

end EdmQuery
