import EdmQuery.Proofs.Holdings
import EdmQuery.Value.Entity

set_option autoImplicit false

namespace EdmQuery

/-- What holds of each bound property and the type of the container. -/
def ComplexValue.Binds (fits : ComplexType → Property → Prop) (container : ComplexValue) : Prop :=
  ∀ binding ∈ container.bindings, fits container.type binding.property

theorem ComplexType.admits_of_suits {type : ComplexType} {property : Property}
    (suits : type.Suits property) : type.admits property = true := by
  rw [admits, Bool.or_eq_true, Bool.and_eq_true]
  rcases suits with declared | ⟨-, dynamic, isOpen⟩
  · exact .inl (Option.isSome_of_eq_some declared)
  · exact .inr ⟨isOpen, dynamic⟩

namespace ComplexValue.Binds

variable {kind fits : ComplexType → Property → Prop}

/-- What holds of the properties that a type binds by itself holds after every operation, where it
holds of the properties of a kind that a type admits. -/
theorem kept (own : ∀ type property, type.Suits property → fits type property)
    (accepted : ∀ type property, type.admits property = true → kind type property →
      fits type property) : KeptByOperations kind (Binds fits) where
  empty _ _ _ _ inside := by cases inside
  bind container property value? binds suits binding inside := by
    rcases Keyed.mem_put _ inside with rfl | old
    · exact own _ property suits
    · exact binds binding old
  relinked _ _ binds := binds
  copied container id copies binds same binding inside := by
    obtain ⟨copy, held, rfl⟩ := List.mem_map.1 inside
    have bound : copy.property ∈ container.bindings.map PropertyValue.property :=
      same ▸ List.mem_map_of_mem held
    obtain ⟨original, present, equal⟩ := List.mem_map.1 bound
    have fit := binds original present
    rw [equal] at fit
    exact fit
  added container binding binds _ admitted respects bound inside := by
    rcases List.mem_append.1 inside with old | new
    · exact binds bound old
    · rw [List.mem_singleton] at new
      subst new
      exact accepted _ binding.property admitted respects
  replaced container name value? binds bound inside := by
    rcases Keyed.mem_update _ inside with old | ⟨held, present, rfl⟩
    · exact binds bound old
    · exact binds held present
  removed container name binds binding inside := binds binding (List.mem_of_mem_eraseP inside)
  retyped container type binds admitted respects binding inside :=
    accepted type binding.property (admitted binding inside) (respects binding inside)

theorem kept_admits : KeptByOperations kind (Binds fun type property =>
    type.admits property = true) :=
  kept (fun _ _ => ComplexType.admits_of_suits) fun _ _ admitted _ => admitted

theorem kept_suits : KeptByOperations ComplexType.Suits (Binds ComplexType.Suits) :=
  kept (fun _ _ suits => suits) fun _ _ _ suits => suits

end ComplexValue.Binds

/-- An operation on what binds the properties of its types keeps this exactly if the properties that
it brings to a type, where it is accepted, suit the type. -/
theorem Operation.suits_iff {operation : Operation} {container : ComplexValue} {supply : Supply}
    (all : ∀ inner ∈ container.containers, inner.Binds ComplexType.Suits)
    (allTaken : ∀ inner ∈ operation.takenWithin, inner.Binds ComplexType.Suits) :
    (∀ inner ∈ (operation.edit container supply).1.1.containers,
        inner.Binds ComplexType.Suits) ↔
      ((operation.edit container supply).1.2 = .ok () →
        operation.Respects ComplexType.Suits container) := by
  refine ⟨fun allMade done => ?_, fun respects =>
    (operation.grows_edit ComplexValue.Binds.kept_suits supply respects all allTaken).1⟩
  have made := allMade _ (ComplexValue.mem_containers_self _)
  rcases ran : (operation.run container).run supply with ⟨outcome, rest⟩
  cases outcome with
  | error error =>
    rw [edit, Edit.ofBuild_of_error ran] at done
    cases done
  | ok changed =>
    rw [edit, Edit.ofBuild_of_ok ran] at made
    cases operation with
    | set name input => trivial
    | replace name value? => trivial
    | addProperty binding =>
      have accepted : container.addProperty binding = .ok changed := congrArg Prod.fst ran
      obtain ⟨-, -, rfl⟩ := ComplexValue.eq_of_addProperty accepted
      exact made (binding.attach container.id)
        (List.mem_append_right _ (List.mem_singleton.2 rfl))
    | setType type =>
      have accepted : container.setType type = .ok changed := congrArg Prod.fst ran
      obtain ⟨-, rfl⟩ := ComplexValue.eq_of_setType accepted
      exact made

namespace Holdings

/-- Every bound name is declared, or that of a dynamic property on an open type. Where each accepted
operation brings a property only to a type that it suits, every bound property is the one that the
type declares, or a dynamic one that it does not declare; and no other accepted operation keeps
this. -/
theorem Reachable.conformance {kind : ComplexType → Property → Prop} {holdings : Holdings}
    (reached : Reachable kind holdings) :
    (∀ container ∈ holdings.all, ∀ binding ∈ container.bindings,
      container.type.admits binding.property = true) ∧
    ((∀ type property, kind type property → type.Suits property) →
      ∀ container ∈ holdings.all, ∀ binding ∈ container.bindings,
        container.type.Suits binding.property) ∧
    ∀ (operation : Operation) (container : ComplexValue) (supply : Supply),
      (∀ inner ∈ container.containers, inner.Binds ComplexType.Suits) →
      (∀ inner ∈ operation.takenWithin, inner.Binds ComplexType.Suits) →
        ((∀ inner ∈ (operation.edit container supply).1.1.containers,
            inner.Binds ComplexType.Suits) ↔
          ((operation.edit container supply).1.2 = .ok () →
            operation.Respects ComplexType.Suits container)) := by
  refine ⟨(reached.keeps ComplexValue.Binds.kept_admits).1, fun own => ?_,
    fun _ _ _ => Operation.suits_iff⟩
  have kept : KeptByOperations kind (ComplexValue.Binds ComplexType.Suits) :=
    ComplexValue.Binds.kept (fun _ _ suits => suits) fun type property _ => own type property
  exact (reached.keeps kept).1

/-- A closed type with a single stored property. -/
def airport : ComplexType :=
  ⟨"airline.Airport", false, none, false, true, [.declared "code" (.primitive .string)]⟩

/-- An empty container of a type, and then one in which a code is set. -/
def started (type : ComplexType) : ComplexValue := (ComplexValue.ofType type ⟨0⟩).1

def coding : Operation := .set "code" (.value (.primitive (.string "LHR")))

def coded (type : ComplexType) : ComplexValue := (coding.edit (started type) ⟨1⟩).1.1

theorem reachable_started (kind : ComplexType → Property → Prop) (type : ComplexType) :
    Reachable kind ⟨[started type], [], ⟨1⟩⟩ :=
  .step (.start ⟨0⟩) (.create [] [] ⟨0⟩ type)

theorem reachable_coded (kind : ComplexType → Property → Prop) (type : ComplexType) :
    Reachable kind ⟨[coded type], [], (coding.edit (started type) ⟨1⟩).2⟩ :=
  .step (reachable_started kind type) (.operate [] [] ⟨1⟩ (started type) coding fun _ => trivial)

/-- An instance of the type with its property bound, and a copy of it. -/
theorem Reachable.conformance_airport :
    ∃ holdings, Reachable ComplexType.Suits holdings ∧ holdings.all.length = 2 ∧
      (∀ container ∈ holdings.all, ∀ binding ∈ container.bindings,
        container.type.admits binding.property = true) ∧
      (∀ container ∈ holdings.all, ∀ binding ∈ container.bindings,
        container.type.Suits binding.property) ∧
      ∀ inner ∈ (coded airport).containers, inner.Binds ComplexType.Suits := by
  have copied := (reachable_coded ComplexType.Suits airport).step (.copy _ _ (mem_all.2
    (.inl ⟨_, List.mem_cons_self, ComplexValue.mem_containers_self _⟩)))
  have empty : ∀ inner ∈ (started airport).containers, inner.Binds ComplexType.Suits := by
    intro inner inside binding bound
    rw [List.mem_singleton.1 inside] at bound
    cases bound
  have nothing : ∀ inner ∈ coding.takenWithin, inner.Binds ComplexType.Suits :=
    fun inner inside => (by cases inside)
  obtain ⟨admitted, suits, exactly⟩ := copied.conformance
  exact ⟨_, copied, by decide +kernel, admitted, suits fun _ _ own => own,
    (exactly coding (started airport) ⟨1⟩ empty nothing).2 fun _ => trivial⟩

theorem not_suits_dynamic : ¬ airport.Suits (.dynamic "code" (.primitive .string)) := by
  rintro (own | ⟨absent, -⟩)
  · cases congrArg (Option.map Property.kind) own
  · cases absent

theorem not_suits_flag : ¬ airport.Suits (.declared "code" (.primitive .boolean)) := by
  rintro (own | ⟨absent, -⟩)
  · cases congrArg (Option.map Property.type) own
  · cases absent

/-- Data without a type that is given one, and a binding of another property that is added: what is
bound is not what the type declares. The one that was set before stays out of the ETag, the other
one is no text. -/
theorem misfits_reachable :
    (∃ holdings, Reachable (fun _ _ => True) holdings ∧
      ∃ container ∈ holdings.all, ∃ binding ∈ container.bindings,
        container.type = airport ∧ binding.name = "code" ∧
          ¬ container.type.Suits binding.property ∧ container.etagEntries = []) ∧
    ∃ holdings, Reachable (fun _ _ => True) holdings ∧
      ∃ container ∈ holdings.all, ∃ binding ∈ container.bindings,
        container.type = airport ∧ binding.name = "code" ∧
          ¬ container.type.Suits binding.property ∧ binding.primitive? = some (.boolean true) := by
  refine ⟨?_, ?_⟩
  · have retyped := (reachable_coded (fun _ _ => True) .untyped).step
      (.operate [] [] _ _ (.setType airport) fun _ _ _ => trivial)
    refine ⟨_, retyped, _, mem_all.2 (.inl ⟨_, List.mem_cons_self,
      ComplexValue.mem_containers_self _⟩), _, List.mem_cons_self, rfl, rfl, ?_, rfl⟩
    exact not_suits_dynamic
  · let flag : PropertyValue :=
      .unattached (.declared "code" (.primitive .boolean)) (some (.primitive (.boolean true)))
    have made : Reachable (fun _ _ => True) ⟨[started airport], [flag], ⟨1⟩⟩ :=
      .step (reachable_started _ airport) (.bind [started airport] [] ⟨1⟩ flag.property
        (some (.primitive (.boolean true))))
    have added := made.step (.operate [] [] _ _ (.addProperty flag) fun _ => trivial)
    refine ⟨_, added, _, mem_all.2 (.inl ⟨_, List.mem_cons_self,
      ComplexValue.mem_containers_self _⟩), _, List.mem_cons_self, rfl, rfl, ?_, rfl⟩
    exact not_suits_flag

end Holdings

end EdmQuery
