import EdmQuery.Proofs.Coercions
import EdmQuery.Proofs.Filling
import EdmQuery.Proofs.Selecting
import EdmQuery.Proofs.SortKeys

set_option autoImplicit false

namespace EdmQuery

/-- Types whose values compare: a type with itself, and numeric types with each other. -/
def PrimitiveType.comparesWith (first second : PrimitiveType) : Bool :=
  first == second || (first.isNumeric && second.isNumeric)

namespace Comparison

variable {x y : Primitive}

theorem comparesWith_iff : x.type.comparesWith y.type = true ↔ x.kind = y.kind := by
  cases x <;> cases y <;>
    simp [PrimitiveType.comparesWith, Primitive.type, Primitive.kind, PrimitiveType.isNumeric]

/-- Values compare if and only if their types do. -/
theorem order_eq (operator : String) (x y : Primitive) :
    order operator x y =
      if x.type.comparesWith y.type then .ok (x.compare? y)
      else .error (.typeMismatch operator x.typeName y.typeName) := by
  split
  · rename_i compares
    have alike := comparesWith_iff.1 compares
    by_cases number : x.kind = 1
    · have numbers : (x.numeric?.isSome && y.numeric?.isSome) = true := by
        cases x <;> cases number <;> cases y <;> cases alike <;> rfl
      rw [order, numbers]
      cases x.compare? y <;> rfl
    · have exact : x.isFloating = false ∧ y.isFloating = false := by
        cases x <;> cases y <;> first | exact ⟨rfl, rfl⟩ | exact absurd rfl number | cases alike
      rw [order, Selection.compare?_eq_keyOrder exact.1 exact.2 alike]
  · rename_i apart
    exact Selection.order_of_kind_ne operator fun alike => apart (comparesWith_iff.2 alike)

end Comparison

namespace ComplexValue

variable {type : ComplexType} {property : Property} {keyType : PrimitiveType}

theorem primitive?_attach (owner : ContainerId) (binding : PropertyValue) :
    (binding.attach owner).primitive? = binding.primitive? := by
  obtain ⟨property, value?, owner?, metadata⟩ := binding
  rcases value? with _ | (value | value | items) <;> rfl

/-- What a primitive type reads is a value of the type. -/
theorem type_of_ofPrimitive {raw : Json} {value? : Option Value} {early late : Supply}
    (read : (Reader.ofPrimitive keyType raw).run early = (.ok value?, late)) :
    ∀ value, value?.bind Value.primitive? = some value → value.type = keyType := by
  obtain ⟨instance?, middle, done, made⟩ := Build.bind_eq_ok read
  obtain ⟨converted, rfl⟩ := Build.ofResult_eq_ok.1 done
  cases made
  intro value held
  cases instance? with
  | none => cases held
  | some other =>
    cases held
    exact PrimitiveType.type_of_instance? converted

/-- Whatever is bound under the name of the key property is a value of its type. -/
theorem type_of_binds {owner : ContainerId} {member : String × Json} {binding : PropertyValue}
    (binds : type.Binds owner member binding)
    (declared : type.property? binding.name = some property)
    (typed : property.type = .primitive keyType) :
    ∀ value, binding.primitive? = some value → value.type = keyType := by
  rw [binds.name_eq] at declared
  cases binds with
  | declared found read =>
    rw [found] at declared
    cases declared
    rw [typed] at read
    intro value held
    rw [primitive?_attach] at held
    exact type_of_ofPrimitive read value held
  | dynamic undeclared isOpen =>
    rw [undeclared] at declared
    cases declared

/-- An instance of a type in which nothing but values of a primitive type is bound under a name. -/
def HoldsOnly (type : ComplexType) (name : String) (keyType : PrimitiveType)
    (container : ComplexValue) : Prop :=
  container.type = type ∧ ∀ binding ∈ container.bindings, binding.name = name →
    ∀ value, binding.primitive? = some value → value.type = keyType

theorem holdsOnly_bindAll {name : String} (declared : type.property? name = some property)
    (typed : property.type = .primitive keyType) {container : ComplexValue}
    (before : HoldsOnly type name keyType container) (members : Json.Members) (supply : Supply) :
    HoldsOnly type name keyType (bindAll container.type.readers members container supply).1.1 := by
  refine Edit.keeps_of_inTurn (fun edit inside current supply holds => ?_) supply before
  obtain ⟨member, -, rfl⟩ := List.mem_map.1 inside
  refine Edit.keeps_of_ofBuild (fun changed rest done => ?_) holds
  rw [before.1, ← holds.1] at done
  obtain ⟨binding, binds, rfl⟩ := exists_binds_of_bindRaw done
  refine ⟨holds.1, fun other held named => ?_⟩
  rcases Keyed.mem_put _ held with rfl | old
  · apply type_of_binds binds _ typed
    rw [named, holds.1]
    exact declared
  · exact holds.2 other old named

theorem holdsOnly_fill {name : String} (declared : type.property? name = some property)
    (typed : property.type = .primitive keyType) {container filled : ComplexValue}
    (before : HoldsOnly type name keyType container) {raw : Json} {early late : Supply}
    (done : (container.fill raw).run early = (.ok filled, late)) :
    HoldsOnly type name keyType filled := by
  obtain ⟨members, middle, -, done⟩ := Build.bind_eq_ok done
  have read := Edit.run_of_toBuild done
  have holds := holdsOnly_bindAll declared typed before (picked container.type members) middle
  rw [readRecord] at read
  rwa [read] at holds

/-- The key of an entity that is read from a record is of the type of the key property. -/
theorem type_of_key? (keyed : type.keyProperty? = some property)
    (typed : property.type = .primitive keyType) {set : String} {raw : Json}
    {entity : ComplexValue} {early late : Supply}
    (read : (entityOfRecord type set raw).run early = (.ok entity, late)) {key : Primitive}
    (has : entity.key? = some key) : key.type = keyType := by
  obtain ⟨name, key?, declared⟩ := Option.bind_eq_some_iff.1 keyed
  obtain ⟨members, first, -, read⟩ := Build.bind_eq_ok read
  obtain ⟨blank, second, made, filled⟩ := Build.bind_eq_ok read
  obtain ⟨checked, third, -, made⟩ := Build.bind_eq_ok made
  have empty : HoldsOnly type name keyType (blank.setEntitySet set) := by
    cases made
    exact ⟨rfl, fun binding inside => by cases inside⟩
  have holds := holdsOnly_fill declared typed empty filled
  rw [ComplexValue.key?, holds.1, key?, Option.bind_some] at has
  obtain ⟨binding, found, primitive⟩ := Option.bind_eq_some_iff.1 has
  obtain ⟨named, inside⟩ := Keyed.keyOf_of_find? _ found
  exact holds.2 binding inside named key primitive

end ComplexValue

namespace Service

/-- Whether an entity has a key and the key equals a given one. -/
def hasKey (key : Primitive) (entity : ComplexValue) : Bool :=
  entity.key?.any fun candidate => candidate.compare? key == some .eq

section

variable {keyType : PrimitiveType} {key : Primitive} {entities : List ComplexValue}

/-- Looking for a key that compares finds the first entity with it. -/
theorem findByKey_of_comparesWith (compares : keyType.comparesWith key.type = true)
    (typed : ∀ entity ∈ entities, ∀ held, entity.key? = some held → held.type = keyType) :
    findByKey key entities = .ok (entities.find? (hasKey key)) := by
  induction entities with
  | nil => rfl
  | cons entity rest ih =>
    have later := ih fun other inside => typed other (List.mem_cons_of_mem _ inside)
    rw [findByKey]
    cases has : entity.key? with
    | none =>
      have unmatched : ¬ hasKey key entity = true := by simp [hasKey, has]
      rw [List.find?_cons_of_neg unmatched]
      exact later
    | some held =>
      have compared := Comparison.order_eq "eq" held key
      rw [typed entity List.mem_cons_self held has, if_pos compares] at compared
      simp only [compared]
      show (if held.compare? key = some .eq then pure (some entity) else findByKey key rest) = _
      by_cases same : held.compare? key = some .eq
      · have matched : hasKey key entity = true := by simp [hasKey, has, same]
        rw [if_pos same, List.find?_cons_of_pos matched]
        rfl
      · have unmatched : ¬ hasKey key entity = true := by simp [hasKey, has, same]
        rw [if_neg same, List.find?_cons_of_neg unmatched]
        exact later

/-- Looking for a key that compares with none fails at the first entity with a key. -/
theorem findByKey_of_not_comparesWith (apart : ¬ keyType.comparesWith key.type = true)
    (typed : ∀ entity ∈ entities, ∀ held, entity.key? = some held → held.type = keyType) :
    (entities.any (fun entity => entity.key?.isSome) = true → findByKey key entities =
        .error (.typeMismatch "eq" keyType.qualifiedName key.typeName)) ∧
      (entities.any (fun entity => entity.key?.isSome) = false →
        findByKey key entities = .ok none) := by
  induction entities with
  | nil => exact ⟨fun any => (by cases any), fun _ => rfl⟩
  | cons entity rest ih =>
    have later := ih fun other inside => typed other (List.mem_cons_of_mem _ inside)
    rw [findByKey, List.any_cons]
    cases has : entity.key? with
    | none => exact later
    | some held =>
      have compared := Comparison.order_eq "eq" held key
      rw [typed entity List.mem_cons_self held has, if_neg apart, Primitive.typeName,
        typed entity List.mem_cons_self held has] at compared
      refine ⟨fun _ => ?_, fun none => by cases none⟩
      simp only [compared]
      rfl

end

section

variable {service : Service} {set : String} {registered : EntitySet} {property : Property}
variable {keyType : PrimitiveType} {supply after : Supply} {entities : List ComplexValue}

/-- The entities of a set have keys of the type of the key property. -/
theorem type_of_entities (registers : service.schema.requireEntitySet set = .ok registered)
    (keyed : registered.type.keyProperty? = some property)
    (typed : property.type = .primitive keyType)
    (stored : (service.entities set).run supply = (.ok entities, after)) :
    ∀ entity ∈ entities, ∀ held, entity.key? = some held → held.type = keyType := by
  obtain ⟨found, first, same, stored⟩ := Build.bind_eq_ok stored
  obtain ⟨same, -⟩ := Build.ofResult_eq_ok.1 same
  obtain rfl : registered = found := Except.ok.inj (registers.symm.trans same)
  obtain ⟨records, second, -, stored⟩ := Build.bind_eq_ok stored
  intro entity inside held has
  obtain ⟨record, -, early, late, read⟩ := exists_of_forall₂ (Build.forall₂_of_mapM stored) inside
  exact ComplexValue.type_of_key? keyed typed read has

theorem find_of_stored (stored : (service.entities set).run supply = (.ok entities, after))
    (key : Primitive) : (service.find set key).run supply =
      ((findByKey key entities).toResult.bind fun found =>
        match found with
        | some entity => .ok entity
        | none => .error (notFound set key), after) := by
  rw [find, Build.bind_of_ok stored]
  cases (findByKey key entities).toResult with
  | error error => rfl
  | ok found => cases found <;> rfl

/-- Reading by a key finds the first entity with it, if keys of its type compare with the stored
ones. If they do not, the mismatch is told where there is a key to compare with, and nowhere else. -/
theorem find_eq (registers : service.schema.requireEntitySet set = .ok registered)
    (keyed : registered.type.keyProperty? = some property)
    (typed : property.type = .primitive keyType)
    (stored : (service.entities set).run supply = (.ok entities, after)) (key : Primitive) :
    (keyType.comparesWith key.type = true → (service.find set key).run supply =
      (match entities.find? (hasKey key) with
        | some entity => .ok entity
        | none => .error (notFound set key), after)) ∧
    (keyType.comparesWith key.type = false → (service.find set key).run supply =
      (if entities.any fun entity => entity.key?.isSome then
        .error (EvaluationError.typeMismatch "eq" keyType.qualifiedName key.typeName).toError
      else .error (notFound set key), after)) := by
  have keys := type_of_entities registers keyed typed stored
  rw [find_of_stored stored]
  constructor
  · intro compares
    rw [findByKey_of_comparesWith compares keys]
    rfl
  · intro apart
    obtain ⟨some, none⟩ := findByKey_of_not_comparesWith (Bool.eq_false_iff.1 apart) keys
    split
    · rename_i any
      rw [some any]
      rfl
    · rename_i any
      rw [none (Bool.eq_false_iff.2 any)]
      rfl

end

/-- The key that tells flights apart, which a record may lack. -/
def flightNumber : Property := .declared "id" (.primitive (.integer .int32))

def flight : ComplexType := ⟨"airline.Flight", true, some "id", false, true, [flightNumber]⟩

def flightSchema : Schema := ⟨"airline", [flight], [⟨"flights", flight⟩], []⟩

def flightService (records : List Json) : Service :=
  ⟨flightSchema, (RecordStore.mk flightSchema [("flights", records)]).toSource, .empty,
    fun _ _ => pure none, default⟩

/-- A flight as it is read, given how many were read before. -/
def flightOf (before : Nat) (number? : Option TypedInteger) : ComplexValue :=
  let value? := number?.map fun number => Value.primitive (.integer number)
  ⟨⟨before⟩, flight, [(PropertyValue.unattached flightNumber value?).attach ⟨before⟩], none,
    some "flights", false, []⟩

theorem entities_flights :
    let service := flightService [.object [("id", .null)], .object [("id", .int 7)]]
    (service.entities "flights").run ⟨0⟩ =
      (.ok [flightOf 0 none, flightOf 1 (some ⟨.int32, 7, by decide⟩)], ⟨2⟩) := by rfl

/-- The flight is found by its number in any numeric type, and a text does not compare with it. -/
theorem find_eq_flights :
    let service := flightService [.object [("id", .null)], .object [("id", .int 7)]]
    let wide : Primitive := .integer ⟨.int64, 7, by decide⟩
    flightSchema.requireEntitySet "flights" = .ok ⟨"flights", flight⟩ ∧
      flight.keyProperty? = some flightNumber ∧
      flightNumber.type = .primitive (.integer .int32) ∧
      (service.find "flights" wide).run ⟨0⟩ =
        (.ok (flightOf 1 (some ⟨.int32, 7, by decide⟩)), ⟨2⟩) ∧
      (service.find "flights" (.string "7")).run ⟨0⟩ =
        (.error (EvaluationError.typeMismatch "eq" "Edm.Int32" "Edm.String").toError, ⟨2⟩) := by
  intro service wide
  have registers : service.schema.requireEntitySet "flights" = .ok ⟨"flights", flight⟩ := rfl
  have read := find_eq registers rfl rfl entities_flights
  exact ⟨registers, rfl, rfl, (read wide).1 rfl, (read (.string "7")).2 rfl⟩

/-- Where no flight has a number, also a text is said to be missing. -/
theorem find_text_of_unnumbered :
    let service := flightService [.object [("id", .null)]]
    service.schema.requireEntitySet "flights" = .ok ⟨"flights", flight⟩ ∧
      flight.keyProperty? = some flightNumber ∧
      flightNumber.type = .primitive (.integer .int32) ∧
      (service.entities "flights").run ⟨0⟩ = (.ok [flightOf 0 none], ⟨1⟩) ∧
      (PrimitiveType.integer .int32).comparesWith (Primitive.string "1").type = false ∧
      (service.find "flights" (.string "1")).run ⟨0⟩ =
        (.error (notFound "flights" (.string "1")), ⟨1⟩) ∧
      (notFound "flights" (.string "1")).code ≠ .typeMismatch := by
  refine ⟨rfl, rfl, rfl, rfl, rfl, rfl, ?_⟩
  decide

end Service

end EdmQuery
