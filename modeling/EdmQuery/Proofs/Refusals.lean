import EdmQuery.Proofs.Contracts
import EdmQuery.Proofs.Filling
import EdmQuery.Service.RecordStore

set_option autoImplicit false

namespace EdmQuery

/-- Whether a request is refused for what it selects or expands. -/
def Error.isRefusal (error : Error) : Bool :=
  error.code = .invalidSelect || error.code = .unknownExpandPath || error.code = .notExpandable

def Error.IsNoRefusal (error : Error) : Prop := error.isRefusal = false

/-- The type that a navigation property leads to. -/
def Schema.target? (schema : Schema) (property : Property) : Option ComplexType :=
  property.kind.navigation?.bind fun binding => schema.type? binding.targetType

/-- No related entity is bound. -/
def ComplexValue.IsUnrelated (container : ComplexValue) : Prop :=
  ∀ binding ∈ container.bindings, binding.property.isNavigation = false

/-- Names stand for one property each, and a type that takes every member leads nowhere. -/
structure ComplexType.ReadsAlone (type : ComplexType) : Prop where
  apart : type.NamesApart
  leadsNowhere : type.isUntyped = true → type.navigationProperties = []

theorem Value.ensures_ofItems {typeName : String} {reads : List (Json × Build (Option Value))}
    (each : ∀ entry ∈ reads, entry.2.Ensures Error.IsNoRefusal fun _ => True) :
    (ofItems typeName reads).Ensures Error.IsNoRefusal fun _ => True := by
  induction reads with
  | nil => exact .pure trivial
  | cons entry rest ih =>
    refine (each entry List.mem_cons_self).bind fun item? _ => ?_
    cases item? with
    | none => exact .throw rfl
    | some item =>
      exact (ih fun other inside => each other (List.mem_cons_of_mem _ inside)).bind
        fun _ _ => .pure trivial

mutual

theorem Value.ensures_infer (raw : Json) :
    (Value.infer raw).Ensures Error.IsNoRefusal fun _ => True := by
  cases raw with
  | array items =>
    rw [Value.infer]
    exact (Value.ensures_ofItems (Value.ensures_inferItems items)).bind fun _ _ => .pure trivial
  | object members =>
    rw [Value.infer]
    have made : Build.Ensures Error.IsNoRefusal (fun _ => True)
      (liftM (ComplexValue.ofType .untyped)) := .ofBuilding fun _ => trivial
    exact made.bind fun container _ =>
      (Value.ensures_inferMembers members container).bind fun _ _ => .pure trivial
  | _ => exact .pure trivial

theorem Value.ensures_inferItems (items : List Json) :
    ∀ entry ∈ Value.inferItems items, entry.2.Ensures Error.IsNoRefusal fun _ => True := by
  cases items with
  | nil => exact fun entry inside => by cases inside
  | cons item rest =>
    rw [Value.inferItems, List.forall_mem_cons]
    exact ⟨Value.ensures_infer item, Value.ensures_inferItems rest⟩

theorem Value.ensures_inferMembers (members : Json.Members) (container : ComplexValue) :
    (Value.inferMembers members container).Ensures Error.IsNoRefusal fun _ => True := by
  match members with
  | [] => exact .pure trivial
  | (key, raw) :: rest =>
    rw [Value.inferMembers]
    exact (Value.ensures_infer raw).bind fun _ _ => Value.ensures_inferMembers rest _

end

/-- What binding a member keeps, reading members keeps, and it refuses nothing if the readers do
not. -/
theorem ComplexValue.refusesNothing_bindAll {type : ComplexType} {holds : ComplexValue → Prop}
    {members : Json.Members}
    (reads : ∀ property ∈ type.properties, ∀ raw,
      (property.type.reader raw).Ensures Error.IsNoRefusal fun _ => True)
    (typed : ∀ container, holds container → container.type = type)
    (kept : ∀ container property value?, ∀ member ∈ members, holds container →
      property.name = member.1 → type.Suits property → holds (container.bind property value?)) :
    Edit.Keeps Error.IsNoRefusal holds (bindAll type.readers members) := by
  refine .inTurn fun edit inside => ?_
  obtain ⟨member, present, rfl⟩ := List.mem_map.1 inside
  refine .ofBuild fun container before => ?_
  have same := typed container before
  subst same
  cases found : container.type.property? member.1 with
  | some property =>
    obtain ⟨named, declared⟩ := Keyed.keyOf_of_find? _ found
    rw [bindRaw_declared found]
    exact (reads property declared member.2).bind fun value? _ =>
      .pure (kept container property value? member present before named
        (ComplexType.suits_of_declared found))
  | none =>
    cases isOpen : container.type.isOpen with
    | true =>
      rw [bindRaw_open found isOpen]
      exact (Value.ensures_infer member.2).bind fun value? _ =>
        .pure (kept container _ value? member present before rfl (.inr ⟨found, rfl, isOpen⟩))
    | false =>
      rw [bindRaw_closed found isOpen]
      exact .throw rfl

theorem PrimitiveType.isNoRefusal_of_instance? {type : PrimitiveType} {raw : Json} {error : Error}
    (failed : type.instance? raw = .error error) : error.IsNoRefusal := by
  rw [instance?] at failed
  split at failed
  · cases failed
  · split at failed
    · cases failed
    · cases failed
      rfl

theorem Reader.ensures_ofCollection {read : Reader} {typeName : String}
    (reads : ∀ raw, (read raw).Ensures Error.IsNoRefusal fun _ => True) (raw : Json) :
    (Reader.ofCollection typeName read raw).Ensures Error.IsNoRefusal fun _ => True := by
  cases raw with
  | null => exact .pure trivial
  | array items =>
    have each : ∀ entry ∈ items.map fun item => (item, read item),
        entry.2.Ensures Error.IsNoRefusal fun _ => True := by
      intro entry inside
      obtain ⟨item, -, rfl⟩ := List.mem_map.1 inside
      exact reads item
    exact (Value.ensures_ofItems each).bind fun _ _ => .pure trivial
  | _ => exact .throw rfl

theorem Reader.ensures_ofComplex {type : ComplexType}
    (reads : ∀ property ∈ type.properties, ∀ raw,
      (property.type.reader raw).Ensures Error.IsNoRefusal fun _ => True) (raw : Json) :
    (Reader.ofComplex type type.readers raw).Ensures Error.IsNoRefusal fun _ => True := by
  cases raw with
  | null => exact .pure trivial
  | object members =>
    have made : Build.Ensures Error.IsNoRefusal (fun container => container.type = type)
      (liftM (ComplexValue.ofType type)) := .ofBuilding fun _ => rfl
    have keeps : Edit.Keeps Error.IsNoRefusal (fun container => container.type = type)
        (ComplexValue.bindAll type.readers (ComplexValue.picked type members)) :=
      ComplexValue.refusesNothing_bindAll reads (fun _ same => same)
        fun _ _ _ _ _ same _ _ => same
    exact made.bind fun container same => (keeps container same).bind fun _ _ => .pure trivial
  | _ => exact .throw rfl

mutual

theorem ValueType.ensures_reader (type : ValueType) (raw : Json) :
    (type.reader raw).Ensures Error.IsNoRefusal fun _ => True := by
  match type with
  | .primitive type =>
    have read : (Build.ofResult (type.instance? raw)).Ensures Error.IsNoRefusal fun _ => True :=
      .ofResult (fun _ _ => trivial) fun _ => PrimitiveType.isNoRefusal_of_instance?
    exact read.bind fun _ _ => .pure trivial
  | .complex type => exact Reader.ensures_ofComplex (ComplexType.ensures_readers type) raw
  | .collection element =>
    exact Reader.ensures_ofCollection (fun raw => ValueType.ensures_reader element raw) raw
  | .entity name => exact Value.ensures_infer raw
  | .untyped => exact Value.ensures_infer raw

theorem ComplexType.ensures_readers (type : ComplexType) :
    ∀ property ∈ type.properties, ∀ raw,
      (property.type.reader raw).Ensures Error.IsNoRefusal fun _ => True := by
  match type with
  | ⟨_, _, _, _, _, properties⟩ => exact Property.ensures_readers properties

theorem Property.ensures_readers (properties : List Property) :
    ∀ property ∈ properties, ∀ raw,
      (property.type.reader raw).Ensures Error.IsNoRefusal fun _ => True := by
  match properties with
  | [] => exact fun property inside => by cases inside
  | ⟨_, type, _, _⟩ :: rest =>
    rw [List.forall_mem_cons]
    exact ⟨fun raw => ValueType.ensures_reader type raw, Property.ensures_readers rest⟩

end

theorem Value.mem_heldByItems {items : List Value} {container : ComplexValue} :
    container ∈ Value.heldByItems items ↔ ∃ item ∈ items, container ∈ item.held := by
  induction items with
  | nil => simp only [heldByItems, List.not_mem_nil, false_and, exists_false]
  | cons item rest ih => simp only [heldByItems, List.mem_append, ih, List.exists_mem_cons_iff]

/-- A property is of one kind. -/
theorem Property.isNavigation_eq_false {property : Property}
    (other : property.isDeclared = true ∨ property.isDynamic = true ∨ property.isGenerated = true) :
    property.isNavigation = false := by
  rw [isDeclared, isDynamic, isGenerated] at other
  rw [isNavigation]
  cases kind : property.kind with
  | navigation binding =>
    rw [kind] at other
    rcases other with declared | dynamic | generated
    · cases declared
    · cases dynamic
    · cases generated
  | _ => rfl

/-- No member that is taken stands for a navigation property. -/
theorem ComplexType.ReadsAlone.not_isNavigation {type : ComplexType} (alone : type.ReadsAlone)
    {members : Json.Members} {member : String × Json}
    (inside : member ∈ ComplexValue.picked type members) {property : Property}
    (named : property.name = member.1) (suits : type.Suits property) :
    property.isNavigation = false := by
  rcases suits with found | ⟨-, dynamic, -⟩
  · have present : property ∈ type.properties := (Keyed.keyOf_of_find? _ found).2
    cases untyped : type.isUntyped with
    | true =>
      cases navigation : property.isNavigation with
      | false => rfl
      | true =>
        have listed : property ∈ type.navigationProperties :=
          List.mem_filter.2 ⟨present, navigation⟩
        rw [alone.leadsNowhere untyped] at listed
        cases listed
    | false =>
      have taken : (((Source.mapping members).taken type).map Prod.fst).Sublist
          (type.declaredProperties.map Property.name) :=
        Source.taken_sublist (Bool.and_eq_false_iff.2 (.inr untyped))
      have listed := taken.subset (List.mem_map_of_mem inside)
      obtain ⟨declared, among, same⟩ := List.mem_map.1 listed
      obtain ⟨own, isDeclared⟩ := List.mem_filter.1 among
      have first := Keyed.find?_of_mem Property.name alone.apart own
      rw [same, ← named] at first
      cases first.symm.trans found
      exact Property.isNavigation_eq_false (.inl isDeclared)
  · exact Property.isNavigation_eq_false (.inr (.inl dynamic))

namespace ComplexValue

variable {type : ComplexType}

theorem IsUnrelated.bind {container : ComplexValue} (unrelated : container.IsUnrelated)
    {property : Property} (plain : property.isNavigation = false) (value? : Option Value) :
    (container.bind property value?).IsUnrelated := by
  intro binding inside
  rcases Keyed.mem_put _ inside with rfl | old
  · exact plain
  · exact unrelated binding old

theorem ensures_recordMembers (raw : Json) :
    (Build.ofResult (recordMembers raw)).Ensures Error.IsNoRefusal fun _ => True := by
  refine .ofResult (fun _ _ => trivial) fun error failed => ?_
  cases raw with
  | object members => cases failed
  | _ =>
    cases failed
    rfl

theorem ensures_fill (alone : type.ReadsAlone) (container : ComplexValue)
    (typed : container.type = type) (empty : container.IsUnrelated) (raw : Json) :
    (container.fill raw).Ensures Error.IsNoRefusal fun filled =>
      filled.type = type ∧ filled.IsUnrelated := by
  refine (ensures_recordMembers raw).bind fun members _ => ?_
  have keeps : Edit.Keeps Error.IsNoRefusal (fun filled => filled.type = type ∧ filled.IsUnrelated)
      (bindAll type.readers (picked type members)) := by
    refine refusesNothing_bindAll type.ensures_readers (fun _ both => both.1) ?_
    intro filled property value? member inside both named suits
    exact ⟨both.1, both.2.bind (alone.not_isNavigation inside named suits) value?⟩
  subst typed
  exact keeps container ⟨rfl, empty⟩

theorem ensures_entityOfRecord (alone : type.ReadsAlone) (set : String) (raw : Json) :
    (entityOfRecord type set raw).Ensures Error.IsNoRefusal fun entity =>
      entity.type = type ∧ entity.IsUnrelated := by
  have made : (newEntity type).Ensures Error.IsNoRefusal fun entity =>
      entity.type = type ∧ entity.IsUnrelated := by
    have checked : (Build.ofResult (checkEntityType type)).Ensures Error.IsNoRefusal
        fun _ => True := by
      refine .ofResult (fun _ _ => trivial) fun error failed => ?_
      rw [checkEntityType] at failed
      split at failed
      · cases failed
        rfl
      · split at failed
        · cases failed
          rfl
        · cases failed
    exact checked.bind fun _ _ => .ofBuilding fun _ => ⟨rfl, fun _ inside => by cases inside⟩
  refine (ensures_recordMembers raw).bind fun members _ => made.bind fun entity both => ?_
  exact ensures_fill alone (entity.setEntitySet set) both.1 both.2 (.object members)

end ComplexValue

namespace RecordStore

theorem ensures_related {target : ComplexType} (alone : target.ReadsAlone) (set? : Option String)
    (record : Json) :
    (related target set? record).Ensures Error.IsNoRefusal fun value =>
      ∀ inner ∈ value.held, inner.type = target ∧ inner.IsUnrelated := by
  have made : Build.Ensures Error.IsNoRefusal
      (fun container => container.type = target ∧ container.IsUnrelated)
      (liftM (ComplexValue.ofType target)) :=
    .ofBuilding fun _ => ⟨rfl, fun _ inside => by cases inside⟩
  refine made.bind fun container both => ?_
  have filling := ComplexValue.ensures_fill alone { container with entitySet? := set? } both.1
    both.2 record
  refine filling.bind fun filled kept => .pure fun inner inside => ?_
  exact List.mem_singleton.1 inside ▸ kept

/-- What a store finds is of the type that the property leads to, and stands alone. -/
theorem ensures_resolve {store : RecordStore}
    (alone : ∀ name target, store.schema.type? name = some target → target.ReadsAlone)
    (parent : ComplexValue) (property : Property) (request : NavigationRequest) :
    (store.resolve parent property request).Ensures Error.IsNoRefusal fun found? =>
      ∀ inner ∈ Value.heldByOption found?,
        store.schema.target? property = some inner.type ∧ inner.IsUnrelated := by
  have nothing : Build.Ensures Error.IsNoRefusal (fun found? =>
      ∀ inner ∈ Value.heldByOption found?,
        store.schema.target? property = some inner.type ∧ inner.IsUnrelated) (pure none) :=
    .pure fun inner inside => by cases inside
  rw [resolve]
  cases kind : property.kind.navigation? with
  | none => exact nothing
  | some binding =>
    dsimp only
    cases known : store.schema.type? binding.targetType with
    | none => exact .throw rfl
    | some target =>
      have leads : store.schema.target? property = some target := by
        rw [Schema.target?, kind]
        exact known
      have read := ensures_related (alone _ _ known) binding.targetSet?
      dsimp only
      cases (store.recordOf? parent).bind (·.get? property.name) with
      | none => exact nothing
      | some raw =>
        cases raw with
        | null => exact nothing
        | array records =>
          cases binding.isCollection with
          | true =>
            refine (Build.Ensures.mapM fun record _ => read record).bind fun values all => .pure ?_
            intro inner inside
            obtain ⟨value, present, held⟩ := Value.mem_heldByItems.1 inside
            obtain ⟨typed, unrelated⟩ := all value present inner held
            exact ⟨typed ▸ leads, unrelated⟩
          | false => exact .throw rfl
        | object members =>
          cases binding.isCollection with
          | true => exact .throw rfl
          | false =>
            refine (read _).bind fun value all => .pure fun inner inside => ?_
            obtain ⟨typed, unrelated⟩ := all inner inside
            exact ⟨typed ▸ leads, unrelated⟩
        | _ => exact .throw rfl

end RecordStore

end EdmQuery
