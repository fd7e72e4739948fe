import EdmQuery.Proofs.Contracts
import EdmQuery.Proofs.IntegerLimits
import EdmQuery.Proofs.Reproduction
import EdmQuery.Value.Container

set_option autoImplicit false

namespace EdmQuery

namespace Json

mutual

/-- Data as it is kept: numbers are finite binary numbers or integers of 64 bits, and the members of
every object stand in the order of their keys, each key once. -/
def isData : Json → Bool
  | .int value => IntegerType.int64.contains value
  | .double value => value.isFinite
  | .array items => areData items
  | .object members => decide ((members.map Prod.fst).Pairwise (· < ·)) && membersAreData members
  | _ => true

def areData : List Json → Bool
  | [] => true
  | item :: rest => item.isData && areData rest

def membersAreData : Members → Bool
  | [] => true
  | (_, value) :: rest => value.isData && membersAreData rest

end

/-- Some array in the value has a null item. -/
inductive HasNullItem : Json → Prop
  | here {items : List Json} (null : .null ∈ items) : HasNullItem (.array items)
  | ofItem {items : List Json} {item : Json} (inside : item ∈ items) (held : HasNullItem item) :
    HasNullItem (.array items)
  | ofMember {members : Members} {member : String × Json} (inside : member ∈ members)
    (held : HasNullItem member.2) : HasNullItem (.object members)

theorem hasNullItem_nil : ¬ (array []).HasNullItem := by
  rintro (null | inside)
  · cases null
  · cases inside

theorem hasNullItem_cons {item : Json} {rest : List Json} : (array (item :: rest)).HasNullItem ↔
    item = .null ∨ item.HasNullItem ∨ (array rest).HasNullItem := by
  constructor
  · intro held
    cases held with
    | here null =>
      rcases List.mem_cons.1 null with same | later
      · exact .inl same.symm
      · exact .inr (.inr (.here later))
    | ofItem inside held =>
      rcases List.mem_cons.1 inside with rfl | later
      · exact .inr (.inl held)
      · exact .inr (.inr (.ofItem later held))
  · rintro (rfl | held | held)
    · exact .here List.mem_cons_self
    · exact .ofItem List.mem_cons_self held
    · cases held with
      | here null => exact .here (List.mem_cons_of_mem _ null)
      | ofItem inside held => exact .ofItem (List.mem_cons_of_mem _ inside) held

theorem hasNullItem_empty : ¬ (object []).HasNullItem := by
  rintro ⟨⟩
  rename_i inside
  cases inside

theorem hasNullItem_member {member : String × Json} {rest : Members} :
    (object (member :: rest)).HasNullItem ↔
      member.2.HasNullItem ∨ (object rest).HasNullItem := by
  constructor
  · intro held
    cases held with
    | ofMember inside held =>
      rcases List.mem_cons.1 inside with rfl | later
      · exact .inl held
      · exact .inr (.ofMember later held)
  · rintro (held | held)
    · exact .ofMember List.mem_cons_self held
    · cases held with
      | ofMember inside held => exact .ofMember (List.mem_cons_of_mem _ inside) held

theorem insert_last {key : String} (value : Json) {members : Members}
    (before : ∀ other ∈ members.map Prod.fst, other < key) :
    insert key value members = members ++ [(key, value)] := by
  induction members with
  | nil => rfl
  | cons member rest ih =>
    obtain ⟨other, held⟩ := member
    rw [List.map_cons, List.forall_mem_cons] at before
    have later : ¬ key < other := String.lt_asymm before.1
    have differs : ¬ key = other := fun same => String.lt_irrefl _ (same ▸ before.1)
    rw [insert, if_neg later, if_neg differs, ih before.2, List.cons_append]

/-- Members in the order of their keys make an object as they stand. -/
theorem ofMembers_of_ascending {members : Members}
    (ascending : (members.map Prod.fst).Pairwise (· < ·)) :
    ofMembers members = .object members := by
  have gathered : ∀ first : Members, ((first ++ members).map Prod.fst).Pairwise (· < ·) →
      members.foldl (fun sorted member => insert member.1 member.2 sorted) first =
        first ++ members := by
    clear ascending
    induction members with
    | nil => exact fun first _ => (List.append_nil first).symm
    | cons member rest ih =>
      intro first ordered
      have before : ∀ other ∈ first.map Prod.fst, other < member.1 := by
        rw [List.map_append, List.pairwise_append] at ordered
        exact fun other inside => ordered.2.2 other inside member.1 List.mem_cons_self
      rw [List.foldl_cons, insert_last member.2 before, ih, List.append_assoc,
        List.singleton_append]
      rwa [List.append_assoc, List.singleton_append]
  exact congrArg Json.object (gathered [] ascending)

end Json

namespace Primitive

/-- An integer is of the smallest type that has it, and a binary number beyond them. -/
theorem infer?_int (value : Int) : infer? (.int value) =
    if h : IntegerType.int32.contains value = true then some (.integer ⟨.int32, value, h⟩)
    else if h : IntegerType.int64.contains value = true then some (.integer ⟨.int64, value, h⟩)
    else some (.double (Binary64.ofInt value)) := by
  rw [infer?, int32?, int64?, ofInt?, ofInt?, TypedInteger.of?, TypedInteger.of?]
  by_cases small : IntegerType.int32.contains value = true
  · rw [dif_pos small, dif_pos small]
    rfl
  · rw [dif_neg small, dif_neg small]
    by_cases wide : IntegerType.int64.contains value = true
    · rw [dif_pos wide, dif_pos wide]
      rfl
    · rw [dif_neg wide, dif_neg wide]
      rfl

/-- The type of an inferred value reads that value. -/
theorem instance?_of_infer? {raw : Json} {value : Primitive} (inferred : infer? raw = some value) :
    value.type.instance? raw = .ok (some value) := by
  cases raw with
  | int number =>
    rw [infer?_int] at inferred
    split at inferred
    · cases inferred
      exact PrimitiveType.instance?_of_convert? (PrimitiveType.convert?_int_of_contains _)
    · split at inferred
      · cases inferred
        exact PrimitiveType.instance?_of_convert? (PrimitiveType.convert?_int_of_contains _)
      · cases inferred
        rfl
  | bool value => cases inferred; rfl
  | double value => cases inferred; rfl
  | string value => cases inferred; rfl
  | _ => cases inferred

/-- An inferred value is written as the data that it was inferred from. -/
theorem toJson_of_infer? {raw : Json} (data : raw.isData = true) {value : Primitive}
    (inferred : infer? raw = some value) : value.toJson = raw := by
  cases raw with
  | int number =>
    have wide : IntegerType.int64.contains number = true := data
    rw [infer?_int] at inferred
    split at inferred
    · cases inferred
      rfl
    · cases inferred
      rfl
  | double number =>
    cases inferred
    exact if_pos data
  | bool value => cases inferred; rfl
  | string value => cases inferred; rfl
  | _ => cases inferred

end Primitive

/-- What the type that data suggests reads from it is what is inferred from it. -/
theorem ValueType.reader_ofRaw (raw : Json) : (ofRaw raw).reader raw = Value.infer raw := by
  have scalar {value : Primitive} (inferred : Primitive.infer? raw = some value) :
      (ofRaw raw).reader raw = pure ((Primitive.infer? raw).map Value.primitive) := by
    rw [ofRaw, inferred]
    show Reader.ofPrimitive value.type raw = _
    rw [Reader.ofPrimitive, Primitive.instance?_of_infer? inferred]
    rfl
  cases raw with
  | int number =>
    obtain ⟨value, inferred⟩ : ∃ value, Primitive.infer? (.int number) = some value := by
      rw [Primitive.infer?_int]
      split
      · exact ⟨_, rfl⟩
      · split <;> exact ⟨_, rfl⟩
    exact scalar inferred
  | bool value => exact scalar rfl
  | double value => exact scalar rfl
  | string value => exact scalar rfl
  | _ => rfl

/-- Raw data is set on a container of the untyped type by inferring it. -/
theorem ComplexValue.set_untyped {container : ComplexValue} (untyped : container.type = .untyped)
    (name : String) (raw : Json) : container.set name (.raw raw) = Value.infer raw >>=
      fun value? => pure (container.bind (.dynamic name (.ofRaw raw)) value?) := by
  have property : container.propertyFor name (.raw raw) = .ok (.dynamic name (.ofRaw raw)) := by
    rw [propertyFor, untyped]
    rfl
  rw [set, property]
  show (ValueType.ofRaw raw).reader raw >>= _ = _
  rw [ValueType.reader_ofRaw]

theorem Value.inferMembers_eq (members : Json.Members) {container : ComplexValue}
    (untyped : container.type = .untyped) : inferMembers members container =
      members.foldlM (fun changed member => changed.set member.1 (.raw member.2)) container := by
  induction members generalizing container with
  | nil => rfl
  | cons member rest ih =>
    obtain ⟨key, raw⟩ := member
    rw [inferMembers, List.foldlM_cons, ComplexValue.set_untyped untyped, bind_assoc]
    refine congrArg (infer raw >>= ·) (funext fun value? => ?_)
    rw [pure_bind]
    exact ih untyped

/-- The error of a null among the items of an array. -/
def Value.nullItem : Error := .invalidValue (ValueType.collection .untyped).name "null"

/-- Nothing for null, and for all other data a value that is written as it. -/
inductive Value.Mirrors : Json → Option Value → Prop
  | null : Mirrors .null none
  | some {raw : Json} {value : Value} (given : raw ≠ .null) (same : value.toJson = raw) :
    Mirrors raw (some value)

/-- Inferring from data fails for a null item alone, and otherwise loses nothing. -/
def Value.InfersFrom (raw : Json) (inferred : Build (Option Value)) : Prop :=
  inferred.Ensures (fun error => error = nullItem ∧ raw.HasNullItem) fun value? =>
    ¬ raw.HasNullItem ∧ Mirrors raw value?

theorem Value.infersFrom_scalar {raw : Json} (data : raw.isData = true) {value : Primitive}
    (inferred : Primitive.infer? raw = some value) (single : ¬ raw.HasNullItem) :
    InfersFrom raw (pure ((Primitive.infer? raw).map .primitive)) := by
  rw [inferred]
  have given : raw ≠ .null := by
    rintro rfl
    cases inferred
  exact .pure ⟨single, .some given (Primitive.toJson_of_infer? data inferred)⟩

mutual

theorem Value.infersFrom_infer (raw : Json) (data : raw.isData = true) :
    InfersFrom raw (infer raw) := by
  cases raw with
  | null => exact .pure ⟨nofun, .null⟩
  | bool value => exact infersFrom_scalar data rfl nofun
  | double value => exact infersFrom_scalar data rfl nofun
  | string value => exact infersFrom_scalar data rfl nofun
  | int value =>
    have inferred := Primitive.infer?_int value
    split at inferred
    · exact infersFrom_scalar data inferred nofun
    · rw [dif_pos (by exact data)] at inferred
      exact infersFrom_scalar data inferred nofun
  | array items =>
    rw [infer]
    refine (Value.infersFrom_items items data).bind fun values ⟨free, same⟩ => ?_
    exact .pure ⟨free, .some nofun (congrArg Json.array same)⟩
  | object members =>
    obtain ⟨ascending, all⟩ := Bool.and_eq_true_iff.1 data
    have ordered := of_decide_eq_true ascending
    have made : Build.Ensures (fun error => error = nullItem ∧ (Json.object members).HasNullItem)
        (fun container => container.bindings = [])
        (liftM (ComplexValue.ofType .untyped)) := .ofBuilding fun _ => rfl
    rw [infer]
    refine made.bind fun container blank => ?_
    refine (Value.infersFrom_members members all ordered container (by simp [blank])).bind
      fun changed ⟨free, same⟩ => .pure ⟨free, .some nofun ?_⟩
    rw [blank] at same
    show ComplexValue.toJson changed = _
    rw [ComplexValue.toJson_eq, same]
    exact Json.ofMembers_of_ascending ordered

theorem Value.infersFrom_items (items : List Json) (data : Json.areData items = true) :
    (ofItems (ValueType.collection .untyped).name (inferItems items)).Ensures
      (fun error => error = nullItem ∧ (Json.array items).HasNullItem) fun values =>
        ¬ (Json.array items).HasNullItem ∧ itemsToJson values = items := by
  match items with
  | [] => exact .pure ⟨Json.hasNullItem_nil, rfl⟩
  | item :: rest =>
    obtain ⟨one, others⟩ := Bool.and_eq_true_iff.1 data
    rw [inferItems, ofItems]
    refine ((Value.infersFrom_infer item one).imp_error fun error ⟨same, held⟩ =>
      ⟨same, Json.hasNullItem_cons.2 (.inr (.inl held))⟩).bind fun item? ⟨free, mirrors⟩ => ?_
    cases mirrors with
    | null => exact .throw ⟨rfl, Json.hasNullItem_cons.2 (.inl rfl)⟩
    | @some _ value given same =>
      refine ((Value.infersFrom_items rest others).imp_error fun error ⟨same, held⟩ =>
        ⟨same, Json.hasNullItem_cons.2 (.inr (.inr held))⟩).bind fun values ⟨free', written⟩ => ?_
      refine .pure ⟨fun held => ?_, congrArg₂ List.cons same written⟩
      rcases Json.hasNullItem_cons.1 held with null | held | held
      · exact given null
      · exact free held
      · exact free' held

/-- Members with new keys are bound behind what is bound already. -/
theorem Value.infersFrom_members (members : Json.Members)
    (data : Json.membersAreData members = true)
    (ascending : (members.map Prod.fst).Pairwise (· < ·)) (container : ComplexValue)
    (new : ∀ member ∈ members, member.1 ∉ container.bindings.map PropertyValue.name) :
    (inferMembers members container).Ensures
      (fun error => error = nullItem ∧ (Json.object members).HasNullItem) fun changed =>
        ¬ (Json.object members).HasNullItem ∧
          ComplexValue.membersToJson changed.bindings =
            ComplexValue.membersToJson container.bindings ++ members := by
  match members with
  | [] => exact .pure ⟨Json.hasNullItem_empty, (List.append_nil _).symm⟩
  | (key, raw) :: rest =>
    obtain ⟨one, others⟩ := Bool.and_eq_true_iff.1 data
    rw [List.map_cons, List.pairwise_cons] at ascending
    rw [inferMembers]
    refine ((Value.infersFrom_infer raw one).imp_error fun error ⟨same, held⟩ =>
      ⟨same, Json.hasNullItem_member.2 (.inl held)⟩).bind fun value? ⟨free, mirrors⟩ => ?_
    let binding := (PropertyValue.unattached (.dynamic key (.ofRaw raw)) value?).attach container.id
    have bound : (container.bind (.dynamic key (.ofRaw raw)) value?).bindings =
        container.bindings ++ [binding] :=
      Keyed.put_of_not_mem _ _ _ (new _ List.mem_cons_self)
    have differs : key ∉ rest.map Prod.fst := fun inside =>
      String.lt_irrefl _ (ascending.1 key inside)
    have later : ∀ member ∈ rest, member.1 ∉
        (container.bind (.dynamic key (.ofRaw raw)) value?).bindings.map PropertyValue.name := by
      rw [bound]
      exact Keyed.not_mem_of_append PropertyValue.name Prod.fst rfl differs new
    refine ((Value.infersFrom_members rest others ascending.2 _ later).imp_error
      fun error ⟨same, held⟩ => ⟨same, Json.hasNullItem_member.2 (.inr held)⟩).imp
      fun changed ⟨free', written⟩ => ⟨fun held => ?_, ?_⟩
    · rcases Json.hasNullItem_member.1 held with held | held
      · exact free held
      · exact free' held
    · have here : Value.optionToJson binding.value? = raw := by
        cases mirrors with
        | null => rfl
        | some given same => exact (Value.toJson_adopt _ _).trans same
      rw [written, bound, ComplexValue.membersToJson_eq, ComplexValue.membersToJson_eq,
        List.map_append, List.append_assoc, List.map_singleton, here]
      rfl

end

/-- An object is inferred by setting its members one by one on an empty untyped container. -/
theorem Value.infer_object (members : Json.Members) : infer (.object members) = do
    let container ← ComplexValue.ofType .untyped
    return some (.complex (← members.foldlM
      (fun changed member => changed.set member.1 (.raw member.2)) container)) := by
  rw [infer]
  funext supply
  exact congrFun (congrArg (· >>= fun changed => pure (some (Value.complex changed)))
    (Value.inferMembers_eq members rfl)) (ComplexValue.ofType .untyped supply).2

/-- Inferring fails for a null among the items of an array, with the error of this item, and gives
nothing for null and a value of the same JSON for all other data. The members of an object are set
one by one. -/
theorem Value.infer_lossless {raw : Json} (data : raw.isData = true) (supply : Supply) :
    ((∃ error, ((infer raw).run supply).1 = .error error) ↔ raw.HasNullItem) ∧
      (∀ error, ((infer raw).run supply).1 = .error error →
        error = .invalidValue "Collection(Edm.Untyped)" "null") ∧
      (raw = .null → ((infer raw).run supply).1 = .ok none) ∧
      (raw ≠ .null → ¬ raw.HasNullItem → ∃ value,
        ((infer raw).run supply).1 = .ok (some value) ∧ value.toJson = raw) ∧
      ∀ members, raw = .object members → infer raw = do
        let container ← ComplexValue.ofType .untyped
        return some (.complex (← members.foldlM
          (fun changed member => changed.set member.1 (.raw member.2)) container)) := by
  have law := infersFrom_infer raw data
  rcases ran : (infer raw).run supply with ⟨outcome, rest⟩
  cases outcome with
  | error error =>
    obtain ⟨same, held⟩ := law.error ran
    refine ⟨⟨fun _ => held, fun _ => ⟨error, rfl⟩⟩, ?_, ?_, fun _ free => absurd held free,
      fun members same => same ▸ infer_object members⟩
    · rintro _ ⟨⟩
      exact same
    · rintro rfl
      cases held
  | ok value? =>
    obtain ⟨free, mirrors⟩ := law.ok ran
    refine ⟨⟨?_, fun held => absurd held free⟩, nofun, ?_, fun given _ => ?_,
      fun members same => same ▸ infer_object members⟩
    · rintro ⟨error, ⟨⟩⟩
    · rintro rfl
      cases mirrors with
      | null => rfl
      | some given => exact absurd rfl given
    · cases mirrors with
      | null => exact absurd rfl given
      | some _ same => exact ⟨_, rfl, same⟩

theorem Value.infer_lossless_nested :
    (∃ value, ((infer (.object [("b", .array [.int 1, .object [("a", .null)]]),
        ("c", .double (.ofInt 3))])).run ⟨0⟩).1 = .ok (some value) ∧
      value.toJson = .object [("b", .array [.int 1, .object [("a", .null)]]),
        ("c", .double (.ofInt 3))]) ∧
    ∃ error, ((infer (.object [("b", .array [.array [.int 1, .null]])])).run ⟨0⟩).1 =
      .error error := by
  have free : ¬ (Json.object [("b", .array [.int 1, .object [("a", .null)]]),
      ("c", .double (.ofInt 3))]).HasNullItem := by
    simp only [Json.hasNullItem_member, Json.hasNullItem_cons, Json.hasNullItem_nil,
      Json.hasNullItem_empty, or_false]
    rintro ((⟨⟨⟩⟩ | ⟨⟨⟩⟩ | ⟨⟨⟩⟩ | ⟨⟨⟩⟩) | ⟨⟨⟩⟩)
  refine ⟨(infer_lossless (by decide) ⟨0⟩).2.2.2.1 nofun free, ?_⟩
  exact (infer_lossless (by decide) ⟨0⟩).1.2 (.ofMember List.mem_cons_self
    (.ofItem List.mem_cons_self (.here (.tail _ (.head _)))))

end EdmQuery
