import EdmQuery.Proofs.KeyReads
import EdmQuery.Proofs.Resolving
import EdmQuery.Proofs.SealedSchemas
import EdmQuery.Proofs.Validation

set_option autoImplicit false

namespace EdmQuery

open ComplexValue

theorem Value.primitive?_anonymous (value : Value) :
    value.anonymous.primitive? = value.primitive? := by
  cases value <;> rfl

/-- The primitive value that a reader gives does not depend on the identities that are left. -/
theorem ValueType.primitive?_of_reader {type : ValueType} {raw : Json} {first second : Option Value}
    {early late early' late' : Supply} (one : (type.reader raw).run early = (.ok first, late))
    (other : (type.reader raw).run early' = (.ok second, late')) :
    first.bind Value.primitive? = second.bind Value.primitive? := by
  have alike := ValueType.isSteady_reader type raw early early'
  rw [one, other] at alike
  have same : first.map Value.anonymous = second.map Value.anonymous := Except.ok.inj alike
  have forgets : ∀ value? : Option Value,
      (value?.map Value.anonymous).bind Value.primitive? = value?.bind Value.primitive? := by
    intro value?
    cases value? with
    | none => rfl
    | some value => exact value.primitive?_anonymous
  rw [← forgets first, same, forgets second]

section

variable {type : ComplexType} {set : String} {record : Json} {entity : ComplexValue}
  {early late : Supply}

/-- An entity binds the members of its record that its type takes, and nothing else. -/
theorem ComplexValue.eq_of_entityOfRecord {members : Json.Members}
    (distinct : ((picked type members).map Prod.fst).Nodup)
    (read : (entityOfRecord type set (.object members)).run early = (.ok entity, late)) :
    ∃ id bindings, List.Forall₂ (type.Binds id) (picked type members) bindings ∧
      entity = ⟨id, type, bindings, none, some set, false, []⟩ := by
  obtain ⟨taken, first, given, read⟩ := Build.bind_eq_ok read
  cases given
  obtain ⟨blank, second, made, filled⟩ := Build.bind_eq_ok read
  obtain ⟨checked, third, -, made⟩ := Build.bind_eq_ok made
  cases made
  obtain ⟨again, fourth, given, done⟩ := Build.bind_eq_ok filled
  cases given
  have done := Edit.run_of_toBuild done
  obtain ⟨bindings, all, rfl⟩ := bindings_of_bindAll distinct (fun _ _ none => by cases none) done
  exact ⟨_, bindings, all, rfl⟩

theorem ComplexValue.eq_of_recordMembers {members : Json.Members}
    (given : recordMembers record = .ok members) : record = .object members := by
  cases record <;> cases given
  rfl

/-- Whether instances of a type that are built from records bind a property of the type. -/
def ComplexType.binds (type : ComplexType) (property : Property) : Bool :=
  property.isDeclared || type.isUntyped

theorem ComplexValue.mem_picked {members : Json.Members} {property : Property} {raw : Json}
    (own : property ∈ type.properties) (binds : type.binds property = true)
    (has : members.lookup property.name = some raw) :
    (property.name, raw) ∈ picked type members := by
  rw [picked]
  split
  · obtain ⟨front, back, split, -⟩ := List.lookup_eq_some_iff.1 has
    rw [split]
    exact List.mem_append_right _ List.mem_cons_self
  · rename_i typed
    have declared : property.isDeclared = true :=
      ((Bool.or_eq_true _ _).mp binds).resolve_right typed
    refine List.mem_filterMap.2 ⟨property, List.mem_filter.2 ⟨own, declared⟩, ?_⟩
    rw [has, Option.map_some]

theorem ComplexValue.not_mem_picked (members : Json.Members) {property : Property}
    (apart : type.NamesApart) (own : property ∈ type.properties)
    (unbound : type.binds property = false) :
    property.name ∉ (picked type members).map Prod.fst := by
  rw [ComplexType.binds, Bool.or_eq_false_iff] at unbound
  rw [picked, unbound.2, if_neg Bool.false_ne_true]
  intro inside
  obtain ⟨member, taken, named⟩ := List.mem_map.1 inside
  obtain ⟨other, declared, found⟩ := List.mem_filterMap.1 taken
  obtain ⟨raw, -, rfl⟩ := Option.map_eq_some_iff.1 found
  obtain ⟨among, stored⟩ := List.mem_filter.1 declared
  have found := Keyed.find?_of_mem Property.name apart own
  rw [← named, Keyed.find?_of_mem Property.name apart among] at found
  rw [Option.some.inj found, unbound.1] at stored
  cases stored

theorem RecordStore.exists_of_recordKey? {key : Property} {value : Primitive}
    (has : recordKey? key record = some value) :
    ∃ raw value? rest, record.get? key.name = some raw ∧ value?.bind Value.primitive? = some value ∧
      (key.type.reader raw).run ⟨0⟩ = (.ok value?, rest) := by
  rw [recordKey?] at has
  cases there : record.get? key.name with
  | none =>
    rw [there] at has
    cases has
  | some raw =>
    rw [there, Option.map_some] at has
    rcases ran : (key.type.reader raw).run ⟨0⟩ with ⟨outcome, rest⟩
    rw [ran] at has
    cases outcome with
    | error error => cases has
    | ok value? => exact ⟨raw, value?, rest, rfl, has, ran⟩

/-- The key of an entity is the key of its record, if instances of its type bind the key. -/
theorem ComplexValue.key?_of_entityOfRecord {members : Json.Members} {key : Property}
    {value : Primitive} (apart : type.NamesApart) (kept : (Source.mapping members).IsKept)
    (keyed : type.keyProperty? = some key)
    (has : RecordStore.recordKey? key (.object members) = some value)
    (read : (entityOfRecord type set (.object members)).run early = (.ok entity, late)) :
    entity.key? = if type.binds key then some value else none := by
  have distinct : ((picked type members).map Prod.fst).Nodup := Source.nodup_taken apart kept
  obtain ⟨id, bindings, all, rfl⟩ := eq_of_entityOfRecord distinct read
  obtain ⟨name, named, found⟩ := Option.bind_eq_some_iff.1 keyed
  obtain ⟨rfl, own⟩ := Keyed.keyOf_of_find? _ found
  have names := ComplexType.names_eq_of_binds all
  rw [ComplexValue.key?, named, Option.bind_some]
  split
  · rename_i binds
    obtain ⟨raw, value?, rest, there, primitive, run⟩ := RecordStore.exists_of_recordKey? has
    have member := mem_picked own binds there
    obtain ⟨binding, inside, bound⟩ := exists_of_forall₂ all.flip member
    have only : (bindings.map PropertyValue.name).Nodup := names ▸ distinct
    have held := Keyed.find?_of_mem PropertyValue.name only inside
    rw [show binding.name = key.name from bound.name_eq] at held
    rw [ComplexValue.get?, held, Option.bind_some]
    cases bound with
    | declared declared ran =>
      cases declared.symm.trans found
      -- the store reads the key from other identities on, which a primitive value does not show
      rw [primitive?_attach, ← primitive]
      exact ValueType.primitive?_of_reader ran run
    | dynamic undeclared _ => cases undeclared.symm.trans found
  · rename_i unbound
    have absent := not_mem_picked members apart own (Bool.eq_false_iff.2 unbound)
    rw [← names, ← Keyed.contains_iff, Keyed.contains_eq_isSome, Bool.not_eq_true,
      Option.isSome_eq_false_iff, Option.isNone_iff_eq_none] at absent
    rw [ComplexValue.get?, absent, Option.bind_none]

end

namespace RecordStore

/-- The stores that come out of an empty one. Records have each of their keys once, in order. -/
inductive Reachable (schema : Schema) : RecordStore → Prop
  | empty : Reachable schema (.empty schema)
  | extend {store changed : RecordStore} {set : String} {records : List Json}
    (reached : Reachable schema store)
    (kept : ∀ record ∈ records, ∀ members, record = .object members →
      (Source.mapping members).IsKept)
    (done : store.extend set records = .ok changed) : Reachable schema changed
  | insert {store changed : RecordStore} {set : String} {record : Json}
    (reached : Reachable schema store)
    (kept : ∀ members, record = .object members → (Source.mapping members).IsKept)
    (done : store.insert set record = .ok changed) : Reachable schema changed

/-- What holds of all records of a store. -/
def AllHeld (store : RecordStore) (holds : Json → Prop) : Prop :=
  ∀ set, ∀ record ∈ store.held set, holds record

variable {schema : Schema} {store changed : RecordStore} {set : String} {records : List Json}
  {record : Json} {holds : Json → Prop}

/-- Extending a store leaves its other sets as they are. -/
theorem held_of_extend (done : store.extend set records = .ok changed) :
    changed.schema = store.schema ∧ ∀ other,
      changed.held other = if other = set then store.held set ++ records else store.held other := by
  obtain ⟨registered, -, done⟩ := Result.bind_eq_ok done
  split at done
  · cases done
  · cases done
    refine ⟨rfl, fun other => ?_⟩
    rw [held, Keyed.putPair, SchemaBuilder.lookup_eq_find?, Keyed.find?_put]
    by_cases same : other = set
    · rw [if_pos same, if_pos same.symm]
      rfl
    · rw [if_neg same, if_neg (Ne.symm same), ← SchemaBuilder.lookup_eq_find?]
      rfl

theorem AllHeld.extend (all : store.AllHeld holds) (new : ∀ record ∈ records, holds record)
    (done : store.extend set records = .ok changed) : changed.AllHeld holds := by
  intro other record inside
  rw [(held_of_extend done).2] at inside
  split at inside
  · exact (List.mem_append.1 inside).elim (all set record) (new record)
  · exact all other record inside

/-- A reached store is one over its schema, of records with each key once. -/
theorem Reachable.invariant (reached : Reachable schema store) : store.schema = schema ∧
    store.AllHeld fun record => ∀ members, record = .object members →
      (Source.mapping members).IsKept := by
  induction reached with
  | empty => exact ⟨rfl, fun _ _ none => by cases none⟩
  | extend _ kept done ih =>
    exact ⟨(held_of_extend done).1.trans ih.1, ih.2.extend kept done⟩
  | insert _ kept done ih =>
    refine ⟨(held_of_extend done).1.trans ih.1, ih.2.extend (fun other inside => ?_) done⟩
    rw [List.mem_singleton.1 inside]
    exact kept

/-- The records of the related entities, as many as the navigation property may have. -/
def inlineRecords? (binding : NavigationBinding) : Json → Option (List Json)
  | .array records => if binding.isCollection then some records else none
  | .object members => if binding.isCollection then none else some [.object members]
  | _ => none

/-- The value of a navigation property that a record has inline, none if it is absent or null. -/
def ownInline (binding : NavigationBinding) (target : ComplexType) (property : String)
    (record : Json) : Build (Option Value) :=
  match record.get? property with
  | none | some .null => pure none
  | some inline =>
    match inlineRecords? binding inline with
    | none => throw (wrongShape property inline)
    | some records => do
      let values ← records.mapM (related target binding.targetSet?)
      return if binding.isCollection then some (.collection values) else values.head?

/-- Inline data that is not of the shape that the property asks for, or that the target type does not
read. -/
def IsMalformed (binding : NavigationBinding) (target : ComplexType) (inline : Json) : Prop :=
  inline ≠ .null ∧ ∀ records, inlineRecords? binding inline = some records →
    ∃ record ∈ records, ∃ early late error,
      (related target binding.targetSet? record).run early = (.error error, late)

theorem isMalformed_of_ownInline {binding : NavigationBinding} {target : ComplexType}
    {property : String} {early late : Supply} {error : Error}
    (failed : (ownInline binding target property record).run early = (.error error, late)) :
    ∃ inline, record.get? property = some inline ∧ IsMalformed binding target inline := by
  rw [ownInline] at failed
  split at failed
  · cases failed
  · cases failed
  · rename_i inline notNull there
    refine ⟨inline, there, notNull, fun records shaped => ?_⟩
    have reads : (records.mapM (related target binding.targetSet?)).Ensures
        (fun error => ∃ record ∈ records, ∃ early late,
          (related target binding.targetSet? record).run early = (.error error, late))
        (fun values => ∀ value ∈ values, True) :=
      Build.Ensures.mapM fun record inside =>
        ⟨fun _ => trivial, fun failed => ⟨record, inside, _, _, failed⟩⟩
    simp only [shaped] at failed
    rcases Build.bind_eq_error failed with failed | ⟨_, _, _, none⟩
    · obtain ⟨record, inside, early, late, failed⟩ := reads.error failed
      exact ⟨record, inside, early, late, error, failed⟩
    · cases none

/-- Resolving reads the inline data of the record that the store takes for the entity's. -/
theorem resolve_eq (parent : ComplexValue) {property : Property} {binding : NavigationBinding}
    {target : ComplexType} (navigates : property.kind.navigation? = some binding)
    (known : store.schema.type? binding.targetType = some target) (request : NavigationRequest) :
    store.resolve parent property request = match store.recordOf? parent with
      | none => pure none
      | some record => ownInline binding target property.name record := by
  rw [resolve, navigates]
  dsimp only
  rw [known]
  cases store.recordOf? parent with
  | none => rfl
  | some record =>
    rw [Option.bind_some]
    dsimp only
    rw [ownInline]
    cases record.get? property.name with
    | none => rfl
    | some inline =>
      cases inline with
      | null => rfl
      | array records =>
        cases many : binding.isCollection <;> simp only [inlineRecords?, many] <;> rfl
      | object members =>
        cases many : binding.isCollection with
        | true => simp only [inlineRecords?, many]; rfl
        | false => simp [inlineRecords?, many]
      | _ => rfl

/-- An entity that was built from a record of a set, which has other records before and behind it. -/
structure IsBuiltFrom (store : RecordStore) (set : String) (registered : EntitySet)
    (before : List Json) (record : Json) (after : List Json) (entity : ComplexValue) : Prop where
  registers : store.schema.requireEntitySet set = .ok registered
  held : store.held set = before ++ record :: after
  read : ∃ early late,
    (entityOfRecord registered.type set record).run early = (.ok entity, late)

/-- Whether a record has a key that equals a given one. -/
def sharesKey (key : Property) (value : Primitive) (record : Json) : Bool :=
  (recordKey? key record).any (·.same value)

section

variable {registered : EntitySet} {before after : List Json} {entity : ComplexValue}
  {key : Property} {value : Primitive}

theorem IsBuiltFrom.mem_types (made : store.IsBuiltFrom set registered before record after entity)
    (built : store.schema.IsBuilt) : registered.type ∈ store.schema.types := by
  have registers := made.registers
  rw [Schema.requireEntitySet] at registers
  cases found : store.schema.entitySet? set with
  | none =>
    rw [found] at registers
    cases registers
  | some other =>
    rw [found] at registers
    cases registers
    exact built.consistent.2 registered (Keyed.keyOf_of_find? _ found).2

/-- The store takes the first record with the key of the entity, if the entity has a key at all. -/
theorem IsBuiltFrom.recordOf?_eq
    (made : store.IsBuiltFrom set registered before record after entity)
    (built : store.schema.IsBuilt) (kept : ∀ members, record = .object members →
      (Source.mapping members).IsKept)
    (keyed : registered.type.keyProperty? = some key) (has : recordKey? key record = some value) :
    store.recordOf? entity =
      if registered.type.binds key then
        (before ++ record :: after).find? (sharesKey key value)
      else none := by
  obtain ⟨early, late, read⟩ := made.read
  have apart := built.consistent.1 _ (made.mem_types built)
  obtain ⟨members, middle, given, -⟩ := Build.bind_eq_ok read
  obtain rfl := eq_of_recordMembers (Build.ofResult_eq_ok.1 given).1
  have kept := kept members rfl
  obtain ⟨id, bindings, -, same⟩ := eq_of_entityOfRecord (Source.nodup_taken apart kept) read
  have sets : entity.entitySet? = some set := by rw [same]
  have typed : entity.type = registered.type := by rw [same]
  have key := key?_of_entityOfRecord apart kept keyed has read
  rw [recordOf?, sets, key, typed, keyed, ← made.held]
  split <;> rfl

theorem exists_target (built : schema.IsBuilt) {type : ComplexType} (among : type ∈ schema.types)
    {property : Property} (navigates : property ∈ type.navigationProperties) :
    ∃ binding target, property.kind.navigation? = some binding ∧
      schema.type? binding.targetType = some target := by
  obtain ⟨own, leads⟩ := List.mem_filter.1 navigates
  obtain ⟨binding, leads⟩ := Option.isSome_iff_exists.1 leads
  obtain ⟨builder, -, done⟩ := built
  obtain ⟨rfl, resolves⟩ := SchemaBuilder.build_eq_ok.1 done
  obtain ⟨target, known, -⟩ := resolves binding
    (SchemaBuilder.mem_navigations.2 ⟨type, among, property, own, leads⟩)
  exact ⟨binding, target, leads, known⟩

/-- An entity is resolved from the first record of its set that has its key. This is its own record
if instances of the type bind the key, the key equals itself and no record before it has the same
key, and then resolving fails only if what stands inline is malformed. -/
theorem resolve_isBuiltFrom (built : schema.IsBuilt) (reached : Reachable schema store)
    (made : store.IsBuiltFrom set registered before record after entity)
    (keyed : registered.type.keyProperty? = some key) (has : recordKey? key record = some value)
    {property : Property} (navigates : property ∈ registered.type.navigationProperties)
    (request : NavigationRequest) :
    ∃ binding target, property.kind.navigation? = some binding ∧
      schema.type? binding.targetType = some target ∧
      store.resolve entity property request =
        (match if registered.type.binds key then
            (before ++ record :: after).find? (sharesKey key value) else none with
          | none => pure none
          | some first => ownInline binding target property.name first) ∧
      (registered.type.binds key = true → value.same value = true →
        (∀ earlier ∈ before, sharesKey key value earlier = false) →
        store.resolve entity property request = ownInline binding target property.name record ∧
          ∀ early late error,
            (store.resolve entity property request).run early = (.error error, late) →
              ∃ inline, record.get? property.name = some inline ∧
                IsMalformed binding target inline) := by
  obtain ⟨rfl, kept⟩ := reached.invariant
  have among : record ∈ store.held set := by
    rw [made.held]
    exact List.mem_append_right _ List.mem_cons_self
  have found := made.recordOf?_eq built (kept set record among) keyed has
  obtain ⟨binding, target, leads, known⟩ := exists_target built (made.mem_types built) navigates
  have resolved := resolve_eq entity leads known request
  rw [found] at resolved
  refine ⟨binding, target, leads, known, resolved, fun binds itself new => ?_⟩
  -- the key has to equal itself: a record whose key is NaN is not found by it
  have shares : sharesKey key value record = true := by
    rw [sharesKey, has]
    exact itself
  have own : (before ++ record :: after).find? (sharesKey key value) = some record := by
    have none : before.find? (sharesKey key value) = Option.none :=
      List.find?_eq_none.2 fun other inside => Bool.eq_false_iff.1 (new other inside)
    rw [List.find?_append, none, Option.none_or, List.find?_cons_of_pos shares]
  rw [if_pos binds, own] at resolved
  refine ⟨resolved, fun early late error failed => ?_⟩
  rw [resolved] at failed
  exact isMalformed_of_ownInline failed

end

def flightWith (id pilot : String) : Json :=
  .object [("id", .string id), ("pilot", .object [("id", .string pilot)])]

def flightStore (records : List Json) : RecordStore :=
  ⟨Schema.fleet "air.Flight", [("flights", records)]⟩

/-- A flight as it is read. -/
def flightEntity (id : String) : ComplexValue :=
  Schema.identified 0 (Schema.flightType "air.Flight") "flights" id

def pilotBinding : NavigationBinding := ⟨"air.Pilot", false, some "pilots", true⟩

def pilotValue (id : String) : Value :=
  .complex (Schema.identified 1 Schema.pilotType "pilots" id)

def withoutOptions : NavigationRequest := ⟨"pilot", .default⟩

theorem isBuiltFrom_flightStore (first second firstPilot secondPilot : String) :
    let records := [flightWith first firstPilot, flightWith second secondPilot]
    Reachable (Schema.fleet "air.Flight") (flightStore records) ∧
      (flightStore records).IsBuiltFrom "flights" ⟨"flights", Schema.flightType "air.Flight"⟩
        [flightWith first firstPilot] (flightWith second secondPilot) [] (flightEntity second) := by
  intro records
  have ordered : ["id", "pilot"].Pairwise (· < ·) := by decide
  have kept : ∀ record ∈ records, ∀ members, record = .object members →
      (Source.mapping members).IsKept := by
    intro record among members given
    rcases List.mem_cons.1 among with rfl | among
    · cases given
      exact ordered
    · rw [List.mem_singleton.1 among] at given
      cases given
      exact ordered
  have done : (RecordStore.empty (Schema.fleet "air.Flight")).extend "flights" records =
    .ok (flightStore records) := rfl
  exact ⟨.extend .empty kept done, rfl, rfl, ⟨0⟩, ⟨1⟩, rfl⟩

/-- The second flight with its own pilot. -/
theorem resolve_isBuiltFrom_flights :
    let store := flightStore [flightWith "BA1" "7", flightWith "BA2" "8"]
    let key := Property.declared "id" (.primitive .string)
    let pilot := Property.navigation "pilot" pilotBinding
    (Schema.fleet "air.Flight").IsBuilt ∧ Reachable (Schema.fleet "air.Flight") store ∧
      store.IsBuiltFrom "flights" ⟨"flights", Schema.flightType "air.Flight"⟩
        [flightWith "BA1" "7"] (flightWith "BA2" "8") [] (flightEntity "BA2") ∧
      (Schema.flightType "air.Flight").keyProperty? = some key ∧
      recordKey? key (flightWith "BA2" "8") = some (.string "BA2") ∧
      pilot ∈ (Schema.flightType "air.Flight").navigationProperties ∧
      (store.resolve (flightEntity "BA2") pilot withoutOptions).run ⟨1⟩ =
        (.ok (some (pilotValue "8")), ⟨2⟩) := by
  intro store key pilot
  have built : (Schema.fleet "air.Flight").IsBuilt := Schema.isBuilt_fleet (.inl rfl)
  obtain ⟨reached, made⟩ := isBuiltFrom_flightStore "BA1" "BA2" "7" "8"
  have has : recordKey? key (flightWith "BA2" "8") = some (.string "BA2") := rfl
  have navigates : pilot ∈ (Schema.flightType "air.Flight").navigationProperties :=
    List.mem_singleton.2 rfl
  refine ⟨built, reached, made, rfl, has, navigates, ?_⟩
  obtain ⟨binding, target, leads, known, -, own⟩ :=
    resolve_isBuiltFrom built reached made rfl has navigates withoutOptions
  cases leads
  cases known
  rw [(own rfl rfl fun earlier among => by rw [List.mem_singleton.1 among]; rfl).1]
  rfl

/-- Of two flights with the same key, the second is given the pilot of the first. -/
theorem resolve_isBuiltFrom_repeated :
    let store := flightStore [flightWith "BA1" "7", flightWith "BA1" "8"]
    let key := Property.declared "id" (.primitive .string)
    let pilot := Property.navigation "pilot" pilotBinding
    (Schema.fleet "air.Flight").IsBuilt ∧ Reachable (Schema.fleet "air.Flight") store ∧
      store.IsBuiltFrom "flights" ⟨"flights", Schema.flightType "air.Flight"⟩
        [flightWith "BA1" "7"] (flightWith "BA1" "8") [] (flightEntity "BA1") ∧
      (Schema.flightType "air.Flight").keyProperty? = some key ∧
      recordKey? key (flightWith "BA1" "8") = some (.string "BA1") ∧
      pilot ∈ (Schema.flightType "air.Flight").navigationProperties ∧
      (store.resolve (flightEntity "BA1") pilot withoutOptions).run ⟨1⟩ =
        (.ok (some (pilotValue "7")), ⟨2⟩) ∧
      (ownInline pilotBinding Schema.pilotType "pilot" (flightWith "BA1" "8")).run ⟨1⟩ =
        (.ok (some (pilotValue "8")), ⟨2⟩) ∧
      pilotValue "7" ≠ pilotValue "8" := by
  intro store key pilot
  obtain ⟨reached, made⟩ := isBuiltFrom_flightStore "BA1" "BA1" "7" "8"
  refine ⟨Schema.isBuilt_fleet (.inl rfl), reached, made, rfl, rfl, List.mem_singleton.2 rfl, rfl,
    rfl, fun same => ?_⟩
  have keys := congrArg (fun value => value.complex?.bind ComplexValue.key?) same
  exact absurd keys (by decide)

end RecordStore

end EdmQuery
