import EdmQuery.Proofs.Identities
import EdmQuery.Proofs.Runs
import EdmQuery.Value.Entity

set_option autoImplicit false

namespace EdmQuery

section

variable {α β γ δ : Type}

/-- Two computations give the same under a function, from whatever supplies. -/
def Build.Alike (see : α → β) (first second : Build α) : Prop :=
  ∀ early late : Supply, (first.run early).1.map see = (second.run late).1.map see

namespace Build.Alike

variable {see : α → β} {seeLater : γ → δ}

theorem pure {first second : α} (same : see first = see second) :
    Build.Alike see (Pure.pure first) (Pure.pure second) :=
  fun _ _ => congrArg Except.ok same

theorem throw (error : Error) :
    Build.Alike see (throw error : Build α) (throw error : Build α) :=
  fun _ _ => rfl

theorem bind {first second : Build α} {next later : α → Build γ}
    (alike : Build.Alike see first second)
    (follow : ∀ x y, see x = see y → Build.Alike seeLater (next x) (later y)) :
    Build.Alike seeLater (first >>= next) (second >>= later) := by
  intro early late
  have whole : ∀ (one : Build α) (then_ : α → Build γ) (supply : Supply),
      (one >>= then_).run supply =
        ExceptT.bindCont then_ (one.run supply).1 (one.run supply).2 := fun _ _ _ => rfl
  have same := alike early late
  rw [whole, whole]
  rcases ranFirst : first.run early with ⟨outcome, middle⟩
  rcases ranSecond : second.run late with ⟨other, between⟩
  rw [ranFirst, ranSecond] at same
  cases outcome with
  | error error =>
    cases other with
    | error error' =>
      cases Except.error.inj same
      rfl
    | ok y => cases same
  | ok x =>
    cases other with
    | error error' => cases same
    | ok y => exact follow x y (Except.ok.inj same) middle between

/-- What goes on from a result that is the same for both. -/
theorem ofResult {result : Result α} {next later : α → Build γ}
    (follow : ∀ x, Build.Alike seeLater (next x) (later x)) :
    Build.Alike seeLater (Build.ofResult result >>= next) (Build.ofResult result >>= later) := by
  cases result with
  | error error => exact .throw error
  | ok x => exact follow x

/-- What one computation gives, the other one gives too. -/
theorem exists_ok {first second : Build α} (alike : Build.Alike see first second)
    {supply rest : Supply} {x : α} (done : first.run supply = (.ok x, rest)) (late : Supply) :
    ∃ y left, second.run late = (.ok y, left) ∧ see y = see x := by
  have same := alike supply late
  rw [done] at same
  rcases ran : second.run late with ⟨outcome, left⟩
  rw [ran] at same
  cases outcome with
  | error error => cases same
  | ok y => exact ⟨y, left, rfl, (Except.ok.inj same).symm⟩

end Build.Alike

end

namespace ComplexValue

theorem anonymous_bind (container : ComplexValue) (property : Property) (value? : Option Value) :
    (container.bind property value?).anonymous =
      container.anonymous.bind property (value?.map Value.anonymous) := by
  have put : ∀ (binding : PropertyValue) (bindings : List PropertyValue),
      (Keyed.put PropertyValue.name binding bindings).map PropertyValue.anonymous =
        Keyed.put PropertyValue.name binding.anonymous (bindings.map PropertyValue.anonymous) := by
    intro binding bindings
    induction bindings with
    | nil => rfl
    | cons held rest ih =>
      have named : ∀ other : PropertyValue, other.anonymous.name = other.name :=
        fun other => congrArg Property.name (PropertyValue.property_erased _ other)
      rw [List.map_cons, Keyed.put, Keyed.put, named, named]
      split
      · rw [List.map_cons]
      · rw [List.map_cons, ih]
  have attached : ((PropertyValue.unattached property value?).attach container.id).anonymous =
      (PropertyValue.unattached property (value?.map Value.anonymous)).attach ⟨0⟩ := by
    rw [PropertyValue.anonymous, PropertyValue.erased_attach, PropertyValue.erased_eq]
    rfl
  rw [anonymous_eq, bind, bind, put, attached, anonymous_eq]

theorem type_of_anonymous {first second : ComplexValue}
    (same : first.anonymous = second.anonymous) : first.type = second.type := by
  have types := congrArg ComplexValue.type same
  rwa [anonymous, anonymous, type_erased, type_erased] at types

end ComplexValue

/-- An edit that does the same to containers of the same content. -/
def Edit.IsSteady (edit : Edit ComplexValue) : Prop :=
  ∀ (first second : ComplexValue) (early late : Supply), first.anonymous = second.anonymous →
    (edit first early).1.1.anonymous = (edit second late).1.1.anonymous ∧
      (edit first early).1.2 = (edit second late).1.2

namespace Edit.IsSteady

theorem skip : Edit.IsSteady Edit.skip := fun _ _ _ _ same => ⟨same, rfl⟩

theorem ofBuild {change : ComplexValue → Build ComplexValue}
    (alike : ∀ first second : ComplexValue, first.anonymous = second.anonymous →
      Build.Alike ComplexValue.anonymous (change first) (change second)) :
    Edit.IsSteady (Edit.ofBuild change) := by
  intro first second early late same
  have both := alike first second same early late
  rcases ranFirst : (change first).run early with ⟨outcome, middle⟩
  rcases ranSecond : (change second).run late with ⟨other, between⟩
  rw [ranFirst, ranSecond] at both
  cases outcome with
  | error error =>
    cases other with
    | error error' =>
      rw [Edit.ofBuild_of_error ranFirst, Edit.ofBuild_of_error ranSecond]
      exact ⟨same, congrArg Except.error (Except.error.inj both)⟩
    | ok changed => cases both
  | ok changed =>
    cases other with
    | error error => cases both
    | ok changed' =>
      rw [Edit.ofBuild_of_ok ranFirst, Edit.ofBuild_of_ok ranSecond]
      exact ⟨Except.ok.inj both, rfl⟩

theorem andThen {first second : Edit ComplexValue} (early : first.IsSteady)
    (late : second.IsSteady) : (first.andThen second).IsSteady := by
  intro one other start start' same
  obtain ⟨anonymous, outcome⟩ := early one other start start' same
  rcases ranFirst : first one start with ⟨⟨between, done⟩, middle⟩
  rcases ranSecond : first other start' with ⟨⟨between', done'⟩, middle'⟩
  rw [ranFirst, ranSecond] at anonymous outcome
  cases outcome
  cases done with
  | error error =>
    rw [Edit.andThen_of_error ranFirst, Edit.andThen_of_error ranSecond]
    exact ⟨anonymous, rfl⟩
  | ok _ =>
    rw [Edit.andThen_of_ok ranFirst, Edit.andThen_of_ok ranSecond]
    exact late between between' middle middle' anonymous

theorem inTurn {edits : List (Edit ComplexValue)} (each : ∀ edit ∈ edits, Edit.IsSteady edit) :
    Edit.IsSteady (Edit.inTurn edits) := by
  induction edits with
  | nil => exact skip
  | cons edit rest ih =>
    exact (each edit List.mem_cons_self).andThen
      (ih fun other inside => each other (List.mem_cons_of_mem _ inside))

theorem toBuild {edit : Edit ComplexValue} (steady : edit.IsSteady) {first second : ComplexValue}
    (same : first.anonymous = second.anonymous) :
    Build.Alike ComplexValue.anonymous (edit.toBuild first) (edit.toBuild second) := by
  intro early late
  obtain ⟨anonymous, outcome⟩ := steady first second early late same
  rw [Edit.run_toBuild, Edit.run_toBuild, outcome]
  cases (edit second late).1.2 with
  | error error => rfl
  | ok done => exact congrArg Except.ok anonymous

end Edit.IsSteady

/-- A reader that gives the same value whenever it reads the same data. -/
def Reader.IsSteady (read : Reader) : Prop :=
  ∀ raw, Build.Alike (Option.map Value.anonymous) (read raw) (read raw)

theorem Build.alike_ofType {α β : Type} {see : α → β} {type : ComplexType}
    {next later : ComplexValue → Build α}
    (follow : ∀ first second : ComplexValue, first.anonymous = second.anonymous →
      Build.Alike see (next first) (later second)) :
    Build.Alike see (liftM (ComplexValue.ofType type) >>= next)
      (liftM (ComplexValue.ofType type) >>= later) := by
  refine .bind (fun early late => ?_) follow
  exact congrArg Except.ok rfl

theorem Value.alike_ofItems {typeName : String} {reads : List (Json × Build (Option Value))}
    (each : ∀ entry ∈ reads, Build.Alike (Option.map Value.anonymous) entry.2 entry.2) :
    Build.Alike (List.map Value.anonymous) (ofItems typeName reads) (ofItems typeName reads) := by
  induction reads with
  | nil => exact .pure rfl
  | cons entry rest ih =>
    refine (each entry List.mem_cons_self).bind fun first second same => ?_
    cases first with
    | none =>
      cases second with
      | none => exact .throw _
      | some value => cases same
    | some value =>
      cases second with
      | none => cases same
      | some other =>
        have others := ih fun another inside => each another (List.mem_cons_of_mem _ inside)
        refine others.bind fun values items alike => .pure ?_
        rw [List.map_cons, List.map_cons, alike, Option.some.inj same]

theorem Value.alike_collection {first second : List Value}
    (same : first.map Value.anonymous = second.map Value.anonymous) :
    (some (Value.collection first)).map Value.anonymous =
      (some (Value.collection second)).map Value.anonymous := by
  have items : erasedItems (fun _ => true) first = erasedItems (fun _ => true) second := by
    rw [erasedItems_eq_map, erasedItems_eq_map]
    exact same
  exact congrArg (fun items => some (Value.collection items)) items

mutual

theorem Value.alike_infer (raw : Json) :
    Build.Alike (Option.map Value.anonymous) (Value.infer raw) (Value.infer raw) := by
  cases raw with
  | array items =>
    rw [Value.infer]
    refine (Value.alike_ofItems (Value.alike_inferItems items)).bind fun first second same => ?_
    exact .pure (Value.alike_collection same)
  | object members =>
    rw [Value.infer]
    refine Build.alike_ofType fun first second same => ?_
    refine (Value.alike_inferMembers members first second same).bind fun one other alike => ?_
    exact .pure (congrArg (fun container => some (Value.complex container)) alike)
  | null => exact .pure rfl
  | bool value => exact .pure rfl
  | int value => exact .pure rfl
  | double value => exact .pure rfl
  | string value => exact .pure rfl

theorem Value.alike_inferItems (items : List Json) :
    ∀ entry ∈ Value.inferItems items,
      Build.Alike (Option.map Value.anonymous) entry.2 entry.2 := by
  cases items with
  | nil => exact fun entry inside => by cases inside
  | cons item rest =>
    rw [Value.inferItems, List.forall_mem_cons]
    exact ⟨Value.alike_infer item, Value.alike_inferItems rest⟩

theorem Value.alike_inferMembers (members : Json.Members) (first second : ComplexValue)
    (same : first.anonymous = second.anonymous) :
    Build.Alike ComplexValue.anonymous (Value.inferMembers members first)
      (Value.inferMembers members second) := by
  match members with
  | [] => exact .pure same
  | (key, raw) :: rest =>
    rw [Value.inferMembers, Value.inferMembers]
    refine (Value.alike_infer raw).bind fun value? other? values => ?_
    refine Value.alike_inferMembers rest _ _ ?_
    rw [ComplexValue.anonymous_bind, ComplexValue.anonymous_bind, same, values]

end

namespace ComplexValue

theorem alike_bind {property : Property} {first second : ComplexValue}
    (same : first.anonymous = second.anonymous) {read : Build (Option Value)}
    (reads : Build.Alike (Option.map Value.anonymous) read read) :
    Build.Alike anonymous (do return first.bind property (← read))
      (do return second.bind property (← read)) := by
  refine reads.bind fun value? other? values => .pure ?_
  rw [anonymous_bind, anonymous_bind, same, values]

/-- Members are bound the same, given readers that are steady. -/
theorem isSteady_bindAll {readers : List (Property × Reader)}
    (steady : ∀ entry ∈ readers, entry.2.IsSteady) (members : Json.Members) :
    Edit.IsSteady (bindAll readers members) := by
  refine Edit.IsSteady.inTurn fun edit inside => ?_
  obtain ⟨member, -, rfl⟩ := List.mem_map.1 inside
  refine .ofBuild fun first second same => ?_
  rw [bindRaw, bindRaw, ← type_of_anonymous same]
  cases found : Keyed.find? (fun entry => entry.1.name) member.1 readers with
  | some entry =>
    exact alike_bind same (steady entry (Keyed.keyOf_of_find? _ found).2 member.2)
  | none =>
    cases first.type.isOpen with
    | true => exact alike_bind same (Value.alike_infer member.2)
    | false => exact .throw _

end ComplexValue

theorem Reader.isSteady_ofPrimitive (type : PrimitiveType) : (ofPrimitive type).IsSteady := by
  intro raw
  exact .ofResult fun value? => .pure rfl

theorem Reader.isSteady_ofCollection {read : Reader} (typeName : String) (steady : read.IsSteady) :
    (ofCollection typeName read).IsSteady := by
  intro raw
  cases raw with
  | null => exact .pure rfl
  | array items =>
    have each : ∀ entry ∈ items.map fun item => (item, read item),
        Build.Alike (Option.map Value.anonymous) entry.2 entry.2 := by
      intro entry inside
      obtain ⟨item, -, rfl⟩ := List.mem_map.1 inside
      exact steady item
    refine (Value.alike_ofItems each).bind fun first second same => ?_
    exact .pure (Value.alike_collection same)
  | _ => exact .throw _

theorem Reader.isSteady_ofComplex {type : ComplexType} {readers : List (Property × Reader)}
    (steady : ∀ entry ∈ readers, entry.2.IsSteady) : (ofComplex type readers).IsSteady := by
  intro raw
  cases raw with
  | null => exact .pure rfl
  | object members =>
    refine Build.alike_ofType fun first second same => ?_
    have reads := ComplexValue.isSteady_bindAll steady (ComplexValue.picked type members)
    refine (reads.toBuild same).bind fun one other alike => ?_
    exact .pure (congrArg (fun container => some (Value.complex container)) alike)
  | _ => exact .throw _

mutual

theorem ValueType.isSteady_reader (type : ValueType) : type.reader.IsSteady := by
  match type with
  | .primitive type => exact Reader.isSteady_ofPrimitive type
  | .complex type => exact Reader.isSteady_ofComplex (ComplexType.isSteady_readers type)
  | .collection element =>
    exact Reader.isSteady_ofCollection _ (ValueType.isSteady_reader element)
  | .entity name => exact Value.alike_infer
  | .untyped => exact Value.alike_infer

theorem ComplexType.isSteady_readers (type : ComplexType) :
    ∀ entry ∈ type.readers, entry.2.IsSteady := by
  match type with
  | ⟨_, _, _, _, _, properties⟩ => exact Property.isSteady_readers properties

theorem Property.isSteady_readers (properties : List Property) :
    ∀ entry ∈ Property.readers properties, entry.2.IsSteady := by
  match properties with
  | [] => exact fun entry inside => by cases inside
  | ⟨_, type, _, _⟩ :: rest =>
    rw [Property.readers, List.forall_mem_cons]
    exact ⟨ValueType.isSteady_reader type, Property.isSteady_readers rest⟩

end

namespace ComplexValue

/-- A record fills containers of the same content alike. -/
theorem alike_fill {first second : ComplexValue} (same : first.anonymous = second.anonymous)
    (raw : Json) : Build.Alike anonymous (first.fill raw) (second.fill raw) := by
  refine Build.Alike.ofResult fun members => ?_
  have typed : first.type = second.type := type_of_anonymous same
  have steady : Edit.IsSteady (bindAll first.type.readers (picked first.type members)) :=
    isSteady_bindAll (ComplexType.isSteady_readers first.type) _
  intro early late
  have one := steady.toBuild same early late
  rw [Edit.run_toBuild, Edit.run_toBuild] at one ⊢
  rw [readRecord, readRecord, ← typed]
  exact one

/-- Containers of the same content stay so in one entity set. -/
theorem anonymous_inSet {first second : ComplexValue} (same : first.anonymous = second.anonymous)
    (set? : Option String) : ({ first with entitySet? := set? } : ComplexValue).anonymous =
      ({ second with entitySet? := set? } : ComplexValue).anonymous := by
  rw [anonymous_eq, anonymous_eq] at same ⊢
  injection same with _ type bindings parent _ isReference metadata
  dsimp only
  rw [type, bindings, parent, isReference, metadata]

theorem alike_entityOfRecord (type : ComplexType) (set : String) (raw : Json) :
    Build.Alike anonymous (entityOfRecord type set raw) (entityOfRecord type set raw) := by
  refine Build.Alike.ofResult fun members => ?_
  have created : Build.Alike anonymous (newEntity type) (newEntity type) :=
    .ofResult fun _ _ _ => congrArg Except.ok rfl
  exact created.bind fun first second same => alike_fill (anonymous_inSet same (some set)) _

end ComplexValue

end EdmQuery
