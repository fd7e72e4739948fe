import EdmQuery.Primitive.Coercion
import EdmQuery.Proofs.Base64Text
import EdmQuery.Proofs.GuidText
import EdmQuery.Proofs.CalendarText

set_option autoImplicit false

namespace EdmQuery.PrimitiveType

variable {type : PrimitiveType}

theorem type_of_convert? {raw : Json} {value : Primitive}
    (read : type.convert? raw = some value) : value.type = type := by
  cases type with
  | integer width =>
    obtain ⟨number, -, typed⟩ := Option.bind_eq_some_iff.1 read
    rw [Primitive.ofInt?, Option.map_eq_some_iff] at typed
    obtain ⟨inside, held, rfl⟩ := typed
    rw [TypedInteger.of?] at held
    split at held
    · cases held
      rfl
    · cases held
  | _ =>
    obtain ⟨held, -, rfl⟩ := Option.map_eq_some_iff.1 read
    rfl

/-- A value that is read for a primitive type is of this type. -/
theorem type_of_instance? {raw : Json} {value : Primitive}
    (read : type.instance? raw = .ok (some value)) : value.type = type := by
  rw [instance?] at read
  split at read
  · cases read
  · split at read
    · rename_i converted
      cases read
      exact type_of_convert? converted
    · cases read

/-- All types but decimals and binary numbers, whose JSON may have lost digits. -/
def keepsDigits : PrimitiveType → Bool
  | single | double | decimal => false
  | _ => true

theorem convert?_toJson {value : Primitive} (keeps : value.type.keepsDigits = true)
    (strict : ∀ moment, value = .dateTimeOffset moment → moment.date.isPlain = true) :
    value.type.convert? value.toJson = some value := by
  cases value with
  | boolean value => rfl
  | integer value =>
    obtain ⟨width, number, inside⟩ := value
    have within := IntegerType.int64_contains width number inside
    have read : ∀ acceptString, Coercion.integer? acceptString (.int number) = some number :=
      fun _ => if_pos within
    show (Coercion.integer? _ (.int number)).bind (Primitive.ofInt? width ·) = _
    rw [read, Option.bind_some, Primitive.ofInt?, TypedInteger.of?, dif_pos inside]
    rfl
  | single value => cases keeps
  | double value => cases keeps
  | decimal value => cases keeps
  | string value => rfl
  | guid value =>
    simp only [Primitive.type, Primitive.toJson, Primitive.render, convert?, Json.string?,
      Option.bind_some, Guid.read?_render, Option.map_some]
  | date value =>
    simp only [Primitive.type, Primitive.toJson, Primitive.render, convert?, Json.string?,
      Option.bind_some, Date.read?_render, Option.map_some]
  | dateTimeOffset value =>
    simp only [Primitive.type, Primitive.toJson, Primitive.render, convert?, Json.string?,
      Option.bind_some, DateTimeOffset.read?_render value (strict value rfl), Option.map_some]
  | timeOfDay value =>
    simp only [Primitive.type, Primitive.toJson, Primitive.render, convert?, Json.string?,
      Option.bind_some, TimeOfDay.read?_render, Option.map_some]
  | binary bytes =>
    simp only [Primitive.type, Primitive.toJson, Primitive.render, convert?, Json.string?,
      Option.bind_some, Base64.encode, String.toList_ofList, Base64.decode?_encodeWith,
      Option.map_some]

/-- A value that was read is read again from what it is written as. -/
theorem instance?_toJson (keeps : type.keepsDigits = true) {raw : Json} {value : Primitive}
    (read : type.instance? raw = .ok (some value)) :
    type.instance? value.toJson = .ok (some value) := by
  have typed := type_of_instance? read
  have strict : ∀ moment, value = .dateTimeOffset moment → moment.date.isPlain = true := by
    rintro moment rfl
    cases typed
    rw [instance?] at read
    split at read
    · cases read
    · split at read
      · rename_i converted
        cases read
        obtain ⟨held, given, same⟩ := Option.map_eq_some_iff.1 converted
        cases same
        obtain ⟨text, -, written⟩ := Option.bind_eq_some_iff.1 given
        exact DateTimeOffset.isPlain_of_read? written
      · cases read
  have converted := convert?_toJson (typed ▸ keeps) strict
  rw [typed] at converted
  have solid : value.toJson.isNull = false := by
    cases value with
    | decimal number => cases typed; cases keeps
    | single number => cases typed; cases keeps
    | double number => cases typed; cases keeps
    | _ => rfl
  rw [instance?, if_neg (by rw [solid]; exact Bool.false_ne_true), converted]

end EdmQuery.PrimitiveType
