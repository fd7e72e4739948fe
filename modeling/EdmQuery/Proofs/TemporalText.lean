import EdmQuery.Proofs.Base64Text
import EdmQuery.Proofs.DecimalText
import EdmQuery.Proofs.GuidText

set_option autoImplicit false

namespace EdmQuery

namespace Literal

open Parsing

/-- What no identifier has among its first eight characters. -/
theorem looksLikeGuid_eq_false {token : List Char} {index : Nat} {char : Char}
    (small : index < 8) (found : token[index]? = some char) (other : Guid.isHex char = false) :
    looksLikeGuid token = false := by
  rw [Bool.eq_false_iff]
  intro looks
  simp only [looksLikeGuid, Bool.and_eq_true, beq_iff_eq, List.all_eq_true] at looks
  have atIndex := looks.2 (char, index) (by
    rw [List.mk_mem_zipIdx_iff_getElem?]
    exact found)
  have noHyphen : ¬ (index = 8 ∨ index = 13 ∨ index = 18 ∨ index = 23) := by omega
  simp only [if_neg noHyphen, other, Bool.false_eq_true] at atIndex

/-- A token that starts with neither a digit nor another hexadecimal digit has no type. -/
theorem tokenType?_eq_none_of_head {char : Char} (noHex : Guid.isHex char = false)
    (noDigit : isAsciiDigit char = false) (rest : List Char) :
    tokenType? (char :: rest) = none := by
  have notGuid : looksLikeGuid (char :: rest) = false :=
    looksLikeGuid_eq_false (show 0 < 8 by decide) rfl noHex
  have noDigits : ∀ count, digitsAt (char :: rest) 0 (count + 1) = false := by
    intro count
    rw [digitsAt, List.drop_zero, List.take_succ_cons, List.all_cons, noDigit, Bool.false_and,
      Bool.and_false]
  rw [tokenType?, notGuid, looksLikeDate, looksLikeTime, noDigits 3, noDigits 1]
  rfl

section

variable {year month day hour minute rest : List Char}

theorem digitsAt_append {before digits : List Char} {start count : Nat} (rest : List Char)
    (behind : before.length = start) (many : digits.length = count)
    (digit : ∀ char ∈ digits, isAsciiDigit char = true) :
    digitsAt (before ++ (digits ++ rest)) start count = true := by
  subst behind many
  rw [digitsAt, List.drop_left, List.take_left, Bool.and_eq_true]
  exact ⟨beq_self_eq_true _, List.all_eq_true.2 digit⟩

theorem looksLikeDate_append (fourYear : year.length = 4) (twoMonth : month.length = 2)
    (digitYear : ∀ char ∈ year, isAsciiDigit char = true)
    (digitMonth : ∀ char ∈ month, isAsciiDigit char = true) :
    looksLikeDate (year ++ '-' :: (month ++ '-' :: rest)) = true := by
  have years : digitsAt (year ++ '-' :: (month ++ '-' :: rest)) 0 4 = true :=
    digitsAt_append _ List.length_nil fourYear digitYear
  have months : digitsAt (year ++ '-' :: (month ++ '-' :: rest)) 5 2 = true := by
    have behind : (year ++ ['-']).length = 5 := by
      rw [List.length_append, fourYear, List.length_singleton]
    have found := digitsAt_append ('-' :: rest) behind twoMonth digitMonth
    rwa [List.append_assoc, List.singleton_append] at found
  have first : (year ++ '-' :: (month ++ '-' :: rest))[4]? = some '-' := by
    rw [List.getElem?_append_right (by omega), fourYear]
    rfl
  have second : (year ++ '-' :: (month ++ '-' :: rest))[7]? = some '-' := by
    rw [List.getElem?_append_right (by omega), fourYear, List.getElem?_cons_succ,
      List.getElem?_append_right (by omega), twoMonth]
    rfl
  rw [looksLikeDate, years, months, first, second]
  rfl

theorem tokenType?_date (fourYear : year.length = 4) (twoMonth : month.length = 2)
    (digitYear : ∀ char ∈ year, isAsciiDigit char = true)
    (digitMonth : ∀ char ∈ month, isAsciiDigit char = true) :
    tokenType? (year ++ '-' :: (month ++ '-' :: rest)) =
      if (year ++ '-' :: (month ++ '-' :: rest)).contains 'T' then some .dateTimeOffset
      else some .date := by
  have hyphen : (year ++ '-' :: (month ++ '-' :: rest))[4]? = some '-' := by
    rw [List.getElem?_append_right (by omega), fourYear]
    rfl
  rw [tokenType?, looksLikeGuid_eq_false (by decide) hyphen (by decide),
    looksLikeDate_append fourYear twoMonth digitYear digitMonth]
  rfl

theorem tokenType?_time (twoHour : hour.length = 2) (twoMinute : minute.length = 2)
    (digitHour : ∀ char ∈ hour, isAsciiDigit char = true)
    (digitMinute : ∀ char ∈ minute, isAsciiDigit char = true) :
    tokenType? (hour ++ ':' :: (minute ++ rest)) = some .timeOfDay := by
  have colon : (hour ++ ':' :: (minute ++ rest))[2]? = some ':' := by
    rw [List.getElem?_append_right (by omega), twoHour]
    rfl
  have notDate : looksLikeDate (hour ++ ':' :: (minute ++ rest)) = false := by
    simp [looksLikeDate, digitsAt, List.take_append, twoHour, isAsciiDigit, digitValue?]
  have hours : digitsAt (hour ++ ':' :: (minute ++ rest)) 0 2 = true :=
    digitsAt_append _ List.length_nil twoHour digitHour
  have minutes : digitsAt (hour ++ ':' :: (minute ++ rest)) 3 2 = true := by
    have behind : (hour ++ [':']).length = 3 := by
      rw [List.length_append, twoHour, List.length_singleton]
    have found := digitsAt_append rest behind twoMinute digitMinute
    rwa [List.append_assoc, List.singleton_append] at found
  have time : looksLikeTime (hour ++ ':' :: (minute ++ rest)) = true := by
    rw [looksLikeTime, hours, colon, minutes]
    rfl
  rw [tokenType?, looksLikeGuid_eq_false (by decide) colon (by decide), notDate, time]
  rfl

end

/-- A whole token is read as the type it looks like reads it. -/
theorem temporal?_of_tokenType? {text : List Char} {type : PrimitiveType} {value : Primitive}
    (token : ∀ char ∈ text, isTokenChar char = true) (typed : tokenType? text = some type)
    (converted : type.convert? (.string (String.ofList text)) = some value) :
    temporal? text = some (.ok (value, [])) := by
  have stops : StopsAt isTokenChar [] := stopsAt_nil
  have taken := stops.takeWhile_append token
  have dropped := stops.dropWhile_append token
  rw [List.append_nil] at taken dropped
  rw [temporal?, taken, dropped, typed, Option.map_some, valueOf, converted]

theorem isTokenChar_of_digit {char : Char} (digit : isAsciiDigit char = true) :
    isTokenChar char = true := by
  rw [isTokenChar, digit]
  simp only [Bool.or_true, Bool.true_or]

theorem isTokenChar_of_mem_padNat {width value : Nat} :
    ∀ char ∈ (padNat width value).toList, isTokenChar char = true :=
  fun _ inside => isTokenChar_of_digit (isAsciiDigit_of_mem_padNat inside)

theorem isTokenChar_of_mem_date (date : Date) (plain : date.isPlain = true) :
    ∀ char ∈ date.render.toList, isTokenChar char = true := by
  rw [date.toList_render_of_isPlain plain]
  simp only [List.forall_mem_append, List.forall_mem_cons]
  exact ⟨isTokenChar_of_mem_padNat, by decide, isTokenChar_of_mem_padNat, by decide,
    isTokenChar_of_mem_padNat⟩

theorem isTokenChar_of_mem_fraction (nanosecond : Nat) :
    ∀ char ∈ (Calendar.renderFraction nanosecond).toList, isTokenChar char = true := by
  have point : ".".toList = ['.'] := by decide
  have behind : ∀ width value, ∀ char ∈ ("." ++ padNat width value).toList,
      isTokenChar char = true := by
    intro width value
    rw [String.toList_append, point, List.singleton_append, List.forall_mem_cons]
    exact ⟨by decide, isTokenChar_of_mem_padNat⟩
  unfold Calendar.renderFraction
  split
  · intro char inside
    cases inside
  · split
    · exact behind _ _
    · split
      · exact behind _ _
      · exact behind _ _

theorem isTokenChar_of_mem_time (time : TimeOfDay) :
    ∀ char ∈ time.render.toList, isTokenChar char = true := by
  rw [time.toList_render]
  simp only [List.forall_mem_append, List.forall_mem_cons]
  exact ⟨isTokenChar_of_mem_padNat, by decide, isTokenChar_of_mem_padNat, by decide,
    isTokenChar_of_mem_padNat, isTokenChar_of_mem_fraction _⟩

theorem isTokenChar_of_mem_offset (offset : Int) :
    ∀ char ∈ (DateTimeOffset.renderOffset offset).toList, isTokenChar char = true := by
  have colon : ":".toList = [':'] := by decide
  rw [DateTimeOffset.renderOffset]
  by_cases zero : offset = 0
  · rw [if_pos zero]
    exact List.all_eq_true.1 (by decide)
  · have sign : ∀ char ∈ (if offset < 0 then "-" else "+").toList, isTokenChar char = true := by
      split <;> exact List.all_eq_true.1 (by decide)
    rw [if_neg zero]
    simp only [String.toList_append, colon, List.forall_mem_append, List.forall_mem_cons]
    exact ⟨⟨⟨sign, isTokenChar_of_mem_padNat⟩, by decide, List.forall_mem_nil _⟩,
      isTokenChar_of_mem_padNat⟩

theorem isTokenChar_of_mem_moment (moment : DateTimeOffset) (plain : moment.date.isPlain = true) :
    ∀ char ∈ moment.render.toList, isTokenChar char = true := by
  rw [moment.toList_render]
  simp only [List.forall_mem_append, List.forall_mem_cons]
  exact ⟨isTokenChar_of_mem_date moment.date plain, by decide,
    isTokenChar_of_mem_time moment.time, isTokenChar_of_mem_offset moment.offset⟩

section

variable {date : Date}

/-- The text of a date and of anything that starts with one. -/
theorem tokenType?_of_date (plain : date.isPlain = true) (rest : List Char) :
    tokenType? (date.render.toList ++ rest) =
      if (date.render.toList ++ rest).contains 'T' then some .dateTimeOffset else some .date := by
  have inside := date.bounds
  have years := date.isPlain_iff.1 plain
  have year : date.year.toNat < 10 ^ 4 := by omega
  have month : date.month < 10 ^ 2 := by omega
  have text : date.render.toList ++ rest = (padNat 4 date.year.toNat).toList ++
      '-' :: ((padNat 2 date.month).toList ++ '-' :: ((padNat 2 date.day).toList ++ rest)) := by
    rw [date.toList_render_of_isPlain plain]
    simp only [List.append_assoc, List.cons_append]
  rw [text]
  exact tokenType?_date (length_padNat year (by decide)) (length_padNat month (by decide))
    (fun _ => isAsciiDigit_of_mem_padNat) (fun _ => isAsciiDigit_of_mem_padNat)

theorem temporal?_date (plain : date.isPlain = true) :
    temporal? date.render.toList = some (.ok (.date date, [])) := by
  have noMark : date.render.toList.contains 'T' = false := by
    rw [Bool.eq_false_iff]
    intro found
    have inside := List.contains_iff_mem.1 found
    have digits : ∀ {width value : Nat}, 'T' ∉ (padNat width value).toList :=
      fun inside => absurd (isAsciiDigit_of_mem_padNat inside) (by decide)
    rw [date.toList_render_of_isPlain plain] at inside
    simp only [List.mem_append, List.mem_cons, digits, or_false, false_or] at inside
    rcases inside with same | same <;> cases same
  have typed := tokenType?_of_date plain []
  rw [List.append_nil, noMark] at typed
  apply temporal?_of_tokenType? (isTokenChar_of_mem_date date plain) typed
  simp only [PrimitiveType.convert?, Json.string?, Option.bind_some, String.toList_ofList,
    date.read?_render, Option.map_some]

end

theorem temporal?_time (time : TimeOfDay) :
    temporal? time.render.toList = some (.ok (.timeOfDay time, [])) := by
  have inside := time.bounds
  have hour : time.hour < 10 ^ 2 := by omega
  have minute : time.minute < 10 ^ 2 := by omega
  have typed : tokenType? time.render.toList = some .timeOfDay := by
    rw [time.toList_render]
    exact tokenType?_time (length_padNat hour (by decide)) (length_padNat minute (by decide))
      (fun _ => isAsciiDigit_of_mem_padNat) (fun _ => isAsciiDigit_of_mem_padNat)
  apply temporal?_of_tokenType? (isTokenChar_of_mem_time time) typed
  simp only [PrimitiveType.convert?, Json.string?, Option.bind_some, String.toList_ofList,
    time.read?_render, Option.map_some]

theorem temporal?_moment {moment : DateTimeOffset} (plain : moment.date.isPlain = true) :
    temporal? moment.render.toList = some (.ok (.dateTimeOffset moment, [])) := by
  have mark : moment.render.toList.contains 'T' = true := by
    rw [List.contains_iff_mem, moment.toList_render]
    exact List.mem_append_right _ List.mem_cons_self
  have typed : tokenType? moment.render.toList = some .dateTimeOffset := by
    have found := tokenType?_of_date plain
      ('T' :: (moment.time.render.toList ++ (DateTimeOffset.renderOffset moment.offset).toList))
    rw [← moment.toList_render, mark] at found
    exact found
  apply temporal?_of_tokenType? (isTokenChar_of_mem_moment moment plain) typed
  simp only [PrimitiveType.convert?, Json.string?, Option.bind_some, String.toList_ofList,
    moment.read?_render plain, Option.map_some]

theorem toNat_lt_of_isHex {char : Char} (hex : Guid.isHex char = true) : char.toNat < 128 := by
  unfold Guid.isHex Text.hexDigitValue? at hex
  have nine : '9'.toNat = 57 := rfl
  have lower : 'f'.toNat = 102 := rfl
  have upper : 'F'.toNat = 70 := rfl
  split at hex
  · rename_i inside
    have bound : char.toNat ≤ '9'.toNat := inside.2
    omega
  split at hex
  · rename_i inside
    have bound : char.toNat ≤ 'f'.toNat := inside.2
    omega
  split at hex
  · rename_i inside
    have bound : char.toNat ≤ 'F'.toNat := inside.2
    omega
  · cases hex

/-- Hexadecimal digits are parts of tokens and of names. -/
theorem token_and_name_of_isHex {char : Char} (hex : Guid.isHex char = true) :
    isTokenChar char = true ∧ isNamePart char = true := by
  have codes : ∀ code < 128, Guid.isHex (Char.ofNat code) = true →
      isTokenChar (Char.ofNat code) = true ∧ isNamePart (Char.ofNat code) = true := by decide
  exact forall_ascii (fun char => Guid.isHex char = true →
    isTokenChar char = true ∧ isNamePart char = true) codes char (toNat_lt_of_isHex hex) hex

theorem isAsciiDigit_of_isHex {char : Char} (hex : Guid.isHex char = true)
    (noLetter : isNameStart char = false) : isAsciiDigit char = true := by
  have codes : ∀ code < 128, Guid.isHex (Char.ofNat code) = true →
      isNameStart (Char.ofNat code) = false → isAsciiDigit (Char.ofNat code) = true := by decide
  exact forall_ascii (fun char => Guid.isHex char = true → isNameStart char = false →
    isAsciiDigit char = true) codes char (toNat_lt_of_isHex hex) hex noLetter

theorem temporal?_guid (guid : Guid) :
    temporal? guid.render.toList = some (.ok (.guid guid, [])) := by
  obtain ⟨first, second, third, fourth, last, spelled, groups, -⟩ := guid.render_groups
  have token : ∀ char ∈ guid.render.toList, isTokenChar char = true := by
    have digit := groups.digit
    rw [spelled, Guid.hyphenated]
    simp only [List.forall_mem_append, List.forall_mem_cons] at digit ⊢
    have hex : ∀ group : List Char, (∀ char ∈ group, Guid.isHex char = true) →
        ∀ char ∈ group, isTokenChar char = true :=
      fun group digits char inside => (token_and_name_of_isHex (digits char inside)).1
    exact ⟨hex first digit.1.1.1.1, by decide, hex second digit.1.1.1.2, by decide,
      hex third digit.1.1.2, by decide, hex fourth digit.1.2, by decide, hex last digit.2⟩
  have typed : tokenType? guid.render.toList = some .guid := by
    rw [spelled, tokenType?, groups.looksLikeGuid]
    rfl
  apply temporal?_of_tokenType? token typed
  simp only [PrimitiveType.convert?, Json.string?, Option.bind_some, String.toList_ofList,
    guid.read?_render, Option.map_some]

end Literal

end EdmQuery
