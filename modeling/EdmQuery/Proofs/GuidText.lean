import EdmQuery.Query.Literal
import Mathlib.Algebra.Group.Nat.Defs

set_option autoImplicit false

namespace EdmQuery

namespace Guid

open Text

theorem hexDigitValue?_hexDigit {value : Nat} (small : value < 16) :
    hexDigitValue? (Json.hexDigit value) = some value := by
  have all : ∀ value < 16, hexDigitValue? (Json.hexDigit value) = some value := by decide
  exact all value small

theorem length_hexDigits (count value : Nat) : (hexDigits count value).length = count := by
  induction count generalizing value with
  | zero => rfl
  | succ count ih => rw [hexDigits, List.length_append, ih, List.length_singleton]

theorem isHex_of_mem_hexDigits {count value : Nat} {char : Char}
    (inside : char ∈ hexDigits count value) : isHex char = true := by
  induction count generalizing value with
  | zero => cases inside
  | succ count ih =>
    rw [hexDigits, List.mem_append, List.mem_singleton] at inside
    rcases inside with earlier | rfl
    · exact ih earlier
    · rw [isHex, hexDigitValue?_hexDigit (Nat.mod_lt value (by decide))]
      rfl

/-- The lowest digits of a number denote its remainder. -/
theorem readHex_hexDigits (count value : Nat) :
    readHex (hexDigits count value) = value % 16 ^ count := by
  induction count generalizing value with
  | zero => rw [Nat.pow_zero, Nat.mod_one]; rfl
  | succ count ih =>
    have digit := hexDigitValue?_hexDigit (Nat.mod_lt value (show 0 < 16 by decide))
    have higher := ih (value / 16)
    rw [readHex] at higher ⊢
    rw [hexDigits, List.foldl_append, higher, List.foldl_cons, List.foldl_nil, digit,
      Option.getD_some, Nat.pow_succ, Nat.mul_comm (16 ^ count) 16, Nat.mod_mul]
    omega

theorem ofHex?_hexDigits (guid : Guid) : ofHex? (hexDigits 32 guid.value) = some guid := by
  have bound : guid.value < 16 ^ 32 := guid.value_lt
  have value : readHex (hexDigits 32 guid.value) = guid.value := by
    rw [readHex_hexDigits, Nat.mod_eq_of_lt bound]
  have digits : (hexDigits 32 guid.value).all isHex = true :=
    List.all_eq_true.2 fun _ inside => isHex_of_mem_hexDigits inside
  rw [ofHex?, if_pos ⟨length_hexDigits 32 guid.value, digits⟩]
  simp only [value, guid.value_lt, dif_pos]

/-- Five groups of digits with hyphens between them. -/
structure Groups (first second third fourth last : List Char) : Prop where
  length_first : first.length = 8
  length_second : second.length = 4
  length_third : third.length = 4
  length_fourth : fourth.length = 4
  length_last : last.length = 12
  digit : ∀ char ∈ first ++ second ++ third ++ fourth ++ last, isHex char = true

def hyphenated (first second third fourth last : List Char) : List Char :=
  first ++ '-' :: (second ++ '-' :: (third ++ '-' :: (fourth ++ '-' :: last)))

section

variable {first second third fourth last : List Char}

theorem Groups.length (groups : Groups first second third fourth last) :
    (hyphenated first second third fourth last).length = 36 := by
  simp only [hyphenated, List.length_append, List.length_cons, groups.length_first,
    groups.length_second, groups.length_third, groups.length_fourth, groups.length_last]

theorem Groups.ofHyphenated? (groups : Groups first second third fourth last) :
    Guid.ofHyphenated? (hyphenated first second third fourth last) =
      ofHex? (first ++ second ++ third ++ fourth ++ last) := by
  simp [Guid.ofHyphenated?, hyphenated, List.drop_append, groups.length_first,
    groups.length_second, groups.length_third, groups.length_fourth, groups.length_last,
    List.drop_eq_nil_of_le]

/-- Whether a character may stand at a place of a hyphenated identifier. -/
def fitsAt (place : Char × Nat) : Bool :=
  if place.2 = 8 ∨ place.2 = 13 ∨ place.2 = 18 ∨ place.2 = 23 then place.1 == '-'
  else isHex place.1

theorem fitsAt_group (start : Nat) {group : List Char}
    (digit : ∀ char ∈ group, isHex char = true)
    (between : ∀ index, start ≤ index → index < start + group.length →
      ¬ (index = 8 ∨ index = 13 ∨ index = 18 ∨ index = 23)) :
    (group.zipIdx start).all fitsAt = true := by
  rw [List.all_eq_true]
  rintro ⟨char, index⟩ inside
  rw [List.mk_mem_zipIdx_iff_le_and_getElem?_sub] at inside
  have atPlace := List.mem_of_getElem? inside.2
  have below : index - start < group.length := (List.getElem?_eq_some_iff.1 inside.2).1
  have noHyphen := between index inside.1 (by omega)
  rw [fitsAt, if_neg noHyphen]
  exact digit char atPlace

theorem Groups.looksLikeGuid (groups : Groups first second third fourth last) :
    Literal.looksLikeGuid (hyphenated first second third fourth last) = true := by
  have lengths := groups.length
  have digit := groups.digit
  simp only [List.forall_mem_append] at digit
  obtain ⟨⟨⟨⟨firstDigit, secondDigit⟩, thirdDigit⟩, fourthDigit⟩, lastDigit⟩ := digit
  have all : (hyphenated first second third fourth last).zipIdx.all fitsAt = true := by
    have firstFits := fitsAt_group 0 firstDigit (by
      intro index _ upper
      rw [groups.length_first] at upper
      omega)
    have secondFits := fitsAt_group 9 secondDigit (by
      intro index _ upper
      rw [groups.length_second] at upper
      omega)
    have thirdFits := fitsAt_group 14 thirdDigit (by
      intro index _ upper
      rw [groups.length_third] at upper
      omega)
    have fourthFits := fitsAt_group 19 fourthDigit (by
      intro index _ upper
      rw [groups.length_fourth] at upper
      omega)
    have lastFits := fitsAt_group 24 lastDigit (by
      intro index lower _
      omega)
    simp only [hyphenated, List.zipIdx_append, List.zipIdx_cons, List.all_append, List.all_cons,
      groups.length_first, groups.length_second, groups.length_third, groups.length_fourth]
    simp only [firstFits, secondFits, thirdFits, fourthFits, lastFits]
    decide
  rw [Literal.looksLikeGuid, lengths, Bool.and_eq_true]
  exact ⟨rfl, all⟩

end

variable (guid : Guid)

theorem render_groups : ∃ first second third fourth last,
    guid.render.toList = hyphenated first second third fourth last ∧
      Groups first second third fourth last ∧
      first ++ second ++ third ++ fourth ++ last = hexDigits 32 guid.value := by
  have length := length_hexDigits 32 guid.value
  have whole : (hexDigits 32 guid.value).take 8 ++ ((hexDigits 32 guid.value).drop 8).take 4 ++
      ((hexDigits 32 guid.value).drop 12).take 4 ++ ((hexDigits 32 guid.value).drop 16).take 4 ++
      (hexDigits 32 guid.value).drop 20 = hexDigits 32 guid.value := by
    generalize hexDigits 32 guid.value = digits
    have cut : ∀ start count, (digits.drop start).take count ++ digits.drop (start + count) =
        digits.drop start := by
      intro start count
      rw [← List.drop_drop, List.take_append_drop]
    rw [List.append_assoc, cut 16 4, List.append_assoc, cut 12 4, List.append_assoc, cut 8 4,
      List.take_append_drop]
  refine ⟨_, _, _, _, _, ?_, ?_, whole⟩
  · rw [render, String.toList_ofList]
    simp only [hyphenated, List.append_assoc, List.cons_append]
  · constructor
    · rw [List.length_take, length]; rfl
    · rw [List.length_take, List.length_drop, length]; rfl
    · rw [List.length_take, List.length_drop, length]; rfl
    · rw [List.length_take, List.length_drop, length]; rfl
    · rw [List.length_drop, length]
    · rw [whole]
      exact fun _ inside => isHex_of_mem_hexDigits inside

theorem read?_render : read? guid.render.toList = some guid := by
  obtain ⟨first, second, third, fourth, last, spelled, groups, whole⟩ := guid.render_groups
  rw [spelled, read?, groups.length, if_neg (by decide), if_pos rfl, groups.ofHyphenated?, whole,
    ofHex?_hexDigits]

end Guid

end EdmQuery
