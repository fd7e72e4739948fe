import EdmQuery.Proofs.CalendarText
import EdmQuery.Proofs.LiteralText

set_option autoImplicit false

namespace EdmQuery

/-- The number that digits denote behind others of a given value. -/
def digitsValueFrom (start : Nat) (digits : List Char) : Nat :=
  digits.foldl (fun value char => value * 10 + (char.toNat - '0'.toNat)) start

theorem digitsValueFrom_append (start : Nat) (first second : List Char) :
    digitsValueFrom start (first ++ second) =
      digitsValueFrom (digitsValueFrom start first) second :=
  List.foldl_append

theorem le_digitsValueFrom (start : Nat) (digits : List Char) :
    start ≤ digitsValueFrom start digits := by
  induction digits generalizing start with
  | nil => exact Nat.le_refl start
  | cons char rest ih =>
    have step := ih (start * 10 + (char.toNat - '0'.toNat))
    rw [digitsValueFrom] at step ⊢
    rw [List.foldl_cons]
    omega

theorem digitValue?_of_isAsciiDigit {char : Char} (digit : isAsciiDigit char = true) :
    digitValue? char = some (char.toNat - '0'.toNat) := by
  unfold isAsciiDigit at digit
  unfold digitValue? at digit ⊢
  split
  · rfl
  · rename_i outside
    rw [if_neg outside] at digit
    cases digit

namespace Decimal

section

variable {digits : List Char}

/-- Digits before the point are gathered while they fit. -/
theorem readUnsigned?_whole (negative started : Bool) (mantissa : Nat)
    (digit : ∀ char ∈ digits, isAsciiDigit char = true)
    (fits : digitsValueFrom mantissa digits < mantissaLimit) (rest : List Char) :
    readUnsigned? ⟨negative, false, started, mantissa, 0⟩ (digits ++ rest) =
      readUnsigned? ⟨negative, false, started || !digits.isEmpty,
        digitsValueFrom mantissa digits, 0⟩ rest := by
  induction digits generalizing mantissa started with
  | nil =>
    rw [List.isEmpty_nil, Bool.not_true, Bool.or_false]
    rfl
  | cons char others ih =>
    have value := digitValue?_of_isAsciiDigit (digit char List.mem_cons_self)
    have next : mantissa * 10 + (char.toNat - '0'.toNat) < mantissaLimit :=
      Nat.lt_of_le_of_lt (le_digitsValueFrom _ others) fits
    have later := ih true (mantissa * 10 + (char.toNat - '0'.toNat))
      (fun other inside => digit other (List.mem_cons_of_mem char inside)) fits
    rw [List.cons_append, readUnsigned?]
    simp only [Bool.false_and, Bool.false_eq_true, if_false, value, if_pos next, later]
    simp only [Bool.true_or, List.isEmpty_cons, Bool.not_false, Bool.or_true]
    rfl

/-- Digits behind the point are gathered while there is a place for them. -/
theorem readUnsigned?_places (negative : Bool) (mantissa scale : Nat)
    (digit : ∀ char ∈ digits, isAsciiDigit char = true)
    (fits : digitsValueFrom mantissa digits < mantissaLimit)
    (places : scale + digits.length ≤ maxScale) (rest : List Char) :
    readUnsigned? ⟨negative, true, true, mantissa, scale⟩ (digits ++ rest) =
      readUnsigned? ⟨negative, true, true, digitsValueFrom mantissa digits,
        scale + digits.length⟩ rest := by
  induction digits generalizing mantissa scale with
  | nil => rfl
  | cons char others ih =>
    have value := digitValue?_of_isAsciiDigit (digit char List.mem_cons_self)
    have next : mantissa * 10 + (char.toNat - '0'.toNat) < mantissaLimit :=
      Nat.lt_of_le_of_lt (le_digitsValueFrom _ others) fits
    rw [List.length_cons] at places ⊢
    have free : decide (maxScale ≤ scale) = false := by
      rw [decide_eq_false_iff_not]
      omega
    have later := ih (mantissa * 10 + (char.toNat - '0'.toNat)) (scale + 1)
      (fun other inside => digit other (List.mem_cons_of_mem char inside)) fits (by omega)
    have count : scale + (others.length + 1) = scale + 1 + others.length := by omega
    rw [List.cons_append, readUnsigned?]
    simp only [free, Bool.and_false, Bool.false_eq_true, if_false, value, if_pos next, if_true,
      later, count]
    rfl

end

section

variable {whole places : List Char}

/-- All digits around a point are gathered, and then what follows is read. -/
theorem readUnsigned?_point (negative : Bool) (some : whole ≠ [])
    (digit : ∀ char ∈ whole, isAsciiDigit char = true)
    (place : ∀ char ∈ places, isAsciiDigit char = true)
    (fits : digitsValue (whole ++ places) < mantissaLimit) (short : places.length ≤ maxScale)
    (rest : List Char) :
    readUnsigned? ⟨negative, false, false, 0, 0⟩ (whole ++ '.' :: (places ++ rest)) =
      readUnsigned? ⟨negative, true, true, digitsValue (whole ++ places), places.length⟩ rest := by
  have split : digitsValue (whole ++ places) = digitsValueFrom (digitsValue whole) places :=
    digitsValueFrom_append 0 whole places
  have wholeFits : digitsValueFrom 0 whole < mantissaLimit :=
    Nat.lt_of_le_of_lt (le_digitsValueFrom _ places) (split ▸ fits)
  have gathered := readUnsigned?_whole negative false 0 digit wholeFits
    ('.' :: (places ++ rest))
  have behind := readUnsigned?_places negative (digitsValue whole) 0 place
    (split ▸ fits) (by omega) rest
  rw [Nat.zero_add] at behind
  obtain ⟨char, others, rfl⟩ := List.exists_cons_of_ne_nil some
  rw [gathered, split, ← behind]
  rfl

theorem read?_unsigned {char : Char} (digit : isAsciiDigit char = true) (rest : List Char) :
    read? (char :: rest) = readUnsigned? ⟨false, false, false, 0, 0⟩ (char :: rest) := by
  unfold read?
  split
  · rename_i same
    cases same
    cases digit
  · rename_i same
    cases same
    cases digit
  · rfl

theorem read?_digits (some : whole ≠ []) (digit : ∀ char ∈ whole, isAsciiDigit char = true)
    (fits : digitsValue whole < mantissaLimit) :
    read? whole = ofParts? false (digitsValue whole) 0 := by
  have gathered := readUnsigned?_whole false false 0 digit fits []
  obtain ⟨char, rest, rfl⟩ := List.exists_cons_of_ne_nil some
  rw [List.append_nil] at gathered
  rw [read?_unsigned (digit char List.mem_cons_self), gathered]
  rfl

theorem read?_places (some : whole ≠ []) (digit : ∀ char ∈ whole, isAsciiDigit char = true)
    (place : ∀ char ∈ places, isAsciiDigit char = true)
    (fits : digitsValue (whole ++ places) < mantissaLimit) (short : places.length ≤ maxScale) :
    read? (whole ++ '.' :: places) =
      ofParts? false (digitsValue (whole ++ places)) places.length := by
  have gathered := readUnsigned?_point false some digit place fits short []
  obtain ⟨char, rest, rfl⟩ := List.exists_cons_of_ne_nil some
  rw [List.append_nil] at gathered
  rw [List.cons_append, read?_unsigned (digit char List.mem_cons_self), ← List.cons_append,
    gathered]
  rfl

end

variable (x : Decimal)

/-- The digits before and behind the point, filled up with zeros. -/
def wholeDigits : List Char :=
  let padded := (padNat (x.scale + 1) x.mantissa).toList
  padded.take (padded.length - x.scale)

def placeDigits : List Char :=
  let padded := (padNat (x.scale + 1) x.mantissa).toList
  padded.drop (padded.length - x.scale)

theorem wholeDigits_append_placeDigits :
    x.wholeDigits ++ x.placeDigits = (padNat (x.scale + 1) x.mantissa).toList :=
  List.take_append_drop ..

theorem length_padded : x.scale + 1 ≤ (padNat (x.scale + 1) x.mantissa).toList.length := by
  rw [toList_padNat, List.length_append, List.length_replicate]
  omega

theorem length_placeDigits : x.placeDigits.length = x.scale := by
  have long := x.length_padded
  rw [placeDigits, List.length_drop]
  omega

theorem wholeDigits_ne_nil : x.wholeDigits ≠ [] := by
  intro none
  have long := x.length_padded
  have length := congrArg List.length x.wholeDigits_append_placeDigits
  rw [none, List.nil_append, length_placeDigits] at length
  omega

theorem isAsciiDigit_of_mem_wholeDigits {char : Char} (inside : char ∈ x.wholeDigits) :
    isAsciiDigit char = true := by
  have padded : char ∈ x.wholeDigits ++ x.placeDigits := List.mem_append_left _ inside
  rw [wholeDigits_append_placeDigits] at padded
  exact isAsciiDigit_of_mem_padNat padded

theorem isAsciiDigit_of_mem_placeDigits {char : Char} (inside : char ∈ x.placeDigits) :
    isAsciiDigit char = true := by
  have padded : char ∈ x.wholeDigits ++ x.placeDigits := List.mem_append_right _ inside
  rw [wholeDigits_append_placeDigits] at padded
  exact isAsciiDigit_of_mem_padNat padded

theorem digitsValue_padded : digitsValue (x.wholeDigits ++ x.placeDigits) = x.mantissa := by
  rw [wholeDigits_append_placeDigits, digitsValue_padNat]

theorem toList_render : x.render.toList = (if x.negative then ['-'] else []) ++
    (x.wholeDigits ++ if x.scale = 0 then [] else '.' :: x.placeDigits) := by
  have point : ".".toList = ['.'] := by decide
  have minus : "-".toList = ['-'] := by decide
  have length : (padNat (x.scale + 1) x.mantissa).length =
      (padNat (x.scale + 1) x.mantissa).toList.length := String.length_toList.symm
  show ((if x.negative then "-" else "") ++
    String.ofList ((padNat (x.scale + 1) x.mantissa).toList.take
      ((padNat (x.scale + 1) x.mantissa).length - x.scale)) ++
    (if x.scale = 0 then "" else "." ++ String.ofList ((padNat (x.scale + 1) x.mantissa).toList.drop
      ((padNat (x.scale + 1) x.mantissa).length - x.scale)))).toList = _
  rw [length, String.toList_append, String.toList_append, String.toList_ofList, List.append_assoc]
  have sign : (if x.negative then "-" else "").toList = if x.negative then ['-'] else [] := by
    cases x.negative
    · rfl
    · exact minus
  have fraction : (if x.scale = 0 then "" else "." ++ String.ofList x.placeDigits).toList =
      if x.scale = 0 then [] else '.' :: x.placeDigits := by
    by_cases whole : x.scale = 0
    · rw [if_pos whole, if_pos whole]
      rfl
    · rw [if_neg whole, if_neg whole, String.toList_append, point, String.toList_ofList]
      rfl
  rw [sign]
  exact congrArg _ (congrArg _ fraction)

theorem ofParts?_of_natural (natural : x.negative = false) :
    ofParts? false x.mantissa x.scale = some x := by
  obtain ⟨negative, mantissa, scale, mantissa_lt, scale_le⟩ := x
  cases natural
  exact dif_pos ⟨mantissa_lt, scale_le⟩

theorem compare_self : x.compare x = .eq := by
  rw [compare]
  exact Std.ReflCmp.compare_self

/-- A number with places is read as itself. -/
theorem read?_render_of_places (natural : x.negative = false) :
    read? (x.wholeDigits ++ '.' :: x.placeDigits) = some x := by
  have fits : digitsValue (x.wholeDigits ++ x.placeDigits) < mantissaLimit := by
    rw [digitsValue_padded]
    exact x.mantissa_lt
  have short : x.placeDigits.length ≤ maxScale := by
    rw [length_placeDigits]
    exact x.scale_le
  rw [read?_places x.wholeDigits_ne_nil (fun _ => x.isAsciiDigit_of_mem_wholeDigits)
    (fun _ => x.isAsciiDigit_of_mem_placeDigits) fits short, digitsValue_padded,
    length_placeDigits, x.ofParts?_of_natural natural]

end Decimal

end EdmQuery
