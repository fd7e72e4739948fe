import EdmQuery.Calendar.DateTimeOffset
import EdmQuery.Proofs.Words
import Mathlib.Algebra.Group.Nat.Defs

set_option autoImplicit false

namespace EdmQuery

section

variable {width value : Nat}

theorem toList_pushn (text : String) (char : Char) (count : Nat) :
    (text.pushn char count).toList = text.toList ++ List.replicate count char := by
  rw [String.pushn_eq_repeat_push]
  induction count with
  | zero => rw [List.replicate_zero, List.append_nil]; rfl
  | succ count ih =>
    rw [Nat.repeat, String.toList_push, ih, List.replicate_succ', List.append_assoc]

theorem toList_padNat (width value : Nat) :
    (padNat width value).toList =
      List.replicate (width - (Nat.toDigits 10 value).length) '0' ++ Nat.toDigits 10 value := by
  have length : (toString value).length = (Nat.toDigits 10 value).length := by
    rw [← toString_toList, String.length_toList]
  rw [padNat, String.toList_append, toList_pushn, toString_toList, length]
  rfl

theorem length_padNat (fits : value < 10 ^ width) (wide : 0 < width) :
    (padNat width value).toList.length = width := by
  have short := (Nat.length_toDigits_le_iff (by decide) wide).2 fits
  rw [toList_padNat, List.length_append, List.length_replicate]
  omega

theorem isAsciiDigit_of_mem_padNat {char : Char} (inside : char ∈ (padNat width value).toList) :
    isAsciiDigit char = true := by
  rw [toList_padNat, List.mem_append] at inside
  rcases inside with zero | digit
  · rw [(List.mem_replicate.1 zero).2]
    rfl
  · exact isAsciiDigit_of_mem_toDigits digit

theorem digitsValue_zeros (count : Nat) (digits : List Char) :
    digitsValue (List.replicate count '0' ++ digits) = digitsValue digits := by
  induction count with
  | zero => rfl
  | succ count ih => exact ih

@[simp] theorem digitsValue_padNat (width value : Nat) :
    digitsValue (padNat width value).toList = value := by
  rw [toList_padNat, digitsValue_zeros, digitsValue_toDigits]

end

theorem readDigits?_append (digits rest : List Char) (nonempty : digits ≠ [])
    (digit : ∀ char ∈ digits, isAsciiDigit char = true) :
    readDigits? digits.length (digits ++ rest) = some (digitsValue digits, rest) := by
  have whole : digits.takeWhile isAsciiDigit = digits := by
    have stops : Parsing.StopsAt isAsciiDigit [] := Parsing.stopsAt_nil
    have read := stops.takeWhile_append digit
    rwa [List.append_nil] at read
  rw [readDigits?, List.take_left, whole]
  simp only [if_neg nonempty, List.drop_left]

/-- As many digits as are read bound the number. -/
theorem DateTimeOffset.readFixed?_lt {count : Nat} {text : List Char} {read : Nat × List Char}
    (done : readFixed? count text = some read) : read.1 < 10 ^ count := by
  rw [readFixed?] at done
  split at done
  · rename_i both
    cases done
    have bound := digitsValue_lt (List.all_eq_true.1 both.2)
    rwa [both.1] at bound
  · cases done

/-- All digits in front are read, if no limit is set. -/
theorem readDigits?_delimited {digits rest : List Char} (nonempty : digits ≠ [])
    (digit : ∀ char ∈ digits, isAsciiDigit char = true)
    (stops : Parsing.StopsAt isAsciiDigit rest) :
    readDigits? (digits ++ rest).length (digits ++ rest) = some (digitsValue digits, rest) := by
  rw [readDigits?, List.take_length, stops.takeWhile_append digit]
  simp only [if_neg nonempty, List.drop_left]

theorem readFixed?_append (digits rest : List Char)
    (digit : ∀ char ∈ digits, isAsciiDigit char = true) :
    DateTimeOffset.readFixed? digits.length (digits ++ rest) = some (digitsValue digits, rest) := by
  have all : digits.all isAsciiDigit = true := List.all_eq_true.2 digit
  rw [DateTimeOffset.readFixed?, List.take_left, List.drop_left]
  exact if_pos ⟨rfl, all⟩

section

variable {width value : Nat}

theorem padNat_ne_nil (fits : value < 10 ^ width) (wide : 0 < width) :
    (padNat width value).toList ≠ [] := by
  intro none
  have length := length_padNat fits wide
  rw [none] at length
  exact Nat.ne_of_lt wide length

theorem readDigits?_padNat (fits : value < 10 ^ width) (wide : 0 < width) (rest : List Char) :
    readDigits? width ((padNat width value).toList ++ rest) = some (value, rest) := by
  have read := readDigits?_append (padNat width value).toList rest (padNat_ne_nil fits wide)
    fun _ inside => isAsciiDigit_of_mem_padNat inside
  rwa [length_padNat fits wide, digitsValue_padNat] at read

theorem readFixed?_padNat (fits : value < 10 ^ width) (wide : 0 < width) (rest : List Char) :
    DateTimeOffset.readFixed? width ((padNat width value).toList ++ rest) = some (value, rest) := by
  have read := readFixed?_append (padNat width value).toList rest
    fun _ inside => isAsciiDigit_of_mem_padNat inside
  rwa [length_padNat fits wide, digitsValue_padNat] at read

/-- Digits are neither white space nor signs. -/
theorem padNat_cons (fits : value < 10 ^ width) (wide : 0 < width) :
    ∃ first others, (padNat width value).toList = first :: others ∧
      isAsciiDigit first = true := by
  obtain ⟨first, others, spelled⟩ := List.exists_cons_of_ne_nil (padNat_ne_nil fits wide)
  have inside : first ∈ (padNat width value).toList := by
    rw [spelled]
    exact List.mem_cons_self
  exact ⟨first, others, spelled, isAsciiDigit_of_mem_padNat inside⟩

theorem trimStart_digit {char : Char} (digit : isAsciiDigit char = true) (rest : List Char) :
    Text.trimStart (char :: rest) = char :: rest := by
  have codes : ∀ code < 128, isAsciiDigit (Char.ofNat code) = true →
      Text.isBlank (Char.ofNat code) = false := by decide
  have solid := forall_ascii (fun char => isAsciiDigit char = true → Text.isBlank char = false)
    codes char (toNat_lt_of_isAsciiDigit digit) digit
  rw [Text.trimStart, List.dropWhile_cons_of_neg]
  simp only [solid, Bool.false_eq_true, not_false_eq_true]

theorem trimStart_padNat (fits : value < 10 ^ width) (wide : 0 < width) (rest : List Char) :
    Text.trimStart ((padNat width value).toList ++ rest) =
      (padNat width value).toList ++ rest := by
  obtain ⟨first, others, spelled, digit⟩ := padNat_cons fits wide
  rw [spelled, List.cons_append, trimStart_digit digit]

end

theorem dropChar?_cons (char : Char) (rest : List Char) :
    dropChar? char (char :: rest) = some rest :=
  if_pos rfl

namespace Date

variable (date : Date)

/-- The year can be written without a sign. -/
def isPlain : Bool := 0 ≤ date.year && date.year < 10000

theorem isPlain_iff : date.isPlain = true ↔ 0 ≤ date.year ∧ date.year < 10000 := by
  rw [isPlain, Bool.and_eq_true, decide_eq_true_eq, decide_eq_true_eq]

theorem bounds : 1 ≤ date.month ∧ date.month ≤ 12 ∧ 1 ≤ date.day ∧ date.day ≤ 31 := by
  have valid := date.valid
  simp only [Calendar.exists?, Bool.and_eq_true, decide_eq_true_eq] at valid
  have days : Calendar.daysInMonth date.year date.month ≤ 31 := by
    unfold Calendar.daysInMonth
    split
    · split <;> decide
    · split <;> decide
  exact ⟨valid.1.1.1.2, valid.1.1.2, valid.1.2, Nat.le_trans valid.2 days⟩

theorem of?_eq_some : of? date.year date.month date.day = some date := dif_pos date.valid

theorem toList_render_of_isPlain (plain : date.isPlain = true) :
    date.render.toList = (padNat 4 date.year.toNat).toList ++
      '-' :: ((padNat 2 date.month).toList ++ '-' :: (padNat 2 date.day).toList) := by
  rw [isPlain_iff] at plain
  have hyphen : "-".toList = ['-'] := by decide
  simp only [render, renderYear, if_pos plain, String.toList_append, hyphen, List.append_assoc,
    List.cons_append, List.nil_append]

theorem readYear?_of_isPlain (plain : date.isPlain = true) (rest : List Char) :
    readYear? ((padNat 4 date.year.toNat).toList ++ rest) = some (date.year, rest) := by
  rw [isPlain_iff] at plain
  have fits : date.year.toNat < 10 ^ 4 := by omega
  have same : (date.year.toNat : Int) = date.year := Int.toNat_of_nonneg plain.1
  have read := readDigits?_padNat fits (by decide) rest
  obtain ⟨first, others, spelled, digit⟩ := padNat_cons fits (by decide)
  rw [readYear?, trimStart_padNat fits (by decide)]
  rw [spelled, List.cons_append] at read ⊢
  split
  · rename_i same
    cases same
    cases digit
  · rename_i same
    cases same
    cases digit
  · rw [read, Option.map_some]
    show some ((date.year.toNat : Int), rest) = _
    rw [same]

/-- A year that needs a sign is read back with all its digits. -/
theorem readYear?_of_not_isPlain (signed : date.isPlain = false) (rest : List Char) :
    readYear? ((renderYear date.year).toList ++ '-' :: rest) = some (date.year, '-' :: rest) := by
  have outside : ¬(0 ≤ date.year ∧ date.year < 10000) := by
    rw [← isPlain_iff, signed]
    exact Bool.false_ne_true
  have digit : ∀ char ∈ (padNat 4 date.year.natAbs).toList, isAsciiDigit char = true :=
    fun _ => isAsciiDigit_of_mem_padNat
  have nonempty : (padNat 4 date.year.natAbs).toList ≠ [] := by
    rw [toList_padNat, ne_eq, List.append_eq_nil_iff]
    exact fun both => Nat.toDigits_ne_nil both.2
  have stops : Parsing.StopsAt isAsciiDigit ('-' :: rest) := Parsing.stopsAt_cons (by decide)
  have read := readDigits?_delimited nonempty digit stops
  rw [digitsValue_padNat] at read
  have trimmed : ∀ (sign : Char) (after : List Char), Text.isBlank sign = false →
      Text.trimStart (sign :: after) = sign :: after := by
    intro sign after solid
    rw [Text.trimStart, List.dropWhile_cons_of_neg]
    rw [solid]
    exact Bool.false_ne_true
  rw [renderYear, if_neg outside]
  by_cases negative : date.year < 0
  · have sign : "-".toList = ['-'] := by decide
    have same : -(date.year.natAbs : Int) = date.year := by omega
    rw [if_pos negative, String.toList_append, sign, List.singleton_append, List.cons_append,
      readYear?, trimmed '-' _ (by decide)]
    show (readDigits? _ _).map _ = _
    rw [read, Option.map_some]
    simp only [same]
  · have sign : "+".toList = ['+'] := by decide
    have same : (date.year.natAbs : Int) = date.year := by omega
    rw [if_neg negative, String.toList_append, sign, List.singleton_append, List.cons_append,
      readYear?, trimmed '+' _ (by decide)]
    show (readDigits? _ _).map _ = _
    rw [read, Option.map_some]
    simp only [same]

/-- A date is read back if its year is. -/
theorem read?_of_readYear? {year : List Char}
    (read : ∀ rest, readYear? (year ++ '-' :: rest) = some (date.year, '-' :: rest)) :
    read? (year ++ '-' :: ((padNat 2 date.month).toList ++ '-' :: (padNat 2 date.day).toList)) =
      some date := by
  have inside := date.bounds
  have month : date.month < 10 ^ 2 := by omega
  have day : date.day < 10 ^ 2 := by omega
  have last := readDigits?_padNat day (by decide) []
  rw [List.append_nil] at last
  have trimmed := trimStart_padNat day (by decide) []
  rw [List.append_nil] at trimmed
  simp only [read?, bind, Option.bind_some, read, dropChar?_cons,
    trimStart_padNat month (by decide), readDigits?_padNat month (by decide), trimmed, last,
    date.of?_eq_some, if_true]

theorem read?_render : read? date.render.toList = some date := by
  have hyphen : "-".toList = ['-'] := by decide
  cases plain : date.isPlain with
  | true =>
    rw [date.toList_render_of_isPlain plain]
    exact date.read?_of_readYear? fun rest => date.readYear?_of_isPlain plain ('-' :: rest)
  | false =>
    simp only [render, String.toList_append, hyphen, List.append_assoc, List.cons_append,
      List.nil_append]
    exact date.read?_of_readYear? (date.readYear?_of_not_isPlain plain)

end Date

namespace Calendar

/-- A fraction of a second is read back, if no digit and no other fraction follows it. -/
theorem readFraction?_render {nanosecond : Nat} (fits : nanosecond < secondNanos)
    {rest : List Char} (stops : Parsing.StopsAt isAsciiDigit rest)
    (noPoint : ∀ tail, rest ≠ '.' :: tail) :
    readFraction? ((renderFraction nanosecond).toList ++ rest) = some (nanosecond, rest) := by
  have point : ".".toList = ['.'] := by decide
  have small : nanosecond < 1000000000 := fits
  have read : ∀ {width value : Nat}, value < 10 ^ width → 0 < width → width ≤ 9 →
      readFraction? (('.' :: (padNat width value).toList) ++ rest) =
        some (value * 10 ^ (9 - width), rest) := by
    intro width value valueFits wide short
    have digit : ∀ char ∈ (padNat width value).toList, isAsciiDigit char = true :=
      fun _ inside => isAsciiDigit_of_mem_padNat inside
    have length := length_padNat valueFits wide
    have kept : (padNat width value).toList.take 9 = (padNat width value).toList :=
      List.take_of_length_le (by omega)
    have left : ((padNat width value).toList ++ rest).drop width = rest := by
      have dropped : ((padNat width value).toList ++ rest).drop
          (padNat width value).toList.length = rest := List.drop_left
      rwa [length] at dropped
    rw [List.cons_append, readFraction?, readNanos?, stops.takeWhile_append digit]
    simp only [kept, length, if_neg (padNat_ne_nil valueFits wide), digitsValue_padNat, left,
      Nat.pow_eq]
  rw [renderFraction]
  by_cases zero : nanosecond = 0
  · rw [if_pos zero, zero]
    show readFraction? rest = _
    rw [readFraction?]
    intro tail
    exact noPoint tail
  rw [if_neg zero]
  by_cases millis : nanosecond % 1000000 = 0
  · have scaled : nanosecond / 1000000 * 10 ^ (9 - 3) = nanosecond := by omega
    rw [if_pos millis, String.toList_append, point, List.singleton_append,
      read (by omega) (by decide) (by decide), scaled]
  rw [if_neg millis]
  by_cases micros : nanosecond % 1000 = 0
  · have scaled : nanosecond / 1000 * 10 ^ (9 - 6) = nanosecond := by omega
    rw [if_pos micros, String.toList_append, point, List.singleton_append,
      read (by omega) (by decide) (by decide), scaled]
  · rw [if_neg micros, String.toList_append, point, List.singleton_append,
      read (by omega) (by decide) (by decide), Nat.sub_self, Nat.pow_zero, Nat.mul_one]

end Calendar

namespace TimeOfDay

variable (time : TimeOfDay)

theorem bounds : time.hour < 24 ∧ time.minute < 60 ∧ time.second < 60 ∧
    time.nanosecond < 2000000000 ∧ (time.nanosecond < 1000000000 ∨ time.second = 59) := by
  have valid := time.valid
  simp only [Calendar.isTime, Bool.and_eq_true, Bool.or_eq_true, decide_eq_true_eq,
    beq_iff_eq] at valid
  exact ⟨valid.1.1.1.1, valid.1.1.1.2, valid.1.1.2, valid.1.2, valid.2⟩

theorem clockSecond_lt : time.clockSecond < 10 ^ 2 := by
  have inside := time.bounds
  have nanos : Calendar.secondNanos = 1000000000 := rfl
  rw [clockSecond, nanos]
  omega

/-- The second that is written and the fraction behind it give the time back, also in a leap
second. -/
theorem ofClock?_clockSecond :
    ofClock? time.hour time.minute time.clockSecond (time.nanosecond % Calendar.secondNanos) =
      some time := by
  have inside := time.bounds
  have nanos : Calendar.secondNanos = 1000000000 := rfl
  have itself : of? time.hour time.minute time.second time.nanosecond = some time :=
    dif_pos time.valid
  by_cases leap : time.nanosecond < 1000000000
  · have written : time.clockSecond = time.second := by
      rw [clockSecond, nanos]
      omega
    have fraction : time.nanosecond % Calendar.secondNanos = time.nanosecond := by
      rw [nanos]
      omega
    have notLeap : time.second ≠ 60 := by omega
    rw [written, fraction, ofClock?, if_neg notLeap, itself]
  · have last : time.second = 59 := by omega
    have written : time.clockSecond = 60 := by
      rw [clockSecond, nanos]
      omega
    have fraction : time.nanosecond % Calendar.secondNanos + Calendar.secondNanos =
        time.nanosecond := by
      rw [nanos]
      omega
    rw [written, ofClock?, if_pos rfl, fraction]
    rw [last] at itself
    exact itself

theorem toList_render : time.render.toList = (padNat 2 time.hour).toList ++
    ':' :: ((padNat 2 time.minute).toList ++ ':' :: ((padNat 2 time.clockSecond).toList ++
      (Calendar.renderFraction (time.nanosecond % Calendar.secondNanos)).toList)) := by
  have colon : ":".toList = [':'] := by decide
  simp only [render, String.toList_append, colon, List.append_assoc, List.cons_append,
    List.nil_append]

theorem read?_render : read? time.render.toList = some time := by
  have inside := time.bounds
  have hour : time.hour < 10 ^ 2 := by omega
  have minute : time.minute < 10 ^ 2 := by omega
  have fraction := Calendar.readFraction?_render
    (Nat.mod_lt time.nanosecond (show 0 < Calendar.secondNanos by decide))
    Parsing.stopsAt_nil (fun tail same => by cases same)
  rw [List.append_nil] at fraction
  rw [toList_render]
  simp only [read?, readHourMinute?, bind, Option.bind_some, pure, dropChar?_cons,
    trimStart_padNat hour (by decide), readDigits?_padNat hour (by decide),
    trimStart_padNat minute (by decide), readDigits?_padNat minute (by decide),
    trimStart_padNat time.clockSecond_lt (by decide),
    readDigits?_padNat time.clockSecond_lt (by decide), fraction, if_true,
    time.ofClock?_clockSecond]

end TimeOfDay

namespace DateTimeOffset

/-- An offset is read back from its text. -/
theorem readOffset?_render {offset : Int} (within : offset.natAbs < 1440) :
    readOffset? (renderOffset offset).toList = some (offset, []) := by
  have colon : ":".toList = [':'] := by decide
  have hours : offset.natAbs / 60 < 10 ^ 2 := by omega
  have minutes : offset.natAbs % 60 < 10 ^ 2 := by omega
  have last := readFixed?_padNat minutes (by decide) []
  rw [List.append_nil] at last
  have inDay : offset.natAbs / 60 < 24 ∧ offset.natAbs % 60 < 60 := by omega
  rw [renderOffset]
  by_cases zero : offset = 0
  · rw [if_pos zero, zero]
    rfl
  rw [if_neg zero]
  by_cases west : offset < 0
  · have magnitude : -((offset.natAbs / 60 * 60 + offset.natAbs % 60 : Nat) : Int) = offset := by
      omega
    have sign : "-".toList = ['-'] := by decide
    simp only [if_pos west, String.toList_append, sign, colon, List.cons_append, List.nil_append,
      List.append_assoc, readOffset?, bind, Option.bind_some, dropChar?_cons,
      readFixed?_padNat hours (by decide), last, if_pos inDay, pure]
    simp only [magnitude]
    rfl
  · have magnitude : ((offset.natAbs / 60 * 60 + offset.natAbs % 60 : Nat) : Int) = offset := by
      omega
    have sign : "+".toList = ['+'] := by decide
    simp only [if_neg west, String.toList_append, sign, colon, List.cons_append, List.nil_append,
      List.append_assoc, readOffset?, bind, Option.bind_some, dropChar?_cons,
      readFixed?_padNat hours (by decide), last, if_pos inDay, pure]
    simp only [magnitude]
    rfl

variable (moment : DateTimeOffset)

theorem toList_render : moment.render.toList =
    moment.date.render.toList ++ 'T' :: (moment.time.render.toList ++
      (renderOffset moment.offset).toList) := by
  have mark : "T".toList = ['T'] := by decide
  simp only [render, String.toList_append, mark, List.append_assoc, List.cons_append,
    List.nil_append]

/-- What may stand behind a time: nothing that continues a fraction of a second. -/
theorem renderOffset_cons (offset : Int) :
    ∃ mark rest, (renderOffset offset).toList = mark :: rest ∧ isAsciiDigit mark = false ∧
      mark ≠ '.' := by
  rw [renderOffset]
  by_cases zero : offset = 0
  · rw [if_pos zero]
    exact ⟨'Z', [], by decide, by decide, by decide⟩
  rw [if_neg zero]
  by_cases west : offset < 0
  · have sign : "-".toList = ['-'] := by decide
    simp only [if_pos west, String.toList_append, sign, List.cons_append, List.nil_append]
    exact ⟨'-', _, rfl, by decide, by decide⟩
  · have sign : "+".toList = ['+'] := by decide
    simp only [if_neg west, String.toList_append, sign, List.cons_append, List.nil_append]
    exact ⟨'+', _, rfl, by decide, by decide⟩

theorem readFraction?_render :
    Calendar.readFraction? ((Calendar.renderFraction
        (moment.time.nanosecond % Calendar.secondNanos)).toList ++
          (renderOffset moment.offset).toList) =
      some (moment.time.nanosecond % Calendar.secondNanos,
        (renderOffset moment.offset).toList) := by
  obtain ⟨mark, rest, spelled, noDigit, noPoint⟩ := renderOffset_cons moment.offset
  rw [spelled]
  apply Calendar.readFraction?_render
  · exact Nat.mod_lt _ (by decide)
  · exact Parsing.stopsAt_cons noDigit
  · intro tail same
    cases same
    exact noPoint rfl

theorem read?_render (plain : moment.date.isPlain = true) :
    read? moment.render.toList = some moment := by
  have days := moment.date.bounds
  have clock := moment.time.bounds
  have second := moment.time.clockSecond_lt
  have years := moment.date.isPlain_iff.1 plain
  have year : moment.date.year.toNat < 10 ^ 4 := by omega
  have sameYear : (moment.date.year.toNat : Int) = moment.date.year := Int.toNat_of_nonneg years.1
  have month : moment.date.month < 10 ^ 2 := by omega
  have day : moment.date.day < 10 ^ 2 := by omega
  have hour : moment.time.hour < 10 ^ 2 := by omega
  have minute : moment.time.minute < 10 ^ 2 := by omega
  have joined : 'T' = 'T' ∨ 'T' = 't' ∨ 'T' = ' ' := .inl rfl
  rw [toList_render, moment.date.toList_render_of_isPlain plain, moment.time.toList_render]
  simp only [List.append_assoc, List.cons_append]
  unfold read?
  refine Option.bind_eq_some_iff.2 ⟨_, readFixed?_padNat year (by decide) _, ?_⟩
  refine Option.bind_eq_some_iff.2 ⟨_, dropChar?_cons _ _, ?_⟩
  refine Option.bind_eq_some_iff.2 ⟨_, readFixed?_padNat month (by decide) _, ?_⟩
  refine Option.bind_eq_some_iff.2 ⟨_, dropChar?_cons _ _, ?_⟩
  refine Option.bind_eq_some_iff.2 ⟨_, readFixed?_padNat day (by decide) _, ?_⟩
  dsimp only
  rw [if_pos joined]
  refine Option.bind_eq_some_iff.2 ⟨_, rfl, ?_⟩
  refine Option.bind_eq_some_iff.2 ⟨_, readFixed?_padNat hour (by decide) _, ?_⟩
  refine Option.bind_eq_some_iff.2 ⟨_, dropChar?_cons _ _, ?_⟩
  refine Option.bind_eq_some_iff.2 ⟨_, readFixed?_padNat minute (by decide) _, ?_⟩
  refine Option.bind_eq_some_iff.2 ⟨_, dropChar?_cons _ _, ?_⟩
  refine Option.bind_eq_some_iff.2 ⟨_, readFixed?_padNat second (by decide) _, ?_⟩
  refine Option.bind_eq_some_iff.2 ⟨_, moment.readFraction?_render, ?_⟩
  refine Option.bind_eq_some_iff.2 ⟨_, readOffset?_render moment.offset_lt, ?_⟩
  rw [if_neg (not_not_intro rfl), sameYear]
  refine Option.bind_eq_some_iff.2 ⟨_, moment.date.of?_eq_some, ?_⟩
  refine Option.bind_eq_some_iff.2 ⟨_, moment.time.ofClock?_clockSecond, ?_⟩
  exact dif_pos moment.offset_lt

/-- The strict profile has no place for the sign of a year. -/
theorem isPlain_of_read? {text : List Char} {moment : DateTimeOffset}
    (read : read? text = some moment) : moment.date.isPlain = true := by
  unfold read? at read
  obtain ⟨year, readYear, read⟩ := Option.bind_eq_some_iff.1 read
  obtain ⟨_, -, read⟩ := Option.bind_eq_some_iff.1 read
  obtain ⟨month, -, read⟩ := Option.bind_eq_some_iff.1 read
  obtain ⟨_, -, read⟩ := Option.bind_eq_some_iff.1 read
  obtain ⟨day, -, read⟩ := Option.bind_eq_some_iff.1 read
  dsimp only at read
  split at read
  · split at read
    · obtain ⟨_, -, read⟩ := Option.bind_eq_some_iff.1 read
      obtain ⟨hour, -, read⟩ := Option.bind_eq_some_iff.1 read
      obtain ⟨_, -, read⟩ := Option.bind_eq_some_iff.1 read
      obtain ⟨minute, -, read⟩ := Option.bind_eq_some_iff.1 read
      obtain ⟨_, -, read⟩ := Option.bind_eq_some_iff.1 read
      obtain ⟨second, -, read⟩ := Option.bind_eq_some_iff.1 read
      obtain ⟨nanosecond, -, read⟩ := Option.bind_eq_some_iff.1 read
      obtain ⟨offset, -, read⟩ := Option.bind_eq_some_iff.1 read
      split at read
      · cases read
      · obtain ⟨date, named, read⟩ := Option.bind_eq_some_iff.1 read
        obtain ⟨time, -, read⟩ := Option.bind_eq_some_iff.1 read
        split at read
        · cases read
          have fits := readFixed?_lt readYear
          rw [Date.of?] at named
          split at named
          · cases named
            rw [Date.isPlain_iff]
            exact ⟨Int.natCast_nonneg _, Int.ofNat_lt.2 fits⟩
          · cases named
        · cases read
    · cases read
  · cases read

end DateTimeOffset

end EdmQuery
