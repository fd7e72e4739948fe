import EdmQuery.Json.Printer
import EdmQuery.Json.Reader

set_option autoImplicit false

namespace EdmQuery.Json

/-- The hexadecimal digits of a control character. -/
theorem readUnit?_control {value : Nat} (control : value < 0x20) (rest : List Char) :
    readUnit? ('0' :: '0' :: hexDigit (value / 16) :: hexDigit (value % 16) :: rest) =
      some (value, rest) := by
  have digits : ∀ value < 0x20,
      ((['0', '0', hexDigit (value / 16), hexDigit (value % 16)].all fun char =>
        (Text.hexDigitValue? char).isSome) = true) ∧
      Text.readHex ['0', '0', hexDigit (value / 16), hexDigit (value % 16)] = value := by decide
  obtain ⟨all, read⟩ := digits value control
  rw [readUnit?, if_pos all, read]

theorem readEscaped?_control {char : Char} (control : char.toNat < 0x20) (rest : List Char) :
    readEscaped? ('0' :: '0' :: hexDigit (char.toNat / 16) :: hexDigit (char.toNat % 16) :: rest) =
      some (char, rest) := by
  have low : ¬(0xd800 ≤ char.toNat ∧ char.toNat < 0xdc00) := by omega
  have high : ¬(0xdc00 ≤ char.toNat ∧ char.toNat < 0xe000) := by omega
  rw [readEscaped?, readUnit?_control control, Option.bind_some]
  dsimp only
  rw [if_neg low, if_neg high, Char.ofNat_toNat]

/-- One step of reading takes back what one character is escaped as. -/
theorem readString?_escapeChar (fuel : Nat) (before : List Char) (char : Char)
    (rest : List Char) :
    readString? (fuel + 1) before (escapeChar char ++ rest) =
      readString? fuel (char :: before) rest := by
  unfold escapeChar
  by_cases quote : char = '"'
  · rw [if_pos quote, quote]
    rfl
  rw [if_neg quote]
  by_cases backslash : char = '\\'
  · rw [if_pos backslash, backslash]
    rfl
  rw [if_neg backslash]
  by_cases control : char.toNat < 0x20
  · have ofCode : ∀ code, char.toNat = code → char = Char.ofNat code :=
      fun code same => same ▸ (Char.ofNat_toNat char).symm
    rw [if_pos control]
    -- five control characters have escapes of their own, the others are spelled by their code
    by_cases backspace : char.toNat = 8
    · rw [if_pos backspace, ofCode 8 backspace]
      rfl
    rw [if_neg backspace]
    by_cases tab : char.toNat = 9
    · rw [if_pos tab, ofCode 9 tab]
      rfl
    rw [if_neg tab]
    by_cases newline : char.toNat = 10
    · rw [if_pos newline, ofCode 10 newline]
      rfl
    rw [if_neg newline]
    by_cases formFeed : char.toNat = 12
    · rw [if_pos formFeed, ofCode 12 formFeed]
      rfl
    rw [if_neg formFeed]
    by_cases carriageReturn : char.toNat = 13
    · rw [if_pos carriageReturn, ofCode 13 carriageReturn]
      rfl
    rw [if_neg carriageReturn]
    show (readEscaped? ('0' :: '0' :: hexDigit (char.toNat / 16) ::
      hexDigit (char.toNat % 16) :: rest)).bind _ = _
    rw [readEscaped?_control control, Option.bind_some]
  · rw [if_neg control, List.singleton_append, readString?]
    · exact if_neg fun either => either.elim backslash control
    · exact quote
    · exact fun after same _ => backslash same
    · exact fun mark after same _ => backslash same

/-- A string is read back up to its closing quote. -/
theorem readString?_escaped {fuel : Nat} {text : List Char} (enough : text.length < fuel)
    (before rest : List Char) :
    readString? fuel before (text.flatMap escapeChar ++ '"' :: rest) =
      some (String.ofList (before.reverse ++ text), rest) := by
  induction text generalizing fuel before with
  | nil =>
    obtain ⟨left, rfl⟩ := Nat.exists_eq_add_of_lt enough
    rw [List.append_nil]
    rfl
  | cons char text ih =>
    obtain ⟨left, rfl⟩ := Nat.exists_eq_add_of_lt enough
    rw [List.flatMap_cons, List.append_assoc, readString?_escapeChar,
      ih (by rw [List.length_cons]; omega), List.reverse_cons, List.append_assoc,
      List.singleton_append]

/-- What a text starts with as a string, and what follows it, can be told. -/
theorem quote_append_inj {first second : String} {rest others : List Char}
    (same : (quote first).toList ++ rest = (quote second).toList ++ others) :
    first = second ∧ rest = others := by
  have opened : ∀ (text : String) (after : List Char),
      (quote text).toList ++ after = '"' :: (text.toList.flatMap escapeChar ++ '"' :: after) := by
    intro text after
    rw [quote, String.toList_ofList, List.append_assoc, List.singleton_append, List.cons_append]
  rw [opened, opened, List.cons.injEq] at same
  let fuel := first.toList.length + second.toList.length + 1
  have reads : ∀ text after, text.toList.length < fuel →
      readString? fuel [] (text.toList.flatMap escapeChar ++ '"' :: after) = some (text, after) := by
    intro text after enough
    rw [readString?_escaped enough, List.reverse_nil, List.nil_append, String.ofList_toList]
  have left := reads first rest (by omega)
  have right := reads second others (by omega)
  rw [same.2, right, Option.some.injEq, Prod.mk.injEq] at left
  exact ⟨left.1.symm, left.2.symm⟩

end EdmQuery.Json
