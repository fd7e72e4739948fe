set_option autoImplicit false

namespace EdmQuery.Base64

/-- The two characters in which the alphabets differ. -/
structure Alphabet where
  plus : Char
  slash : Char

def urlSafe : Alphabet := ⟨'-', '_'⟩

def standard : Alphabet := ⟨'+', '/'⟩

namespace Alphabet

def encode (alphabet : Alphabet) (value : Nat) : Char :=
  if value < 26 then Char.ofNat ('A'.toNat + value)
  else if value < 52 then Char.ofNat ('a'.toNat + (value - 26))
  else if value < 62 then Char.ofNat ('0'.toNat + (value - 52))
  else if value = 62 then alphabet.plus
  else alphabet.slash

def decode? (alphabet : Alphabet) (char : Char) : Option Nat :=
  if 'A' ≤ char ∧ char ≤ 'Z' then some (char.toNat - 'A'.toNat)
  else if 'a' ≤ char ∧ char ≤ 'z' then some (char.toNat - 'a'.toNat + 26)
  else if '0' ≤ char ∧ char ≤ '9' then some (char.toNat - '0'.toNat + 52)
  else if char = alphabet.plus then some 62
  else if char = alphabet.slash then some 63
  else none

end Alphabet

/-- Groups of three bytes become four characters; a shorter last group is padded. -/
def encodeWith (alphabet : Alphabet) : List UInt8 → List Char
  | [] => []
  | [a] =>
    [alphabet.encode (a.toNat / 4), alphabet.encode (a.toNat % 4 * 16), '=', '=']
  | [a, b] =>
    [alphabet.encode (a.toNat / 4), alphabet.encode (a.toNat % 4 * 16 + b.toNat / 16),
      alphabet.encode (b.toNat % 16 * 4), '=']
  | a :: b :: c :: rest =>
    alphabet.encode (a.toNat / 4) :: alphabet.encode (a.toNat % 4 * 16 + b.toNat / 16) ::
      alphabet.encode (b.toNat % 16 * 4 + c.toNat / 64) :: alphabet.encode (c.toNat % 64) ::
      encodeWith alphabet rest

/-- The bytes of groups of six bits. -/
def unpack? : List Nat → Option (List UInt8)
  | [] => some []
  | [_] => none
  | [a, b] => if b % 16 = 0 then some [UInt8.ofNat (a * 4 + b / 16)] else none
  | [a, b, c] =>
    if c % 4 = 0 then
      some [UInt8.ofNat (a * 4 + b / 16), UInt8.ofNat (b % 16 * 16 + c / 4)]
    else none
  | a :: b :: c :: d :: rest =>
    (unpack? rest).map fun bytes =>
      UInt8.ofNat (a * 4 + b / 16) :: UInt8.ofNat (b % 16 * 16 + c / 4) ::
        UInt8.ofNat (c % 4 * 64 + d) :: bytes

def decodeWith? (alphabet : Alphabet) (padded : Bool) (text : List Char) : Option (List UInt8) :=
  let symbols := text.takeWhile (· != '=')
  let padding := text.dropWhile (· != '=')
  let complete :=
    if padded then padding.all (· == '=') && padding.length ≤ 2 && text.length % 4 == 0
    else padding.isEmpty
  if complete then (symbols.mapM alphabet.decode?).bind unpack? else none

def encode (bytes : List UInt8) : String := String.ofList (encodeWith urlSafe bytes)

def decode? (text : List Char) : Option (List UInt8) :=
  (decodeWith? urlSafe true text).or
    ((decodeWith? urlSafe false text).or (decodeWith? standard true text))

end EdmQuery.Base64
