set_option autoImplicit false

namespace EdmQuery.Text

/-- The first position at which a text begins within another one. -/
def positionOf? (needle : List Char) : List Char → Option Nat
  | [] => if needle.isEmpty then some 0 else none
  | char :: rest =>
    if needle.isPrefixOf (char :: rest) then some 0 else (positionOf? needle rest).map (· + 1)

def occursIn (needle text : List Char) : Bool := (positionOf? needle text).isSome

/-- So many characters from a start on, or all of them. A negative start counts as zero, and a
negative length as well. -/
def part (text : List Char) (start : Int) (length? : Option Int) : List Char :=
  let rest := text.drop start.toNat
  match length? with
  | some length => rest.take length.toNat
  | none => rest

/-- The pieces of a text between separators, as many as there are separators and one more. -/
def pieces (separator : Char) : List Char → List (List Char)
  | [] => [[]]
  | char :: rest =>
    if char = separator then [] :: pieces separator rest
    else match pieces separator rest with
      | [] => [[char]]
      | piece :: others => (char :: piece) :: others

/-- What stands before the first separator and what stands behind it. -/
def cutAtFirst (separator : Char) (text : List Char) : List Char × List Char :=
  (text.takeWhile (· ≠ separator), (text.dropWhile (· ≠ separator)).tail)

@[simp] theorem positionOf?_nil (text : List Char) : positionOf? [] text = some 0 := by
  cases text <;> rfl

theorem part_append_part (text : List Char) (count : Nat) :
    part text 0 (some count) ++ part text count none = text := by
  simp only [part, Int.toNat_zero, List.drop_zero, Int.toNat_natCast, List.take_append_drop]

end EdmQuery.Text
