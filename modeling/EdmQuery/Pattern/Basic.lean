import EdmQuery.Pattern.CharSet

set_option autoImplicit false

namespace EdmQuery

/-- What a pattern can ask of a place without taking a character. -/
inductive Look
  | textStart
  | textEnd
  | lineStart (carriageReturns : Bool)
  | lineEnd (carriageReturns : Bool)
  | wordBoundary (unicode : Bool)
  | noWordBoundary (unicode : Bool)
  | wordStart (unicode : Bool)
  | wordEnd (unicode : Bool)
  | noWordBefore (unicode : Bool)
  | noWordAfter (unicode : Bool)
deriving DecidableEq, Repr

/-- A place between two characters, or at an end of the text. -/
structure Place where
  before? : Option Char
  after? : Option Char
deriving DecidableEq, Repr

namespace Place

def placesFrom (before? : Option Char) : List Char → List Place
  | [] => [⟨before?, none⟩]
  | char :: rest => ⟨before?, some char⟩ :: placesFrom (some char) rest

def wordBefore (unicode : Bool) (place : Place) : Bool :=
  place.before?.any (CharSet.word unicode).contains

def wordAfter (unicode : Bool) (place : Place) : Bool :=
  place.after?.any (CharSet.word unicode).contains

end Place

namespace Look

/-- With carriage returns, a line ends in either sign or in both together. -/
def holds (look : Look) (place : Place) : Bool :=
  match look with
  | textStart => place.before?.isNone
  | textEnd => place.after?.isNone
  | lineStart false => place.before?.all (· == '\n')
  | lineEnd false => place.after?.all (· == '\n')
  | lineStart true =>
    place.before?.all fun char => char == '\n' || (char == '\r' && place.after? != some '\n')
  | lineEnd true =>
    place.after?.all fun char => char == '\r' || (char == '\n' && place.before? != some '\r')
  | wordBoundary unicode => place.wordBefore unicode != place.wordAfter unicode
  | noWordBoundary unicode => place.wordBefore unicode == place.wordAfter unicode
  | wordStart unicode => !place.wordBefore unicode && place.wordAfter unicode
  | wordEnd unicode => place.wordBefore unicode && !place.wordAfter unicode
  | noWordBefore unicode => !place.wordBefore unicode
  | noWordAfter unicode => !place.wordAfter unicode

end Look

/-- Patterns of texts. A match is followed on all its ways at once: for each place in the text it is
known whether some beginning of the pattern can end there. -/
inductive Pattern
  | empty
  | chars (set : CharSet)
  | look (condition : Look)
  | sequence (first second : Pattern)
  | either (first second : Pattern)
  | repeated (body : Pattern) (least : Nat) (most? : Option Nat)
deriving DecidableEq, Repr

namespace Pattern

/-- For each place of a text, the start first, whether it was reached. -/
abbrev Reached := List Bool

def merge (first second : Reached) : Reached := List.zipWith (· || ·) first second

/-- Takes a step so many times; it may stop where nothing changes any more. -/
def iterate (step : Reached → Reached) : Nat → Reached → Reached
  | 0, reached => reached
  | count + 1, reached =>
    let next := step reached
    if next = reached then reached else iterate step count next

/-- The places that are reached in at most so many steps. -/
def upTo (step : Reached → Reached) : Nat → Reached → Reached
  | 0, reached => reached
  | count + 1, reached =>
    let next := merge reached (step reached)
    if next = reached then reached else upTo step count next

/-- The places where the pattern can end if it starts where something ended before. A repetition
without a limit reaches what it can within one step for each place. -/
def reach (text : List Char) : Pattern → Reached → Reached
  | empty, reached => reached
  | chars set, reached =>
    false :: List.zipWith (fun here char => here && set.contains char) reached text
  | look condition, reached =>
    List.zipWith (fun here place => here && condition.holds place) reached
      (Place.placesFrom none text)
  | sequence first second, reached => reach text second (reach text first reached)
  | either first second, reached => merge (reach text first reached) (reach text second reached)
  | repeated body least most?, reached =>
    let further := match most? with
      | some most => most - least
      | none => text.length + 1
    upTo (reach text body) further (iterate (reach text body) least reached)

/-- Whether the pattern occurs anywhere in a text. -/
def occursIn (pattern : Pattern) (text : List Char) : Bool :=
  (reach text pattern (List.replicate (text.length + 1) true)).any id

def sequenceOf : List Pattern → Pattern
  | [] => empty
  | [pattern] => pattern
  | pattern :: rest => sequence pattern (sequenceOf rest)

end Pattern

end EdmQuery
