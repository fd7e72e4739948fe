import EdmQuery.Error.Location
import EdmQuery.Number.DecimalReader
import EdmQuery.Pattern.Basic

set_option autoImplicit false

namespace EdmQuery.Pattern

structure Flags where
  caseless : Bool
  multiline : Bool
  dotAll : Bool
  extended : Bool
  unicode : Bool
  carriageReturns : Bool
deriving DecidableEq, Repr

def Flags.start : Flags := ⟨false, false, false, false, true, false⟩

/-- Drops blanks and comments, which run to the end of a line. -/
def dropIgnored : Bool → List Char → List Char
  | _, [] => []
  | true, char :: rest => dropIgnored (char ≠ '\n') rest
  | false, char :: rest =>
    if Text.isBlank char then dropIgnored false rest
    else if char = '#' then dropIgnored true rest
    else char :: rest

/-- What follows after blanks and comments, where they do not count. -/
def skip (flags : Flags) (text : List Char) : List Char :=
  if flags.extended then dropIgnored false text else text

/-- What follows, if anything does. -/
def skipTo? (flags : Flags) (text : List Char) : Option (List Char) :=
  match skip flags text with
  | [] => none
  | rest => some rest

/-- One character as it is written. -/
def literal (flags : Flags) (char : Char) : CharSet :=
  if flags.caseless then .folded (.single char) else .single char

def foldIf (flags : Flags) (set : CharSet) : CharSet :=
  if flags.caseless then .folded set else set

/-- Sets that could also take parts of characters need the flag for whole characters. -/
def complement? (flags : Flags) (set : CharSet) : Option CharSet :=
  if flags.unicode then some (.negated set) else none

/-- What a character or an escape stands for. -/
inductive Atom
  | char (single : Char)
  | set (members : CharSet)
  | look (condition : Look)

def Atom.pattern (flags : Flags) : Atom → Pattern
  | .char single => .chars (literal flags single)
  | .set members => .chars (foldIf flags members)
  | .look condition => .look condition

def metaChars : List Char :=
  ['\\', '.', '+', '*', '?', '(', ')', '|', '[', ']', '\x7b', '\x7d', '^', '$', '#', '&', '-', '~']

/-- A sign that an escape leaves as it is. -/
def isEscapable (char : Char) : Bool :=
  metaChars.contains char ||
    (char.toNat < 128 && !char.isAlphanum && char ≠ '<' && char ≠ '>')

def charOfCode? (code : Nat) : Option Char :=
  if code < 0xd800 ∨ (0xdfff < code ∧ code < 0x110000) then some (Char.ofNat code) else none

def readHexDigits? (digits : List Char) : Option Nat :=
  if !digits.isEmpty && digits.all (fun char => (Text.hexDigitValue? char).isSome) then
    some (Text.readHex digits)
  else none

/-- So many digits, with what does not count between them. -/
def takeHex? (flags : Flags) : Nat → List Char → Option (List Char × List Char)
  | 0, text => some ([], text)
  | count + 1, text =>
    match skip flags text with
    | [] => none
    | char :: rest => (takeHex? flags count rest).map fun (digits, after) => (char :: digits, after)

/-- The characters up to a closing brace. -/
def takeBraced? (flags : Flags) : Nat → List Char → Option (List Char × List Char)
  | 0, _ => none
  | fuel + 1, text =>
    match skip flags text with
    | [] => none
    | '\x7d' :: rest => some ([], rest)
    | char :: rest => (takeBraced? flags fuel rest).map fun (inner, after) => (char :: inner, after)

/-- A character by its number: two, four or eight digits, or any between braces. -/
def hexChar? (flags : Flags) (count : Nat) (text : List Char) : Option (Atom × List Char) := do
  let (digits, rest) ← match skip flags text with
    | '\x7b' :: inner => takeBraced? flags (inner.length + 1) inner
    | other => takeHex? flags count other
  let char ← charOfCode? (← readHexDigits? digits)
  if flags.unicode || char.toNat < 128 then return (.char char, skip flags rest) else none

/-- A property by one letter, or by its name between braces. -/
def propertySet? (flags : Flags) (negate : Bool) (text : List Char) : Option (Atom × List Char) := do
  let (name, rest) ← match skip flags text with
    | [] => none
    | '\x7b' :: inner => takeBraced? flags (inner.length + 1) inner
    | '\\' :: _ => none
    | char :: rest => some ([char], rest)
  if !flags.unicode then none
  let set ← CharSet.ofPropertyName? name
  return (.set (if negate then .negated (foldIf flags set) else set), skip flags rest)

def wordLooks (unicode : Bool) : List (String × Look) :=
  [("start", .wordStart unicode), ("end", .wordEnd unicode),
    ("start-half", .noWordBefore unicode), ("end-half", .noWordAfter unicode)]

/-- A word boundary, which may be of a special kind that is named between braces. -/
def wordBoundary? (flags : Flags) (text : List Char) : Option (Atom × List Char) :=
  let plain := some (Atom.look (.wordBoundary flags.unicode), text)
  match text with
  | '\x7b' :: inner =>
    match skip flags inner with
    | [] => none
    | first :: _ =>
      if first.isAlpha || first == '-' then do
        let (name, rest) ← takeBraced? flags (inner.length + 1) inner
        let look ← (wordLooks flags.unicode).lookup (String.ofList name)
        return (.look look, rest)
      else plain
  | _ => plain

/-- What follows a backslash. -/
def escape? (flags : Flags) : List Char → Option (Atom × List Char)
  | [] => none
  | char :: rest =>
    let set (set : CharSet) : Option (Atom × List Char) := some (.set set, rest)
    let negated (set : CharSet) : Option (Atom × List Char) :=
      (complement? flags set).map fun set => (.set set, rest)
    let control (code : Nat) : Option (Atom × List Char) := some (.char (Char.ofNat code), rest)
    if isEscapable char then some (.char char, rest)
    else match char with
      | 'x' => hexChar? flags 2 rest
      | 'u' => hexChar? flags 4 rest
      | 'U' => hexChar? flags 8 rest
      | 'p' => propertySet? flags false rest
      | 'P' => propertySet? flags true rest
      | 'd' => set (.digit flags.unicode)
      | 's' => set (.space flags.unicode)
      | 'w' => set (.word flags.unicode)
      | 'D' => negated (.digit flags.unicode)
      | 'S' => negated (.space flags.unicode)
      | 'W' => negated (.word flags.unicode)
      | 'a' => control 7
      | 't' => control 9
      | 'n' => control 10
      | 'v' => control 11
      | 'f' => control 12
      | 'r' => control 13
      | 'A' => some (.look .textStart, rest)
      | 'z' => some (.look .textEnd, rest)
      | 'b' => wordBoundary? flags rest
      | 'B' => some (.look (.noWordBoundary flags.unicode), rest)
      | '<' => some (.look (.wordStart flags.unicode), rest)
      | '>' => some (.look (.wordEnd flags.unicode), rest)
      | _ => none

/-- What has been read of a pattern or class, and how deep it nests. -/
structure Parsed (α : Type) where
  value : α
  depth : Nat

/-- Patterns and classes nest no deeper than this. -/
def maxDepth : Nat := 250

inductive SetOperator
  | intersection
  | difference
  | symmetricDifference

def SetOperator.apply : SetOperator → CharSet → CharSet → CharSet
  | .intersection => .intersection
  | .difference => .difference
  | .symmetricDifference => .symmetricDifference

/-- A class between brackets as far as it was read: the operation that waits for its right side,
and the items since then. -/
structure ClassState where
  waiting? : Option (SetOperator × CharSet)
  items : CharSet
  depth : Nat

namespace ClassState

def start : ClassState := ⟨none, .nothing, 0⟩

def add (state : ClassState) (set : CharSet) : ClassState :=
  { state with items := .union state.items set }

/-- The whole that was read so far; operations are done from left to right. -/
def total (flags : Flags) (state : ClassState) : CharSet :=
  let items := foldIf flags state.items
  match state.waiting? with
  | some (operator, left) => operator.apply left items
  | none => items

def operate (flags : Flags) (state : ClassState) (operator : SetOperator) : ClassState :=
  { state with waiting? := some (operator, state.total flags), items := .nothing }

end ClassState

/-- A class that is named between colons, from the opening bracket on. -/
def namedClass? (flags : Flags) : List Char → Option (CharSet × List Char)
  | '[' :: ':' :: text =>
    let (negate, text) := match text with
      | '^' :: rest => (true, rest)
      | other => (false, other)
    match text.dropWhile (· ≠ ':') with
    | ':' :: ']' :: rest =>
      match CharSet.named? (String.ofList (text.takeWhile (· ≠ ':'))) with
      | some set => if negate then (complement? flags set).map (·, rest) else some (set, rest)
      | none => none
    | _ => none
  | _ => none

/-- A character or an escape within a class. -/
def classItem? (flags : Flags) : List Char → Option (Atom × List Char)
  | [] => none
  | '\\' :: rest => escape? flags rest
  | char :: rest => some (.char char, rest)

def Atom.set? : Atom → Option CharSet
  | .char single => some (.single single)
  | .set members => some members
  | .look _ => none

/-- An item or a range of characters. A hyphen before the closing bracket or before another hyphen
does not make a range. -/
def classRange? (flags : Flags) (text : List Char) : Option (CharSet × List Char) := do
  let (first, rest) ← classItem? flags text
  let rest ← skipTo? flags rest
  let alone : Option (CharSet × List Char) := first.set?.map (·, rest)
  match rest with
  | '-' :: after =>
    match skip flags after with
    | [] => none
    | ']' :: _ => alone
    | '-' :: _ => alone
    | next => do
      let (last, rest) ← classItem? flags next
      match first, last with
      | .char low, .char high => if low ≤ high then return (.range low high, rest) else none
      | _, _ => none
  | _ => alone

/-- Hyphens at the start of a class stand for themselves. -/
def leadingHyphens? (flags : Flags) : Nat → ClassState → List Char → Option (ClassState × List Char)
  | 0, _, _ => none
  | fuel + 1, state, text =>
    match skip flags text with
    | [] => none
    | '-' :: rest => leadingHyphens? flags fuel (state.add (.single '-')) rest
    | rest => some (state, rest)

mutual

/-- A class from behind its opening bracket on. -/
def class? (flags : Flags) : Nat → List Char → Option (Parsed CharSet × List Char)
  | 0, _ => none
  | fuel + 1, text => do
    let opened ← skipTo? flags text
    let (negate, text) := match opened with
      | '^' :: rest => (true, rest)
      | other => (false, other)
    let (state, text) ← leadingHyphens? flags (text.length + 1) .start text
    let (state, text) := match state.items, text with
      | .nothing, ']' :: rest => (state.add (.single ']'), rest)
      | _, other => (state, other)
    let (parsed, rest) ← classItems? flags fuel state text
    let set ← if negate then complement? flags parsed.value else some parsed.value
    return (⟨set, parsed.depth + 1⟩, rest)

def classItems? (flags : Flags) : Nat → ClassState → List Char →
    Option (Parsed CharSet × List Char)
  | 0, _, _ => none
  | fuel + 1, state, text =>
    match skip flags text with
    | [] => none
    | ']' :: rest => some (⟨state.total flags, state.depth⟩, rest)
    | '&' :: '&' :: rest => classItems? flags fuel (state.operate flags .intersection) rest
    | '-' :: '-' :: rest => classItems? flags fuel (state.operate flags .difference) rest
    | '~' :: '~' :: rest => classItems? flags fuel (state.operate flags .symmetricDifference) rest
    | '[' :: rest =>
      match namedClass? flags ('[' :: rest) with
      | some (set, rest) => classItems? flags fuel (state.add set) rest
      | none => do
        let (nested, rest) ← class? flags fuel rest
        classItems? flags fuel
          { state.add nested.value with depth := max state.depth nested.depth } rest
    | other => do
      let (set, rest) ← classRange? flags other
      classItems? flags fuel (state.add set) rest

end

/-- The digits of a number, with what does not count between them. -/
def takeDigits (flags : Flags) : Nat → List Char → List Char × List Char
  | 0, text => ([], text)
  | fuel + 1, text =>
    match text with
    | char :: rest =>
      if isAsciiDigit char then
        let (digits, after) := takeDigits flags fuel (skip flags rest)
        (char :: digits, after)
      else ([], text)
    | [] => ([], [])

/-- A count within 32 bits, with blanks around it. -/
def count? (flags : Flags) (text : List Char) : Option (Nat × List Char) :=
  let text := text.dropWhile Text.isBlank
  let (digits, rest) := takeDigits flags text.length text
  if digits.isEmpty || Nat.pow 2 32 ≤ digitsValue digits then none
  else some (digitsValue digits, skip flags (rest.dropWhile Text.isBlank))

/-- The least and the most count of a repetition, from behind the opening brace on. -/
def counts? (flags : Flags) (text : List Char) : Option ((Nat × Option Nat) × List Char) := do
  let (least, rest) ← count? flags (← skipTo? flags text)
  match rest with
  | '\x7d' :: rest => return ((least, some least), rest)
  | ',' :: rest =>
    match ← skipTo? flags rest with
    | '\x7d' :: rest => return ((least, none), rest)
    | other => do
      let (most, rest) ← count? flags other
      match rest with
      | '\x7d' :: rest => if least ≤ most then return ((least, some most), rest) else none
      | _ => none
  | _ => none

/-- A question mark behind a repetition changes which match is preferred, not whether there is
one. -/
def dropLazy : List Char → List Char
  | '?' :: rest => rest
  | other => other

/-- Sets the flags of a group, given whether they are being switched off and which were named. -/
def flags? : Bool → List Char → Flags → List Char → Option (Flags × List Char × List Char)
  | _, _, _, [] => none
  | off, seen, flags, char :: rest =>
    let next (flags : Flags) : Option (Flags × List Char × List Char) :=
      flags? off (char :: seen) flags rest
    if char = ':' ∨ char = ')' then
      if seen.head? = some '-' then none else some (flags, seen, char :: rest)
    else if seen.contains char then none
    else match char with
      | '-' => flags? true ('-' :: seen) flags rest
      | 'i' => next { flags with caseless := !off }
      | 'm' => next { flags with multiline := !off }
      | 's' => next { flags with dotAll := !off }
      | 'x' => next { flags with extended := !off }
      | 'u' => next { flags with unicode := !off }
      | 'R' => next { flags with carriageReturns := !off }
      | 'U' => next flags
      | _ => none

def isNameStart (char : Char) : Bool := char == '_' || Text.isAlphabetic char

def isNameRest (char : Char) : Bool :=
  char == '_' || char == '.' || char == '[' || char == ']' || Text.isAlphanumeric char

/-- The name of a group up to the closing angle bracket. -/
def groupName? (text : List Char) : Option (List Char × List Char) :=
  match text.takeWhile (· ≠ '>'), text.dropWhile (· ≠ '>') with
  | first :: name, _ :: rest =>
    if isNameStart first && name.all isNameRest then some (first :: name, rest) else none
  | _, _ => none

/-- How a group begins. -/
inductive GroupStart
  | plain (rest : List Char)
  | named (name rest : List Char)
  | withFlags (flags : Flags) (rest : List Char)
  | setFlags (flags : Flags) (rest : List Char)

/-- The beginning of a group behind its parenthesis. -/
def groupStart? (flags : Flags) (text : List Char) : Option GroupStart :=
  match skip flags text with
  | '?' :: '=' :: _ => none
  | '?' :: '!' :: _ => none
  | '?' :: '<' :: '=' :: _ => none
  | '?' :: '<' :: '!' :: _ => none
  | '?' :: 'P' :: '<' :: rest => (groupName? rest).map fun (name, rest) => .named name rest
  | '?' :: '<' :: rest => (groupName? rest).map fun (name, rest) => .named name rest
  | '?' :: rest =>
    match flags? false [] flags rest with
    | some (changed, _, ':' :: rest) => some (.withFlags changed rest)
    | some (changed, seen, ')' :: rest) =>
      if seen.isEmpty then none else some (.setFlags changed rest)
    | _ => none
  | rest => some (.plain rest)

/-- What stands side by side: patterns, or none where flags were set. -/
abbrev Items := List (Option (Parsed Pattern))

/-- The items of a sequence, which are given in reverse. -/
def sequenceOfItems (items : Items) : Parsed Pattern :=
  let parts := items.reverse.filterMap id
  let depth := (parts.map Parsed.depth).foldl max 0
  ⟨sequenceOf (parts.map Parsed.value), if items.length < 2 then depth else depth + 1⟩

/-- The branches of an alternative, which are given in reverse. -/
def alternativeOf (branches : List (Parsed Pattern)) (last : Parsed Pattern) : Parsed Pattern :=
  match branches with
  | [] => last
  | _ =>
    let all := branches.reverse ++ [last]
    ⟨branches.foldl (fun right left => .either left.value right) last.value,
      (all.map Parsed.depth).foldl max 0 + 1⟩

def dot? (flags : Flags) : Option CharSet :=
  if !flags.unicode then none
  else if flags.dotAll then some .any
  else if flags.carriageReturns then some (.negated (.unions [.single '\n', .single '\r']))
  else some (.negated (.single '\n'))

def lineStart (flags : Flags) : Look :=
  if flags.multiline then .lineStart flags.carriageReturns else .textStart

def lineEnd (flags : Flags) : Look :=
  if flags.multiline then .lineEnd flags.carriageReturns else .textEnd

/-- Repeats the last item, if there is one. -/
def repeatLast? (items : Items) (counts : Nat × Option Nat) : Option Items :=
  match items with
  | some last :: others =>
    some (some ⟨.repeated last.value counts.1 counts.2, last.depth + 1⟩ :: others)
  | _ => none

/-- Reads up to a closing parenthesis or the end, given the names of earlier groups, the branches
and the items so far. -/
def alternatives? : Nat → Flags → List (List Char) → List (Parsed Pattern) → Items → List Char →
    Option (Parsed Pattern × List (List Char) × List Char)
  | 0, _, _, _, _, _ => none
  | fuel + 1, flags, names, branches, items, text =>
    let more (items : Items) (rest : List Char) :=
      alternatives? fuel flags names branches items rest
    let add (pattern : Pattern) (rest : List Char) :=
      more (some ⟨pattern, 0⟩ :: items) rest
    let finished := alternativeOf branches (sequenceOfItems items)
    match skip flags text with
    | [] => some (finished, names, [])
    | ')' :: rest => some (finished, names, ')' :: rest)
    | '|' :: rest => alternatives? fuel flags names (sequenceOfItems items :: branches) [] rest
    | '(' :: rest => do
      let group (inner : Flags) (names : List (List Char)) (rest : List Char) := do
        let (body, names, rest) ← alternatives? fuel inner names [] [] rest
        match rest with
        | ')' :: rest =>
          alternatives? fuel flags names branches
            (some ⟨body.value, body.depth + 1⟩ :: items) rest
        | _ => none
      match ← groupStart? flags rest with
      | .plain rest => group flags names rest
      | .named name rest =>
        if names.contains name then none else group flags (name :: names) rest
      | .withFlags changed rest => group changed names rest
      | .setFlags changed rest => alternatives? fuel changed names branches (none :: items) rest
    | '[' :: rest => do
      let (set, rest) ← class? flags (rest.length + 1) rest
      more (some ⟨.chars set.value, set.depth⟩ :: items) rest
    | '?' :: rest => do more (← repeatLast? items (0, some 1)) (dropLazy rest)
    | '*' :: rest => do more (← repeatLast? items (0, none)) (dropLazy rest)
    | '+' :: rest => do more (← repeatLast? items (1, none)) (dropLazy rest)
    | '\x7b' :: rest => do
      let (counts, rest) ← counts? flags rest
      more (← repeatLast? items counts) (dropLazy (skip flags rest))
    | '.' :: rest => do add (.chars (← dot? flags)) rest
    | '^' :: rest => add (.look (lineStart flags)) rest
    | '$' :: rest => add (.look (lineEnd flags)) rest
    | '\\' :: rest => do
      let (atom, rest) ← escape? flags rest
      add (atom.pattern flags) rest
    | char :: rest => add (.chars (literal flags char)) rest

/-- What a set costs, about as much as the byte sequences that it takes. -/
def setCost : CharSet → Nat
  | .range first last => if first = last then 32 * utf8Size [first] else 40
  | .category _ => 6000
  | .property .any => 400
  | .property .alphabetic => 12000
  | .property _ => 600
  | .folded set => 2 * setCost set
  | .negated set => setCost set + 400
  | .union first second | .intersection first second => setCost first + setCost second
  | .nothing => 0

/-- What a pattern costs; repetitions cost as much as all their copies. -/
def cost : Pattern → Nat
  | .empty | .look _ => 32
  | .chars set => setCost set
  | .sequence first second => cost first + cost second
  | .either first second => cost first + cost second + 80
  | .repeated body least most? =>
    match most? with
    | some most => cost body * most + 72 * (most - least)
    | none => cost body * max least 1 + 72

/-- What a pattern may cost at most. -/
def maxCost : Nat := 10485760

/-- The pattern that a text describes. -/
def ofText? (text : String) : Option Pattern :=
  match alternatives? (text.toList.length + 1) .start [] [] [] text.toList with
  | some (parsed, _, []) =>
    if parsed.depth ≤ maxDepth && cost parsed.value ≤ maxCost then some parsed.value else none
  | _ => none

end EdmQuery.Pattern
