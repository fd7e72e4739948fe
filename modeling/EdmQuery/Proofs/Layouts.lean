import EdmQuery.Proofs.IndentedText
import Mathlib.Data.List.Forall2

set_option autoImplicit false

/- Documents that are written token by token. Any part of a document may be handed over as a whole,
and the rest of it by its brackets, keys and separators: what is written is the text of the
document, compact or indented, wherever it is cut. A part is given by the positions on the way to
it, the innermost first. -/
namespace EdmQuery

mutual

def Json.tokens (whole : List Nat → Bool) (place : List Nat) : Json → List Token
  | .array items =>
    if whole place then [.scalar (.array items)]
    else .openArray :: (Token.separated (Json.itemTokens whole place 0 items) ++ [.closeArray])
  | .object members =>
    if whole place then [.scalar (.object members)]
    else .openObject ::
      (Token.separated (Json.memberTokens whole place 0 members) ++ [.closeObject])
  | value => [.scalar value]

def Json.itemTokens (whole : List Nat → Bool) (place : List Nat) :
    Nat → List Json → List (List Token)
  | _, [] => []
  | position, item :: rest =>
    item.tokens whole (position :: place) :: Json.itemTokens whole place (position + 1) rest

def Json.memberTokens (whole : List Nat → Bool) (place : List Nat) :
    Nat → Json.Members → List (List Token)
  | _, [] => []
  | position, (key, value) :: rest =>
    (.key key :: value.tokens whole (position :: place)) ::
      Json.memberTokens whole place (position + 1) rest

end

namespace Json

/-- The text of a value at a level, in one of the two forms. -/
def laidOut (isPretty : Bool) (level : Nat) (value : Json) : String :=
  if isPretty then value.indented level else value.compact

def laidOutMember (isPretty : Bool) (level : Nat) (member : String × Json) : String :=
  quote member.1 ++ (if isPretty then ": " else ":") ++ laidOut isPretty level member.2

/-- Lines are broken in the indented form only. -/
def lineBreak (isPretty : Bool) (level : Nat) : String := if isPretty then newline level else ""

theorem enclosed_of_compact (level : Nat) (texts : List String) :
    enclosed (lineBreak false) level texts = ",".intercalate texts := by
  cases texts with
  | nil => rfl
  | cons first rest =>
    simp only [enclosed, lineBreak, Bool.false_eq_true, if_false, String.append_empty,
      String.empty_append]

theorem laidOut_array (isPretty : Bool) (level : Nat) (items : List Json) :
    laidOut isPretty level (array items) =
      "[" ++ enclosed (lineBreak isPretty) level (items.map (laidOut isPretty (level + 1))) ++
        "]" := by
  cases isPretty with
  | true => exact indented_array level items
  | false =>
    rw [enclosed_of_compact]
    exact compact_array items

theorem laidOut_object (isPretty : Bool) (level : Nat) (members : Members) :
    laidOut isPretty level (object members) =
      "\x7b" ++ enclosed (lineBreak isPretty) level
        (members.map (laidOutMember isPretty (level + 1))) ++ "\x7d" := by
  cases isPretty with
  | true => exact indented_object level members
  | false =>
    rw [enclosed_of_compact]
    exact compact_object members

end Json

namespace Layout

/-- A value that is written as a whole at any level is laid out there. -/
theorem text_eq (layout : Layout) (value : Json) :
    layout.text value = value.laidOut layout.isPretty layout.level := by
  rw [text, Json.laidOut, Json.indentLines_indented, Nat.zero_add]

/-- Tokens lead from one layout to another, and what is written on the way is a text. -/
def Writes (before : Layout) (tokens : List Token) (after : Layout) (text : String) : Prop :=
  (before.run tokens).1 = after ∧ String.join (before.run tokens).2 = text

theorem Writes.append {before between after : Layout} {first second : List Token}
    {text others : String} (one : before.Writes first between text)
    (other : between.Writes second after others) :
    before.Writes (first ++ second) after (text ++ others) := by
  obtain ⟨rfl, rfl⟩ := one
  obtain ⟨rfl, rfl⟩ := other
  rw [Writes, run_append]
  exact ⟨rfl, String.join_append⟩

theorem Writes.of_step {before after : Layout} {token : Token} {writes : List String}
    (step : before.step token = (after, writes)) :
    before.Writes [token] after (String.join writes) := by
  rw [Writes, run, step]
  exact ⟨rfl, congrArg String.join (List.append_nil writes)⟩

/-- The layout in a container, where an item may follow. -/
def inside (isPretty hasItems : Bool) (outer : List Bool) : Layout :=
  ⟨isPretty, hasItems :: outer, false⟩

section

variable {isPretty hasItems : Bool} {outer : List Bool}

theorem beginItem_inside : (inside isPretty hasItems outer).beginItem =
    (inside isPretty true outer, if isPretty then [Json.newline (outer.length + 1)] else []) :=
  rfl

theorem join_beginItem_inside : String.join (inside isPretty hasItems outer).beginItem.2 =
    Json.lineBreak isPretty (outer.length + 1) := by
  rw [beginItem_inside]
  cases isPretty with
  | true => exact String.empty_append
  | false => rfl

theorem closeContainer_inside (bracket : String) :
    ((inside isPretty hasItems outer).closeContainer bracket).1 = ⟨isPretty, outer, false⟩ ∧
      String.join ((inside isPretty hasItems outer).closeContainer bracket).2 =
        (if hasItems then Json.lineBreak isPretty outer.length else "") ++ bracket := by
  refine ⟨rfl, ?_⟩
  cases hasItems <;> cases isPretty <;>
    simp [inside, closeContainer, Json.lineBreak]

/-- A value begins in the form of its layout and at its level, and no key waits any more. -/
theorem beginValue_eq (layout : Layout) :
    layout.beginValue.1 = ⟨layout.isPretty, layout.beginValue.1.containers, false⟩ ∧
      layout.beginValue.1.containers.length = layout.level := by
  obtain ⟨form, containers, afterKey⟩ := layout
  cases afterKey with
  | true => exact ⟨rfl, rfl⟩
  | false =>
    cases containers with
    | nil => exact ⟨rfl, rfl⟩
    | cons hasItems outer => exact ⟨rfl, rfl⟩

/-- The tokens of an item write its text on a line of its own, whether items precede it or not. -/
def WritesItem (isPretty : Bool) (outer : List Bool) (group : List Token) (text : String) : Prop :=
  ∀ hasItems, (inside isPretty hasItems outer).Writes group (inside isPretty true outer)
    (Json.lineBreak isPretty (outer.length + 1) ++ text)

theorem writes_separated {group : List Token} {groups : List (List Token)} {text : String}
    {texts : List String} (first : WritesItem isPretty outer group text)
    (others : List.Forall₂ (WritesItem isPretty outer) groups texts) :
    WritesItem isPretty outer (Token.separated (group :: groups))
      (("," ++ Json.lineBreak isPretty (outer.length + 1)).intercalate (text :: texts)) := by
  induction others generalizing group text with
  | nil =>
    rw [Token.separated, String.intercalate_singleton]
    exact first
  | @cons next other groups texts second _ ih =>
    intro hasItems
    have comma : (inside isPretty true outer).Writes [.separator]
        (inside isPretty true outer) "," := ⟨rfl, rfl⟩
    have whole := ((first hasItems).append comma).append (ih second true)
    rw [List.append_assoc, List.singleton_append] at whole
    rw [Token.separated, String.intercalate_cons_cons]
    · simp only [String.append_assoc] at whole ⊢
      exact whole
    · intro none
      cases none

/-- A container is written as its brackets around its items. -/
theorem writes_container {opening closing : Token} {left right : String}
    (opens : ∀ layout : Layout, layout.step opening = layout.openContainer left)
    (closes : ∀ layout : Layout, layout.step closing = layout.closeContainer right)
    (layout : Layout) {groups : List (List Token)} {texts : List String}
    (items : List.Forall₂ (WritesItem layout.isPretty layout.beginValue.1.containers)
      groups texts) :
    layout.Writes (opening :: (Token.separated groups ++ [closing])) layout.beginValue.1
      (String.join layout.beginValue.2 ++ (left ++
        Json.enclosed (Json.lineBreak layout.isPretty) layout.level texts ++ right)) := by
  obtain ⟨begun, level⟩ := layout.beginValue_eq
  generalize layout.beginValue.1.containers = outer at begun level items
  have opened : layout.Writes [opening] (inside layout.isPretty false outer)
      (String.join layout.beginValue.2 ++ left) := by
    have step : layout.step opening =
        (inside layout.isPretty false outer, layout.beginValue.2 ++ [left]) := by
      rw [opens]
      show (({ layout.beginValue.1 with
        containers := false :: layout.beginValue.1.containers }, _) : Layout × List String) = _
      rw [begun]
      rfl
    have written := Writes.of_step step
    rwa [String.join_append, String.join_cons, String.join_nil, String.append_empty] at written
  have closed : ∀ hasItems, (inside layout.isPretty hasItems outer).Writes [closing]
      layout.beginValue.1
      ((if hasItems then Json.lineBreak layout.isPretty layout.level else "") ++ right) := by
    intro hasItems
    obtain ⟨last, written⟩ := @closeContainer_inside layout.isPretty hasItems outer right
    have step : (inside layout.isPretty hasItems outer).step closing =
        (layout.beginValue.1, ((inside layout.isPretty hasItems outer).closeContainer right).2) := by
      rw [closes, begun, ← last]
    rw [← level, ← written]
    exact .of_step step
  cases items with
  | nil =>
    have whole := opened.append (closed false)
    simp only [Token.separated, Json.enclosed, Bool.false_eq_true, if_false, String.append_assoc,
      String.empty_append] at whole ⊢
    exact whole
  | cons first others =>
    have whole := (opened.append (writes_separated first others false)).append (closed true)
    rw [level] at whole
    simp only [Json.enclosed, if_true, String.append_assoc, List.cons_append,
      List.nil_append] at whole ⊢
    exact whole

end

/-- The key of a member, and its value behind it. -/
theorem writesItem_member {isPretty : Bool} {outer : List Bool} {key text : String}
    {tokens : List Token}
    (value : (⟨isPretty, true :: outer, true⟩ : Layout).Writes tokens
      (inside isPretty true outer) text) :
    WritesItem isPretty outer (.key key :: tokens)
      (Json.quote key ++ (if isPretty then ": " else ":") ++ text) := by
  intro hasItems
  have step : (inside isPretty hasItems outer).step (.key key) =
      (⟨isPretty, true :: outer, true⟩, (inside isPretty hasItems outer).beginItem.2 ++
        [(inside isPretty true outer).text (.string key), if isPretty then ": " else ":"]) := rfl
  have spelled : (inside isPretty true outer).text (.string key) = Json.quote key := by
    rw [text_eq, Json.laidOut]
    cases (inside isPretty true outer).isPretty <;> rfl
  have whole := (Writes.of_step step).append value
  rw [String.join_append, join_beginItem_inside, spelled, String.join_cons, String.join_cons,
    String.join_nil, String.append_empty] at whole
  simp only [String.append_assoc] at whole ⊢
  exact whole

mutual

/-- Wherever a document is cut, its tokens write it as it is laid out at its place. -/
theorem writes_tokens (whole : List Nat → Bool) (place : List Nat) (value : Json)
    (layout : Layout) :
    layout.Writes (value.tokens whole place) layout.beginValue.1
      (String.join layout.beginValue.2 ++ value.laidOut layout.isPretty layout.level) := by
  have handed : layout.Writes [.scalar value] layout.beginValue.1
      (String.join layout.beginValue.2 ++ value.laidOut layout.isPretty layout.level) := by
    obtain ⟨begun, level⟩ := layout.beginValue_eq
    have spelled : layout.beginValue.1.text value =
        value.laidOut layout.isPretty layout.level := by
      rw [text_eq, Layout.level, level, begun]
    have step : layout.step (.scalar value) =
        (layout.beginValue.1, layout.beginValue.2 ++ [layout.beginValue.1.text value]) := rfl
    have written := Writes.of_step step
    rwa [String.join_append, String.join_cons, String.join_nil, String.append_empty,
      spelled] at written
  cases value with
  | array items =>
    rw [Json.tokens]
    split
    · exact handed
    · have opens : ∀ other : Layout, other.step .openArray = other.openContainer "[" :=
        fun _ => rfl
      have closes : ∀ other : Layout, other.step .closeArray = other.closeContainer "]" :=
        fun _ => rfl
      have items := writes_container opens closes layout (writes_itemTokens whole place 0 items)
      rwa [layout.beginValue_eq.2, ← Json.laidOut_array] at items
  | object members =>
    rw [Json.tokens]
    split
    · exact handed
    · have opens : ∀ other : Layout, other.step .openObject = other.openContainer "\x7b" :=
        fun _ => rfl
      have closes : ∀ other : Layout, other.step .closeObject = other.closeContainer "\x7d" :=
        fun _ => rfl
      have members := writes_container opens closes layout
        (writes_memberTokens whole place 0 members)
      rwa [layout.beginValue_eq.2, ← Json.laidOut_object] at members
  | null => simpa only [Json.tokens] using handed
  | bool _ => simpa only [Json.tokens] using handed
  | int _ => simpa only [Json.tokens] using handed
  | double _ => simpa only [Json.tokens] using handed
  | string _ => simpa only [Json.tokens] using handed

theorem writes_itemTokens (whole : List Nat → Bool) (place : List Nat) (position : Nat)
    (items : List Json) {isPretty : Bool} {outer : List Bool} :
    List.Forall₂ (WritesItem isPretty outer) (Json.itemTokens whole place position items)
      (items.map (Json.laidOut isPretty (outer.length + 1))) := by
  cases items with
  | nil => exact .nil
  | cons item rest =>
    refine .cons (fun hasItems => ?_) (writes_itemTokens whole place (position + 1) rest)
    rw [← join_beginItem_inside]
    exact writes_tokens whole (position :: place) item (inside isPretty hasItems outer)

theorem writes_memberTokens (whole : List Nat → Bool) (place : List Nat) (position : Nat)
    (members : Json.Members) {isPretty : Bool} {outer : List Bool} :
    List.Forall₂ (WritesItem isPretty outer) (Json.memberTokens whole place position members)
      (members.map (Json.laidOutMember isPretty (outer.length + 1))) := by
  cases members with
  | nil => exact .nil
  | cons member rest =>
    obtain ⟨key, value⟩ := member
    refine .cons (writesItem_member ?_) (writes_memberTokens whole place (position + 1) rest)
    have written := writes_tokens whole (position :: place) value ⟨isPretty, true :: outer, true⟩
    have begun : (⟨isPretty, true :: outer, true⟩ : Layout).beginValue =
        (inside isPretty true outer, []) := rfl
    rw [begun, String.join_nil, String.empty_append] at written
    exact written

end

end Layout

namespace Output

/-- However a document is cut into parts that are handed over as a whole and tokens for the rest, its
compact text is written, or its indented text, and its bytes are counted. -/
theorem writeTokens_tokens (value : Json) (whole : List Nat → Bool) :
    unlimited.writeTokens .compact (value.tokens whole []) =
        (⟨none, value.compact, value.compact.utf8ByteSize⟩, .ok ()) ∧
      unlimited.writeTokens .pretty (value.tokens whole []) =
        (⟨none, value.indented 0, (value.indented 0).utf8ByteSize⟩, .ok ()) := by
  have written : ∀ isPretty,
      unlimited.writeTokens ⟨isPretty, [], false⟩ (value.tokens whole []) =
        (unlimited.append (value.laidOut isPretty 0), .ok ()) := by
    intro isPretty
    have text := (Layout.writes_tokens whole [] value ⟨isPretty, [], false⟩).2
    have begun : (⟨isPretty, [], false⟩ : Layout).beginValue = (⟨isPretty, [], false⟩, []) := rfl
    rw [begun, String.join_nil, String.empty_append] at text
    rw [writeTokens, writeAll_of_unlimited _ rfl, text]
    rfl
  have appended : ∀ text, unlimited.append text = ⟨none, text, text.utf8ByteSize⟩ := by
    intro text
    rw [append, unlimited, String.empty_append, Nat.zero_add]
  refine ⟨(written false).trans ?_, (written true).trans ?_⟩
  · rw [appended]
    rfl
  · rw [appended]
    rfl

end Output

end EdmQuery
