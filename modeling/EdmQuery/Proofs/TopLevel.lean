import Mathlib.Data.List.Forall2
import EdmQuery.Emission.RequestText

set_option autoImplicit false

namespace EdmQuery

namespace RequestContext

variable {separator char : Char} {opened : Nat} {text first second inner rest : List Char}

/-- How many parentheses are open behind a character. None if it closes one that is not open. -/
def openedBehind? (opened : Nat) (char : Char) : Option Nat :=
  if char = '(' then some (opened + 1)
  else if char = ')' then (if opened = 0 then none else some (opened - 1))
  else some opened

theorem openedBehind?_self (noOpen : char ≠ '(') (noClose : char ≠ ')') :
    openedBehind? opened char = some opened :=
  (if_neg noOpen).trans (if_neg noClose)

/-- A character that does not cut the text goes to the first piece of the text behind it. -/
theorem splitTopLevel?_cons {now : Nat}
    (whole : ¬ (char = separator ∧ opened = 0 ∧ char ≠ '(' ∧ char ≠ ')'))
    (behind : openedBehind? opened char = some now) (rest : List Char) :
    splitTopLevel? separator opened (char :: rest) =
      (splitTopLevel? separator now rest).map (List.modifyHead (char :: ·)) := by
  rw [openedBehind?] at behind
  rw [splitTopLevel?, if_neg whole]
  simp only [behind]
  cases splitTopLevel? separator now rest with
  | none => rfl
  | some pieces => cases pieces <;> rfl

theorem splitTopLevel?_open (separator : Char) (opened : Nat) (rest : List Char) :
    splitTopLevel? separator opened ('(' :: rest) =
      (splitTopLevel? separator (opened + 1) rest).map (List.modifyHead ('(' :: ·)) :=
  splitTopLevel?_cons (fun cut => cut.2.2.1 rfl) rfl rest

theorem splitTopLevel?_close (separator : Char) (opened : Nat) (rest : List Char) :
    splitTopLevel? separator (opened + 1) (')' :: rest) =
      (splitTopLevel? separator opened rest).map (List.modifyHead (')' :: ·)) :=
  splitTopLevel?_cons (fun cut => cut.2.2.2 rfl) rfl rest

theorem splitTopLevel?_separator (noOpen : separator ≠ '(') (noClose : separator ≠ ')')
    (rest : List Char) :
    splitTopLevel? separator 0 (separator :: rest) =
      (splitTopLevel? separator 0 rest).map ([] :: ·) := by
  rw [splitTopLevel?, if_pos ⟨rfl, rfl, noOpen, noClose⟩]

/-- A text that belongs to one piece, and that closes just what it opens. -/
def Passes (separator : Char) (opened : Nat) (text : List Char) : Prop :=
  ∀ rest, splitTopLevel? separator opened (text ++ rest) =
    (splitTopLevel? separator opened rest).map (List.modifyHead (text ++ ·))

theorem passes_nil : Passes separator opened [] := by
  intro rest
  rw [List.nil_append]
  cases splitTopLevel? separator opened rest with
  | none => rfl
  | some pieces => cases pieces <;> rfl

theorem Passes.append (passesFirst : Passes separator opened first)
    (passesSecond : Passes separator opened second) :
    Passes separator opened (first ++ second) := by
  intro rest
  rw [List.append_assoc, passesFirst, passesSecond, Option.map_map]
  simp only [Function.comp_def, List.modifyHead_modifyHead, List.append_assoc]

/-- A character that is neither a parenthesis nor a separator where it stands. -/
theorem passes_char (noOpen : char ≠ '(') (noClose : char ≠ ')')
    (inside : char ≠ separator ∨ opened ≠ 0) : Passes separator opened [char] :=
  fun rest => splitTopLevel?_cons (fun cut => inside.elim (· cut.1) (· cut.2.1))
    (openedBehind?_self noOpen noClose) rest

theorem passes_of_all (passes : ∀ char ∈ text, Passes separator opened [char]) :
    Passes separator opened text := by
  induction text with
  | nil => exact passes_nil
  | cons char others ih =>
    have first := passes char List.mem_cons_self
    exact first.append (ih fun other inside => passes other (List.mem_cons_of_mem _ inside))

theorem Passes.parenthesized (passes : Passes separator (opened + 1) inner) :
    Passes separator opened ('(' :: inner ++ [')']) := by
  intro rest
  rw [List.append_assoc, List.cons_append, splitTopLevel?_open, passes, List.singleton_append,
    splitTopLevel?_close, Option.map_map, Option.map_map]
  simp only [Function.comp_def, List.modifyHead_modifyHead, List.append_assoc, List.cons_append,
    List.nil_append]

/-- What is cut off before a separator is a text that is passed. -/
theorem Passes.splitTopLevel?_append (passes : Passes separator 0 first)
    (noOpen : separator ≠ '(') (noClose : separator ≠ ')') (rest : List Char) :
    splitTopLevel? separator 0 (first ++ separator :: rest) =
      (splitTopLevel? separator 0 rest).map (first :: ·) := by
  rw [passes, splitTopLevel?_separator noOpen noClose, Option.map_map]
  simp only [Function.comp_def, List.modifyHead_cons, List.append_nil]

theorem Passes.splitTopLevel?_eq (passes : Passes separator 0 text) :
    splitTopLevel? separator 0 text = some [text] := by
  have whole := passes []
  rwa [List.append_nil, splitTopLevel?, Option.map_some, List.modifyHead_cons,
    List.append_nil] at whole

end RequestContext

/-- The texts of a list: those of its items with a separator between them. -/
inductive Joined {α : Type} (separator : Char) (writes : α → List Char → Prop) :
    List α → List Char → Prop
  | one {item : α} {text : List Char} (written : writes item text) :
    Joined separator writes [item] text
  | more {item : α} {items : List α} {piece text : List Char} (written : writes item piece)
    (others : Joined separator writes items text) :
    Joined separator writes (item :: items) (piece ++ separator :: text)

namespace Joined

variable {α : Type} {separator : Char} {writes : α → List Char → Prop} {items : List α}
  {text : List Char}

theorem ne_nil (joined : Joined separator writes items text) : items ≠ [] := by
  cases joined <;> exact List.cons_ne_nil _ _

/-- Where every item has a text, a list of items has one. -/
theorem exists_text (some : items ≠ []) (texts : ∀ item ∈ items, ∃ text, writes item text) :
    ∃ text, Joined separator writes items text := by
  induction items with
  | nil => exact absurd rfl some
  | cons item rest ih =>
    obtain ⟨piece, written⟩ := texts item List.mem_cons_self
    cases rest with
    | nil => exact ⟨piece, .one written⟩
    | cons next others =>
      obtain ⟨text, joined⟩ := ih (List.cons_ne_nil _ _)
        fun other inside => texts other (List.mem_cons_of_mem _ inside)
      exact ⟨_, .more written joined⟩

/-- Texts are the items of what they make up with separators between them. -/
theorem intercalate {texts : List (List Char)} (some : texts ≠ []) :
    Joined separator Eq texts ([separator].intercalate texts) := by
  induction texts with
  | nil => exact absurd rfl some
  | cons text rest ih =>
    cases rest with
    | nil =>
      rw [List.intercalate_singleton]
      exact .one rfl
    | cons next others =>
      rw [List.intercalate_cons_cons, List.append_assoc, List.singleton_append]
      exact .more rfl (ih (List.cons_ne_nil _ _))

open RequestContext in
/-- A list is cut into the texts of its items. -/
theorem splitTopLevel?_eq (joined : Joined separator writes items text)
    (noOpen : separator ≠ '(') (noClose : separator ≠ ')')
    (passes : ∀ item ∈ items, ∀ text, writes item text → Passes separator 0 text) :
    ∃ pieces, List.Forall₂ writes items pieces ∧ splitTopLevel? separator 0 text = some pieces := by
  induction joined with
  | one written =>
    have whole := passes _ List.mem_cons_self _ written
    exact ⟨_, .cons written .nil, whole.splitTopLevel?_eq⟩
  | more written others ih =>
    have first := passes _ List.mem_cons_self _ written
    obtain ⟨pieces, written', cut⟩ :=
      ih fun item inside => passes item (List.mem_cons_of_mem _ inside)
    exact ⟨_, .cons written written', by
      rw [first.splitTopLevel?_append noOpen noClose, cut, Option.map_some]⟩

open RequestContext in
/-- A list with another separator, or inside of parentheses, is passed if its items are. -/
theorem passes {separator' : Char} {opened : Nat} (joined : Joined separator writes items text)
    (between : Passes separator' opened [separator])
    (passes : ∀ item ∈ items, ∀ text, writes item text → Passes separator' opened text) :
    Passes separator' opened text := by
  induction joined with
  | one written => exact passes _ List.mem_cons_self _ written
  | more written others ih =>
    have first := passes _ List.mem_cons_self _ written
    have rest := ih fun item inside => passes item (List.mem_cons_of_mem _ inside)
    exact first.append (between.append rest)

end Joined

end EdmQuery
