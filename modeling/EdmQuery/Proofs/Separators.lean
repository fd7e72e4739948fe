import EdmQuery.Text.Position

set_option autoImplicit false

namespace EdmQuery

namespace Text

variable {separator : Char} {text after : List Char}

theorem pieces_of_free (free : separator ∉ text) : pieces separator text = [text] := by
  induction text with
  | nil => rfl
  | cons char rest ih =>
    rw [List.mem_cons, not_or] at free
    rw [pieces, if_neg (Ne.symm free.1), ih free.2]

theorem pieces_append (free : separator ∉ text) :
    pieces separator (text ++ separator :: after) = text :: pieces separator after := by
  induction text with
  | nil => exact if_pos rfl
  | cons char rest ih =>
    rw [List.mem_cons, not_or] at free
    rw [List.cons_append, pieces, if_neg (Ne.symm free.1), ih free.2]

/-- Texts without a separator in them are the pieces of what they are joined to. -/
theorem pieces_intercalate {texts : List (List Char)} (some : texts ≠ [])
    (free : ∀ text ∈ texts, separator ∉ text) :
    pieces separator ([separator].intercalate texts) = texts := by
  induction texts with
  | nil => exact absurd rfl some
  | cons text rest ih =>
    have own := free text List.mem_cons_self
    have others := fun other inside => free other (List.mem_cons_of_mem _ inside)
    cases rest with
    | nil =>
      rw [List.intercalate_singleton]
      exact pieces_of_free own
    | cons next more =>
      rw [List.intercalate_cons_cons, List.append_assoc, List.singleton_append, pieces_append own,
        ih (List.cons_ne_nil _ _) others]

/-- What stands in a joined text is a separator or stands in one of its parts. -/
theorem mem_intercalate {texts : List (List Char)} {char : Char}
    (inside : char ∈ [separator].intercalate texts) :
    char = separator ∨ ∃ text ∈ texts, char ∈ text := by
  induction texts with
  | nil => cases inside
  | cons text rest ih =>
    cases rest with
    | nil =>
      rw [List.intercalate_singleton] at inside
      exact .inr ⟨text, List.mem_cons_self, inside⟩
    | cons next more =>
      rw [List.intercalate_cons_cons, List.mem_append, List.mem_append,
        List.mem_singleton] at inside
      rcases inside with (own | between) | later
      · exact .inr ⟨text, List.mem_cons_self, own⟩
      · exact .inl between
      · exact (ih later).imp_right fun ⟨other, among, inside⟩ =>
          ⟨other, List.mem_cons_of_mem _ among, inside⟩

theorem ne_of_free (free : separator ∉ text) : ∀ char ∈ text, decide (char ≠ separator) = true :=
  fun _ inside => decide_eq_true fun same => free (same ▸ inside)

theorem cutAtFirst_append (free : separator ∉ text) :
    cutAtFirst separator (text ++ separator :: after) = (text, after) := by
  have apart := ne_of_free free
  rw [cutAtFirst, List.takeWhile_append_of_pos apart, List.dropWhile_append_of_pos apart]
  simp

theorem cutAtFirst_of_free (free : separator ∉ text) : cutAtFirst separator text = (text, []) := by
  have whole : cutAtFirst separator (text ++ []) = (text, []) := by
    have apart := ne_of_free free
    rw [cutAtFirst, List.takeWhile_append_of_pos apart, List.dropWhile_append_of_pos apart]
    simp
  rwa [List.append_nil] at whole

end Text

end EdmQuery
