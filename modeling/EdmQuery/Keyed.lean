set_option autoImplicit false

namespace EdmQuery.Keyed

section

variable {α κ : Type} [DecidableEq κ] (keyOf : α → κ)

def find? (key : κ) (items : List α) : Option α := items.find? fun item => keyOf item = key

def contains (key : κ) (items : List α) : Bool := items.any fun item => keyOf item = key

/-- Puts an item in the place of the one with its key, or at the end. -/
def put (item : α) : List α → List α
  | [] => [item]
  | held :: rest => if keyOf held = keyOf item then item :: rest else held :: put item rest

/-- Takes the item with a key out and leaves the order of the others. -/
def erase (key : κ) (items : List α) : List α := items.eraseP fun item => keyOf item = key

/-- Changes the item with a key where it stands. -/
def update (key : κ) (change : α → α) : List α → List α
  | [] => []
  | held :: rest =>
    if keyOf held = key then change held :: rest else held :: update key change rest

theorem contains_iff (key : κ) (items : List α) :
    contains keyOf key items = true ↔ key ∈ items.map keyOf := by
  simp only [contains, List.any_eq_true, decide_eq_true_eq, List.mem_map]

theorem find?_isSome (key : κ) (items : List α) :
    (find? keyOf key items).isSome = true ↔ key ∈ items.map keyOf := by
  simp only [find?, List.find?_isSome, decide_eq_true_eq, List.mem_map]

theorem keyOf_of_find? {key : κ} {items : List α} {item : α}
    (found : find? keyOf key items = some item) : keyOf item = key ∧ item ∈ items := by
  constructor
  · simpa only [decide_eq_true_eq] using List.find?_some found
  · exact List.mem_of_find?_eq_some found

theorem contains_eq_isSome (key : κ) (items : List α) :
    contains keyOf key items = (find? keyOf key items).isSome := by
  rw [Bool.eq_iff_iff, contains_iff, find?_isSome]

theorem find?_cons (key : κ) (item : α) (items : List α) :
    find? keyOf key (item :: items) =
      if keyOf item = key then some item else find? keyOf key items := by
  by_cases same : keyOf item = key
  · rw [if_pos same]
    exact List.find?_cons_of_pos (decide_eq_true same)
  · rw [if_neg same]
    exact List.find?_cons_of_neg (by rw [decide_eq_true_eq]; exact same)

/-- The item under its own key is found, and under all others what was there before. -/
theorem find?_put (key : κ) (item : α) (items : List α) :
    find? keyOf key (put keyOf item items) =
      if keyOf item = key then some item else find? keyOf key items := by
  induction items with
  | nil => rw [put, find?_cons]
  | cons held rest ih =>
    by_cases same : keyOf held = keyOf item
    · rw [put, if_pos same, find?_cons, find?_cons, same]
      by_cases wanted : keyOf item = key
      · rw [if_pos wanted, if_pos wanted]
      · simp only [if_neg wanted]
    · rw [put, if_neg same, find?_cons, find?_cons, ih]
      by_cases wanted : keyOf item = key
      · have other : keyOf held ≠ key := fun equal => same (equal.trans wanted.symm)
        simp only [if_pos wanted, if_neg other]
      · simp only [if_neg wanted]

/-- The keys after an item is put: those before, and its own at the end if it is new. -/
theorem map_keyOf_put (item : α) (items : List α) :
    (put keyOf item items).map keyOf =
      if keyOf item ∈ items.map keyOf then items.map keyOf
      else items.map keyOf ++ [keyOf item] := by
  induction items with
  | nil => rfl
  | cons held rest ih =>
    by_cases same : keyOf held = keyOf item
    · simp only [put, List.map_cons, same, List.mem_cons, true_or, if_true]
    · have other : ¬ keyOf item = keyOf held := fun equal => same equal.symm
      simp only [put, if_neg same, List.map_cons, ih, List.mem_cons, other, false_or]
      split <;> rfl

theorem put_of_not_mem (item : α) (items : List α) (new : keyOf item ∉ items.map keyOf) :
    put keyOf item items = items ++ [item] := by
  induction items with
  | nil => rfl
  | cons held rest ih =>
    simp only [List.map_cons, List.mem_cons, not_or] at new
    have other : ¬ keyOf held = keyOf item := fun equal => new.1 equal.symm
    simp only [put, if_neg other, ih new.2, List.cons_append]

theorem mem_put {item other : α} {items : List α} (inside : other ∈ put keyOf item items) :
    other = item ∨ other ∈ items := by
  induction items with
  | nil => exact .inl (List.mem_singleton.1 inside)
  | cons held rest ih =>
    unfold put at inside
    split at inside
    · rcases List.mem_cons.1 inside with same | later
      · exact .inl same
      · exact .inr (List.mem_cons_of_mem _ later)
    · rcases List.mem_cons.1 inside with same | later
      · exact .inr (same ▸ List.mem_cons_self)
      · exact (ih later).imp_right (List.mem_cons_of_mem _)

theorem nodup_put (item : α) (items : List α) (distinct : (items.map keyOf).Nodup) :
    ((put keyOf item items).map keyOf).Nodup := by
  rw [map_keyOf_put]
  split
  · exact distinct
  · rename_i new
    rw [List.nodup_append]
    refine ⟨distinct, by simp, ?_⟩
    intro key inside other single equal
    rw [List.mem_singleton] at single
    subst single equal
    exact new inside

/-- Where each key stands once, an item is what is found under its key. -/
theorem find?_of_mem {items : List α} {item : α} (distinct : (items.map keyOf).Nodup)
    (inside : item ∈ items) : find? keyOf (keyOf item) items = some item := by
  induction items with
  | nil => cases inside
  | cons held rest ih =>
    rw [List.map_cons, List.nodup_cons] at distinct
    rw [find?_cons]
    rcases List.mem_cons.1 inside with rfl | later
    · rw [if_pos rfl]
    · have other : keyOf held ≠ keyOf item :=
        fun equal => distinct.1 (equal ▸ List.mem_map_of_mem later)
      rw [if_neg other]
      exact ih distinct.2 later

/-- Where each key stands once, the order does not matter for what is found. -/
theorem find?_of_perm {items other : List α} (distinct : (items.map keyOf).Nodup)
    (same : other.Perm items) (key : κ) : find? keyOf key other = find? keyOf key items := by
  cases found : find? keyOf key items with
  | some item =>
    obtain ⟨rfl, inside⟩ := keyOf_of_find? _ found
    exact find?_of_mem _ ((same.map keyOf).nodup_iff.2 distinct) (same.mem_iff.2 inside)
  | none =>
    cases foundOther : find? keyOf key other with
    | none => rfl
    | some item =>
      obtain ⟨rfl, inside⟩ := keyOf_of_find? _ foundOther
      rw [find?_of_mem _ distinct (same.mem_iff.1 inside)] at found
      cases found

theorem find?_map {β : Type} (keyOfImage : β → κ) (change : α → β)
    (same : ∀ item, keyOfImage (change item) = keyOf item) (key : κ) (items : List α) :
    find? keyOfImage key (items.map change) = (find? keyOf key items).map change := by
  induction items with
  | nil => rfl
  | cons held rest ih =>
    rw [List.map_cons, find?_cons, find?_cons, same, ih]
    split <;> rfl

theorem map_put {β : Type} (keyOfImage : β → κ) (change : α → β)
    (same : ∀ item, keyOfImage (change item) = keyOf item) (item : α) (items : List α) :
    (put keyOf item items).map change = put keyOfImage (change item) (items.map change) := by
  induction items with
  | nil => rfl
  | cons held rest ih =>
    rw [List.map_cons, put, put, same, same]
    split
    · rfl
    · rw [List.map_cons, ih]

theorem mem_update {key : κ} {change : α → α} {items : List α} {item : α}
    (inside : item ∈ update keyOf key change items) :
    item ∈ items ∨ ∃ held ∈ items, item = change held := by
  induction items with
  | nil => cases inside
  | cons held rest ih =>
    rw [update] at inside
    split at inside
    · rcases List.mem_cons.1 inside with rfl | later
      · exact .inr ⟨held, List.mem_cons_self, rfl⟩
      · exact .inl (List.mem_cons_of_mem _ later)
    · rcases List.mem_cons.1 inside with rfl | later
      · exact .inl List.mem_cons_self
      · rcases ih later with old | ⟨other, among, rfl⟩
        · exact .inl (List.mem_cons_of_mem _ old)
        · exact .inr ⟨other, List.mem_cons_of_mem _ among, rfl⟩

theorem map_keyOf_update (key : κ) {change : α → α}
    (same : ∀ item, keyOf (change item) = keyOf item) (items : List α) :
    (update keyOf key change items).map keyOf = items.map keyOf := by
  induction items with
  | nil => rfl
  | cons held rest ih =>
    rw [update]
    split
    · rw [List.map_cons, List.map_cons, same]
    · rw [List.map_cons, List.map_cons, ih]

end

/-- Pairs under their first component. -/
def putPair {β : Type} (key : String) (value : β) (items : List (String × β)) :
    List (String × β) :=
  put Prod.fst (key, value) items

end EdmQuery.Keyed
