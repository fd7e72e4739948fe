import EdmQuery.Proofs.Identities
import Mathlib.Data.List.Forall2

set_option autoImplicit false

namespace EdmQuery

section

variable {α β : Type} {relation : α → β → Prop}

theorem forall₂_split {first second : List α} {others : List β}
    (related : List.Forall₂ relation (first ++ second) others) :
    ∃ early late, others = early ++ late ∧ List.Forall₂ relation first early ∧
      List.Forall₂ relation second late := by
  induction first generalizing others with
  | nil => exact ⟨[], others, rfl, .nil, related⟩
  | cons item rest ih =>
    cases related with
    | cons head tail =>
      obtain ⟨early, late, rfl, heads, tails⟩ := ih tail
      exact ⟨_ :: early, late, rfl, .cons head heads, tails⟩

theorem forall₂_comp {γ : Type} {early : α → β → Prop} {late : β → γ → Prop} {whole : α → γ → Prop}
    (composed : ∀ x y z, early x y → late y z → whole x z) {first : List α} {second : List β}
    {third : List γ} (before : List.Forall₂ early first second)
    (after : List.Forall₂ late second third) : List.Forall₂ whole first third := by
  induction before generalizing third with
  | nil =>
    cases after
    exact .nil
  | cons head _ ih =>
    cases after with
    | cons next tail => exact .cons (composed _ _ _ head next) (ih tail)

theorem exists_of_forall₂ {first : List α} {second : List β}
    (related : List.Forall₂ relation first second) {item : β} (inside : item ∈ second) :
    ∃ other ∈ first, relation other item := by
  induction related with
  | nil => cases inside
  | cons head _ ih =>
    rcases List.mem_cons.1 inside with rfl | later
    · exact ⟨_, List.mem_cons_self, head⟩
    · obtain ⟨other, among, related⟩ := ih later
      exact ⟨other, List.mem_cons_of_mem _ among, related⟩

end

namespace Value

mutual

inductive Related (relation : ComplexValue → ComplexValue → Prop) : Value → Value → Prop
  | primitive (value : Primitive) : Related relation (.primitive value) (.primitive value)
  | complex {first second : ComplexValue} (related : relation first second) :
      Related relation (.complex first) (.complex second)
  | collection {first second : List Value} (related : AllRelated relation first second) :
      Related relation (.collection first) (.collection second)

inductive AllRelated (relation : ComplexValue → ComplexValue → Prop) :
    List Value → List Value → Prop
  | nil : AllRelated relation [] []
  | cons {first second : Value} {rest others : List Value} (related : Related relation first second)
      (allRelated : AllRelated relation rest others) :
      AllRelated relation (first :: rest) (second :: others)

end

/-- Null is related to null alone. -/
def OptionRelated (relation : ComplexValue → ComplexValue → Prop) :
    Option Value → Option Value → Prop :=
  Option.Rel (Related relation)

section

variable {first second third : ComplexValue → ComplexValue → Prop}

mutual

theorem Related.refl (reflexive : ∀ container, first container container) (value : Value) :
    Related first value value := by
  cases value with
  | primitive value => exact .primitive value
  | complex value => exact .complex (reflexive value)
  | collection items => exact .collection (AllRelated.refl reflexive items)

theorem AllRelated.refl (reflexive : ∀ container, first container container)
    (items : List Value) : AllRelated first items items := by
  cases items with
  | nil => exact .nil
  | cons item rest => exact .cons (Related.refl reflexive item) (AllRelated.refl reflexive rest)

end

mutual

theorem Related.symm (turned : ∀ x y, first x y → second y x) {u v : Value}
    (related : Related first u v) : Related second v u := by
  cases related with
  | primitive value => exact .primitive value
  | complex related => exact .complex (turned _ _ related)
  | collection related => exact .collection (AllRelated.symm turned related)

theorem AllRelated.symm (turned : ∀ x y, first x y → second y x) {us vs : List Value}
    (related : AllRelated first us vs) : AllRelated second vs us := by
  cases related with
  | nil => exact .nil
  | cons related others => exact .cons (Related.symm turned related) (AllRelated.symm turned others)

end

mutual

theorem Related.comp (composed : ∀ x y z, first x y → second y z → third x z) {u v w : Value}
    (before : Related first u v) (after : Related second v w) : Related third u w := by
  cases before with
  | primitive value =>
    cases after
    exact .primitive value
  | complex before =>
    cases after with
    | complex after => exact .complex (composed _ _ _ before after)
  | collection before =>
    cases after with
    | collection after => exact .collection (AllRelated.comp composed before after)

theorem AllRelated.comp (composed : ∀ x y z, first x y → second y z → third x z)
    {us vs ws : List Value} (before : AllRelated first us vs) (after : AllRelated second vs ws) :
    AllRelated third us ws := by
  cases before with
  | nil =>
    cases after
    exact .nil
  | cons before others =>
    cases after with
    | cons after rest =>
      exact .cons (Related.comp composed before after) (AllRelated.comp composed others rest)

end

theorem Related.imp (implied : ∀ x y, first x y → second x y) {u v : Value}
    (related : Related first u v) : Related second u v := by
  have turned : Related (fun y x => first x y) v u := related.symm fun _ _ held => held
  exact turned.symm fun y x held => implied x y held

theorem AllRelated.imp (implied : ∀ x y, first x y → second x y) {us vs : List Value}
    (related : AllRelated first us vs) : AllRelated second us vs := by
  have turned : AllRelated (fun y x => first x y) vs us := related.symm fun _ _ held => held
  exact turned.symm fun y x held => implied x y held

theorem OptionRelated.symm (turned : ∀ x y, first x y → second y x) {u? v? : Option Value}
    (related : OptionRelated first u? v?) : OptionRelated second v? u? := by
  cases related with
  | some related => exact .some (related.symm turned)
  | none => exact .none

theorem OptionRelated.comp (composed : ∀ x y z, first x y → second y z → third x z)
    {u? v? w? : Option Value} (before : OptionRelated first u? v?)
    (after : OptionRelated second v? w?) : OptionRelated third u? w? := by
  cases before with
  | some before =>
    cases after with
    | some after => exact .some (before.comp composed after)
  | none =>
    cases after
    exact .none

theorem OptionRelated.imp (implied : ∀ x y, first x y → second x y) {u? v? : Option Value}
    (related : OptionRelated first u? v?) : OptionRelated second u? v? := by
  cases related with
  | some related => exact .some (related.imp implied)
  | none => exact .none

end

section

variable (keeps : Property → Bool)

mutual

theorem related_of_erased {u v : Value} (same : u.erased keeps = v.erased keeps) :
    Related (fun x y => x.erased keeps = y.erased keeps) u v := by
  cases u with
  | primitive value =>
    cases v with
    | primitive other =>
      cases same
      exact .primitive value
    | _ => cases same
  | complex value =>
    cases v with
    | complex other => exact .complex (Value.complex.inj same)
    | _ => cases same
  | collection items =>
    cases v with
    | collection others => exact .collection (allRelated_of_erased (Value.collection.inj same))
    | _ => cases same

theorem allRelated_of_erased {us vs : List Value}
    (same : erasedItems keeps us = erasedItems keeps vs) :
    AllRelated (fun x y => x.erased keeps = y.erased keeps) us vs := by
  cases us with
  | nil =>
    cases vs with
    | nil => exact .nil
    | cons other others => cases same
  | cons item rest =>
    cases vs with
    | nil => cases same
    | cons other others =>
      obtain ⟨first, later⟩ := List.cons.inj same
      exact .cons (related_of_erased first) (allRelated_of_erased later)

end

mutual

theorem Related.erased_eq {u v : Value}
    (related : Related (fun x y => x.erased keeps = y.erased keeps) u v) :
    u.erased keeps = v.erased keeps := by
  cases related with
  | primitive value => rfl
  | complex same => exact congrArg Value.complex same
  | collection related => exact congrArg Value.collection (AllRelated.erased_eq related)

theorem AllRelated.erased_eq {us vs : List Value}
    (related : AllRelated (fun x y => x.erased keeps = y.erased keeps) us vs) :
    erasedItems keeps us = erasedItems keeps vs := by
  cases related with
  | nil => rfl
  | cons related others =>
    rw [erasedItems, erasedItems, Related.erased_eq related, AllRelated.erased_eq others]

end

theorem OptionRelated.erased_eq {keeps : Property → Bool} {u? v? : Option Value}
    (related : OptionRelated (fun x y => x.erased keeps = y.erased keeps) u? v?) :
    u?.map (Value.erased keeps) = v?.map (Value.erased keeps) := by
  cases related with
  | some related => exact congrArg some (related.erased_eq keeps)
  | none => rfl

end

end Value

/-- Two containers that differ in identities at most. -/
def ComplexValue.Twins (first second : ComplexValue) : Prop := first.anonymous = second.anonymous

theorem Value.optionRelated_of_anonymous {u? v? : Option Value}
    (same : u?.map Value.anonymous = v?.map Value.anonymous) :
    Value.OptionRelated ComplexValue.Twins u? v? := by
  cases u? with
  | none =>
    cases v? with
    | none => exact .none
    | some value => cases same
  | some value =>
    cases v? with
    | none => cases same
    | some other => exact .some (Value.related_of_erased _ (Option.some.inj same))

section

variable {relation : ComplexValue → ComplexValue → Prop} {edit : Edit ComplexValue}

mutual

theorem Value.related_of_editContainers
    (edited : ∀ before after supply rest, edit before supply = ((after, .ok ()), rest) →
      relation before after) {value changed : Value} {supply rest : Supply}
    (done : value.editContainers edit supply = ((changed, .ok ()), rest)) :
    Value.Related relation value changed := by
  cases value with
  | primitive value =>
    cases done
    exact .primitive value
  | complex value =>
    rcases ran : edit value supply with ⟨⟨after, outcome⟩, left⟩
    have whole : (Value.complex value).editContainers edit supply =
        ((.complex (edit value supply).1.1, (edit value supply).1.2), (edit value supply).2) := rfl
    rw [whole, ran] at done
    cases done
    exact .complex (edited _ _ _ _ ran)
  | collection items =>
    rcases ran : Value.editItems edit items supply with ⟨⟨after, outcome⟩, left⟩
    have whole : (Value.collection items).editContainers edit supply =
        ((.collection (Value.editItems edit items supply).1.1,
          (Value.editItems edit items supply).1.2), (Value.editItems edit items supply).2) := rfl
    rw [whole, ran] at done
    cases done
    exact .collection (Value.allRelated_of_editItems edited ran)

theorem Value.allRelated_of_editItems
    (edited : ∀ before after supply rest, edit before supply = ((after, .ok ()), rest) →
      relation before after) {items changed : List Value} {supply rest : Supply}
    (done : Value.editItems edit items supply = ((changed, .ok ()), rest)) :
    Value.AllRelated relation items changed := by
  cases items with
  | nil =>
    cases done
    exact .nil
  | cons item others =>
    rcases first : item.editContainers edit supply with ⟨⟨after, outcome⟩, left⟩
    cases outcome with
    | error error =>
      simp only [Value.editItems, bind, StateT.bind, first] at done
      cases done
    | ok _ =>
      rcases later : Value.editItems edit others left with ⟨⟨remaining, outcome⟩, final⟩
      simp only [Value.editItems, bind, StateT.bind, first, later] at done
      cases done
      exact .cons (Value.related_of_editContainers edited first)
        (Value.allRelated_of_editItems edited later)

end

end

theorem Edit.forall₂_of_each {α : Type} {relation : α → α → Prop} {edit : Edit α}
    (edited : ∀ before after supply rest, edit before supply = ((after, .ok ()), rest) →
      relation before after) {items changed : List α} {supply rest : Supply}
    (done : Edit.each edit items supply = ((changed, .ok ()), rest)) :
    List.Forall₂ relation items changed := by
  induction items generalizing changed supply rest with
  | nil =>
    cases done
    exact .nil
  | cons item others ih =>
    rcases first : edit item supply with ⟨⟨after, outcome⟩, left⟩
    cases outcome with
    | error error =>
      simp only [Edit.each, bind, StateT.bind, first] at done
      cases done
    | ok _ =>
      rcases later : Edit.each edit others left with ⟨⟨remaining, outcome⟩, final⟩
      simp only [Edit.each, bind, StateT.bind, first, later] at done
      cases done
      exact .cons (edited _ _ _ _ first) (ih later)

/-- An edit of the bindings changes nothing else. -/
theorem ComplexValue.parts_of_editBindings {relation : PropertyValue → PropertyValue → Prop}
    {edit : Edit PropertyValue} {before after : ComplexValue} {supply rest : Supply}
    (edited : ∀ before after supply rest, edit before supply = ((after, .ok ()), rest) →
      relation before after)
    (done : editBindings edit before supply = ((after, .ok ()), rest)) :
    ∃ bindings, after = { before with bindings := bindings } ∧
      List.Forall₂ relation before.bindings bindings := by
  rcases ran : Edit.each edit before.bindings supply with ⟨⟨bindings, outcome⟩, middle⟩
  simp only [editBindings, Bind.bind, StateT.bind, ran] at done
  cases done
  exact ⟨bindings, rfl, Edit.forall₂_of_each edited ran⟩

end EdmQuery
