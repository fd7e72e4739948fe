import EdmQuery.Proofs.References

set_option autoImplicit false

namespace EdmQuery

/-- A property without its type. -/
def Property.outline (property : Property) : Property := { property with type := .untyped }

/-- A type without the types of its properties. -/
def ComplexType.outline (type : ComplexType) : ComplexType :=
  { type with properties := type.properties.map Property.outline }

namespace ComplexType

variable {type twin changed : ComplexType}

@[simp]
theorem outline_outline (type : ComplexType) : type.outline.outline = type.outline := by
  simp only [outline, List.map_map]
  rfl

theorem outline_eq_iff : type.outline = twin.outline ↔
    (type.name = twin.name ∧ type.isEntity = twin.isEntity ∧ type.key? = twin.key? ∧
      type.isOpen = twin.isOpen ∧ type.isSealed = twin.isSealed) ∧
    type.properties.map Property.outline = twin.properties.map Property.outline := by
  simp only [outline, mk.injEq, and_assoc]

theorem name_of_outline (same : type.outline = twin.outline) : type.name = twin.name :=
  (outline_eq_iff.1 same).1.1

theorem isEntity_of_outline (same : type.outline = twin.outline) : type.isEntity = twin.isEntity :=
  (outline_eq_iff.1 same).1.2.1

theorem toSealed_of_outline (same : type.outline = twin.outline) :
    type.toSealed.outline = twin.toSealed.outline := by
  obtain ⟨⟨named, entity, key, opens, -⟩, properties⟩ := outline_eq_iff.1 same
  exact outline_eq_iff.2 ⟨⟨named, entity, key, opens, rfl⟩, properties⟩

theorem names_of_outline (same : type.outline = twin.outline) :
    type.properties.map Property.name = twin.properties.map Property.name := by
  have names := congrArg (List.map Property.name) (outline_eq_iff.1 same).2
  rw [List.map_map, List.map_map] at names
  exact names

theorem isSome_property?_of_outline (same : type.outline = twin.outline) (name : String) :
    (type.property? name).isSome = (twin.property? name).isSome := by
  rw [Bool.eq_iff_iff, property?, property?, Keyed.find?_isSome, Keyed.find?_isSome,
    names_of_outline same]

theorem addProperty_eq_ok {property : Property} : type.addProperty property = .ok changed ↔
    type.isSealed = false ∧ property.name ∉ type.properties.map Property.name ∧
      changed = { type with properties := type.properties ++ [property] } := by
  rw [addProperty, ← Keyed.contains_iff]
  by_cases closed : type.isSealed
  · rw [if_pos closed]
    exact ⟨fun done => (by cases done), fun all => absurd (closed.symm.trans all.1) (by decide)⟩
  · rw [if_neg closed]
    by_cases taken : Keyed.contains Property.name property.name type.properties
    · rw [if_pos taken]
      exact ⟨fun done => (by cases done), fun all => absurd taken all.2.1⟩
    · rw [if_neg taken]
      refine ⟨fun done => ?_, fun all => by rw [all.2.2]⟩
      exact ⟨Bool.eq_false_iff.2 closed, taken, (Except.ok.inj done).symm⟩

/-- Properties of the same outline are added to types of the same outline alike. -/
theorem addProperty_of_outline {property other : Property} (same : type.outline = twin.outline)
    (alike : property.outline = other.outline) (done : type.addProperty property = .ok changed) :
    ∃ changedTwin, twin.addProperty other = .ok changedTwin ∧
      changed.outline = changedTwin.outline := by
  obtain ⟨⟨named, entity, key, opens, seals⟩, properties⟩ := outline_eq_iff.1 same
  have sameName : property.name = other.name := by
    have names := congrArg Property.name alike
    exact names
  obtain ⟨unsealed, new, rfl⟩ := addProperty_eq_ok.1 done
  rw [seals] at unsealed
  rw [names_of_outline same, sameName] at new
  refine ⟨_, addProperty_eq_ok.2 ⟨unsealed, new, rfl⟩, outline_eq_iff.2 ⟨?_, ?_⟩⟩
  · exact ⟨named, entity, key, opens, seals⟩
  · rw [List.map_append, List.map_append, properties, List.map_singleton, List.map_singleton, alike]

end ComplexType

theorem TypeReference.exists_resolve {ofName : String → Result ValueType}
    {reference : TypeReference} (known : ∃ named, ofName reference.name = .ok named) :
    ∃ type, reference.resolve ofName = .ok type := by
  induction reference with
  | named name => exact known
  | collection element ih =>
    obtain ⟨type, resolved⟩ := ih known
    exact ⟨.collection type, by rw [resolve, resolved]; rfl⟩

namespace SchemaDocument

variable {document : SchemaDocument} {builder changed : SchemaBuilder}

theorem addCompiled_of_resolves {property : PropertyDocument} {type twin next : ComplexType}
    (known : ∃ named, document.resolveName changed
      (TypeReference.ofText property.typeName).name = .ok named)
    (same : type.outline = twin.outline)
    (done : document.addCompiled builder type property = .ok next) :
    ∃ nextTwin, document.addCompiled changed twin property = .ok nextTwin ∧
      next.outline = nextTwin.outline := by
  obtain ⟨compiled, compiles, adds⟩ := Result.bind_eq_ok done
  obtain ⟨resolved, -, result⟩ := Result.bind_eq_ok compiles
  cases result
  obtain ⟨resolvedToo, resolves⟩ := TypeReference.exists_resolve known
  have compilesToo : document.compileProperty changed property =
      .ok ⟨property.name, resolvedToo, property.isNullable, .declared⟩ := by
    rw [compileProperty, resolves]
    rfl
  rw [addCompiled, compilesToo]
  exact ComplexType.addProperty_of_outline same (by rfl) adds

/-- A type is compiled wherever its names are resolved, to a type of the same outline. -/
theorem compileType_of_resolves {isEntity : Bool} {declared : TypeDocument} {compiled : ComplexType}
    (known : ∀ name ∈ declared.referredNames, ∃ named,
      document.resolveName changed name = .ok named)
    (done : document.compileType builder isEntity declared = .ok compiled) :
    ∃ twin, document.compileType changed isEntity declared = .ok twin ∧
      compiled.outline = twin.outline := by
  obtain ⟨stored, properties, navigations, declares⟩ := compileType_eq_ok.1 done
  have storing : ∀ property ∈ declared.properties, ∀ type twin next : ComplexType,
      type.outline = twin.outline → document.addCompiled builder type property = .ok next →
        ∃ nextTwin, document.addCompiled changed twin property = .ok nextTwin ∧
          next.outline = nextTwin.outline :=
    fun property inside _ _ _ => addCompiled_of_resolves (known _ (List.mem_map_of_mem inside))
  have completing : ∀ property ∈ declared.navigations.map document.compileNavigation,
      ∀ type twin next : ComplexType, type.outline = twin.outline →
        type.addProperty property = .ok next →
          ∃ nextTwin, twin.addProperty property = .ok nextTwin ∧
            next.outline = nextTwin.outline :=
    fun _ _ _ _ _ same => ComplexType.addProperty_of_outline same rfl
  obtain ⟨storedTwin, storedToo, storedSame⟩ := Result.foldlM_related storing rfl properties
  obtain ⟨twin, completedToo, same⟩ := Result.foldlM_related completing storedSame navigations
  refine ⟨twin, compileType_eq_ok.2 ⟨storedTwin, storedToo, completedToo, fun entity => ?_⟩, same⟩
  obtain ⟨key, named, declared⟩ := declares entity
  exact ⟨key, named, (ComplexType.isSome_property?_of_outline same key) ▸ declared⟩

end SchemaDocument

end EdmQuery
