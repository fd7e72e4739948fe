import EdmQuery.Value.Entity

set_option autoImplicit false

namespace EdmQuery

inductive MetadataLevel
  | none
  | minimal
  | full
deriving DecidableEq, Repr, Inhabited

namespace MetadataLevel

def rank : MetadataLevel → Nat
  | none => 0
  | minimal => 1
  | full => 2

/-- Whether entries of a lowest level are written at this one. -/
def includes (level required : MetadataLevel) : Bool := required.rank ≤ level.rank

def render : MetadataLevel → String
  | none => "none"
  | minimal => "minimal"
  | full => "full"

/-- Reads a level in any case of letters. -/
def ofText? (text : String) : Except String MetadataLevel :=
  let lowered := String.ofList (text.toList.map Char.toLower)
  if lowered = "none" then .ok none
  else if lowered = "minimal" then .ok minimal
  else if lowered = "full" then .ok full
  else .error ("Unknown metadata level: " ++ lowered)

theorem includes_mono {lower upper required : MetadataLevel} (le : lower.rank ≤ upper.rank)
    (included : lower.includes required = true) : upper.includes required = true := by
  simp only [includes, decide_eq_true_eq] at included ⊢
  omega

end MetadataLevel

/-- Entries about one subject, the instance itself or a property by name, in the order in which
their keys first came. -/
structure Metadata where
  level : MetadataLevel
  subject : String
  entries : List (String × Json)
deriving Inhabited

namespace Metadata

def empty (level : MetadataLevel) (subject : String) : Metadata := ⟨level, subject, []⟩

/-- Adds control information, if the level includes it. -/
def insert (metadata : Metadata) (word : String) (value : Json) (required : MetadataLevel) :
    Metadata :=
  if metadata.level.includes required then
    { metadata with
      entries := Keyed.putPair (metadata.subject ++ "@odata." ++ word) value metadata.entries }
  else metadata

/-- Adds a custom entry; a leading sign is part of every key and does not count. -/
def insertCustom (metadata : Metadata) (key : String) (value : Json) : Metadata :=
  let bare := match key.toList with
    | '@' :: rest => String.ofList rest
    | _ => key
  { metadata with
    entries := Keyed.putPair (metadata.subject ++ "@" ++ bare) value metadata.entries }

def insertCustoms (metadata : Metadata) (entries : List (String × Json)) : Metadata :=
  entries.foldl (fun collected (key, value) => collected.insertCustom key value) metadata

def get? (metadata : Metadata) (key : String) : Option Json := metadata.entries.lookup key

end Metadata

/-- A type is named unless nothing is known of it. Entities have an identifier, also as
references, and an ETag, unless they are references. -/
def ComplexValue.controlInfo (container : ComplexValue) (level : MetadataLevel) : Metadata :=
  let named :=
    if container.type.isUntyped then Metadata.empty level ""
    else (Metadata.empty level "").insert "type" (.string ("#" ++ container.type.name)) .full
  let identified :=
    if container.type.isEntity then
      let withId := match container.entityId? with
        | some id => named.insert "id" (.string id) (if container.isReference then .none else .minimal)
        | none => named
      if container.isReference then withId
      else withId.insert "etag" (.string container.etag) .minimal
    else named
  identified.insertCustoms container.metadata

/-- A primitive of a type that JSON does not suggest has its type named, earlier so for a property
that was created on demand. -/
def PropertyValue.controlInfo (binding : PropertyValue) (level : MetadataLevel) : Metadata :=
  let named := match binding.value? with
    | some (.primitive value) =>
      if value.type.isJsonNative then Metadata.empty level binding.name
      else (Metadata.empty level binding.name).insert "type"
        (.string ("#" ++ value.type.simpleName))
        (if binding.property.isDynamic then .minimal else .full)
    | _ => Metadata.empty level binding.name
  named.insertCustoms binding.metadata

end EdmQuery
