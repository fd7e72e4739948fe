import EdmQuery.Emission.Preparation

set_option autoImplicit false

namespace EdmQuery

mutual

def Value.tree (level : MetadataLevel) (context : RequestContext) : Value → Json
  | .primitive value => value.toJson
  | .complex value => value.tree level context
  | .collection items => .array (Value.itemTrees level context items)

def Value.itemTrees (level : MetadataLevel) (context : RequestContext) : List Value → List Json
  | [] => []
  | item :: rest => item.tree level context :: Value.itemTrees level context rest

def Value.optionTree (level : MetadataLevel) (context : RequestContext) : Option Value → Json
  | none => .null
  | some value => value.tree level context

/-- The control information of the instance, and the members of an instance that is no reference. -/
def ComplexValue.tree (level : MetadataLevel) (context : RequestContext) : ComplexValue → Json
  | ⟨id, type, bindings, parent?, entitySet?, isReference, metadata⟩ =>
    let container : ComplexValue :=
      ⟨id, type, bindings, parent?, entitySet?, isReference, metadata⟩
    .object ((container.controlInfo level).entries ++
      if isReference then [] else ComplexValue.memberTrees level context bindings)

/-- Each binding that the request asks for, with the control information of its property behind
it. Related entities stand under the options of their own. -/
def ComplexValue.memberTrees (level : MetadataLevel) (context : RequestContext) :
    List PropertyValue → Json.Members
  | [] => []
  | ⟨property, value?, owner?, metadata⟩ :: rest =>
    let others := ComplexValue.memberTrees level context rest
    if context.writes property then
      let binding : PropertyValue := ⟨property, value?, owner?, metadata⟩
      (property.name, Value.optionTree level (context.optionsFor property) value?) ::
        ((binding.controlInfo level).entries ++ others)
    else others

end

namespace Json

def memberText (member : String × Json) : String := quote member.1 ++ ":" ++ compact member.2

theorem compactItems_eq (item : Json) (rest : List Json) :
    compact item ++ compactItems rest = ",".intercalate ((item :: rest).map compact) ++ "]" := by
  induction rest generalizing item with
  | nil => rw [compactItems, List.map_cons, List.map_nil, String.intercalate_singleton]
  | cons next rest ih =>
    have later := ih next
    rw [List.map_cons] at later ⊢
    simp only [compactItems, List.map_cons, String.intercalate_cons_cons, String.append_assoc,
      later]

theorem compact_array (items : List Json) :
    compact (array items) = "[" ++ ",".intercalate (items.map compact) ++ "]" := by
  cases items with
  | nil => rw [compact, List.map_nil, String.intercalate_nil]; rfl
  | cons item rest => rw [compact, String.append_assoc, compactItems_eq, String.append_assoc]

theorem compactMembers_eq (member : String × Json) (rest : Members) :
    memberText member ++ compactMembers rest =
      ",".intercalate ((member :: rest).map memberText) ++ "\x7d" := by
  induction rest generalizing member with
  | nil => rw [compactMembers, List.map_cons, List.map_nil, String.intercalate_singleton]
  | cons next rest ih =>
    have later := ih next
    simp only [memberText, List.map_cons, String.append_assoc] at later ⊢
    simp only [compactMembers, String.intercalate_cons_cons, String.append_assoc, later]

theorem compact_object (members : Members) :
    compact (object members) = "\x7b" ++ ",".intercalate (members.map memberText) ++ "\x7d" := by
  cases members with
  | nil => rw [compact, List.map_nil, String.intercalate_nil]; rfl
  | cons member rest =>
    have later := compactMembers_eq member rest
    rw [String.append_assoc, ← later]
    simp only [compact, memberText, String.append_assoc]

end Json

namespace Output

/-- The output with a text behind what was written before. -/
def append (output : Output) (text : String) : Output :=
  { output with
    text := output.text ++ text
    written := output.written + text.utf8ByteSize }

theorem append_append (output : Output) (first second : String) :
    (output.append first).append second = output.append (first ++ second) := by
  simp only [append, String.append_assoc, String.utf8ByteSize_append, Nat.add_assoc]

/-- Texts are appended as a whole to an output without a limit. -/
theorem writeAll_of_unlimited (texts : List String) {output : Output}
    (unlimited : output.limit? = none) :
    output.writeAll texts = (output.append (String.join texts), .ok ()) := by
  induction texts generalizing output with
  | nil =>
    simp only [writeAll, append, String.join_nil, String.append_empty]
    rfl
  | cons text rest ih =>
    have accepted : output.accepts text = true := by
      rw [accepts, unlimited]
      rfl
    have written : output.write text = (output.append text, .ok ()) := if_pos accepted
    have stays : (output.append text).limit? = none := unlimited
    simp only [writeAll, written, ih stays, append_append, String.join_cons]

theorem writeTokens_of_unlimited (layout : Layout) (tokens : List Token) {output : Output}
    (unlimited : output.limit? = none) :
    output.writeTokens layout tokens =
      (output.append (String.join (layout.run tokens).2), .ok ()) :=
  writeAll_of_unlimited _ unlimited

end Output

end EdmQuery
