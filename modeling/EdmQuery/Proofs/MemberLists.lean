import EdmQuery.Proofs.FollowedText

set_option autoImplicit false

namespace EdmQuery

namespace Filter

open Parsing

section

variable {deeper : Option Nested} {text rest : List Char} {path : PropertyPath}

/-- Only operators make a tree of more than one operand. -/
theorem eq_ok_of_leftAssociative {precedence : Nat} {first : Parser Node}
    {operand : BinaryOperator → Parser Node}
    (read : leftAssociative precedence first operand text = .ok (.property path, rest)) :
    first text = .ok (.property path, rest) := by
  obtain ⟨⟨left, later⟩, begun, read⟩ := Parse.bind_eq_ok read
  rcases chain_eq_or_binary read with ⟨same, rfl⟩ | ⟨operator, first, second, same⟩
  · rw [same]
    exact begun
  · cases same

/-- A path could be an operand of any operator. -/
theorem sum_of_expression (read : expression deeper text = .ok (.property path, rest)) :
    keyword? "not" (skipGap text) = none ∧ sum deeper text = .ok (.property path, rest) := by
  have compared : negation deeper (skipGap text) = .ok (.property path, rest) :=
    eq_ok_of_leftAssociative (eq_ok_of_leftAssociative read)
  rw [ignoresGap_negation, negation] at compared
  split at compared
  · obtain ⟨inner, -, compared⟩ := Parse.bind_eq_ok compared
    obtain ⟨operand, -, compared⟩ := Parse.bind_eq_ok compared
    cases compared
  · rename_i unprefixed
    exact ⟨unprefixed, eq_ok_of_leftAssociative compared⟩

end

/-- What stands in front of `in` and reaches up to it is its left operand. -/
theorem expression_in {levels : Nat} {text rest behind : List Char} {left right : Node}
    (unprefixed : keyword? "not" (skipGap text) = none)
    (first : sum (nested levels) text = .ok (left, rest)) (blank : skipGap rest = [])
    (second : members (nested levels) behind = .ok (right, [])) :
    expression (nested levels)
        (text ++ ' ' :: (BinaryOperator.isIn.keyword.toList ++ ' ' :: behind)) =
      .ok (.binary .isIn left right, []) := by
  have ends : Ends 4 (' ' :: (BinaryOperator.isIn.keyword.toList ++ ' ' :: behind)) :=
    ends_operator (by decide) behind
  have found := operator?_keyword .isIn 3 behind
  have delimited := delimited_blank (BinaryOperator.isIn.keyword.toList ++ ' ' :: behind)
  generalize ' ' :: (BinaryOperator.isIn.keyword.toList ++ ' ' :: behind) = tail at *
  have within := nested_persists delimited (Nat.le_refl levels)
  have solid := solid_of_read (ignoresGap_sum (nested levels)) rfl first
  have firstAgain := persists_sum delimited within text left rest first fun _ => ends
  have foundBehind : operator? 3 (rest ++ tail) = some (.isIn, ' ' :: behind) := by
    rw [operator?, skipGap_blank_before blank]
    exact found
  have secondAgain : members (nested levels) (' ' :: behind) = .ok (right, []) := by
    rw [(ignoresGap_members (nested levels)).blank]
    exact second
  have both : comparison (nested levels) (text ++ tail) = .ok (.binary .isIn left right, []) :=
    leftAssociative_of_some firstAgain foundBehind secondAgain (ends_nil 3 3 (Nat.le_refl 3))
  apply expression_of_comparison both _ (ends_nil 1)
  rw [skipGap_before solid, keyword?_before delimited, unprefixed]
  rfl

theorem resolve_eq_property {node : Node} {path : PropertyPath}
    (same : resolve [] node = .property path) : node = .property path := by
  cases node with
  | property other =>
    unfold resolve at same
    split at same
    · exact same
    · exact same
  | _ => cases same

theorem resolve_property (path : PropertyPath) :
    resolve [] (.property path) = .property path := by
  unfold resolve
  split <;> rfl

/-- Whether a text is an expression with a number of levels of nesting allowed. -/
def NestsWithin (levels : Nat) (text : String) : Prop :=
  ∃ node rest, expression (nested levels) text.toList = .ok (node, rest) ∧ skipGap rest = []

/-- An item of a list: an expression that may stand one level below the outermost one and is no list
itself. -/
structure Item where
  text : String
  tree : Node
  accepted : ofText text = .ok tree
  shallow : NestsWithin (maxDepth - 1) text
  single : tree.isList = false

theorem expression_render (levels : Nat) {node : Node} (printable : node.isPrintable [] = true)
    (deep : node.nesting ≤ levels) :
    expression (nested levels) node.render.toList = .ok (node.unresolved, []) := by
  have back := readsBack_of_isPrintable [] (fun name inside => by cases inside) levels node
    printable deep
  have read := back.expression delimited_nil (ends_nil 1)
  rwa [List.append_nil, ← String.toList_ofList (l := node.spell)] at read

namespace Item

/-- An expression that is read back from its canonical text. -/
def ofPrintable (node : Node) (printable : node.isPrintable [] = true)
    (deep : node.nesting ≤ maxDepth - 1) (single : node.isList = false) : Item where
  text := node.render
  tree := node
  accepted := by
    have read := expression_render maxDepth printable (Nat.le_trans deep (Nat.sub_le maxDepth 1))
    have parsed := ofText_of_expression read
    rwa [String.ofList_toList, Node.resolve_unresolved [] node printable] at parsed
  shallow := ⟨node.unresolved, [], expression_render (maxDepth - 1) printable deep, rfl⟩
  single := single

/-- An item is read in parentheses up to the comma or the parenthesis behind it. -/
theorem expression_eq (item : Item) :
    ∃ node, item.tree = resolve [] node ∧ ∀ char tail, char = ',' ∨ char = ')' → ∃ rest,
      expression (nested (maxDepth - 1)) (item.text.toList ++ char :: tail) = .ok (node, rest) ∧
        skipGap rest = char :: tail := by
  obtain ⟨node, rest, read, blank⟩ := item.shallow
  have below := nested_persists delimited_nil (Nat.sub_le maxDepth 1)
  obtain ⟨unresolved, left, whole, -, same⟩ := ofText_eq_ok item.accepted
  -- with one level more the same tree is read
  have again := persists_expression delimited_nil below _ node rest read fun _ => ends_nil 1
  rw [List.append_nil, ← topExpression, whole] at again
  obtain rfl : unresolved = node := by
    cases again
    rfl
  refine ⟨unresolved, same, ?_⟩
  intro char tail mark
  have delimited : Delimited (char :: tail) := delimited_cons (.inr mark.symm)
  have solid : isGap char = false := by
    rcases mark with rfl | rfl <;> decide
  have noName : isNameStart char = false := by
    rcases mark with rfl | rfl <;> decide
  have within := nested_persists delimited (Nat.le_refl (maxDepth - 1))
  have followed := persists_expression delimited within _ unresolved rest read fun _ =>
    ends_cons solid noName 1 tail
  refine ⟨rest ++ char :: tail, followed, ?_⟩
  rw [skipGap_blank_before blank, skipGap_cons solid]

/-- Further items, each behind a comma, and the closing parenthesis. -/
def spellMore (items : List Item) : List Char :=
  items.flatMap (fun item => ',' :: item.text.toList) ++ [')']

theorem spellMore_cons (item : Item) (others : List Item) :
    spellMore (item :: others) = ',' :: (item.text.toList ++ spellMore others) := by
  simp [spellMore]

theorem spellMore_eq (items : List Item) :
    ∃ char tail, (char = ',' ∨ char = ')') ∧ spellMore items = char :: tail := by
  cases items with
  | nil => exact ⟨')', [], .inr rfl, rfl⟩
  | cons item others => exact ⟨',', _, .inl rfl, spellMore_cons item others⟩

theorem length_le_spellMore (items : List Item) : items.length ≤ (spellMore items).length := by
  induction items with
  | nil => exact Nat.zero_le _
  | cons item others ih =>
    rw [spellMore_cons, List.length_cons, List.length_cons, List.length_append]
    omega

theorem moreItems_spellMore (items : List Item) (fuel : Nat) (enough : items.length ≤ fuel) :
    ∃ nodes, items.map tree = nodes.map (resolve []) ∧
      moreItems (expression (nested (maxDepth - 1))) fuel (spellMore items) =
        .ok (nodes, [')']) := by
  induction items generalizing fuel with
  | nil =>
    refine ⟨[], rfl, ?_⟩
    cases fuel <;> rfl
  | cons item others ih =>
    cases fuel with
    | zero => cases enough
    | succ fuel =>
      obtain ⟨node, same, reads⟩ := item.expression_eq
      obtain ⟨nodes, sameOthers, later⟩ := ih fuel (Nat.le_of_succ_le_succ enough)
      obtain ⟨char, tail, mark, spelled⟩ := spellMore_eq others
      obtain ⟨rest, read, left⟩ := reads char tail mark
      refine ⟨node :: nodes, by rw [List.map_cons, List.map_cons, same, sameOthers], ?_⟩
      rw [← spelled] at read left
      simp only [spellMore_cons, moreItems, read, bind_ok, left, later]
      rfl

/-- A single item in parentheses is read as a group. -/
theorem group_single (item : Item) : ∃ node, item.tree = resolve [] node ∧
    group (nested maxDepth) (item.text.toList ++ spellMore []) = .ok (node, []) := by
  obtain ⟨node, same, reads⟩ := item.expression_eq
  obtain ⟨rest, read, left⟩ := reads ')' [] (.inr rfl)
  have entered : group (nested maxDepth) = group (nested (maxDepth - 1 + 1)) := rfl
  refine ⟨node, same, ?_⟩
  rw [entered, group_succ, spellMore, List.flatMap_nil, List.nil_append, read]
  simp only [bind_ok, left]
  rfl

/-- Several items in parentheses are read as a list. -/
theorem group_several (first second : Item) (others : List Item) : ∃ nodes,
    (first :: second :: others).map tree = nodes.map (resolve []) ∧
      group (nested maxDepth) (first.text.toList ++ spellMore (second :: others)) =
        .ok (.list nodes, []) := by
  obtain ⟨node, same, reads⟩ := first.expression_eq
  obtain ⟨nodes, sameOthers, later⟩ :=
    moreItems_spellMore (second :: others) _ (length_le_spellMore (second :: others))
  obtain ⟨rest, read, left⟩ := reads ',' (second.text.toList ++ spellMore others) (.inl rfl)
  have entered : group (nested maxDepth) = group (nested (maxDepth - 1 + 1)) := rfl
  refine ⟨node :: nodes, by rw [List.map_cons, sameOthers, same, List.map_cons], ?_⟩
  rw [← spellMore_cons] at read left
  rw [entered, group_succ, read]
  simp only [bind_ok, left]
  split
  · rename_i behind closed
    rw [spellMore_cons] at closed
    cases closed
  · rw [later]
    rfl

end Item

/-- The right operand that `in` gets for items in parentheses. -/
def membersOf : List Node → Node
  | [.property path] => .property path
  | items => .list items

theorem membersOf_eq_list_iff (items : List Node) :
    membersOf items = .list items ↔ ∀ path, items ≠ [.property path] := by
  constructor
  · rintro same path rfl
    cases same
  · intro other
    unfold membersOf
    split
    · rename_i path
      exact absurd rfl (other path)
    · rfl

/-- Items in parentheses are read as the members to look among. -/
theorem members_spellMore (item : Item) (others : List Item) :
    ∃ node, resolve [] node = membersOf ((item :: others).map Item.tree) ∧
      members (nested maxDepth) ('(' :: (item.text.toList ++ Item.spellMore others)) =
        .ok (node, []) := by
  cases others with
  | nil =>
    obtain ⟨node, same, read⟩ := item.group_single
    have single := item.single
    rw [members, primary_open, read, List.map_singleton, same]
    rw [same] at single
    cases node with
    | list items => cases single
    | property path =>
      refine ⟨.property path, ?_, rfl⟩
      rw [resolve_property]
      rfl
    | _ => exact ⟨_, rfl, rfl⟩
  | cons second others =>
    obtain ⟨nodes, same, read⟩ := item.group_several second others
    refine ⟨.list nodes, ?_, ?_⟩
    · rw [resolve, resolveAll_eq_map, ← same]
      apply ((membersOf_eq_list_iff _).2 _).symm
      intro path one
      exact absurd (congrArg List.length one) (by simp)
    · rw [members, primary_open, read]
      rfl

/-- The text of an `in` with items in parentheses behind it. -/
def membershipText (left : String) (items : List Item) : String :=
  left ++ " in (" ++ ",".intercalate (items.map Item.text) ++ ")"

theorem toList_membershipText (left : String) (item : Item) (others : List Item) :
    (membershipText left (item :: others)).toList = left.toList ++ ' ' ::
      (BinaryOperator.isIn.keyword.toList ++ ' ' :: '(' ::
        (item.text.toList ++ Item.spellMore others)) := by
  have joined : [','].intercalate ((item :: others).map fun item => item.text.toList) ++ [')'] =
      item.text.toList ++ Item.spellMore others := by
    induction others generalizing item with
    | nil => simp [Item.spellMore]
    | cons second others ih =>
      rw [Item.spellMore_cons, ← ih second, List.map_cons, List.map_cons,
        List.intercalate_cons_cons]
      simp
  rw [← joined]
  simp [membershipText, BinaryOperator.keyword, Function.comp_def]

/-- A path is compared with the items in parentheses behind it. They are the list that `in` looks
through if and only if they are not a single path. -/
theorem ofText_membershipText {left : String} {path : PropertyPath} {items : List Item}
    (accepted : ofText left = .ok (.property path)) (nonempty : items ≠ []) :
    ofText (membershipText left items) =
        .ok (.binary .isIn (.property path) (membersOf (items.map Item.tree))) ∧
      (ofText (membershipText left items) =
          .ok (.binary .isIn (.property path) (.list (items.map Item.tree))) ↔
        ∀ path, items.map Item.tree ≠ [.property path]) := by
  obtain ⟨item, others, rfl⟩ := List.exists_cons_of_ne_nil nonempty
  obtain ⟨unresolved, rest, whole, blank, same⟩ := ofText_eq_ok accepted
  obtain rfl := resolve_eq_property same.symm
  obtain ⟨unprefixed, operand⟩ := sum_of_expression whole
  obtain ⟨node, resolved, looked⟩ := members_spellMore item others
  have read := expression_in unprefixed operand blank looked
  rw [← toList_membershipText] at read
  have parsed := ofText_of_expression read
  rw [String.ofList_toList, resolve, resolve_property, resolved] at parsed
  refine ⟨parsed, ?_⟩
  rw [parsed, ← membersOf_eq_list_iff]
  constructor
  · intro same
    injection same with same
    injection same
  · intro same
    rw [same]

/-- One text in parentheses is a list, and so are a text and a condition. -/
theorem ofText_membershipText_printable :
    let quoted : Item :=
      .ofPrintable (.literal (.string "O'Hare, (ORD)")) (by decide) (by decide) (by decide)
    let either : Item := .ofPrintable (.binary .or (.property ⟨["in"]⟩) (.unary .not .null))
      (by decide) (by decide) (by decide)
    ofText "( origin/code)" = .ok (.property ⟨["origin", "code"]⟩) ∧ [quoted] ≠ [] ∧
      [quoted, either] ≠ [] ∧
      membershipText "( origin/code)" [quoted] = "( origin/code) in ('O''Hare, (ORD)')" ∧
      ofText "( origin/code) in ('O''Hare, (ORD)')" =
        .ok (.binary .isIn (.property ⟨["origin", "code"]⟩)
          (.list [.literal (.string "O'Hare, (ORD)")])) ∧
      membershipText "( origin/code)" [quoted, either] =
        "( origin/code) in ('O''Hare, (ORD)',(in or not null))" ∧
      ofText "( origin/code) in ('O''Hare, (ORD)',(in or not null))" =
        .ok (.binary .isIn (.property ⟨["origin", "code"]⟩) (.list
          [.literal (.string "O'Hare, (ORD)"),
            .binary .or (.property ⟨["in"]⟩) (.unary .not .null)])) := by
  intro quoted either
  have accepted : ofText "( origin/code)" = .ok (.property ⟨["origin", "code"]⟩) := by rfl
  have some : [quoted] ≠ [] := List.cons_ne_nil _ _
  have several : [quoted, either] ≠ [] := List.cons_ne_nil _ _
  have spelled : membershipText "( origin/code)" [quoted] =
      "( origin/code) in ('O''Hare, (ORD)')" := by rfl
  have spelledBoth : membershipText "( origin/code)" [quoted, either] =
      "( origin/code) in ('O''Hare, (ORD)',(in or not null))" := by rfl
  have single := (ofText_membershipText accepted some).2.2 fun _ same => by cases same
  have both := (ofText_membershipText accepted several).2.2 fun _ same => by cases same
  rw [spelled] at single
  rw [spelledBoth] at both
  exact ⟨accepted, some, several, spelled, single, spelledBoth, both⟩

/-- The path in the parentheses is not the one member, but the collection of the members. -/
theorem ofText_in_path :
    ofText "origin" = .ok (.property ⟨["origin"]⟩) ∧
      ofText "destination" = .ok (.property ⟨["destination"]⟩) ∧
      NestsWithin (maxDepth - 1) "destination" ∧
      ofText "origin in (destination)" =
        .ok (.binary .isIn (.property ⟨["origin"]⟩) (.property ⟨["destination"]⟩)) ∧
      ofText "origin in (destination)" ≠
        .ok (.binary .isIn (.property ⟨["origin"]⟩) (.list [.property ⟨["destination"]⟩])) := by
  have read : ofText "origin in (destination)" =
      .ok (.binary .isIn (.property ⟨["origin"]⟩) (.property ⟨["destination"]⟩)) := by rfl
  refine ⟨by rfl, by rfl, ⟨.property ⟨["destination"]⟩, [], by rfl, rfl⟩, read, ?_⟩
  rw [read]
  intro same
  injection same with same
  injection same with _ _ same
  cases same

end Filter

end EdmQuery
