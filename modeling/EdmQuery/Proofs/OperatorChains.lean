import EdmQuery.Proofs.FilterText

set_option autoImplicit false

namespace EdmQuery

namespace Node

/-- The operands of an expression from left to right, all but the first behind their operators. -/
def reading : Node → Node × List (BinaryOperator × Node)
  | binary operator left right =>
    (left.reading.1, left.reading.2 ++ (operator, right.reading.1) :: right.reading.2)
  | operand => (operand, [])

/-- The operator that an expression applies last, if there is one, is of a precedence or a tighter
one. -/
def BindsFrom (lowest : Nat) : Node → Prop
  | binary operator _ _ => lowest ≤ operator.precedence
  | _ => True

/-- No operator has a looser one as its left operand, or one that is not tighter as its right. -/
def IsGrouped : Node → Prop
  | binary operator left right =>
    left.IsGrouped ∧ right.IsGrouped ∧ left.BindsFrom operator.precedence ∧
      right.BindsFrom (operator.precedence + 1)
  | _ => True

theorem BindsFrom.mono {node : Node} {lower higher : Nat} (binds : node.BindsFrom higher)
    (above : lower ≤ higher) : node.BindsFrom lower := by
  cases node with
  | binary operator left right => exact Nat.le_trans above binds
  | _ => trivial

/-- In a grouped expression, no operator is looser than the last one. -/
theorem IsGrouped.le_precedence {node : Node} {lowest : Nat} (grouped : node.IsGrouped)
    (binds : node.BindsFrom lowest) : ∀ link ∈ node.reading.2, lowest ≤ link.1.precedence := by
  induction node using reading.induct generalizing lowest with
  | case1 operator left right leftIH rightIH =>
    obtain ⟨leftGrouped, rightGrouped, leftBinds, rightBinds⟩ := grouped
    intro link inside
    simp only [reading, List.mem_append, List.mem_cons] at inside
    rcases inside with before | rfl | behind
    · exact Nat.le_trans binds (leftIH leftGrouped leftBinds link before)
    · exact binds
    · have tighter := rightIH rightGrouped rightBinds link behind
      simp only [BindsFrom] at binds
      omega
  | case2 operand other =>
    intro link inside
    rw [reading] at inside
    · cases inside
    · exact other

/-- A sequence has one last place among the loosest of its operators. -/
theorem split_at_loosest {before behind before' behind' : List (BinaryOperator × Node)}
    {link link' : BinaryOperator × Node}
    (same : before ++ link :: behind = before' ++ link' :: behind')
    (loosest : ∀ other ∈ before, link.1.precedence ≤ other.1.precedence)
    (last : ∀ other ∈ behind, link.1.precedence < other.1.precedence)
    (loosest' : ∀ other ∈ before', link'.1.precedence ≤ other.1.precedence)
    (last' : ∀ other ∈ behind', link'.1.precedence < other.1.precedence) :
    before = before' ∧ link = link' ∧ behind = behind' := by
  rcases List.append_eq_append_iff.1 same with ⟨between, split, split'⟩ | ⟨between, split, split'⟩
  · cases between with
    | nil => simp_all
    | cons first others =>
      -- both places would be loosest, and the second one behind the first
      simp only [List.cons_append, List.cons.injEq] at split'
      obtain ⟨rfl, rfl⟩ := split'
      have looser := loosest' link (by simp [split])
      have tighter := last link' (by simp)
      omega
  · cases between with
    | nil => simp_all
    | cons first others =>
      simp only [List.cons_append, List.cons.injEq] at split'
      obtain ⟨rfl, rfl⟩ := split'
      have looser := loosest link' (by simp [split])
      have tighter := last' link (by simp)
      omega

/-- Operands and operators can be grouped in one way only. -/
theorem IsGrouped.eq_of_reading_eq {node other : Node} (grouped : node.IsGrouped)
    (otherGrouped : other.IsGrouped) (same : node.reading = other.reading) : node = other := by
  induction node using reading.induct generalizing other with
  | case1 operator left right leftIH rightIH =>
    cases other with
    | binary operator' left' right' =>
      obtain ⟨leftGrouped, rightGrouped, leftBinds, rightBinds⟩ := grouped
      obtain ⟨leftGrouped', rightGrouped', leftBinds', rightBinds'⟩ := otherGrouped
      simp only [reading, Prod.mk.injEq] at same
      obtain ⟨beforeSame, linkSame, behindSame⟩ := split_at_loosest same.2
        (leftGrouped.le_precedence leftBinds) (rightGrouped.le_precedence rightBinds)
        (leftGrouped'.le_precedence leftBinds') (rightGrouped'.le_precedence rightBinds')
      simp only [Prod.mk.injEq] at linkSame
      rw [leftIH leftGrouped leftGrouped' (Prod.ext same.1 beforeSame),
        rightIH rightGrouped rightGrouped' (Prod.ext linkSame.2 behindSame), linkSame.1]
    | _ => simp [reading] at same
  | case2 operand leaf =>
    rw [reading] at same
    · cases other with
      | binary operator' left' right' => simp [reading] at same
      | _ => exact congrArg Prod.fst same
    · exact leaf

end Node

namespace Filter

open Parsing Node

/-- An operand that is one word: a name that is no literal and no operator in front of an operand,
or the digits of a number that fits 64 bits. -/
inductive Atom
  | name (word : String) (leading : isLeadingWord word = true)
  | number (digits : List Char) (nonempty : digits ≠ [])
    (digit : ∀ char ∈ digits, isAsciiDigit char = true)
    (fits : IntegerType.int64.contains (digitsValue digits) = true)

namespace Atom

def spell : Atom → List Char
  | name word _ => word.toList
  | number digits _ _ _ => digits

/-- The current instance, one of its properties, or an integer of the smaller type it fits. -/
def node : Atom → Node
  | name word _ => .property (if word = "$it" then .root else ⟨[word]⟩)
  | number digits _ _ fits =>
    if small : IntegerType.int32.contains (digitsValue digits) = true then
      .literal (.integer ⟨.int32, digitsValue digits, small⟩)
    else .literal (.integer ⟨.int64, digitsValue digits, fits⟩)

theorem resolve_node (atom : Atom) : resolve [] atom.node = atom.node := by
  cases atom with
  | name word leading =>
    rw [node]
    split <;> rfl
  | number digits nonempty digit fits =>
    rw [node]
    split <;> rfl

theorem reading_node (atom : Atom) : atom.node.reading = (atom.node, []) := by
  cases atom with
  | name word leading => rfl
  | number digits nonempty digit fits =>
    rw [node]
    split <;> rfl

theorem isGrouped_node (atom : Atom) : atom.node.IsGrouped := by
  cases atom with
  | name word leading => trivial
  | number digits nonempty digit fits =>
    rw [node]
    split <;> trivial

theorem bindsFrom_node (atom : Atom) (lowest : Nat) : atom.node.BindsFrom lowest := by
  cases atom with
  | name word leading => trivial
  | number digits nonempty digit fits =>
    rw [node]
    split <;> trivial

theorem pathOrCall_name {deeper : Option Nested} {word : String}
    (leading : isLeadingWord word = true) {rest : List Char} (delimited : Delimited rest) :
    pathOrCall deeper (word.toList ++ rest) = .ok ((name word leading).node, rest) := by
  have read := name?_append (isName_of_isLeadingWord leading) delimited.stopsAt_namePart
  rw [pathOrCall, read, node]
  by_cases root : word = "$it"
  · simp only [root, if_true]
    exact pathRest_end rest.length .root delimited
  · simp only [root, if_false]
    split
    · rename_i body
      exact absurd rfl (delimited.head_ne (by decide) body)
    · exact pathRest_end rest.length ⟨[word]⟩ delimited

/-- An atom is read as an operand, in front of a delimiter. -/
theorem minus_spell {deeper : Option Nested} (atom : Atom) {rest : List Char}
    (delimited : Delimited rest) : minus deeper (atom.spell ++ rest) = .ok (atom.node, rest) := by
  cases atom with
  | name word leading =>
    rw [spell, minus_of_leading leading delimited.endsWord]
    exact pathOrCall_name leading delimited
  | number digits nonempty digit fits =>
    rw [spell, node]
    split
    · apply minus_of_digits nonempty digit delimited
      simp only [Literal.NumberToken.value?, Primitive.int32?, ofInt?_eq_some ‹_›, Option.some_or]
    · apply minus_of_digits nonempty digit delimited
      simp only [Literal.NumberToken.value?, Primitive.int32?, Primitive.int64?,
        ofInt?_eq_none ‹_›, ofInt?_eq_some fits, Option.none_or, Option.some_or]

theorem keyword?_spell (atom : Atom) {rest : List Char} (delimited : Delimited rest) :
    keyword? "not" (skipGap (atom.spell ++ rest)) = none := by
  cases atom with
  | name word leading => exact keyword?_not_of_leading leading delimited.endsWord
  | number digits nonempty digit fits =>
    obtain ⟨first, others, rfl⟩ := List.exists_cons_of_ne_nil nonempty
    have atFirst := digit first List.mem_cons_self
    apply keyword?_eq_none
    intro found behind read
    rw [spell, List.cons_append, skipGap_cons (isGap_of_digit atFirst),
      name?_eq_none (isNameStart_of_digit atFirst)] at read
    cases read

end Atom

/-- Further operands behind their operators, with blanks around these. -/
def spellLinks : List (BinaryOperator × Atom) → List Char
  | [] => []
  | (operator, atom) :: rest =>
    ' ' :: (operator.keyword.toList ++ ' ' :: (atom.spell ++ spellLinks rest))

theorem delimited_spellLinks (links : List (BinaryOperator × Atom)) :
    Delimited (spellLinks links) := by
  cases links with
  | nil => exact delimited_nil
  | cons link rest => exact delimited_cons (.inl rfl)

theorem length_le_spellLinks (links : List (BinaryOperator × Atom)) :
    links.length ≤ (spellLinks links).length := by
  induction links with
  | nil => simp
  | cons link rest ih =>
    simp only [spellLinks, List.length_cons, List.length_append]
    omega

/-- A chain of operands with operators between them. -/
structure OperatorChain where
  first : Atom
  links : List (BinaryOperator × Atom)

namespace OperatorChain

def render (chain : OperatorChain) : String :=
  String.ofList (chain.first.spell ++ spellLinks chain.links)

/-- The operands as expressions, all but the first behind their operators. -/
def operands (chain : OperatorChain) : Node × List (BinaryOperator × Node) :=
  (chain.first.node, chain.links.map fun link => (link.1, link.2.node))

end OperatorChain

/-- A tree over a chain whose operators are grouped, and none looser than a precedence. -/
structure Groups (lowest : Nat) (chain : OperatorChain) (tree : Node) : Prop where
  reading : tree.reading = chain.operands
  grouped : tree.IsGrouped
  binds : tree.BindsFrom lowest
  resolved : resolve [] tree = tree

theorem groups_atom (lowest : Nat) (atom : Atom) : Groups lowest ⟨atom, []⟩ atom.node where
  reading := atom.reading_node
  grouped := atom.isGrouped_node
  binds := atom.bindsFrom_node lowest
  resolved := atom.resolve_node

/-- An operator over a left operand that is not looser and a right one that is tighter. -/
theorem Groups.binary {operator : BinaryOperator} {first atom : Atom}
    {used taken : List (BinaryOperator × Atom)} {left right : Node}
    (leftGroups : Groups operator.precedence ⟨first, used⟩ left)
    (rightGroups : Groups (operator.precedence + 1) ⟨atom, taken⟩ right) :
    Groups operator.precedence ⟨first, used ++ (operator, atom) :: taken⟩
      (.binary operator left right) where
  reading := by
    simp [Node.reading, leftGroups.reading, rightGroups.reading, OperatorChain.operands]
  grouped := ⟨leftGroups.grouped, rightGroups.grouped, leftGroups.binds, rightGroups.binds⟩
  binds := Nat.le_refl operator.precedence
  resolved := by rw [resolve, leftGroups.resolved, rightGroups.resolved]

theorem Groups.mono {lower higher : Nat} {chain : OperatorChain} {tree : Node}
    (groups : Groups higher chain tree) (above : lower ≤ higher) : Groups lower chain tree where
  reading := groups.reading
  grouped := groups.grouped
  binds := groups.binds.mono above
  resolved := groups.resolved

/-- Links that go on with an operator looser than a precedence, if they go on. -/
def StartsBelow (precedence : Nat) (links : List (BinaryOperator × Atom)) : Prop :=
  ∀ link ∈ links.head?, link.1.precedence < precedence

/-- Chains in which `in` is no operator; what stands to the right of it is not read like other
operands. -/
def AvoidsMembership (links : List (BinaryOperator × Atom)) : Prop :=
  ∀ link ∈ links, link.1 ≠ .isIn

/-- What a parser reads of links, how it groups them together with what was read before, and where
it stops. -/
def ReadsLinks (lowest : Nat) (read : Parse (Node × List Char)) (first : Atom)
    (used links : List (BinaryOperator × Atom)) : Prop :=
  ∃ taken left tree, links = taken ++ left ∧ read = .ok (tree, spellLinks left) ∧
    Groups lowest ⟨first, used ++ taken⟩ tree ∧ StartsBelow lowest left

/-- A parser that reads the operators of chains from a precedence on. -/
def ReadsChains (lowest : Nat) (parser : Parser Node) : Prop :=
  ∀ first links, AvoidsMembership links →
    ReadsLinks lowest (parser (first.spell ++ spellLinks links)) first [] links

theorem operator?_spellLinks {precedence : Nat} {links : List (BinaryOperator × Atom)}
    (below : StartsBelow precedence links) : operator? precedence (spellLinks links) = none := by
  cases links with
  | nil => rfl
  | cons link rest =>
    have looser := below link rfl
    rw [spellLinks, operator?_keyword, if_neg]
    omega

section

variable {precedence : Nat} {operand : BinaryOperator → Parser Node}

/-- The loop over the operators of one precedence gathers them to the left, by induction on how
many it may still read. -/
theorem readsLinks_chain (ignores : ∀ operator, IgnoresGap (operand operator))
    (reads : ∀ operator, operator ≠ .isIn → ReadsChains (precedence + 1) (operand operator))
    (first : Atom) (used links : List (BinaryOperator × Atom)) (tree : Node) (fuel : Nat)
    (avoids : AvoidsMembership links) (groups : Groups precedence ⟨first, used⟩ tree)
    (below : StartsBelow (precedence + 1) links) (enough : links.length ≤ fuel) :
    ReadsLinks precedence (chain precedence operand fuel tree (spellLinks links)) first used
      links := by
  induction fuel generalizing used links tree with
  | zero =>
    obtain rfl := List.eq_nil_of_length_eq_zero (Nat.le_zero.1 enough)
    exact ⟨[], [], tree, rfl, rfl, by simpa using groups, by simp [StartsBelow]⟩
  | succ fuel ih =>
    by_cases stops : StartsBelow precedence links
    · exact ⟨[], links, tree, rfl, chain_of_none (operator?_spellLinks stops) _,
        by simpa using groups, stops⟩
    · cases links with
      | nil => exact absurd (by simp [StartsBelow]) stops
      | cons link links =>
        obtain ⟨operator, atom⟩ := link
        have atLevel : operator.precedence = precedence := by
          have upper := below (operator, atom) rfl
          simp only [StartsBelow, List.head?_cons, Option.mem_def, Option.some.injEq,
            forall_eq', Nat.not_lt] at stops upper
          omega
        subst atLevel
        obtain ⟨taken, left, right, rfl, read, rightGroups, stopsBelow⟩ :=
          reads operator (avoids _ List.mem_cons_self) atom links
            (fun other inside => avoids other (List.mem_cons_of_mem _ inside))
        have both := groups.binary rightGroups
        have shorter : left.length ≤ fuel := by
          simp only [List.length_cons, List.length_append] at enough
          omega
        have avoidsLeft : AvoidsMembership left := fun other inside =>
          avoids other (List.mem_cons_of_mem _ (List.mem_append_right _ inside))
        obtain ⟨more, rest, result, rfl, done, allGroups, allBelow⟩ :=
          ih _ left _ avoidsLeft both stopsBelow shorter
        refine ⟨(operator, atom) :: (taken ++ more), rest, result, by simp, ?_, ?_, allBelow⟩
        · rw [spellLinks, chain, operator?_keyword, if_pos rfl]
          show (operand operator (' ' :: _) >>= _) = _
          rw [(ignores operator).blank, read]
          exact done
        · simpa using allGroups

theorem readsChains_leftAssociative {parser : Parser Node}
    (first : ReadsChains (precedence + 1) parser)
    (ignores : ∀ operator, IgnoresGap (operand operator))
    (further : ∀ operator, operator ≠ .isIn → ReadsChains (precedence + 1) (operand operator)) :
    ReadsChains precedence (leftAssociative precedence parser operand) := by
  intro atom links avoids
  obtain ⟨taken, left, tree, rfl, read, groups, below⟩ := first atom links avoids
  have avoidsLeft : AvoidsMembership left := fun other inside =>
    avoids other (List.mem_append_right _ inside)
  obtain ⟨more, rest, result, rfl, done, allGroups, allBelow⟩ :=
    readsLinks_chain ignores further atom _ left tree _ avoidsLeft (groups.mono (by omega)) below
      (length_le_spellLinks left)
  refine ⟨taken ++ more, rest, result, by simp, ?_, by simpa using allGroups, allBelow⟩
  rw [leftAssociative, read]
  exact done

end

section

variable (deeper : Option Nested)

theorem readsChains_minus : ReadsChains 6 (minus deeper) := by
  intro atom links _
  have tightest : ∀ operator : BinaryOperator, operator.precedence < 6 := by
    intro operator
    cases operator <;> decide
  exact ⟨[], links, atom.node, rfl, atom.minus_spell (delimited_spellLinks links),
    groups_atom 6 atom, fun link _ => tightest link.1⟩

theorem readsChains_sum : ReadsChains 4 (sum deeper) := by
  have product : ReadsChains 5 (product deeper) :=
    readsChains_leftAssociative (readsChains_minus deeper) (fun _ => ignoresGap_minus deeper)
      fun _ _ => readsChains_minus deeper
  exact readsChains_leftAssociative product (fun _ => ignoresGap_product deeper) fun _ _ => product

theorem readsChains_comparison : ReadsChains 3 (comparison deeper) := by
  apply readsChains_leftAssociative (readsChains_sum deeper)
  · intro operator
    split
    · exact ignoresGap_members deeper
    · exact ignoresGap_sum deeper
  · intro operator other
    rw [if_neg other]
    exact readsChains_sum deeper

theorem readsChains_negation : ReadsChains 3 (negation deeper) := by
  intro atom links avoids
  rw [negation, atom.keyword?_spell (delimited_spellLinks links)]
  exact readsChains_comparison deeper atom links avoids

theorem readsChains_expression : ReadsChains 1 (expression deeper) := by
  have conjunctions : ReadsChains 2 (conjunction deeper) :=
    readsChains_leftAssociative (readsChains_negation deeper)
      (fun _ => ignoresGap_negation deeper) fun _ _ => readsChains_negation deeper
  have ignores := ignoresGap_conjunction deeper
  intro atom links avoids
  rw [expression, ignores.leftAssociative]
  exact readsChains_leftAssociative conjunctions (fun _ => ignores) (fun _ _ => conjunctions) atom
    links avoids

end

namespace OperatorChain

/-- A chain is parsed to the one tree over its operands in which the operators are grouped by their
precedence, and from the left where it is the same. -/
theorem ofText_render_grouped (chain : OperatorChain)
    (avoids : ∀ link ∈ chain.links, link.1 ≠ .isIn) :
    ∃ tree, ofText chain.render = .ok tree ∧ tree.reading = chain.operands ∧ tree.IsGrouped ∧
      ∀ other : Node, other.reading = chain.operands → other.IsGrouped → other = tree := by
  obtain ⟨taken, left, tree, split, read, groups, below⟩ :=
    readsChains_expression (nested maxDepth) chain.first chain.links avoids
  -- every operator is at least of the loosest precedence, so nothing is left
  have loosest : ∀ operator : BinaryOperator, 1 ≤ operator.precedence := by
    intro operator
    cases operator <;> decide
  obtain rfl : left = [] := by
    cases left with
    | nil => rfl
    | cons link others =>
      have none := below link rfl
      have some := loosest link.1
      omega
  rw [List.append_nil] at split
  subst split
  refine ⟨tree, ?_, groups.reading, groups.grouped, ?_⟩
  · rw [render, ofText_of_expression read, groups.resolved]
  · intro other reads grouped
    exact grouped.eq_of_reading_eq groups.grouped (reads.trans groups.reading.symm)

theorem ofText_render_grouped_words :
    let chain : OperatorChain := ⟨.name "or" (by decide), [(.or, .name "eq" (by decide)),
      (.subtract, .number ['0', '7'] (by decide) (List.all_eq_true.1 (by decide)) (by decide)),
      (.subtract, .name "$it" (by decide)), (.divideBy, .name "or" (by decide))]⟩
    chain.render = "or or eq sub 07 sub $it divby or" ∧
      (∀ link ∈ chain.links, link.1 ≠ .isIn) ∧
      ∃ tree, ofText chain.render = .ok tree ∧ tree.reading = chain.operands ∧ tree.IsGrouped ∧
        ∀ other : Node, other.reading = chain.operands → other.IsGrouped → other = tree := by
  refine ⟨by decide, by decide, ofText_render_grouped _ (by decide)⟩

end OperatorChain

end Filter

end EdmQuery
