import Mathlib.Data.List.Induction
import EdmQuery.Evaluation.StandardFunctions
import EdmQuery.Proofs.Contexts
import EdmQuery.Proofs.SortKeys

set_option autoImplicit false

namespace EdmQuery.Selection

section StableSort

variable {α β : Type} {order : α → α → Ordering} {precedes other : α → α → Bool}

theorem stableSort_concat (items : List α) (item : α) :
    stableSort precedes (items ++ [item]) =
      (insertReversed precedes item (stableSort precedes items).reverse).reverse := by
  rw [stableSort, stableSort, List.foldl_append, List.reverse_reverse]
  rfl

theorem insertReversed_perm (item : α) (sorted : List α) :
    (insertReversed precedes item sorted).Perm (item :: sorted) := by
  induction sorted with
  | nil => exact .refl _
  | cons last others ih =>
    rw [insertReversed]
    split
    · exact (ih.cons last).trans (.swap ..)
    · exact .refl _

theorem stableSort_perm (items : List α) : (stableSort precedes items).Perm items := by
  induction items using List.reverseRecOn with
  | nil => exact .refl _
  | append_singleton items item ih =>
    rw [stableSort_concat]
    refine (List.reverse_perm _).trans ((insertReversed_perm item _).trans ?_)
    exact (((List.reverse_perm _).trans ih).cons item).trans (List.perm_append_singleton ..).symm

theorem insertReversed_congr {item : α} {sorted : List α}
    (agree : ∀ last ∈ sorted, precedes item last = other item last) :
    insertReversed precedes item sorted = insertReversed other item sorted := by
  induction sorted with
  | nil => rfl
  | cons last others ih =>
    rw [insertReversed, insertReversed, agree last List.mem_cons_self,
      ih fun next inside => agree next (List.mem_cons_of_mem _ inside)]

theorem stableSort_congr {items : List α}
    (agree : ∀ x ∈ items, ∀ y ∈ items, precedes x y = other x y) :
    stableSort precedes items = stableSort other items := by
  induction items using List.reverseRecOn with
  | nil => rfl
  | append_singleton items item ih =>
    have earlier : ∀ x ∈ items, x ∈ items ++ [item] := fun x => List.mem_append_left _
    rw [stableSort_concat, stableSort_concat,
      ih fun x inside y among => agree x (earlier x inside) y (earlier y among)]
    congr 1
    refine insertReversed_congr fun last inside => agree _ (by simp) _ (earlier last ?_)
    exact (stableSort_perm items).mem_iff.1 (List.mem_reverse.1 inside)

theorem insertReversed_map (f : β → α) (item : β) (sorted : List β) :
    insertReversed precedes (f item) (sorted.map f) =
      (insertReversed (fun x y => precedes (f x) (f y)) item sorted).map f := by
  induction sorted with
  | nil => rfl
  | cons last others ih =>
    rw [List.map_cons, insertReversed, insertReversed, ih]
    split <;> rfl

theorem stableSort_map (f : β → α) (items : List β) :
    stableSort precedes (items.map f) =
      (stableSort (fun x y => precedes (f x) (f y)) items).map f := by
  induction items using List.reverseRecOn with
  | nil => rfl
  | append_singleton items item ih =>
    rw [List.map_append, List.map_singleton, stableSort_concat, stableSort_concat, ih,
      ← List.map_reverse, insertReversed_map, List.map_reverse]

theorem insertReversed_sorted [Std.TransCmp order] {item : α} {sorted : List α}
    (descending : sorted.Pairwise fun later earlier => (order earlier later).isLE) :
    (insertReversed (fun x y => order x y == .lt) item sorted).Pairwise
      fun later earlier => (order earlier later).isLE := by
  induction sorted with
  | nil => exact List.pairwise_singleton _ _
  | cons last others ih =>
    obtain ⟨bound, rest⟩ := List.pairwise_cons.1 descending
    rw [insertReversed]
    split
    · next before =>
      refine List.pairwise_cons.2 ⟨fun next inside => ?_, ih rest⟩
      rcases List.mem_cons.1 ((insertReversed_perm item others).mem_iff.1 inside) with rfl | old
      · rw [eq_of_beq before]
        rfl
      · exact bound next old
    · next behind =>
      have turned : order last item = (order item last).swap := Std.OrientedCmp.eq_swap
      have above : (order last item).isLE := by
        rw [turned]
        cases stands : order item last with
        | lt => exact absurd (beq_iff_eq.2 stands) behind
        | eq => rfl
        | gt => rfl
      refine List.pairwise_cons.2 ⟨fun next inside => ?_, descending⟩
      rcases List.mem_cons.1 inside with rfl | old
      · exact above
      · exact Std.TransCmp.isLE_trans (bound next old) above

theorem stableSort_sorted [Std.TransCmp order] (items : List α) :
    (stableSort (fun x y => order x y == .lt) items).Pairwise fun x y => (order x y).isLE := by
  induction items using List.reverseRecOn with
  | nil => exact .nil
  | append_singleton items item ih =>
    rw [stableSort_concat, List.pairwise_reverse]
    exact insertReversed_sorted (List.pairwise_reverse.2 ih)

theorem filter_insertReversed {item : α} {sorted : List α} {among : α → Bool}
    (equal : ∀ last ∈ sorted, among item → among last → order item last = .eq) :
    (insertReversed (fun x y => order x y == .lt) item sorted).filter among =
      (item :: sorted).filter among := by
  induction sorted with
  | nil => rfl
  | cons last others ih =>
    rw [insertReversed]
    split
    · next before =>
      have later := ih fun next inside => equal next (List.mem_cons_of_mem _ inside)
      have apart : ¬ (among item = true ∧ among last = true) := by
        intro both
        rw [equal last List.mem_cons_self both.1 both.2] at before
        cases before
      rw [List.filter_cons, later]
      grind
    · rfl

theorem filter_stableSort {items : List α} {among : α → Bool}
    (equal : ∀ x ∈ items, ∀ y ∈ items, among x → among y → order x y = .eq) :
    (stableSort (fun x y => order x y == .lt) items).filter among = items.filter among := by
  induction items using List.reverseRecOn with
  | nil => rfl
  | append_singleton items item ih =>
    have earlier : ∀ x ∈ items, x ∈ items ++ [item] := fun x => List.mem_append_left _
    have sorted := ih fun x inside y other => equal x (earlier x inside) y (earlier y other)
    rw [stableSort_concat, List.filter_reverse, filter_insertReversed]
    · rw [List.filter_append]
      cases held : among item with
      | false =>
        have without : ¬ among item = true := by rw [held]; exact Bool.false_ne_true
        rw [List.filter_cons_of_neg without, List.filter_cons_of_neg without, List.filter_reverse,
          List.reverse_reverse, sorted]
        exact (List.append_nil _).symm
      | true =>
        rw [List.filter_cons_of_pos held, List.filter_cons_of_pos held, List.reverse_cons,
          List.filter_reverse, List.reverse_reverse, sorted]
        rfl
    · intro last inside
      refine equal item (by simp) last (earlier last ?_)
      exact (stableSort_perm items).mem_iff.1 (List.mem_reverse.1 inside)

end StableSort

/-- An expression gives null or a primitive value for an instance. -/
def Gives (registry : FunctionRegistry) (now : DateTimeOffset) (node : Node)
    (value : ComplexValue) (key : Option Primitive) : Prop :=
  (node.evaluate registry).value (.start value now) = .ok (.ofPrimitive? key)

/-- The key that an expression gives, null if it gives none. -/
def keyOf (registry : FunctionRegistry) (now : DateTimeOffset) (node : Node)
    (value : ComplexValue) : Option Primitive :=
  ((node.evaluate registry).value (.start value now) >>=
    (·.primitiveOrNull "$orderby")).toOption.join

/-- An expression gives a key that is not a binary number. -/
def IsSortable (registry : FunctionRegistry) (now : DateTimeOffset) (node : Node)
    (value : ComplexValue) : Prop :=
  ∃ key, Gives registry now node value key ∧ ∀ held ∈ key, held.isFloating = false

section Keys

variable {registry : FunctionRegistry} {now : DateTimeOffset} {node : Node} {value : ComplexValue}
  {key : Option Primitive}

theorem primitiveOrNull_ofPrimitive? (operator : String) (key : Option Primitive) :
    (Operand.ofPrimitive? key).primitiveOrNull operator = .ok key := by
  cases key <;> rfl

theorem Gives.keyOf_eq (gives : Gives registry now node value key) :
    keyOf registry now node value = key := by
  rw [keyOf, show Evaluation.value _ _ = _ from gives]
  show ((Operand.ofPrimitive? key).primitiveOrNull "$orderby").toOption.join = key
  rw [primitiveOrNull_ofPrimitive?]
  rfl

theorem IsSortable.gives (sortable : IsSortable registry now node value) :
    Gives registry now node value (keyOf registry now node value) := by
  obtain ⟨key, gives, -⟩ := sortable
  rw [gives.keyOf_eq]
  exact gives

theorem IsSortable.plain (sortable : IsSortable registry now node value) :
    ∀ held ∈ keyOf registry now node value, held.isFloating = false := by
  obtain ⟨key, gives, plain⟩ := sortable
  rw [gives.keyOf_eq]
  exact plain

theorem keeps_sortKeys (registry : FunctionRegistry) (order : List OrderByItem) :
    (sortKeys registry order).Keeps := by
  induction order with
  | nil => exact Evaluation.keeps_done _
  | cons column rest ih =>
    have keeps : (column.key.evaluate registry).Keeps := Node.keeps_evaluate registry column.key
    exact keeps.bind fun _ => (Evaluation.keeps_done _).bind fun _ => ih.bind fun _ =>
      Evaluation.keeps_pure _

theorem sortKeys_eq {order : List OrderByItem}
    (sortable : ∀ column ∈ order, IsSortable registry now column.key value) :
    (sortKeys registry order (.start value now)).1 =
      .ok (order.map fun column => keyOf registry now column.key value) := by
  induction order with
  | nil => rfl
  | cons column rest ih =>
    have later := ih fun other inside => sortable other (List.mem_cons_of_mem _ inside)
    have keeps : (column.key.evaluate registry).Keeps := Node.keeps_evaluate registry column.key
    have first : (column.key.evaluate registry).value (.start value now) = _ :=
      (sortable column List.mem_cons_self).gives
    show (sortKeys registry (column :: rest)).value (.start value now) = _
    rw [sortKeys, Evaluation.value_bind keeps, first]
    show Evaluation.value (Evaluation.done _ >>= _) _ = _
    rw [primitiveOrNull_ofPrimitive?, Evaluation.value_bind (Evaluation.keeps_done _),
      Evaluation.value_done]
    show Evaluation.value (sortKeys registry rest >>= _) _ = _
    have keepsRest : (sortKeys registry rest).Keeps := keeps_sortKeys registry rest
    rw [Evaluation.value_bind keepsRest, show Evaluation.value _ _ = _ from later]
    rfl

end Keys

theorem columns_eq {α : Type} (key : OrderByItem → α → Option Primitive)
    (order : List OrderByItem) (items : List α) :
    columns order.length (items.map fun item => order.map (key · item)) =
      order.map fun column => items.map (key column) := by
  refine List.ext_getElem (by simp [columns]) fun index left right => ?_
  have inside : index < order.length := by simpa using right
  simp [columns, inside, Function.comp_def]

/-- All keys of the column are of one kind. -/
def IsUniform (column : List (Option Primitive)) : Prop :=
  ∀ x y, some x ∈ column → some y ∈ column → x.kind = y.kind

section Checks

variable {β : Type} {check : β → Evaluated Unit} {items : List β}

theorem forM_eq_ok (passes : ∀ item ∈ items, check item = .ok ()) : items.forM check = .ok () := by
  induction items with
  | nil => rfl
  | cons first rest ih =>
    have step : (first :: rest).forM check = (check first >>= fun _ => rest.forM check) := rfl
    rw [step, passes first List.mem_cons_self]
    exact ih fun item inside => passes item (List.mem_cons_of_mem _ inside)

/-- The first failure of a check is the failure of all. -/
theorem forM_eq_error {bad : EvaluationError → Prop}
    (outcome : ∀ item ∈ items, check item = .ok () ∨ ∃ error, bad error ∧ check item = .error error)
    {failing : β} (inside : failing ∈ items) (fails : check failing ≠ .ok ()) :
    ∃ error, bad error ∧ items.forM check = .error error := by
  induction items with
  | nil => cases inside
  | cons first rest ih =>
    have step : (first :: rest).forM check = (check first >>= fun _ => rest.forM check) := rfl
    rw [step]
    rcases outcome first List.mem_cons_self with passed | ⟨error, known, failed⟩
    · rw [passed]
      refine ih (fun item among => outcome item (List.mem_cons_of_mem _ among)) ?_
      rcases List.mem_cons.1 inside with rfl | later
      · exact absurd passed fails
      · exact later
    · rw [failed]
      exact ⟨error, known, rfl⟩

end Checks

/-- How keys that do not compare are reported. -/
def IsMismatch (error : EvaluationError) : Prop :=
  ∃ expected found, error = .typeMismatch "$orderby" expected found

section Columns

variable {column : List (Option Primitive)}

theorem checkColumn_cons (first : Primitive) (rest : List Primitive)
    (keys : column.filterMap id = first :: rest) :
    checkColumn column = (first :: rest).forM fun key =>
      Comparison.sortOrder first key >>= fun _ => .ok () := by
  rw [checkColumn, keys]
  rfl

theorem mem_keys {x : Primitive} : x ∈ column.filterMap id ↔ some x ∈ column := by
  simp

theorem checkColumn_eq_ok (plain : ∀ x, some x ∈ column → x.isFloating = false)
    (uniform : IsUniform column) : checkColumn column = .ok () := by
  cases keys : column.filterMap id with
  | nil =>
    rw [checkColumn, keys]
  | cons first rest =>
    have held {x : Primitive} (inside : x ∈ first :: rest) : some x ∈ column :=
      mem_keys.1 (keys ▸ inside)
    rw [checkColumn_cons first rest keys]
    refine forM_eq_ok fun key inside => ?_
    have start := held List.mem_cons_self
    rw [sortOrder_eq (plain _ start) (plain _ (held inside)),
      if_pos (uniform _ _ start (held inside))]
    rfl

/-- Two keys that do not compare with each other do not both compare with the first one. -/
theorem checkColumn_eq_error (plain : ∀ x, some x ∈ column → x.isFloating = false)
    (mixed : ¬ IsUniform column) : ∃ error, IsMismatch error ∧ checkColumn column = .error error := by
  cases keys : column.filterMap id with
  | nil =>
    refine absurd (fun x y left right => ?_) mixed
    rw [← mem_keys, keys] at left
    cases left
  | cons first rest =>
    have held {x : Primitive} : x ∈ first :: rest ↔ some x ∈ column := by rw [← keys, mem_keys]
    have start := held.1 List.mem_cons_self
    -- Were all of the kind of the first, they would be of one kind.
    obtain ⟨other, inside, apart⟩ : ∃ other ∈ first :: rest, first.kind ≠ other.kind := by
      by_contra none
      have alike {x : Primitive} (among : some x ∈ column) : first.kind = x.kind :=
        Classical.byContradiction fun apart => none ⟨x, held.2 among, apart⟩
      exact mixed fun x y left right => (alike left).symm.trans (alike right)
    have outcome {key : Primitive} (among : key ∈ first :: rest) :
        Comparison.sortOrder first key = _ := sortOrder_eq (plain _ start) (plain _ (held.1 among))
    rw [checkColumn_cons first rest keys]
    refine forM_eq_error (fun key among => ?_) inside ?_
    · rw [outcome among]
      split
      · exact .inl rfl
      · exact .inr ⟨_, ⟨_, _, rfl⟩, rfl⟩
    · rw [outcome inside, if_neg apart]
      intro passed
      cases passed

end Columns

section Items

variable {α : Type} {instanceOf : α → ComplexValue} {registry : FunctionRegistry}
  {now : DateTimeOffset}

theorem transCmp_comap {β : Type} {order : β → β → Ordering} [Std.TransCmp order] (f : α → β) :
    Std.TransCmp fun x y => order (f x) (f y) where
  eq_swap := Std.OrientedCmp.eq_swap
  isLE_trans := Std.TransCmp.isLE_trans

/-- The order of instances in a column. -/
def columnOrder (registry : FunctionRegistry) (now : DateTimeOffset) (column : OrderByItem)
    (x y : ComplexValue) : Ordering :=
  let ascending := keyOrder (keyOf registry now column.key x) (keyOf registry now column.key y)
  if column.direction = .descending then ascending.swap else ascending

/-- The order of instances in which the first column that tells them apart decides. -/
def rowOrder (registry : FunctionRegistry) (now : DateTimeOffset) :
    List OrderByItem → ComplexValue → ComplexValue → Ordering
  | [], _, _ => .eq
  | column :: rest, x, y =>
    (columnOrder registry now column x y).then (rowOrder registry now rest x y)

instance transCmp_columnOrder (column : OrderByItem) :
    Std.TransCmp (columnOrder registry now column) := by
  have ascending : Std.TransCmp fun x y =>
      keyOrder (keyOf registry now column.key x) (keyOf registry now column.key y) :=
    transCmp_comap (keyOf registry now column.key)
  by_cases descends : column.direction = .descending
  · have turned : columnOrder registry now column = fun x y =>
        keyOrder (keyOf registry now column.key y) (keyOf registry now column.key x) := by
      funext x y
      rw [columnOrder, if_pos descends]
      exact Std.OrientedCmp.eq_swap.symm
    rw [turned]
    exact Std.TransCmp.opposite
  · have same : columnOrder registry now column = fun x y =>
        keyOrder (keyOf registry now column.key x) (keyOf registry now column.key y) := by
      funext x y
      rw [columnOrder, if_neg descends]
    rw [same]
    exact ascending

instance transCmp_rowOrder (order : List OrderByItem) :
    Std.TransCmp (rowOrder registry now order) := by
  induction order with
  | nil => exact { eq_swap := rfl, isLE_trans := fun _ _ => rfl }
  | cons column rest ih =>
    exact inferInstanceAs (Std.TransCmp
      (compareLex (columnOrder registry now column) (rowOrder registry now rest)))

/-- How two instances compare in a column: as their keys do, or the other way round if the column
descends. -/
def Compares (registry : FunctionRegistry) (now : DateTimeOffset) (column : OrderByItem)
    (x y : ComplexValue) (ordering : Ordering) : Prop :=
  ∃ k l, Gives registry now column.key x k ∧ Gives registry now column.key y l ∧
    KeysCompare k l (if column.direction = .descending then ordering.swap else ordering)

/-- Two instances have equal keys in all columns. -/
def Ties (registry : FunctionRegistry) (now : DateTimeOffset) (order : List OrderByItem)
    (x y : ComplexValue) : Prop :=
  ∀ column ∈ order, Compares registry now column x y .eq

/-- An instance comes before another in the first column in which they differ. -/
def Precedes (registry : FunctionRegistry) (now : DateTimeOffset) (order : List OrderByItem)
    (x y : ComplexValue) : Prop :=
  ∃ tied column rest, order = tied ++ column :: rest ∧ Ties registry now tied x y ∧
    Compares registry now column x y .lt

/-- A list is another one in order: it holds the same items, of any two the earlier one precedes the
other or ties with it, and those that tie stand as in the other list. -/
structure Sorts (instanceOf : α → ComplexValue) (registry : FunctionRegistry)
    (now : DateTimeOffset) (order : List OrderByItem) (items sorted : List α) : Prop where
  perm : sorted.Perm items
  ordered : sorted.Pairwise fun x y =>
    Precedes registry now order (instanceOf x) (instanceOf y) ∨
      Ties registry now order (instanceOf x) (instanceOf y)
  stable (among : α → Bool) (tie : ∀ x ∈ items, ∀ y ∈ items, among x → among y →
    Ties registry now order (instanceOf x) (instanceOf y)) :
      sorted.filter among = items.filter among

/-- Some column holds two keys, none of them null, that the sort order rejects. -/
def Clash (registry : FunctionRegistry) (now : DateTimeOffset) (order : List OrderByItem)
    (instances : List ComplexValue) : Prop :=
  ∃ column ∈ order, ∃ x ∈ instances, ∃ y ∈ instances, ∃ k l error,
    Gives registry now column.key x (some k) ∧ Gives registry now column.key y (some l) ∧
      Comparison.sortOrder k l = .error error

/-- The keys of two instances compare in each column. -/
def Orderable (registry : FunctionRegistry) (now : DateTimeOffset) (order : List OrderByItem)
    (x y : ComplexValue) : Prop :=
  ∀ column ∈ order, IsSortable registry now column.key x ∧ IsSortable registry now column.key y ∧
    Comparable (keyOf registry now column.key x) (keyOf registry now column.key y)

theorem compares_iff {column : OrderByItem} {x y : ComplexValue} {ordering : Ordering}
    (left : IsSortable registry now column.key x) (right : IsSortable registry now column.key y)
    (comparable : Comparable (keyOf registry now column.key x) (keyOf registry now column.key y)) :
    Compares registry now column x y ordering ↔ columnOrder registry now column x y = ordering := by
  have keys : Compares registry now column x y ordering ↔
      KeysCompare (keyOf registry now column.key x) (keyOf registry now column.key y)
        (if column.direction = .descending then ordering.swap else ordering) := by
    constructor
    · rintro ⟨k, l, first, second, compare⟩
      rw [first.keyOf_eq, second.keyOf_eq]
      exact compare
    · exact fun compare => ⟨_, _, left.gives, right.gives, compare⟩
  rw [keys, comparable.keysCompare_iff, columnOrder]
  split
  · constructor
    · intro turned
      rw [turned, Ordering.swap_swap]
    · intro turned
      rw [← turned, Ordering.swap_swap]
  · exact Iff.rfl

section Pairs

variable {order : List OrderByItem} {x y : ComplexValue}

theorem ties_iff (orderable : Orderable registry now order x y) :
    Ties registry now order x y ↔ rowOrder registry now order x y = .eq := by
  induction order with
  | nil => exact iff_of_true (fun _ inside => by cases inside) rfl
  | cons column rest ih =>
    obtain ⟨left, right, comparable⟩ := orderable column List.mem_cons_self
    have later := ih fun other inside => orderable other (List.mem_cons_of_mem _ inside)
    rw [Ties, List.forall_mem_cons, compares_iff left right comparable, rowOrder,
      Ordering.then_eq_eq, ← later]
    rfl

theorem precedes_of_rowOrder (orderable : Orderable registry now order x y)
    (before : rowOrder registry now order x y = .lt) : Precedes registry now order x y := by
  induction order with
  | nil => cases before
  | cons column rest ih =>
    obtain ⟨left, right, comparable⟩ := orderable column List.mem_cons_self
    rw [rowOrder, Ordering.then_eq_lt] at before
    rcases before with first | ⟨tied, later⟩
    · exact ⟨[], column, rest, rfl, fun _ inside => (by cases inside),
        (compares_iff left right comparable).2 first⟩
    · obtain ⟨ties, decisive, others, rfl, equal, less⟩ :=
        ih (fun other inside => orderable other (List.mem_cons_of_mem _ inside)) later
      refine ⟨column :: ties, decisive, others, rfl, ?_, less⟩
      exact List.forall_mem_cons.2 ⟨(compares_iff left right comparable).2 tied, equal⟩

theorem compareRows_eq (orderable : Orderable registry now order x y) :
    compareRows (order.map OrderByItem.direction)
        (order.map fun column => keyOf registry now column.key x)
        (order.map fun column => keyOf registry now column.key y) =
      rowOrder registry now order x y := by
  induction order with
  | nil => rfl
  | cons column rest ih =>
    obtain ⟨-, -, comparable⟩ := orderable column List.mem_cons_self
    have later := ih fun other inside => orderable other (List.mem_cons_of_mem _ inside)
    rw [List.map_cons, List.map_cons, List.map_cons, compareRows, later, rowOrder, columnOrder]
    cases column.direction with
    | ascending =>
      rw [compareDirected, comparable.compareKeys_eq]
      rfl
    | descending =>
      rw [compareDirected, comparable.compareKeys_eq]
      rfl

end Pairs

theorem mapM_eq_ok {β γ : Type} {step : β → Evaluated γ} {result : β → γ} {items : List β}
    (each : ∀ item ∈ items, step item = .ok (result item)) :
    items.mapM step = .ok (items.map result) := by
  induction items with
  | nil => rfl
  | cons item rest ih =>
    rw [List.mapM_cons, each item List.mem_cons_self,
      ih fun other inside => each other (List.mem_cons_of_mem _ inside)]
    rfl

variable {order : List OrderByItem} {items : List α}

/-- The keys of the items in a column. -/
def columnOf (instanceOf : α → ComplexValue) (registry : FunctionRegistry) (now : DateTimeOffset)
    (items : List α) (column : OrderByItem) : List (Option Primitive) :=
  items.map fun item => keyOf registry now column.key (instanceOf item)

/-- Where all rows of keys compare, the stable sort by rows puts the items in order. -/
theorem sorts_stableSort (orderable : ∀ x ∈ items, ∀ y ∈ items,
      Orderable registry now order (instanceOf x) (instanceOf y)) :
    Sorts instanceOf registry now order items (stableSort
      (fun x y => rowOrder registry now order (instanceOf x) (instanceOf y) == .lt) items) where
  perm := stableSort_perm items
  ordered := by
    have preorder :
        Std.TransCmp fun x y => rowOrder registry now order (instanceOf x) (instanceOf y) :=
      transCmp_comap instanceOf
    refine List.Pairwise.imp_of_mem (fun {x y} first second below => ?_) (stableSort_sorted items)
    have compares := orderable x ((stableSort_perm items).mem_iff.1 first) y
      ((stableSort_perm items).mem_iff.1 second)
    rcases Ordering.isLE_iff_eq_lt_or_eq_eq.1 below with less | same
    · exact .inl (precedes_of_rowOrder compares less)
    · exact .inr ((ties_iff compares).2 same)
  stable among tie := by
    refine filter_stableSort fun x left y right first second => ?_
    exact (ties_iff (orderable x left y right)).1 (tie x left y right first second)

section Sortable

variable (sortable : ∀ column ∈ order, ∀ item ∈ items,
  IsSortable registry now column.key (instanceOf item))

include sortable

/-- What sorting comes down to: a check of each column, then a stable sort by rows. -/
theorem orderBy_eq (filled : order ≠ []) :
    let row (item : α) := order.map fun column => keyOf registry now column.key (instanceOf item)
    let directions := order.map OrderByItem.direction
    orderBy instanceOf registry now order items =
      ((order.map (columnOf instanceOf registry now items)).forM checkColumn >>= fun _ =>
        .ok (stableSort (fun x y => compareRows directions (row x) (row y) == .lt) items)) := by
  intro row directions
  have keyed : items.mapM (fun item => do
        return ((← (sortKeys registry order (.start (instanceOf item) now)).1), item) : α →
          Evaluated (List (Option Primitive) × α)) =
      .ok (items.map fun item => (row item, item)) := by
    refine mapM_eq_ok fun item inside => ?_
    rw [sortKeys_eq fun column among => sortable column among item inside]
    rfl
  have rows : columns order.length ((items.map fun item => (row item, item)).map Prod.fst) =
      order.map (columnOf instanceOf registry now items) := by
    rw [List.map_map]
    exact columns_eq (fun column item => keyOf registry now column.key (instanceOf item)) order items
  have goesOn : ¬ order.isEmpty = true := by rwa [List.isEmpty_iff]
  -- Sorting items with their rows is sorting the items by their rows.
  let byRow (x y : List (Option Primitive) × α) : Bool := compareRows directions x.1 y.1 == .lt
  have unkeyed : (stableSort byRow (items.map fun item => (row item, item))).map Prod.snd =
      stableSort (fun x y => compareRows directions (row x) (row y) == .lt) items := by
    rw [stableSort_map, List.map_map]
    exact List.map_id _
  rw [orderBy, if_neg goesOn, keyed, ← rows, ← unkeyed]
  rfl

theorem clash_iff : Clash registry now order (items.map instanceOf) ↔
    ∃ column ∈ order, ¬ IsUniform (columnOf instanceOf registry now items column) := by
  constructor
  · rintro ⟨column, among, x, first, y, second, k, l, error, left, right, rejects⟩
    obtain ⟨x, insideLeft, rfl⟩ := List.mem_map.1 first
    obtain ⟨y, insideRight, rfl⟩ := List.mem_map.1 second
    refine ⟨column, among, fun uniform => ?_⟩
    have plainLeft := (sortable column among x insideLeft).plain
    have plainRight := (sortable column among y insideRight).plain
    rw [left.keyOf_eq] at plainLeft
    rw [right.keyOf_eq] at plainRight
    have alike := uniform k l (List.mem_map.2 ⟨x, insideLeft, left.keyOf_eq⟩)
      (List.mem_map.2 ⟨y, insideRight, right.keyOf_eq⟩)
    rw [sortOrder_eq (plainLeft k rfl) (plainRight l rfl), if_pos alike] at rejects
    cases rejects
  · rintro ⟨column, among, mixed⟩
    by_contra none
    refine mixed fun k l left right => ?_
    obtain ⟨x, insideLeft, isLeft⟩ := List.mem_map.1 left
    obtain ⟨y, insideRight, isRight⟩ := List.mem_map.1 right
    have keyLeft := sortable column among x insideLeft
    have keyRight := sortable column among y insideRight
    have order := sortOrder_eq (keyLeft.plain k isLeft) (keyRight.plain l isRight)
    by_contra apart
    rw [if_neg apart] at order
    exact none ⟨column, among, instanceOf x, List.mem_map_of_mem insideLeft, instanceOf y,
      List.mem_map_of_mem insideRight, k, l, _, isLeft ▸ keyLeft.gives, isRight ▸ keyRight.gives,
      order⟩

/-- Without a clash, the keys of any two items compare. -/
theorem orderable_of_uniform
    (uniform : ∀ column ∈ order, IsUniform (columnOf instanceOf registry now items column))
    (x : α) (left : x ∈ items) (y : α) (right : y ∈ items) :
    Orderable registry now order (instanceOf x) (instanceOf y) := by
  intro column among
  have keyLeft := sortable column among x left
  have keyRight := sortable column among y right
  exact ⟨keyLeft, keyRight, keyLeft.plain, keyRight.plain, fun k isLeft l isRight =>
    uniform column among k l (List.mem_map.2 ⟨x, left, isLeft⟩)
      (List.mem_map.2 ⟨y, right, isRight⟩)⟩

theorem plain_columnOf {column : OrderByItem} (among : column ∈ order) (key : Primitive)
    (inside : some key ∈ columnOf instanceOf registry now items column) :
    key.isFloating = false := by
  obtain ⟨item, held, isKey⟩ := List.mem_map.1 inside
  exact (sortable column among item held).plain key isKey

theorem orderBy_eq_error (filled : order ≠ []) {column : OrderByItem} (among : column ∈ order)
    (mixed : ¬ IsUniform (columnOf instanceOf registry now items column)) :
    ∃ error, IsMismatch error ∧ orderBy instanceOf registry now order items = .error error := by
  have outcome : ∀ keys ∈ order.map (columnOf instanceOf registry now items),
      checkColumn keys = .ok () ∨ ∃ error, IsMismatch error ∧ checkColumn keys = .error error := by
    rintro keys inside
    obtain ⟨other, held, rfl⟩ := List.mem_map.1 inside
    by_cases uniform : IsUniform (columnOf instanceOf registry now items other)
    · exact .inl (checkColumn_eq_ok (plain_columnOf sortable held) uniform)
    · exact .inr (checkColumn_eq_error (plain_columnOf sortable held) uniform)
  obtain ⟨_, _, rejects⟩ := checkColumn_eq_error (plain_columnOf sortable among) mixed
  have failing : checkColumn (columnOf instanceOf registry now items column) ≠ .ok () := by
    rw [rejects]
    intro passed
    cases passed
  obtain ⟨error, known, fails⟩ := forM_eq_error outcome (List.mem_map_of_mem among) failing
  refine ⟨error, known, ?_⟩
  rw [orderBy_eq sortable filled, fails]
  rfl

theorem orderBy_eq_ok (filled : order ≠ [])
    (uniform : ∀ column ∈ order, IsUniform (columnOf instanceOf registry now items column)) :
    orderBy instanceOf registry now order items = .ok (stableSort
      (fun x y => rowOrder registry now order (instanceOf x) (instanceOf y) == .lt) items) := by
  have passes : (order.map (columnOf instanceOf registry now items)).forM checkColumn = .ok () := by
    refine forM_eq_ok fun keys inside => ?_
    obtain ⟨column, among, rfl⟩ := List.mem_map.1 inside
    exact checkColumn_eq_ok (plain_columnOf sortable among) (uniform column among)
  rw [orderBy_eq sortable filled, passes]
  refine congrArg Except.ok (stableSort_congr fun x left y right => ?_)
  rw [compareRows_eq (orderable_of_uniform sortable uniform x left y right)]

/-- Sorting fails exactly if some column holds keys that do not compare. Otherwise it puts the items
in order. -/
theorem orderBy_sorts (filled : order ≠ []) :
    ((∃ expected found, orderBy instanceOf registry now order items =
        .error (.typeMismatch "$orderby" expected found)) ↔
      Clash registry now order (items.map instanceOf)) ∧
    (¬ Clash registry now order (items.map instanceOf) →
      ∃ sorted, orderBy instanceOf registry now order items = .ok sorted ∧
        Sorts instanceOf registry now order items sorted) := by
  rw [clash_iff sortable]
  by_cases clash : ∃ column ∈ order, ¬ IsUniform (columnOf instanceOf registry now items column)
  · obtain ⟨column, among, mixed⟩ := clash
    obtain ⟨error, ⟨expected, found, rfl⟩, fails⟩ := orderBy_eq_error sortable filled among mixed
    exact ⟨iff_of_true ⟨expected, found, fails⟩ ⟨column, among, mixed⟩,
      fun none => absurd ⟨column, among, mixed⟩ none⟩
  · have uniform : ∀ column ∈ order, IsUniform (columnOf instanceOf registry now items column) :=
      fun column among => Classical.byContradiction fun mixed => clash ⟨column, among, mixed⟩
    have done := orderBy_eq_ok sortable filled uniform
    refine ⟨iff_of_false ?_ clash, fun _ => ⟨_, done, ?_⟩⟩
    · rintro ⟨expected, found, fails⟩
      rw [done] at fails
      cases fails
    · exact sorts_stableSort (orderable_of_uniform sortable uniform)

end Sortable

/-- A parcel of a weight that may not be known. -/
def parcel (weight? : Option Primitive) : ComplexValue :=
  ⟨⟨0⟩, .untyped, [.unattached (.dynamic "weight" .untyped) (weight?.map .primitive)], none, none,
    false, []⟩

/-- Parcels by descending weight: integers and decimals mix, equal weights keep their order and the
parcel that was not weighed comes last. -/
theorem orderBy_sorts_parcels :
    let two : Primitive := .integer ⟨.int32, 2, by decide⟩
    let twoPlaces : Primitive := .decimal ⟨false, 200, 2, by decide, by decide⟩
    let more : Primitive := .decimal ⟨false, 25, 1, by decide, by decide⟩
    let order : List OrderByItem := [⟨.property ⟨["weight"]⟩, .descending⟩]
    let weightOf (item : String × Option Primitive) := parcel item.2
    let items := [("a", some two), ("b", none), ("c", some twoPlaces), ("d", some more)]
    let sorted := [("d", some more), ("a", some two), ("c", some twoPlaces), ("b", none)]
    (order ≠ [] ∧ ∀ column ∈ order, ∀ item ∈ items,
      IsSortable .standard default column.key (weightOf item)) ∧
      ¬ Clash .standard default order (items.map weightOf) ∧
      orderBy weightOf .standard default order items = .ok sorted ∧
      Sorts weightOf .standard default order items sorted := by
  intro two twoPlaces more order weightOf items sorted
  have filled : order ≠ [] := List.cons_ne_nil _ _
  have exact : ∀ item ∈ items, ∀ held ∈ item.2, held.isFloating = false := by decide
  have sortable : ∀ column ∈ order, ∀ item ∈ items,
      IsSortable .standard default column.key (weightOf item) := by
    intro column among item inside
    obtain rfl := List.mem_singleton.1 among
    have gives (weight? : Option Primitive) :
        Gives .standard default (.property ⟨["weight"]⟩) (parcel weight?) weight? := by
      cases weight? <;> rfl
    exact ⟨item.2, gives item.2, exact item inside⟩
  have law := orderBy_sorts sortable filled
  have done : orderBy weightOf .standard default order items = .ok sorted := rfl
  have peaceful : ¬ Clash .standard default order (items.map weightOf) := by
    intro clash
    obtain ⟨expected, found, fails⟩ := law.1.2 clash
    rw [done] at fails
    cases fails
  obtain ⟨result, same, sorts⟩ := law.2 peaceful
  obtain rfl : sorted = result := Except.ok.inj (done.symm.trans same)
  exact ⟨⟨filled, sortable⟩, peaceful, done, sorts⟩

end Items

end EdmQuery.Selection
