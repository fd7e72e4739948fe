import Mathlib.Algebra.Order.Field.Power
import EdmQuery.Proofs.SortKeys

set_option autoImplicit false

namespace EdmQuery

namespace BinaryFormat

theorem leadingExponent_one {num : Nat} (positive : num ≠ 0) :
    leadingExponent num 1 = (Nat.log2 num : Int) := by
  have reached : 1 <<< Nat.log2 num ≤ num := by
    rw [Nat.one_shiftLeft]
    exact Nat.log2_self_le positive
  have unit : Nat.log2 1 = 0 := by decide
  rw [leadingExponent, unit]
  simp [reached]

/-- A natural number of up to 53 bits is moved to the top of the significand. -/
theorem round_one (negative : Bool) {num : Nat} (positive : num ≠ 0) (small : num < Nat.pow 2 53) :
    double.round negative num 1 =
      .finite negative (num <<< (52 - Nat.log2 num)) (Nat.log2 num - 52 : Int) := by
  have bits : Nat.log2 num < 53 := (Nat.log2_lt positive).2 small
  have whole : divNearestEven (num <<< (52 - Nat.log2 num)) 1 = num <<< (52 - Nat.log2 num) := by
    rw [divNearestEven_of_dvd _ 1 one_pos (one_dvd _), Nat.div_one]
  have place : max double.minExponent (Nat.log2 num - (double.precision - 1 : Nat)) =
      (Nat.log2 num - 52 : Int) := by
    show max (-1074 : Int) (Nat.log2 num - 52) = _
    omega
  have below : num <<< (52 - Nat.log2 num) ≠ Nat.pow 2 double.precision := by
    have bound : num * 2 ^ (52 - Nat.log2 num) <
        2 ^ (Nat.log2 num + 1) * 2 ^ (52 - Nat.log2 num) :=
      Nat.mul_lt_mul_of_pos_right Nat.lt_log2_self (Nat.two_pow_pos _)
    have exponents : Nat.log2 num + 1 + (52 - Nat.log2 num) = 53 := by omega
    rw [← Nat.pow_add, exponents, ← Nat.shiftLeft_eq] at bound
    exact bound.ne
  have significand : (if (0 : Int) ≤ Nat.log2 num - 52 then
        divNearestEven num (1 <<< ((Nat.log2 num : Int) - 52).toNat)
      else divNearestEven (num <<< (-((Nat.log2 num : Int) - 52)).toNat) 1) =
      num <<< (52 - Nat.log2 num) := by
    split
    · next top =>
      have last : Nat.log2 num = 52 := by omega
      rw [last] at whole ⊢
      exact whole
    · have shift : (-((Nat.log2 num : Int) - 52)).toNat = 52 - Nat.log2 num := by omega
      rw [shift, whole]
  rw [round, if_neg positive, leadingExponent_one positive]
  simp only [place, significand, if_neg below]
  exact if_neg (by show ¬ (971 : Int) < _; omega)

end BinaryFormat

namespace Binary64

/-- What is not a number stands outside of the infinities, on the side of its sign. -/
def rank : Binary64 → Int
  | .nan negative => if negative then -2 else 2
  | .infinity negative => if negative then -1 else 1
  | .finite .. => 0

/-- The rational number that a finite number denotes. -/
def toRat : Binary64 → Rat
  | .finite negative significand exponent =>
    (if negative then -(significand : Int) else significand : Int) * 2 ^ exponent
  | _ => 0

/-- The order of all numbers by rank and value, with both zeros equal. -/
def keyOrder : Binary64 → Binary64 → Ordering :=
  compareLex (compareOn rank) (compareOn toRat)

instance transCmp_keyOrder : Std.TransCmp keyOrder := by
  unfold keyOrder
  infer_instance

theorem keyOrder_eq (x y : Binary64) :
    keyOrder x y = (compare x.rank y.rank).then (compare x.toRat y.toRat) := rfl

/-- Written in a smaller unit, the number is the same. -/
theorem scaledTo_eq {unit exponent : Int} (below : unit ≤ exponent) (negative : Bool)
    (significand : Nat) :
    (scaledTo unit negative significand exponent : Rat) =
      (finite negative significand exponent).toRat * 2 ^ (-unit) := by
  have power : (2 : Rat) ^ (exponent - unit).toNat = 2 ^ exponent * 2 ^ (-unit) := by
    rw [← zpow_natCast, ← zpow_add₀ two_ne_zero, Int.toNat_of_nonneg (Int.sub_nonneg.2 below),
      Int.sub_eq_add_neg]
  rw [scaledTo, toRat, Nat.shiftLeft_eq, mul_assoc, ← power]
  cases negative
  · simp
  · simp

theorem compare?_finite (first second : Bool) (m n : Nat) (e f : Int) :
    (finite first m e).compare? (finite second n f) =
      some (compare (finite first m e).toRat (finite second n f).toRat) := by
  have positive : (0 : Rat) < 2 ^ (-min e f) := zpow_pos two_pos _
  exact congrArg some (compare_eq_of_scaled positive (scaledTo_eq (min_le_left e f) first m)
    (scaledTo_eq (min_le_right e f) second n))

/-- Numbers that compare do so by rank and value, and the total order places the others by their
ranks. -/
theorem compare?_getD_totalCompare (x y : Binary64) :
    (x.compare? y).getD (x.totalCompare y) = keyOrder x y := by
  cases x with
  | nan first =>
    cases y with
    | nan second => cases first <;> cases second <;> rfl
    | infinity second => cases first <;> cases second <;> rfl
    | finite second n f => cases first <;> rfl
  | infinity first =>
    cases y with
    | nan second => cases first <;> cases second <;> rfl
    | infinity second => cases first <;> cases second <;> rfl
    | finite second n f => cases first <;> rfl
  | finite first m e =>
    cases y with
    | nan second => cases second <;> rfl
    | infinity second => cases second <;> rfl
    | finite second n f =>
      rw [compare?_finite]
      rfl

/-- Integers of up to 53 bits are binary numbers themselves. -/
theorem toRat_ofInt {n : Int} (small : n.natAbs < Nat.pow 2 53) :
    (ofInt n).rank = 0 ∧ (ofInt n).toRat = n := by
  by_cases zero : n = 0
  · subst zero
    exact ⟨rfl, zero_mul _⟩
  have bits : Nat.log2 n.natAbs < 53 := (Nat.log2_lt (Int.natAbs_ne_zero.2 zero)).2 small
  have power : (2 : Rat) ^ (52 - Nat.log2 n.natAbs) * 2 ^ ((Nat.log2 n.natAbs : Int) - 52) = 1 := by
    have exponents : ((52 - Nat.log2 n.natAbs : Nat) : Int) + (Nat.log2 n.natAbs - 52) = 0 := by
      omega
    rw [← zpow_natCast, ← zpow_add₀ two_ne_zero, exponents, zpow_zero]
  have signed (places : Nat) :
      (if decide (n < 0) = true then -(n.natAbs <<< places : Nat) else (n.natAbs <<< places : Nat) :
        Int) = n * (2 ^ places : Nat) := by
    rw [Nat.shiftLeft_eq, Int.natCast_mul]
    split
    · next negative =>
      have below : n < 0 := of_decide_eq_true negative
      rw [Int.ofNat_natAbs_of_nonpos below.le, Int.neg_mul, Int.neg_neg]
    · next positive =>
      have above : 0 ≤ n := Int.not_lt.1 fun below => positive (decide_eq_true below)
      rw [Int.natAbs_of_nonneg above]
  rw [ofInt, BinaryFormat.round_one _ (Int.natAbs_ne_zero.2 zero) small]
  refine ⟨rfl, ?_⟩
  rw [toRat, signed, Int.cast_mul, Int.cast_natCast, Nat.cast_pow, mul_assoc]
  exact (congrArg _ power).trans (mul_one _)

end Binary64

namespace Primitive

open Comparison (binaryKey sortOrder)

/-- The binary numbers that two exact ones are promoted to compare as these do. -/
def KeepsOrder (x y : Primitive) : Prop :=
  ∀ a ∈ x.rational?, ∀ b ∈ y.rational?, (binaryKey x).keyOrder (binaryKey y) = compare a b

/-- An exact number is a binary number itself. -/
def IsBinary (x : Primitive) : Prop :=
  ∀ a ∈ x.rational?, (binaryKey x).rank = 0 ∧ (binaryKey x).toRat = a

theorem IsBinary.keepsOrder {x y : Primitive} (first : x.IsBinary) (second : y.IsBinary) :
    x.KeepsOrder y := by
  intro a left b right
  obtain ⟨finite, same⟩ := first a left
  obtain ⟨otherFinite, otherSame⟩ := second b right
  rw [Binary64.keyOrder_eq, finite, otherFinite, same, otherSame]
  rfl

theorem isBinary_integer {value : TypedInteger} (small : value.value.natAbs < Nat.pow 2 53) :
    (integer value).IsBinary := by
  intro a same
  cases same
  exact Binary64.toRat_ofInt small

theorem isBinary_of_width_ne_int64 {value : TypedInteger} (narrow : value.width ≠ .int64) :
    (integer value).IsBinary := by
  refine isBinary_integer ?_
  obtain ⟨width, value, inside⟩ := value
  have bounds := (IntegerType.contains_iff _ _).1 inside
  show value.natAbs < 9007199254740992
  cases width with
  | int64 => exact absurd rfl narrow
  | _ =>
    simp only [IntegerType.minValue, IntegerType.maxValue] at bounds
    omega

theorem rational?_of_isFloating {x : Primitive} (floating : x.isFloating = true) :
    x.rational? = none := by
  cases x <;> first | rfl | cases floating

theorem isBinary_of_isFloating {x : Primitive} (floating : x.isFloating = true) : x.IsBinary := by
  intro a same
  rw [rational?_of_isFloating floating] at same
  cases same

/-- There is nothing to keep for a key that is binary already. -/
theorem keepsOrder_of_isFloating {x y : Primitive}
    (floating : x.isFloating = true ∨ y.isFloating = true) : x.KeepsOrder y := by
  intro a left b right
  rcases floating with first | second
  · rw [rational?_of_isFloating first] at left
    cases left
  · rw [rational?_of_isFloating second] at right
    cases right

theorem kind_of_isFloating {x : Primitive} (floating : x.isFloating = true) : x.kind = 1 := by
  cases x <;> first | rfl | cases floating

/-- Against a binary number, every number is the binary number that it is promoted to. -/
theorem compare?_of_isFloating {x y : Primitive} (first : x.kind = 1) (second : y.kind = 1)
    (floating : (x.isFloating || y.isFloating) = true) :
    x.compare? y = (binaryKey x).compare? (binaryKey y) := by
  cases x <;> cases first <;> cases y <;> cases second <;> first | rfl | cases floating

end Primitive

namespace Comparison

variable {x y z : Primitive}

theorem sortOrder_of_isFloating (first : x.kind = 1) (second : y.kind = 1)
    (floating : (x.isFloating || y.isFloating) = true) :
    sortOrder x y = .ok ((binaryKey x).keyOrder (binaryKey y)) := by
  have numbers : (x.numeric?.isSome && y.numeric?.isSome) = true := by
    cases x <;> cases first <;> cases y <;> cases second <;> rfl
  rw [sortOrder, order, Primitive.compare?_of_isFloating first second floating,
    ← Binary64.compare?_getD_totalCompare]
  cases (binaryKey x).compare? (binaryKey y) with
  | some ordering => rfl
  | none =>
    simp only [numbers]
    rfl

/-- The order of two keys of one kind. -/
def mixedOrder (x y : Primitive) : Ordering :=
  if x.isFloating || y.isFloating then (binaryKey x).keyOrder (binaryKey y)
  else Selection.keyOrder (some x) (some y)

theorem mixedOrder_of_exact (exact : x.isFloating = false) (other : y.isFloating = false) :
    mixedOrder x y = Selection.keyOrder (some x) (some y) := by
  rw [mixedOrder, exact, other]
  rfl

theorem mixedOrder_self (x : Primitive) : mixedOrder x x = .eq := by
  rw [mixedOrder]
  split
  · exact Std.ReflCmp.compare_self
  · exact Std.ReflCmp.compare_self

theorem mixedOrder_swap (x y : Primitive) : mixedOrder y x = (mixedOrder x y).swap := by
  rw [mixedOrder, mixedOrder, Bool.or_comm]
  split
  · exact Std.OrientedCmp.eq_swap
  · exact Std.OrientedCmp.eq_swap

/-- Keys compare if and only if they are of one kind. -/
theorem sortOrder_eq_mixedOrder (x y : Primitive) :
    sortOrder x y =
      if x.kind = y.kind then .ok (mixedOrder x y)
      else .error (.typeMismatch "$orderby" x.typeName y.typeName) := by
  split
  · next alike =>
    rw [mixedOrder]
    split
    · next floating =>
      have number : x.kind = 1 := by
        rcases Bool.or_eq_true .. ▸ floating with first | second
        · exact Primitive.kind_of_isFloating first
        · exact alike.trans (Primitive.kind_of_isFloating second)
      exact sortOrder_of_isFloating number (alike ▸ number) floating
    · next exact =>
      rw [Bool.not_eq_true, Bool.or_eq_false_iff] at exact
      rw [Selection.sortOrder_eq exact.1 exact.2, if_pos alike]
  · next apart => exact Selection.sortOrder_of_kind_ne apart

theorem sortOrder_eq_ok_iff {ordering : Ordering} :
    sortOrder x y = .ok ordering ↔ x.kind = y.kind ∧ mixedOrder x y = ordering := by
  rw [sortOrder_eq_mixedOrder]
  split
  · next alike => simp [alike]
  · next apart => simp [apart]

theorem mixedOrder_of_rational {a b : Rat} (left : x.rational? = some a)
    (right : y.rational? = some b) : mixedOrder x y = Ord.compare a b := by
  have exact {key : Primitive} {number : Rat} (same : key.rational? = some number) :
      key.isFloating = false := by
    cases key <;> first | rfl | cases same
  rw [mixedOrder_of_exact (exact left) (exact right), Selection.keyOrder_of_rational left right]

/-- Numbers that keep their order compare as binary numbers, also where none of them is binary. -/
theorem mixedOrder_of_keepsOrder (number : x.kind = 1) (other : y.kind = 1)
    (keeps : x.KeepsOrder y) : mixedOrder x y = (binaryKey x).keyOrder (binaryKey y) := by
  cases floating : x.isFloating || y.isFloating with
  | true => rw [mixedOrder, floating, if_pos rfl]
  | false =>
    rw [Bool.or_eq_false_iff] at floating
    obtain ⟨a, left⟩ := Primitive.rational?_of_kind floating.1 number
    obtain ⟨b, right⟩ := Primitive.rational?_of_kind floating.2 other
    rw [mixedOrder_of_rational left right, keeps a left b right]

/-- Where the first key is not behind the second and this one is not behind the third, the first one
compares with the third and is not behind it; and equal keys are equal to each other. -/
def IsTransitive (x y z : Primitive) : Prop :=
  ∀ first second, sortOrder x y = .ok first → sortOrder y z = .ok second →
    ∃ third, sortOrder x z = .ok third ∧ (first ≠ .gt → second ≠ .gt → third ≠ .gt) ∧
      (first = .eq → second = .eq → third = .eq)

/-- Every three of the keys compare transitively, in whatever arrangement. -/
def SortsTransitively (keys : List Primitive) : Prop :=
  ∀ x ∈ keys, ∀ y ∈ keys, ∀ z ∈ keys, IsTransitive x y z

/-- Keys compare transitively if those of one kind do so by a measure with a transitive order. -/
theorem isTransitive_of_measure {Measure : Type} {order : Measure → Measure → Ordering}
    [Std.TransCmp order] (measure : Primitive → Measure)
    (measured : x.kind = y.kind → y.kind = z.kind →
      mixedOrder x y = order (measure x) (measure y) ∧
        mixedOrder y z = order (measure y) (measure z) ∧
          mixedOrder x z = order (measure x) (measure z)) :
    IsTransitive x y z := by
  intro first second sorted otherSorted
  obtain ⟨alike, rfl⟩ := sortOrder_eq_ok_iff.1 sorted
  obtain ⟨otherAlike, rfl⟩ := sortOrder_eq_ok_iff.1 otherSorted
  obtain ⟨left, right, outer⟩ := measured alike otherAlike
  refine ⟨mixedOrder x z, sortOrder_eq_ok_iff.2 ⟨alike.trans otherAlike, rfl⟩, ?_, ?_⟩
  · rw [left, right, outer]
    simp only [← Ordering.isLE_iff_ne_gt]
    exact Std.TransCmp.isLE_trans
  · rw [left, right, outer]
    exact Std.TransCmp.eq_trans

theorem isTransitive_of_exact (first : x.isFloating = false) (second : y.isFloating = false)
    (third : z.isFloating = false) : IsTransitive x y z :=
  @isTransitive_of_measure x y z _ Selection.keyOrder _ some fun _ _ =>
    ⟨mixedOrder_of_exact first second, mixedOrder_of_exact second third,
      mixedOrder_of_exact first third⟩

theorem isTransitive_of_keepsOrder (left : x.KeepsOrder y) (right : y.KeepsOrder z)
    (outer : x.KeepsOrder z) : IsTransitive x y z := by
  by_cases number : x.kind = 1
  · refine @isTransitive_of_measure x y z _ Binary64.keyOrder _ binaryKey fun alike otherAlike => ?_
    have second : y.kind = 1 := alike ▸ number
    have third : z.kind = 1 := otherAlike ▸ second
    exact ⟨mixedOrder_of_keepsOrder number second left,
      mixedOrder_of_keepsOrder second third right, mixedOrder_of_keepsOrder number third outer⟩
  · refine @isTransitive_of_measure x y z _ Selection.keyOrder _ some fun alike otherAlike => ?_
    -- Binary keys are numbers, and the others are of the kind of the first one.
    have exact (key : Primitive) (same : key.kind = x.kind) : key.isFloating = false := by
      rw [Bool.eq_false_iff]
      exact fun floating => number (same ▸ Primitive.kind_of_isFloating floating)
    have first := exact x rfl
    have second := exact y alike.symm
    have third := exact z (otherAlike.symm.trans alike.symm)
    exact ⟨mixedOrder_of_exact first second, mixedOrder_of_exact second third,
      mixedOrder_of_exact first third⟩

/-- Numbers that are promoted to themselves sort transitively, in particular binary numbers together
with integers of all types but the widest. -/
theorem sortsTransitively_of_isBinary {keys : List Primitive}
    (binary : ∀ key ∈ keys, key.IsBinary) : SortsTransitively keys :=
  fun x first y second z third =>
    isTransitive_of_keepsOrder ((binary x first).keepsOrder (binary y second))
      ((binary y second).keepsOrder (binary z third))
      ((binary x first).keepsOrder (binary z third))

/-- Keys that compare transitively with the binary number that one of them is promoted to are in
the same order as binary numbers. -/
theorem keyOrder_ne_gt_iff {a b : Rat} (left : x.rational? = some a)
    (right : y.rational? = some b)
    (through : IsTransitive x (.double (binaryKey x)) y)
    (around : IsTransitive (.double (binaryKey x)) x y) :
    (binaryKey x).keyOrder (binaryKey y) ≠ .gt ↔ Ord.compare a b ≠ .gt := by
  have number : x.kind = 1 := Primitive.kind_of_rational left
  have other : y.kind = 1 := Primitive.kind_of_rational right
  have self : (binaryKey x).keyOrder (binaryKey x) = .eq := Std.ReflCmp.compare_self
  have there : sortOrder x (.double (binaryKey x)) = .ok .eq :=
    self ▸ sortOrder_of_isFloating number rfl (Bool.or_true _)
  have back : sortOrder (.double (binaryKey x)) x = .ok .eq :=
    self ▸ sortOrder_of_isFloating rfl number (Bool.true_or _)
  have promoted : sortOrder (.double (binaryKey x)) y =
      .ok ((binaryKey x).keyOrder (binaryKey y)) :=
    sortOrder_of_isFloating rfl other (Bool.true_or _)
  have exact : sortOrder x y = .ok (Ord.compare a b) :=
    sortOrder_eq_ok_iff.2 ⟨number.trans other.symm, mixedOrder_of_rational left right⟩
  constructor
  · intro behind
    obtain ⟨third, sorted, law, _⟩ := through _ _ there promoted
    rw [exact] at sorted
    cases sorted
    exact law (by decide) behind
  · intro behind
    obtain ⟨third, sorted, law, _⟩ := around _ _ back exact
    rw [promoted] at sorted
    cases sorted
    exact law (by decide) behind

/-- An ordering is known from the two questions whether either side is behind. -/
theorem ordering_eq_of_ne_gt_iff {first second : Ordering}
    (forward : first ≠ .gt ↔ second ≠ .gt) (backward : first.swap ≠ .gt ↔ second.swap ≠ .gt) :
    first = second := by
  cases first <;> cases second <;> simp at forward backward ⊢

theorem keepsOrder_of_sortsTransitively {keys : List Primitive}
    (sorts : ∀ z : Primitive, z.isFloating = true → SortsTransitively (z :: keys))
    (first : x ∈ keys) (second : y ∈ keys) : x.KeepsOrder y := by
  intro a left b right
  have behind {u v : Primitive} {p q : Rat} (inside : u ∈ keys) (among : v ∈ keys)
      (exact : u.rational? = some p) (other : v.rational? = some q) :
      (binaryKey u).keyOrder (binaryKey v) ≠ .gt ↔ Ord.compare p q ≠ .gt := by
    -- One binary number tells: the one that the first key is promoted to.
    have law := sorts (.double (binaryKey u)) rfl
    have promoted : Primitive.double (binaryKey u) ∈ .double (binaryKey u) :: keys :=
      List.mem_cons_self
    have there := List.mem_cons_of_mem (.double (binaryKey u)) inside
    have also := List.mem_cons_of_mem (.double (binaryKey u)) among
    exact keyOrder_ne_gt_iff exact other (law _ there _ promoted _ also)
      (law _ promoted _ there _ also)
  have forward := behind first second left right
  have backward := behind second first right left
  have swap : (binaryKey y).keyOrder (binaryKey x) =
      ((binaryKey x).keyOrder (binaryKey y)).swap := Std.OrientedCmp.eq_swap
  have exactSwap : Ord.compare b a = (Ord.compare a b).swap := Std.OrientedOrd.eq_swap
  rw [swap, exactSwap] at backward
  exact ordering_eq_of_ne_gt_iff forward backward

/-- Keys compare the same way in both directions, and transitively if none of them is binary. With
binary numbers among them they do so if and only if the others keep their order as binary numbers.
-/
theorem sortOrder_isTotal (keys : List Primitive) :
    (∀ x : Primitive, sortOrder x x = .ok .eq) ∧
    (∀ (x y : Primitive) (ordering : Ordering), sortOrder x y = .ok ordering →
      sortOrder y x = .ok ordering.swap) ∧
    ((∀ key ∈ keys, key.isFloating = false) → SortsTransitively keys) ∧
    ((∀ x ∈ keys, ∀ y ∈ keys, x.KeepsOrder y) ↔
      ∀ z : Primitive, z.isFloating = true → SortsTransitively (z :: keys)) := by
  refine ⟨?_, ?_, ?_, ?_, ?_⟩
  · exact fun x => sortOrder_eq_ok_iff.2 ⟨rfl, mixedOrder_self x⟩
  · intro x y ordering sorted
    obtain ⟨alike, rfl⟩ := sortOrder_eq_ok_iff.1 sorted
    exact sortOrder_eq_ok_iff.2 ⟨alike.symm, mixedOrder_swap x y⟩
  · exact fun exact x first y second z third =>
      isTransitive_of_exact (exact x first) (exact y second) (exact z third)
  · intro keeps binary floating
    have among : ∀ x ∈ binary :: keys, ∀ y ∈ binary :: keys, x.KeepsOrder y := by
      intro x first y second
      rcases List.mem_cons.1 first with rfl | first
      · exact Primitive.keepsOrder_of_isFloating (.inl floating)
      · rcases List.mem_cons.1 second with rfl | second
        · exact Primitive.keepsOrder_of_isFloating (.inr floating)
        · exact keeps x first y second
    exact fun x first y second z third =>
      isTransitive_of_keepsOrder (among x first y second) (among y second z third)
        (among x first z third)
  · exact fun sorts x first y second => keepsOrder_of_sortsTransitively sorts first second

/-- The largest integer of 53 bits, a small one, and what is not a number, with a zero of single
precision added. -/
theorem sortOrder_isTotal_zero :
    let small : Primitive := .integer ⟨.int32, 7, by decide⟩
    let large : Primitive := .integer ⟨.int64, 9007199254740991, by decide⟩
    let unknown : Primitive := .double (.nan false)
    let keys := [small, large, unknown]
    sortOrder unknown unknown = .ok .eq ∧ sortOrder unknown large = .ok .gt ∧
      sortOrder large unknown = .ok .lt ∧ SortsTransitively [small, large] ∧
      SortsTransitively (.single .zero :: keys) := by
  intro small large unknown keys
  obtain ⟨self, swap, exact, mixed⟩ := sortOrder_isTotal keys
  have behind : sortOrder unknown large = .ok .gt := rfl
  have binary : ∀ key ∈ keys, key.IsBinary := by
    intro key inside
    simp only [keys, List.mem_cons, List.not_mem_nil, or_false] at inside
    rcases inside with rfl | rfl | rfl
    · exact Primitive.isBinary_of_width_ne_int64 (by decide)
    · exact Primitive.isBinary_integer (by decide)
    · exact Primitive.isBinary_of_isFloating rfl
  have keeps : ∀ x ∈ keys, ∀ y ∈ keys, x.KeepsOrder y :=
    fun x first y second => (binary x first).keepsOrder (binary y second)
  have integers : ∀ key ∈ [small, large], key.isFloating = false := by decide
  exact ⟨self unknown, behind, swap _ _ _ behind, (sortOrder_isTotal [small, large]).2.2.1 integers,
    mixed.1 keeps (.single .zero) rfl⟩

/-- Two integers that are promoted to the same binary number are equal to it and not to each
other. -/
theorem not_sortsTransitively :
    let next : Primitive := .integer ⟨.int64, 9007199254740993, by decide⟩
    let binary : Primitive := .double (.finite false 4503599627370496 1)
    let even : Primitive := .integer ⟨.int64, 9007199254740992, by decide⟩
    sortOrder next binary = .ok .eq ∧ sortOrder binary even = .ok .eq ∧
      sortOrder next even = .ok .gt ∧ ¬ SortsTransitively [next, binary, even] := by
  intro next binary even
  have first : sortOrder next binary = .ok .eq := rfl
  have second : sortOrder binary even = .ok .eq := rfl
  have outer : sortOrder next even = .ok .gt := rfl
  refine ⟨first, second, outer, fun sorts => ?_⟩
  -- Through the binary number the integers would be equal.
  obtain ⟨third, sorted, _, equal⟩ :=
    sorts next (by simp) binary (by simp) even (by simp) _ _ first second
  rw [outer] at sorted
  cases sorted
  cases equal rfl rfl

end Comparison

end EdmQuery
