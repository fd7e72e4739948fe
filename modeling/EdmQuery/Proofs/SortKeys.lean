import Mathlib.Algebra.Order.Field.Rat
import Mathlib.Data.Rat.Cast.Order
import Mathlib.Order.Compare
import EdmQuery.Evaluation.Selection

set_option autoImplicit false

/- The order of sort keys. Apart from binary numbers, values compare exactly if they are of one
kind, where all integers and decimals are of one kind and compare by the rational numbers that they
denote. So to be comparable is an equivalence, and the order within the kinds extends to a total
preorder of all keys in which null comes first. -/
namespace EdmQuery

namespace Decimal

/-- The mantissa with its sign. -/
def signed (x : Decimal) : Int := if x.negative then -(x.mantissa : Int) else x.mantissa

/-- The rational number that a decimal denotes. -/
def toRat (x : Decimal) : Rat := mkRat x.signed (Nat.pow 10 x.scale)

end Decimal

/-- The number that an integer or a decimal denotes. -/
def Primitive.rational? : Primitive → Option Rat
  | integer value => some value.value
  | decimal value => some value.toRat
  | _ => none

/-- Whether the value is a binary number of either precision. -/
def Primitive.isFloating : Primitive → Bool
  | single _ | double _ => true
  | _ => false

/-- Integers are ordered like numbers that they scale. -/
theorem compare_eq_of_scaled {x y : Int} {p q unit : Rat} (positive : 0 < unit)
    (left : (x : Rat) = p * unit) (right : (y : Rat) = q * unit) :
    compare x y = compare p q := by
  have less : x < y ↔ p < q := by
    rw [← @Int.cast_lt Rat, left, right, mul_lt_mul_iff_left₀ positive]
  have same : x = y ↔ p = q := by
    rw [← @Int.cast_inj Rat, left, right, mul_left_inj' positive.ne']
  rw [LinearOrder.compare_eq_compareOfLessAndEq p q]
  show compareOfLessAndEq x y = _
  simp only [compareOfLessAndEq, less, same]

namespace Decimal

theorem toRat_mul (x : Decimal) : x.toRat * (Nat.pow 10 x.scale : Nat) = x.signed := by
  have positive : ((Nat.pow 10 x.scale : Nat) : Rat) ≠ 0 :=
    Nat.cast_ne_zero.2 (Nat.pow_pos (by decide)).ne'
  rw [toRat, Rat.mkRat_eq_div, div_mul_cancel₀ _ positive]

theorem scaledTo_eq_signed (x : Decimal) (places : Nat) :
    x.scaledTo places = x.signed * (Nat.pow 10 (places - x.scale) : Nat) := by
  rw [scaledTo, signed]
  split
  · rw [Int.natCast_mul, Int.neg_mul]
  · exact Int.natCast_mul ..

/-- Written with more places, the number is the same. -/
theorem scaledTo_eq (x : Decimal) {places : Nat} (inside : x.scale ≤ places) :
    (x.scaledTo places : Rat) = x.toRat * (Nat.pow 10 places : Nat) := by
  have split : Nat.pow 10 places = Nat.pow 10 x.scale * Nat.pow 10 (places - x.scale) := by
    show 10 ^ places = 10 ^ x.scale * 10 ^ (places - x.scale)
    rw [← Nat.pow_add, Nat.add_sub_cancel' inside]
  rw [scaledTo_eq_signed, split, Nat.cast_mul, ← mul_assoc, toRat_mul]
  exact Int.cast_mul ..

theorem compare_eq (x y : Decimal) : x.compare y = Ord.compare x.toRat y.toRat := by
  have positive : (0 : Rat) < (Nat.pow 10 (max x.scale y.scale) : Nat) :=
    Nat.cast_pos.2 (Nat.pow_pos (by decide))
  exact compare_eq_of_scaled positive (x.scaledTo_eq (Nat.le_max_left ..))
    (y.scaledTo_eq (Nat.le_max_right ..))

/-- An integer of 64 bits is itself as a decimal. -/
theorem toRat_ofInt64 {n : Int} (inside : IntegerType.int64.contains n = true) :
    (ofInt64 n).toRat = n := by
  have bounds : -9223372036854775808 ≤ n ∧ n ≤ 9223372036854775807 :=
    (IntegerType.contains_iff _ _).1 inside
  have fits : n.natAbs < Nat.pow 2 96 ∧ 0 ≤ 28 := by
    constructor
    · show n.natAbs < 79228162514264337593543950336
      omega
    · decide
  have parts : ofInt64 n = ⟨decide (n < 0) && n.natAbs != 0, n.natAbs, 0, fits.1, fits.2⟩ := by
    rw [ofInt64, ofInt?, ofParts?, dif_pos fits]
    rfl
  have whole : (ofInt64 n).signed = n := by
    rw [parts, signed]
    grind
  have unit := (ofInt64 n).toRat_mul
  rw [whole, parts] at unit
  rw [parts]
  simpa using unit

end Decimal

namespace Primitive

/-- Values compare with their own kind only. -/
def kind : Primitive → Nat
  | boolean _ => 0
  | integer _ | decimal _ | single _ | double _ => 1
  | string _ => 2
  | guid _ => 3
  | date _ => 4
  | dateTimeOffset _ => 5
  | timeOfDay _ => 6
  | binary _ => 7

theorem kind_of_numeric {value : Primitive} (number : value.numeric?.isSome = true) :
    value.kind = 1 := by
  cases value <;> first | rfl | cases number

theorem kind_of_rational {value : Primitive} {a : Rat} (number : value.rational? = some a) :
    value.kind = 1 := by
  cases value <;> first | rfl | cases number

theorem rational?_of_kind {value : Primitive} (exact : value.isFloating = false)
    (number : value.kind = 1) : ∃ a, value.rational? = some a := by
  cases value <;> simp [kind, isFloating, rational?] at exact number ⊢

def number (value : Primitive) : Rat := value.rational?.getD 0

def count : Primitive → Int
  | boolean value => value.toNat
  | guid value => value.value
  | date value => value.toDays
  | dateTimeOffset value => value.toSeconds
  | timeOfDay value => value.secondOfDay
  | _ => 0

def nanosecond : Primitive → Nat
  | dateTimeOffset value => value.time.nanosecond
  | timeOfDay value => value.nanosecond
  | _ => 0

def text : Primitive → String
  | string value => value
  | _ => ""

def octets : Primitive → List Nat
  | binary bytes => bytes.map UInt8.toNat
  | _ => []

end Primitive

theorem compareBytes_eq (xs ys : List UInt8) :
    compareBytes xs ys = compare (xs.map UInt8.toNat) (ys.map UInt8.toNat) := by
  induction xs generalizing ys with
  | nil => cases ys <;> rfl
  | cons x xs ih =>
    cases ys with
    | nil => rfl
    | cons y ys =>
      rw [compareBytes, ih]
      exact List.compare_cons_cons.symm

/-- Integers and decimals compare by the numbers that they denote, in whatever types they are
held. -/
theorem Primitive.compare?_of_rational {x y : Primitive} {a b : Rat} (left : x.rational? = some a)
    (right : y.rational? = some b) : x.compare? y = some (compare a b) := by
  have wide (value : TypedInteger) : (Decimal.ofInt64 value.value).toRat = value.value :=
    Decimal.toRat_ofInt64 (value.width.int64_contains value.value value.inside)
  have whole (n m : Int) : compare n m = compare (n : Rat) (m : Rat) :=
    compare_eq_of_scaled one_pos (mul_one _).symm (mul_one _).symm
  cases x with
  | integer value =>
    cases left
    cases y with
    | integer other =>
      cases right
      exact congrArg some (whole value.value other.value)
    | decimal other =>
      cases right
      show some ((Decimal.ofInt64 value.value).compare other) = _
      rw [Decimal.compare_eq, wide]
    | _ => cases right
  | decimal value =>
    cases left
    cases y with
    | integer other =>
      cases right
      show some (value.compare (Decimal.ofInt64 other.value)) = _
      rw [Decimal.compare_eq, wide]
    | decimal other =>
      cases right
      exact congrArg some (value.compare_eq other)
    | _ => cases right
  | _ => cases left

namespace Selection

/-- Compares by the kind and then by one measure after the other, null before everything. -/
def keyOrder : Option Primitive → Option Primitive → Ordering :=
  compareLex (compareOn (Option.map Primitive.kind)) <|
    compareLex (compareOn (Option.map Primitive.number)) <|
      compareLex (compareOn (Option.map Primitive.count)) <|
        compareLex (compareOn (Option.map Primitive.nanosecond)) <|
          compareLex (compareOn (Option.map Primitive.text)) <|
            compareOn (Option.map Primitive.octets)

instance transCmp_keyOrder : Std.TransCmp keyOrder := by
  unfold keyOrder
  infer_instance

theorem keyOrder_some (x y : Primitive) :
    keyOrder (some x) (some y) =
      (compare x.kind y.kind).then ((compare x.number y.number).then
        ((compare x.count y.count).then ((compare x.nanosecond y.nanosecond).then
          ((compare x.text y.text).then (compare x.octets y.octets))))) := rfl

theorem keyOrder_of_rational {x y : Primitive} {a b : Rat} (left : x.rational? = some a)
    (right : y.rational? = some b) : keyOrder (some x) (some y) = compare a b := by
  rw [keyOrder_some]
  cases x <;> cases left <;> cases y <;> cases right <;>
    simp [Primitive.kind, Primitive.number, Primitive.rational?, Primitive.count,
      Primitive.nanosecond, Primitive.text, Primitive.octets]

theorem compare_natCast (n m : Nat) : compare (n : Int) (m : Int) = compare n m := by
  show compareOfLessAndEq (n : Int) m = compareOfLessAndEq n m
  simp only [compareOfLessAndEq, Int.ofNat_lt, Int.natCast_inj]

/-- Within a kind, one measure or two tell what the comparison tells. -/
theorem compare?_eq_keyOrder {x y : Primitive} (exact : x.isFloating = false)
    (other : y.isFloating = false) (alike : x.kind = y.kind) :
    x.compare? y = some (keyOrder (some x) (some y)) := by
  have kinds : compare x.kind y.kind = .eq := Nat.compare_eq_eq.2 alike
  by_cases number : x.kind = 1
  · obtain ⟨a, left⟩ := Primitive.rational?_of_kind exact number
    obtain ⟨b, right⟩ := Primitive.rational?_of_kind other (alike ▸ number)
    rw [Primitive.compare?_of_rational left right, keyOrder_of_rational left right]
  · rw [keyOrder_some, kinds]
    cases x <;> cases y <;> cases alike <;> first
      | exact absurd rfl number
      | simp [Primitive.compare?, Primitive.numeric?, Primitive.number, Primitive.rational?,
          Primitive.count, Primitive.nanosecond, Primitive.text, Primitive.octets,
          compare_natCast, compareBytes_eq, Guid.compare, Date.compare, DateTimeOffset.compare,
          TimeOfDay.compare]

/-- Values of different kinds do not compare. -/
theorem compare?_eq_none {x y : Primitive} (apart : x.kind ≠ y.kind) : x.compare? y = none := by
  cases x <;> cases y <;> first | rfl | exact absurd rfl apart

theorem order_of_kind_ne (operator : String) {x y : Primitive} (apart : x.kind ≠ y.kind) :
    Comparison.order operator x y = .error (.typeMismatch operator x.typeName y.typeName) := by
  have plain : ¬ (x.numeric?.isSome && y.numeric?.isSome) = true := by
    intro numbers
    rw [Bool.and_eq_true] at numbers
    exact apart ((Primitive.kind_of_numeric numbers.1).trans
      (Primitive.kind_of_numeric numbers.2).symm)
  rw [Comparison.order, compare?_eq_none apart]
  simp only [plain]
  rfl

theorem sortOrder_of_kind_ne {x y : Primitive} (apart : x.kind ≠ y.kind) :
    Comparison.sortOrder x y = .error (.typeMismatch "$orderby" x.typeName y.typeName) := by
  rw [Comparison.sortOrder, order_of_kind_ne "$orderby" apart]
  rfl

theorem sortOrder_eq {x y : Primitive} (exact : x.isFloating = false)
    (other : y.isFloating = false) :
    Comparison.sortOrder x y =
      if x.kind = y.kind then .ok (keyOrder (some x) (some y))
      else .error (.typeMismatch "$orderby" x.typeName y.typeName) := by
  split
  · next alike =>
    rw [Comparison.sortOrder, Comparison.order, compare?_eq_keyOrder exact other alike]
    rfl
  · next apart => exact sortOrder_of_kind_ne apart

/-- Keys that are null or compare with each other, none of them a binary number. -/
structure Comparable (k l : Option Primitive) : Prop where
  left : ∀ x ∈ k, x.isFloating = false
  right : ∀ y ∈ l, y.isFloating = false
  alike : ∀ x ∈ k, ∀ y ∈ l, x.kind = y.kind

/-- What it means for two keys to compare in some way: null comes before every value, integers and
decimals compare by the numbers that they denote, and other values as the sort order says. -/
inductive KeysCompare : Option Primitive → Option Primitive → Ordering → Prop
  | nulls : KeysCompare none none .eq
  | null (y : Primitive) : KeysCompare none (some y) .lt
  | value (x : Primitive) : KeysCompare (some x) none .gt
  | numbers {x y : Primitive} {a b : Rat} (left : x.rational? = some a)
      (right : y.rational? = some b) : KeysCompare (some x) (some y) (compare a b)
  | others {x y : Primitive} {ordering : Ordering} (plain : x.rational? = none)
      (sorted : Comparison.sortOrder x y = .ok ordering) : KeysCompare (some x) (some y) ordering

namespace Comparable

variable {k l : Option Primitive} (comparable : Comparable k l)

include comparable

theorem sortOrder_eq_ok {x y : Primitive} (first : x ∈ k) (second : y ∈ l) :
    Comparison.sortOrder x y = .ok (keyOrder (some x) (some y)) := by
  rw [sortOrder_eq (comparable.left x first) (comparable.right y second),
    if_pos (comparable.alike x first y second)]

/-- The order of all keys is the one that the keys are sorted by. -/
theorem compareKeys_eq : compareKeys k l = keyOrder k l := by
  cases k with
  | none => cases l <;> rfl
  | some x =>
    cases l with
    | none => rfl
    | some y => rw [compareKeys, comparable.sortOrder_eq_ok rfl rfl]

theorem keysCompare : KeysCompare k l (keyOrder k l) := by
  cases k with
  | none =>
    cases l with
    | none => exact .nulls
    | some y => exact .null y
  | some x =>
    cases l with
    | none => exact .value x
    | some y =>
      cases number : x.rational? with
      | none => exact .others number (comparable.sortOrder_eq_ok rfl rfl)
      | some a =>
        have kind : y.kind = 1 :=
          comparable.alike x rfl y rfl ▸ Primitive.kind_of_rational number
        obtain ⟨b, other⟩ := Primitive.rational?_of_kind (comparable.right y rfl) kind
        rw [keyOrder_of_rational number other]
        exact .numbers number other

/-- Keys compare in one way only. -/
theorem keysCompare_iff {ordering : Ordering} :
    KeysCompare k l ordering ↔ keyOrder k l = ordering := by
  refine ⟨fun compare => ?_, fun same => same ▸ comparable.keysCompare⟩
  cases compare with
  | nulls => rfl
  | null y => rfl
  | value x => rfl
  | numbers left right => exact keyOrder_of_rational left right
  | others plain sorted =>
    rw [comparable.sortOrder_eq_ok rfl rfl] at sorted
    exact Except.ok.inj sorted

end Comparable

end Selection

end EdmQuery
