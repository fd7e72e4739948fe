import EdmQuery.Proofs.Digits
import EdmQuery.Proofs.Runs
import EdmQuery.Proofs.Separators
import EdmQuery.Service.Options

set_option autoImplicit false

namespace EdmQuery

/-- What stands between two ampersands: a name and a value, a name alone, or nothing. -/
inductive Parameter
  | pair (name value : String)
  | bare (name : String)
  | blank

namespace Parameter

def spell : Parameter → List Char
  | pair name value => name.toList ++ '=' :: value.toList
  | bare name => name.toList
  | blank => []

/-- A name alone has an empty value. -/
def named? : Parameter → Option (String × String)
  | pair name value => some (name, value)
  | bare name => some (name, "")
  | blank => none

/-- No part has a separator in it that would end it early, and a name alone is not empty. -/
def IsPlain : Parameter → Prop
  | pair name value => ('&' ∉ name.toList ∧ '=' ∉ name.toList) ∧ '&' ∉ value.toList
  | bare name => ('&' ∉ name.toList ∧ '=' ∉ name.toList) ∧ name ≠ ""
  | blank => True

instance : DecidablePred IsPlain
  | pair .. => inferInstanceAs (Decidable (_ ∧ _))
  | bare _ => inferInstanceAs (Decidable (_ ∧ _))
  | blank => inferInstanceAs (Decidable True)

variable {parameter : Parameter}

theorem IsPlain.free (plain : parameter.IsPlain) : '&' ∉ parameter.spell := by
  cases parameter with
  | pair name value =>
    rw [spell, List.mem_append, List.mem_cons]
    rintro (inName | equals | inValue)
    · exact plain.1.1 inName
    · cases equals
    · exact plain.2 inValue
  | bare name => exact plain.1.1
  | blank => exact List.not_mem_nil

/-- A piece that is not empty is cut into name and value. -/
theorem IsPlain.cut (plain : parameter.IsPlain) :
    (if parameter.spell ≠ [] then
      some (String.ofList (Text.cutAtFirst '=' parameter.spell).1,
        String.ofList (Text.cutAtFirst '=' parameter.spell).2)
    else none) = parameter.named? := by
  cases parameter with
  | pair name value =>
    have solid : (pair name value).spell ≠ [] := by simp [spell]
    rw [if_pos solid, spell, Text.cutAtFirst_append plain.1.2, String.ofList_toList,
      String.ofList_toList]
    rfl
  | bare name =>
    have solid : (bare name).spell ≠ [] := fun empty => plain.2 (String.toList_eq_nil_iff.1 empty)
    rw [if_pos solid, spell, Text.cutAtFirst_of_free plain.1.2, String.ofList_toList]
    rfl
  | blank => rfl

end Parameter

namespace QueryOptions

def queryText (parameters : List Parameter) : String :=
  String.ofList (['&'].intercalate (parameters.map Parameter.spell))

/-- The parameters of a text are those that it was put together from. -/
theorem parameters_queryText {parameters : List Parameter}
    (plain : ∀ parameter ∈ parameters, parameter.IsPlain) :
    QueryOptions.parameters (queryText parameters) = parameters.filterMap Parameter.named? := by
  have cuts : ∀ others : List Parameter, (∀ parameter ∈ others, parameter.IsPlain) →
      ((others.map Parameter.spell).filter (· ≠ [])).map (fun piece =>
        (String.ofList (Text.cutAtFirst '=' piece).1,
          String.ofList (Text.cutAtFirst '=' piece).2)) =
        others.filterMap Parameter.named? := by
    intro others plain
    induction others with
    | nil => rfl
    | cons parameter rest ih =>
      have first := (plain parameter List.mem_cons_self).cut
      have later := ih fun other inside => plain other (List.mem_cons_of_mem _ inside)
      rw [List.filterMap_cons, List.map_cons, List.filter_cons, ← first, ← later]
      by_cases solid : parameter.spell ≠ []
      · rw [if_pos (decide_eq_true solid), if_pos solid, List.map_cons]
      · rw [if_neg (by rwa [decide_eq_true_eq]), if_neg solid]
  rw [QueryOptions.parameters, queryText, String.toList_ofList]
  cases parameters with
  | nil => rfl
  | cons parameter rest =>
    have free : ∀ text ∈ (parameter :: rest).map Parameter.spell, '&' ∉ text := by
      intro text inside
      obtain ⟨other, among, rfl⟩ := List.mem_map.1 inside
      exact (plain other among).free
    rw [Text.pieces_intercalate (by simp) free]
    exact cuts _ plain

/-- The options that are texts. -/
inductive TextOption
  | filter
  | search
  | orderBy
  | select
  | expand

namespace TextOption

def name : TextOption → String
  | filter => "$filter"
  | search => "$search"
  | orderBy => "$orderby"
  | select => "$select"
  | expand => "$expand"

def get? (options : QueryOptions) : TextOption → Option String
  | filter => options.filter?
  | search => options.search?
  | orderBy => options.orderBy?
  | select => options.select?
  | expand => options.expand?

def set (options : QueryOptions) (text : String) : TextOption → QueryOptions
  | filter => { options with filter? := some text }
  | search => { options with search? := some text }
  | orderBy => { options with orderBy? := some text }
  | select => { options with select? := some text }
  | expand => { options with expand? := some text }

def all : List TextOption := [filter, search, orderBy, select, expand]

end TextOption

/-- The options that are counts. -/
inductive CountOption
  | top
  | skip

namespace CountOption

def name : CountOption → String
  | top => "$top"
  | skip => "$skip"

def get? (options : QueryOptions) : CountOption → Option Nat
  | top => options.top?
  | skip => options.skip?

def set (options : QueryOptions) (count : Nat) : CountOption → QueryOptions
  | top => { options with top? := some count }
  | skip => { options with skip? := some count }

def names : List String := [top.name, skip.name]

end CountOption

/-- A system option has a dollar sign in front of its name. -/
def isSystem (name : String) : Bool := name.toList.head? == some '$'

def systemNames : List String := TextOption.all.map TextOption.name ++ CountOption.names

variable {options after : QueryOptions} {value : String}

/-- A text is taken once. -/
theorem addParameter_text (option : TextOption) (options : QueryOptions) (value : String) :
    options.addParameter option.name value =
      if (option.get? options).isSome then
        .error (invalid option.name
          ("Query option " ++ Error.quoted option.name ++ " given more than once"))
      else .ok (option.set options value) := by
  have taken : options.addParameter option.name value =
      (readText option.name (option.get? options) value).map fun _ => option.set options value := by
    cases option
    all_goals
      rw [TextOption.name, addParameter, TextOption.get?, readText]
      split <;> rfl
  rw [taken, readText]
  split <;> rfl

/-- A count takes the place of an earlier one. -/
theorem addParameter_count (option : CountOption) (options : QueryOptions) (value : String) :
    options.addParameter option.name value =
      (readCount option.name value).map fun count => option.set options count := by
  cases option
  all_goals
    rw [CountOption.name, addParameter]
    cases readCount _ value <;> rfl

theorem addParameter_other {name : String} (other : name ∉ systemNames) (options : QueryOptions)
    (value : String) : options.addParameter name value =
      if isSystem name then
        .error (invalid name ("Unsupported query option " ++ Error.quoted name))
      else .ok options := by
  have apart : ∀ known ∈ systemNames, name ≠ known := fun known inside same => other (same ▸ inside)
  rw [addParameter]
  · rw [isSystem]
    by_cases dollar : name.toList.head? = some '$'
    · rw [if_pos dollar, if_pos (beq_iff_eq.2 dollar)]
      rfl
    · rw [if_neg dollar, if_neg (fun same => dollar (beq_iff_eq.1 same))]
      rfl
  all_goals exact apart _ (by decide)

/-- A count is spelled with digits, perhaps with a plus sign in front and blanks around, and fits 64
bits. -/
def SpellsCount (value : String) (count : Nat) : Prop :=
  count < Nat.pow 2 64 ∧ ∃ digits, digits ≠ [] ∧ (∀ char ∈ digits, isAsciiDigit char = true) ∧
    digitsValue digits = count ∧
    (Text.trim value.toList = digits ∨ Text.trim value.toList = '+' :: digits)

/-- A text without the plus sign in front, if there is one. -/
def withoutPlus : List Char → List Char
  | '+' :: rest => rest
  | other => other

theorem withoutPlus_cases (text : List Char) :
    text = withoutPlus text ∨ text = '+' :: withoutPlus text := by
  rw [withoutPlus.eq_def]
  split
  · exact .inr rfl
  · exact .inl rfl

theorem withoutPlus_of_digits {digits : List Char}
    (digit : ∀ char ∈ digits, isAsciiDigit char = true) : withoutPlus digits = digits := by
  rw [withoutPlus.eq_def]
  split
  · exact absurd (digit '+' List.mem_cons_self) (by decide)
  · rfl

theorem readCount_eq (name value : String) : readCount name value =
    if withoutPlus (Text.trim value.toList) ≠ [] ∧
        (withoutPlus (Text.trim value.toList)).all isAsciiDigit ∧
        digitsValue (withoutPlus (Text.trim value.toList)) < Nat.pow 2 64 then
      .ok (digitsValue (withoutPlus (Text.trim value.toList)))
    else .error (invalid name
      (name ++ " must be a non-negative integer, got " ++ Error.quoted value)) := rfl

theorem readCount_eq_ok {value : String} {count : Nat} (name : String) :
    readCount name value = .ok count ↔ SpellsCount value count := by
  rw [readCount_eq]
  constructor
  · intro read
    split at read
    · next shape =>
      cases read
      exact ⟨shape.2.2, _, shape.1, List.all_eq_true.1 shape.2.1, rfl, withoutPlus_cases _⟩
    · cases read
  · rintro ⟨fits, digits, some, digit, rfl, spelled⟩
    have unsigned : withoutPlus (Text.trim value.toList) = digits := by
      rcases spelled with plain | signed
      · rw [plain, withoutPlus_of_digits digit]
      · rw [signed, withoutPlus]
    rw [unsigned, if_pos ⟨some, List.all_eq_true.2 digit, fits⟩]

theorem SpellsCount.unique {value : String} {count other : Nat} (spells : SpellsCount value count)
    (spelled : SpellsCount value other) : count = other := by
  have first := (readCount_eq_ok "").2 spells
  rw [(readCount_eq_ok "").2 spelled] at first
  exact (Except.ok.inj first).symm

/-- The values that are given under a name. -/
def valuesOf (name : String) (pairs : List (String × String)) : List String :=
  pairs.filterMap fun pair => if pair.1 = name then some pair.2 else none

/-- Options hold the last values that are given for them, a count as the number that it spells. -/
structure Holds (options : QueryOptions) (pairs : List (String × String)) : Prop where
  text : ∀ option : TextOption, option.get? options = (valuesOf option.name pairs).getLast?
  count : ∀ (option : CountOption) (count : Nat), option.get? options = some count ↔
    ∃ value, (valuesOf option.name pairs).getLast? = some value ∧ SpellsCount value count
  level : options.level = .minimal

/-- All names of system options are known, none of them is given twice unless it may be, and the
counts are numbers. -/
structure IsWellFormed (repeatable : List String) (pairs : List (String × String)) : Prop where
  known : ∀ pair ∈ pairs, isSystem pair.1 = true → pair.1 ∈ systemNames
  once : ∀ name ∈ systemNames, name ∉ repeatable → (valuesOf name pairs).length ≤ 1
  counts : ∀ option : CountOption, ∀ value ∈ valuesOf option.name pairs,
    ∃ count, SpellsCount value count

def CountsOnce (pairs : List (String × String)) : Prop :=
  ∀ option : CountOption, (valuesOf option.name pairs).length ≤ 1

variable {before rest pairs : List (String × String)} {name : String}

theorem valuesOf_append (name : String) (before rest : List (String × String)) :
    valuesOf name (before ++ rest) = valuesOf name before ++ valuesOf name rest :=
  List.filterMap_append

theorem valuesOf_self (name value : String) : valuesOf name [(name, value)] = [value] := by
  simp [valuesOf]

theorem valuesOf_other {other : String} (apart : name ≠ other) (value : String) :
    valuesOf other [(name, value)] = [] := by
  simp [valuesOf, apart]

theorem holds_unset : Holds unset [] where
  text option := by cases option <;> rfl
  count option count := by
    have unheld : option.get? unset = none := by cases option <;> rfl
    rw [unheld]
    constructor
    · intro held
      cases held
    · rintro ⟨value, given, -⟩
      cases given
  level := rfl

theorem TextOption.name_mem (option : TextOption) : option.name ∈ systemNames := by
  cases option <;> decide

theorem CountOption.name_mem (option : CountOption) : option.name ∈ CountOption.names := by
  cases option <;> decide

theorem TextOption.name_apart (option : TextOption) (other : CountOption) :
    option.name ≠ other.name := by
  cases option <;> cases other <;> decide

theorem TextOption.name_inj {option other : TextOption} (same : option.name = other.name) :
    option = other := by
  cases option <;> cases other <;> first | rfl | exact absurd same (by decide)

theorem CountOption.name_inj {option other : CountOption} (same : option.name = other.name) :
    option = other := by
  cases option <;> cases other <;> first | rfl | exact absurd same (by decide)

theorem exists_option (known : name ∈ systemNames) :
    (∃ option : TextOption, option.name = name) ∨ ∃ option : CountOption, option.name = name := by
  rcases List.mem_append.1 known with text | count
  · obtain ⟨option, -, rfl⟩ := List.mem_map.1 text
    exact .inl ⟨option, rfl⟩
  · rcases List.mem_cons.1 count with rfl | count
    · exact .inr ⟨.top, rfl⟩
    · rw [List.mem_singleton] at count
      exact .inr ⟨.skip, count.symm⟩

/-- A text that is taken is the last one of its name, and nothing else changes. -/
theorem Holds.setText (holds : options.Holds before) (option : TextOption) (value : String) :
    (option.set options value).Holds (before ++ [(option.name, value)]) where
  text other := by
    rw [valuesOf_append]
    by_cases same : option.name = other.name
    · obtain rfl := TextOption.name_inj same
      rw [valuesOf_self, List.getLast?_concat]
      cases option <;> rfl
    · rw [valuesOf_other same, List.append_nil, ← holds.text other]
      cases option <;> cases other <;> first | rfl | exact absurd rfl same
  count other count := by
    have apart := option.name_apart other
    rw [valuesOf_append, valuesOf_other apart, List.append_nil, ← holds.count other]
    cases option <;> cases other <;> rfl
  level := by
    rw [← holds.level]
    cases option <;> rfl

theorem Holds.setCount (holds : options.Holds before) (option : CountOption) {count : Nat}
    (spelled : SpellsCount value count) :
    (option.set options count).Holds (before ++ [(option.name, value)]) where
  text other := by
    have apart := (other.name_apart option).symm
    rw [valuesOf_append, valuesOf_other apart, List.append_nil, ← holds.text other]
    cases option <;> cases other <;> rfl
  count other number := by
    rw [valuesOf_append]
    by_cases same : option.name = other.name
    · obtain rfl := CountOption.name_inj same
      have held : option.get? (option.set options count) = some count := by cases option <;> rfl
      rw [valuesOf_self, List.getLast?_concat, held, Option.some.injEq]
      constructor
      · rintro rfl
        exact ⟨value, rfl, spelled⟩
      · rintro ⟨given, last, spells⟩
        cases last
        exact spelled.unique spells
    · rw [valuesOf_other same, List.append_nil, ← holds.count other]
      cases option <;> cases other <;> first | rfl | exact absurd rfl same
  level := by
    rw [← holds.level]
    cases option <;> rfl

/-- Other names leave all options as they are. -/
theorem Holds.skip (holds : options.Holds before) (other : name ∉ systemNames) (value : String) :
    options.Holds (before ++ [(name, value)]) where
  text option := by
    have apart : name ≠ option.name := fun same => other (same ▸ option.name_mem)
    rw [valuesOf_append, valuesOf_other apart, List.append_nil, holds.text]
  count option count := by
    have apart : name ≠ option.name :=
      fun same => other (same ▸ List.mem_append_right _ option.name_mem)
    rw [valuesOf_append, valuesOf_other apart, List.append_nil, holds.count]
  level := holds.level

theorem IsWellFormed.front {repeatable : List String}
    (formed : IsWellFormed repeatable (before ++ rest)) : IsWellFormed repeatable before where
  known pair inside := formed.known pair (List.mem_append_left _ inside)
  once name system unique := by
    have both := formed.once name system unique
    rw [valuesOf_append, List.length_append] at both
    omega
  counts option value inside := by
    refine formed.counts option value ?_
    rw [valuesOf_append]
    exact List.mem_append_left _ inside

/-- What has to hold of a parameter behind others. -/
structure MayFollow (before : List (String × String)) (name value : String) : Prop where
  known : isSystem name = true → name ∈ systemNames
  new : ∀ option : TextOption, option.name = name → valuesOf name before = []
  count : ∀ option : CountOption, option.name = name → ∃ count, SpellsCount value count

theorem isWellFormed_concat {value : String} (formed : IsWellFormed CountOption.names before) :
    IsWellFormed CountOption.names (before ++ [(name, value)]) ↔ MayFollow before name value := by
  constructor
  · intro all
    refine ⟨all.known (name, value) (by simp), ?_, ?_⟩
    · rintro option rfl
      have unique : option.name ∉ CountOption.names := by cases option <;> decide
      have both := all.once option.name option.name_mem unique
      rw [valuesOf_append, valuesOf_self, List.length_append, List.length_singleton] at both
      exact List.length_eq_zero_iff.1 (by omega)
    · rintro option rfl
      refine all.counts option value ?_
      rw [valuesOf_append, valuesOf_self]
      exact List.mem_concat_self
  · intro follows
    refine ⟨?_, ?_, ?_⟩
    · intro pair inside
      rcases List.mem_append.1 inside with old | new
      · exact formed.known pair old
      · rw [List.mem_singleton] at new
        exact new ▸ follows.known
    · intro other system unique
      rw [valuesOf_append]
      by_cases same : name = other
      · subst same
        rcases exists_option system with ⟨option, named⟩ | ⟨option, rfl⟩
        · rw [follows.new option named, valuesOf_self]
          exact Nat.le_refl 1
        · exact absurd option.name_mem unique
      · rw [valuesOf_other same, List.append_nil]
        exact formed.once other system unique
    · intro option given inside
      rw [valuesOf_append, List.mem_append] at inside
      rcases inside with old | new
      · exact formed.counts option given old
      · by_cases same : name = option.name
        · subst same
          rw [valuesOf_self, List.mem_singleton] at new
          exact new ▸ follows.count option rfl
        · rw [valuesOf_other same] at new
          cases new

/-- A parameter that may follow is taken, any other one is refused. -/
theorem Holds.step (holds : options.Holds before) (name value : String) :
    (MayFollow before name value → ∃ after, options.addParameter name value = .ok after ∧
      after.Holds (before ++ [(name, value)])) ∧
    (¬ MayFollow before name value → ∃ error, options.addParameter name value = .error error) := by
  by_cases known : name ∈ systemNames
  · rcases exists_option known with ⟨option, rfl⟩ | ⟨option, rfl⟩
    · rw [addParameter_text, holds.text option]
      constructor
      · intro follows
        rw [follows.new option rfl]
        exact ⟨_, rfl, holds.setText option value⟩
      · intro misses
        cases given : (valuesOf option.name before).getLast? with
        | some held => exact ⟨_, rfl⟩
        | none =>
          rw [List.getLast?_eq_none_iff] at given
          refine absurd ⟨fun _ => option.name_mem, fun _ _ => ?_, fun other same => ?_⟩ misses
          · exact given
          · exact absurd same.symm (option.name_apart other)
    · -- whether the count was given before does not matter here
      rw [addParameter_count]
      constructor
      · intro follows
        obtain ⟨count, spelled⟩ := follows.count option rfl
        rw [(readCount_eq_ok option.name).2 spelled]
        exact ⟨_, rfl, holds.setCount option spelled⟩
      · intro misses
        cases read : readCount option.name value with
        | error error => exact ⟨error, rfl⟩
        | ok count =>
          refine absurd ⟨fun _ => known, fun other same => ?_, fun _ _ => ?_⟩ misses
          · exact absurd same (other.name_apart option)
          · exact ⟨count, (readCount_eq_ok _).1 read⟩
  · rw [addParameter_other known]
    constructor
    · intro follows
      rw [if_neg fun system => known (follows.known system)]
      exact ⟨options, rfl, holds.skip known value⟩
    · intro misses
      by_cases system : isSystem name = true
      · rw [if_pos system]
        exact ⟨_, rfl⟩
      · refine absurd ⟨fun dollar => absurd dollar system, fun option same => ?_,
          fun option same => ?_⟩ misses
        · exact absurd (same ▸ option.name_mem) known
        · exact absurd (same ▸ List.mem_append_right _ option.name_mem) known

/-- Reading goes on to the end if and only if all parameters together are well-formed. -/
theorem Holds.read (holds : options.Holds before)
    (formed : IsWellFormed CountOption.names before) (rest : List (String × String)) :
    (IsWellFormed CountOption.names (before ++ rest) → ∃ after,
      rest.foldlM (fun options pair => options.addParameter pair.1 pair.2) options = .ok after ∧
        after.Holds (before ++ rest)) ∧
    (¬ IsWellFormed CountOption.names (before ++ rest) → ∃ error,
      rest.foldlM (fun options pair => options.addParameter pair.1 pair.2) options =
        .error error) := by
  induction rest generalizing options before with
  | nil =>
    rw [List.append_nil]
    exact ⟨fun _ => ⟨options, rfl, holds⟩, fun misses => absurd formed misses⟩
  | cons pair rest ih =>
    have step := holds.step pair.1 pair.2
    rw [List.foldlM_cons, List.append_cons]
    by_cases follows : MayFollow before pair.1 pair.2
    · obtain ⟨next, taken, held⟩ := step.1 follows
      rw [taken]
      exact ih held ((isWellFormed_concat formed).2 follows)
    · obtain ⟨error, refused⟩ := step.2 follows
      rw [refused]
      exact ⟨fun all => absurd ((isWellFormed_concat formed).1 all.front) follows,
        fun _ => ⟨error, rfl⟩⟩

theorem valuesOf_perm {others : List (String × String)} (order : others.Perm pairs)
    (once : (valuesOf name pairs).length ≤ 1) : valuesOf name others = valuesOf name pairs := by
  have same : (valuesOf name others).Perm (valuesOf name pairs) := order.filterMap _
  rcases given : valuesOf name pairs with _ | ⟨value, more⟩
  · rw [given] at same
    exact same.eq_nil
  · rw [given, List.length_cons] at once
    obtain rfl : more = [] := List.length_eq_zero_iff.1 (by omega)
    rw [given] at same
    exact same.eq_singleton

theorem IsWellFormed.reordered {repeatable : List String} {others : List (String × String)}
    (formed : IsWellFormed repeatable pairs) (order : others.Perm pairs) :
    IsWellFormed repeatable others where
  known pair inside := formed.known pair (order.mem_iff.1 inside)
  once name system unique := by
    have same : (valuesOf name others).Perm (valuesOf name pairs) := order.filterMap _
    rw [same.length_eq]
    exact formed.once name system unique
  counts option value inside := by
    have same : (valuesOf option.name others).Perm (valuesOf option.name pairs) :=
      order.filterMap _
    exact formed.counts option value (same.mem_iff.1 inside)

/-- What is held is all that there is to options. -/
theorem Holds.unique {other : QueryOptions} {others : List (String × String)}
    (holds : options.Holds pairs) (held : other.Holds others)
    (same : ∀ name ∈ systemNames, valuesOf name others = valuesOf name pairs) :
    other = options := by
  have texts : ∀ option : TextOption, option.get? other = option.get? options := by
    intro option
    rw [holds.text, held.text, same _ option.name_mem]
  have counts : ∀ option : CountOption, option.get? other = option.get? options := by
    intro option
    refine Option.ext fun count => ?_
    rw [holds.count, held.count, same _ (List.mem_append_right _ option.name_mem)]
  have level := held.level.trans holds.level.symm
  cases other
  cases options
  simp only [QueryOptions.mk.injEq]
  exact ⟨texts .filter, texts .search, texts .orderBy, texts .select, texts .expand, counts .top,
    counts .skip, level⟩

theorem CountsOnce.isWellFormed_iff (once : CountsOnce pairs) :
    IsWellFormed CountOption.names pairs ↔ IsWellFormed [] pairs := by
  constructor
  · intro formed
    refine ⟨formed.known, fun name system _ => ?_, formed.counts⟩
    by_cases count : name ∈ CountOption.names
    · rcases exists_option system with ⟨option, rfl⟩ | ⟨option, rfl⟩
      · exact absurd count (by cases option <;> decide)
      · exact once option
    · exact formed.once name system count
  · exact fun formed => ⟨formed.known, fun name system _ => formed.once name system (by simp),
      formed.counts⟩

theorem IsWellFormed.countsOnce (formed : IsWellFormed [] pairs) : CountsOnce pairs :=
  fun option => formed.once option.name (List.mem_append_right _ option.name_mem) (by simp)

theorem isWellFormed_nil (repeatable : List String) : IsWellFormed repeatable [] where
  known pair inside := by cases inside
  once name _ _ := Nat.zero_le 1
  counts option value inside := by cases inside

/-- The options of a text, or an error, by its parameters. -/
theorem read_queryText {parameters : List Parameter}
    (plain : ∀ parameter ∈ parameters, parameter.IsPlain) :
    (IsWellFormed CountOption.names (parameters.filterMap Parameter.named?) →
      ∃ options, ofText (queryText parameters) = .ok options ∧
        options.Holds (parameters.filterMap Parameter.named?)) ∧
    (¬ IsWellFormed CountOption.names (parameters.filterMap Parameter.named?) →
      ∃ error, ofText (queryText parameters) = .error error) := by
  rw [ofText, parameters_queryText plain]
  exact holds_unset.read (isWellFormed_nil _) _

theorem ofText_eq_ok_iff {parameters : List Parameter}
    (plain : ∀ parameter ∈ parameters, parameter.IsPlain) :
    (∃ options, ofText (queryText parameters) = .ok options) ↔
      IsWellFormed CountOption.names (parameters.filterMap Parameter.named?) := by
  obtain ⟨taken, refused⟩ := read_queryText plain
  constructor
  · rintro ⟨options, done⟩
    refine Classical.byContradiction fun misses => ?_
    obtain ⟨error, failed⟩ := refused misses
    rw [failed] at done
    cases done
  · intro formed
    obtain ⟨options, done, -⟩ := taken formed
    exact ⟨options, done⟩

/-- A query text gives options if and only if its system options are known, its counts are numbers
and no text is given twice; each option holds the last value of its name. Nothing asks whether a
count is given twice: the texts that give options are just those in which no name is repeated, but
for the texts that repeat a count. Where no count is repeated, the order of the parameters does not
matter. -/
theorem ofText_queryText {parameters : List Parameter}
    (plain : ∀ parameter ∈ parameters, parameter.IsPlain) :
    let pairs := parameters.filterMap Parameter.named?
    ((∃ options, ofText (queryText parameters) = .ok options) ↔
      IsWellFormed CountOption.names pairs) ∧
    (((∃ options, ofText (queryText parameters) = .ok options) ↔ IsWellFormed [] pairs) ↔
      (IsWellFormed CountOption.names pairs → CountsOnce pairs)) ∧
    ∀ options, ofText (queryText parameters) = .ok options → options.Holds pairs ∧
      (CountsOnce pairs → ∀ reordered : List Parameter, reordered.Perm parameters →
        ofText (queryText reordered) = .ok options) := by
  intro pairs
  have accepted := ofText_eq_ok_iff plain
  refine ⟨accepted, ?_, fun options done => ?_⟩
  · rw [accepted]
    constructor
    · exact fun same formed => (same.1 formed).countsOnce
    · exact fun once => ⟨fun formed => (once formed).isWellFormed_iff.1 formed,
        fun formed => formed.countsOnce.isWellFormed_iff.2 formed⟩
  · have formed := accepted.1 ⟨options, done⟩
    obtain ⟨first, read, holds⟩ := (read_queryText plain).1 formed
    rw [done] at read
    cases read
    refine ⟨holds, fun once reordered order => ?_⟩
    have others := fun parameter inside => plain parameter (order.mem_iff.1 inside)
    have pairsOrder := order.filterMap Parameter.named?
    obtain ⟨second, again, held⟩ := (read_queryText others).1 (formed.reordered pairsOrder)
    rw [again, holds.unique held fun name system => ?_]
    exact valuesOf_perm pairsOrder ((once.isWellFormed_iff.1 formed).once name system (by simp))

/-- A filter, counts with a blank and a plus sign, an option of someone else and nothing at all between
two ampersands. -/
theorem ofText_queryText_page :
    let parameters : List Parameter :=
      [.pair "$filter" "a=1", .blank, .pair "$top" " 5", .bare "debug", .pair "$skip" "+1"]
    queryText parameters = "$filter=a=1&&$top= 5&debug&$skip=+1" ∧
      (∀ parameter ∈ parameters, parameter.IsPlain) ∧
      ∃ options, ofText (queryText parameters) = .ok options ∧ options.filter? = some "a=1" ∧
        options.top? = some 5 ∧ options.skip? = some 1 ∧
        ofText (queryText parameters.reverse) = .ok options := by
  intro parameters
  have plain : ∀ parameter ∈ parameters, parameter.IsPlain := by decide
  have text : queryText parameters = "$filter=a=1&&$top= 5&debug&$skip=+1" := rfl
  have read : ofText (queryText parameters) =
      .ok { unset with filter? := some "a=1", top? := some 5, skip? := some 1 } := by
    rw [text]
    rfl
  have once : CountsOnce (parameters.filterMap Parameter.named?) := by
    intro option
    cases option <;> decide
  have reversed := ((ofText_queryText plain).2.2 _ read).2 once _ parameters.reverse_perm
  exact ⟨text, plain, _, read, rfl, rfl, rfl, reversed⟩

/-- The second of two limits is taken, so their order matters. -/
theorem ofText_repeated_top :
    let parameters : List Parameter := [.pair "$top" "1", .pair "$top" "2"]
    queryText parameters = "$top=1&$top=2" ∧
      ofText (queryText parameters) = .ok { unset with top? := some 2 } ∧
      ofText (queryText parameters.reverse) = .ok { unset with top? := some 1 } ∧
      ¬ IsWellFormed [] (parameters.filterMap Parameter.named?) := by
  refine ⟨rfl, rfl, rfl, fun formed => ?_⟩
  exact absurd (formed.countsOnce .top) (by decide)

end QueryOptions

end EdmQuery
