import Mathlib.Logic.ExistsUnique
import Scim.Filter.Evaluation

/-! The operators of comparisons, one against another. What they have to do with each other over one
value they have to do with each other over any values that a path reaches, of whatever types. -/
namespace Scim

namespace Json

inductive Kind where
  | null
  | bool
  | number
  | string
  | array
  | object
  deriving DecidableEq

def kind : Json → Kind
  | .null => .null
  | .bool _ => .bool
  | .number _ => .number
  | .string _ => .string
  | .array _ => .array
  | .object _ => .object

/-- Texts and numbers, which are greater and less than each other. -/
def Kind.IsOrdered (kind : Kind) : Prop := kind = .string ∨ kind = .number

theorem exists_string {value : Json} (text : value.kind = .string) : ∃ a, value = .string a := by
  cases value with
  | string a => exact ⟨a, rfl⟩
  | _ => cases text

theorem exists_number {value : Json} (number : value.kind = .number) : ∃ n, value = .number n := by
  cases value with
  | number n => exact ⟨n, rfl⟩
  | _ => cases number

end Json

def comparedText (ignoreCase : Bool) (text : String) : List Char :=
  if ignoreCase then Text.lowerCase text.toList else text.toList

theorem textOrder_eq_eq (a b : List Char) : textOrder a b = .eq ↔ a = b := by
  constructor
  · intro order
    rw [textOrder, compareOfLessAndEq] at order
    split at order
    · cases order
    · split at order
      next same => exact same
      next => cases order
  · rintro rfl
    rw [textOrder, compareOfLessAndEq, if_neg (List.lt_irrefl a), if_pos rfl]

namespace CompareOp

def IsOrdering (op : CompareOp) : Prop :=
  op = equal ∨ op = notEqual ∨ op = greater ∨ op = greaterEqual ∨ op = less ∨ op = lessEqual

theorem holdsOfTexts_ordering {op : CompareOp} (ordering : op.IsOrdering) (a b : List Char) :
    op.holdsOfTexts a b = op.admits (textOrder a b) := by
  rcases ordering with rfl | rfl | rfl | rfl | rfl | rfl <;> rfl

theorem holdsOfTexts_equal (a b : List Char) : equal.holdsOfTexts a b = true ↔ a = b := by
  rw [← textOrder_eq_eq, holdsOfTexts_ordering (.inl rfl), admits, beq_iff_eq]

theorem holdsOfTexts_startsWith (a b : List Char) : startsWith.holdsOfTexts a b = true ↔ b <+: a :=
  List.isPrefixOf_iff_prefix

theorem holdsOfTexts_endsWith (a b : List Char) : endsWith.holdsOfTexts a b = true ↔ b <:+ a :=
  List.isSuffixOf_iff_suffix

theorem holdsOfTexts_contains (a b : List Char) : contains.holdsOfTexts a b = true ↔ b <:+: a :=
  occursIn_iff b a

theorem holds_string (op : CompareOp) (ignoreCase : Bool) (a b : String) :
    op.holds ignoreCase (.string a) (.string b) =
      op.holdsOfTexts (comparedText ignoreCase a) (comparedText ignoreCase b) := by
  cases ignoreCase <;> rfl

/-- Two texts or two numbers stand in an order, by which the operators hold. -/
theorem exists_order {actual expected : Json} (ordered : expected.kind.IsOrdered)
    (same : actual.kind = expected.kind) (ignoreCase : Bool) :
    ∃ order, ∀ op : CompareOp, op.IsOrdering →
      op.holds ignoreCase actual expected = op.admits order := by
  rcases ordered with text | number
  · obtain ⟨b, rfl⟩ := Json.exists_string text
    obtain ⟨a, rfl⟩ := Json.exists_string (same.trans text)
    exact ⟨_, fun op ordering => by rw [holds_string, holdsOfTexts_ordering ordering]⟩
  · obtain ⟨n, rfl⟩ := Json.exists_number number
    obtain ⟨m, rfl⟩ := Json.exists_number (same.trans number)
    exact ⟨compare m.units n.units, fun op _ => rfl⟩

/-- Scalars equal themselves, whatever their attribute. -/
theorem holds_equal_self {value : Json} (scalar : value.isScalar = true) (ignoreCase : Bool) :
    equal.holds ignoreCase value value = true := by
  cases value with
  | string text => rw [holds_string, holdsOfTexts_equal]
  | number number => simp [holds, admits]
  | bool truth => simp [holds, holdsOfBools]
  | null | array | object => cases scalar

theorem holds_of_kind_ne {actual expected : Json} (different : actual.kind ≠ expected.kind)
    (op : CompareOp) (ignoreCase : Bool) :
    op.holds ignoreCase actual expected = (op == notEqual) := by
  cases actual <;> cases expected <;> first | rfl | exact absurd rfl different

theorem holds_notEqual (ignoreCase : Bool) (actual expected : Json) :
    notEqual.holds ignoreCase actual expected = !equal.holds ignoreCase actual expected := by
  cases ignoreCase <;> cases actual <;> cases expected <;> rfl

/-- Where an operator admits the orders that two others admit between them, it holds of what they
hold of. -/
theorem holds_iff_or {op first second : CompareOp}
    (orderings : op.IsOrdering ∧ first.IsOrdering ∧ second.IsOrdering)
    (positive : op ≠ notEqual ∧ first ≠ notEqual ∧ second ≠ notEqual)
    (admits : ∀ order, op.admits order = (first.admits order || second.admits order))
    {expected : Json} (ordered : expected.kind.IsOrdered) (ignoreCase : Bool) (actual : Json) :
    op.holds ignoreCase actual expected = true ↔
      first.holds ignoreCase actual expected = true ∨
        second.holds ignoreCase actual expected = true := by
  by_cases same : actual.kind = expected.kind
  · obtain ⟨order, holds⟩ := exists_order ordered same ignoreCase
    rw [holds _ orderings.1, holds _ orderings.2.1, holds _ orderings.2.2, admits, Bool.or_eq_true]
  · simp only [holds_of_kind_ne same, beq_iff_eq, positive, or_self]

theorem holds_notEqual_iff {expected : Json} (ordered : expected.kind.IsOrdered) (ignoreCase : Bool)
    (actual : Json) :
    notEqual.holds ignoreCase actual expected = true ↔
      less.holds ignoreCase actual expected = true ∨
        greater.holds ignoreCase actual expected = true ∨ actual.kind ≠ expected.kind := by
  by_cases same : actual.kind = expected.kind
  · obtain ⟨order, holds⟩ := exists_order ordered same ignoreCase
    rw [holds _ (by simp [IsOrdering]), holds _ (by simp [IsOrdering]),
      holds _ (by simp [IsOrdering])]
    cases order <;> simp [admits, same]
  · simp [holds_of_kind_ne same, same]

theorem exists_admitting (order : Ordering) : ∃ op ∈ [less, equal, greater],
    ∀ other ∈ [less, equal, greater], other.admits order = true ↔ other = op := by
  cases order <;> decide

/-- Of two values in an order exactly one of three operators holds. -/
theorem existsUnique_holds {actual expected : Json} (ordered : expected.kind.IsOrdered)
    (same : actual.kind = expected.kind) (ignoreCase : Bool) :
    ∃! op, op ∈ [less, equal, greater] ∧ op.holds ignoreCase actual expected = true := by
  obtain ⟨order, holds⟩ := exists_order ordered same ignoreCase
  obtain ⟨op, listed, admitting⟩ := exists_admitting order
  have orderings : ∀ other ∈ [less, equal, greater], other.IsOrdering := by
    simp [IsOrdering]
  refine ⟨op, ⟨listed, ?_⟩, ?_⟩
  · rw [holds op (orderings op listed), admitting op listed]
  · rintro other ⟨among, satisfied⟩
    rw [holds other (orderings other among), admitting other among] at satisfied
    exact satisfied

theorem startsWith_of_equal {ignoreCase : Bool} {actual : Json} {b : String}
    (satisfied : equal.holds ignoreCase actual (.string b) = true) :
    startsWith.holds ignoreCase actual (.string b) = true ∧
      endsWith.holds ignoreCase actual (.string b) = true := by
  cases actual with
  | string a =>
    rw [holds_string, holdsOfTexts_equal] at satisfied
    rw [holds_string, holds_string, holdsOfTexts_startsWith, holdsOfTexts_endsWith, satisfied]
    exact ⟨List.prefix_rfl, List.suffix_rfl⟩
  | _ => cases satisfied

theorem contains_of_affix {ignoreCase : Bool} {actual : Json} {b : String}
    (satisfied : startsWith.holds ignoreCase actual (.string b) = true ∨
      endsWith.holds ignoreCase actual (.string b) = true) :
    contains.holds ignoreCase actual (.string b) = true := by
  cases actual with
  | string a =>
    rw [holds_string, holds_string, holdsOfTexts_startsWith, holdsOfTexts_endsWith] at satisfied
    rw [holds_string, holdsOfTexts_contains]
    exact satisfied.elim List.IsPrefix.isInfix List.IsSuffix.isInfix
  | _ => rcases satisfied with starts | ends <;> contradiction

/-- How the operators are tied to each other. `holds` says which of them hold of the values reached
and an expected value. -/
structure Laws (holds : CompareOp → Prop) (expected : Json) (reached : List Json) : Prop where
  present_iff : holds present ↔ holds equal ∨ holds notEqual
  absent : ¬ holds present → ∀ op, ¬ holds op
  greaterEqual_iff : expected.kind.IsOrdered → (holds greaterEqual ↔ holds greater ∨ holds equal)
  lessEqual_iff : expected.kind.IsOrdered → (holds lessEqual ↔ holds less ∨ holds equal)
  notEqual_iff : expected.kind.IsOrdered → (holds notEqual ↔
    holds less ∨ holds greater ∨ ∃ actual ∈ reached, actual.kind ≠ expected.kind)
  affixes : expected.kind = .string → holds equal → holds startsWith ∧ holds endsWith
  contained : expected.kind = .string → holds startsWith ∨ holds endsWith → holds contains
  /-- Values of other types may be reached as well. -/
  trichotomy : expected.kind.IsOrdered → ∀ actual,
    reached.filter (fun value => value.kind = expected.kind) = [actual] →
      ∃! op, op ∈ [less, equal, greater] ∧ holds op

end CompareOp

namespace Filter

variable {ignoreCase : Bool} {expected : Json} {reached : List Json}

theorem holdsOfAny_iff {op : CompareOp} (comparing : op ≠ .present) :
    holdsOfAny op ignoreCase expected reached = true ↔
      ∃ actual ∈ reached, op.holds ignoreCase actual expected = true := by
  cases op with
  | present => exact absurd rfl comparing
  | _ => exact List.any_eq_true

theorem holdsOfAny_singleton {op : CompareOp} (comparing : op ≠ .present) (ignoreCase : Bool)
    (expected actual : Json) :
    holdsOfAny op ignoreCase expected [actual] = op.holds ignoreCase actual expected := by
  rw [Bool.eq_iff_iff, holdsOfAny_iff comparing]
  simp

theorem holdsOfAny_present :
    holdsOfAny .present ignoreCase expected reached = true ↔ ∃ actual, actual ∈ reached := by
  rw [holdsOfAny, Bool.not_eq_true', List.isEmpty_eq_false_iff_exists_mem]

/-- An operator that implies another over one value does so over all. -/
theorem holdsOfAny_mono {op other : CompareOp} (comparing : op ≠ .present ∧ other ≠ .present)
    (implies : ∀ actual, op.holds ignoreCase actual expected = true →
      other.holds ignoreCase actual expected = true)
    (satisfied : holdsOfAny op ignoreCase expected reached = true) :
    holdsOfAny other ignoreCase expected reached = true := by
  rw [holdsOfAny_iff comparing.1] at satisfied
  obtain ⟨actual, member, holds⟩ := satisfied
  exact (holdsOfAny_iff comparing.2).mpr ⟨actual, member, implies actual holds⟩

theorem holdsOfAny_or {op first second : CompareOp}
    (comparing : op ≠ .present ∧ first ≠ .present ∧ second ≠ .present)
    (splits : ∀ actual, op.holds ignoreCase actual expected = true ↔
      first.holds ignoreCase actual expected = true ∨
        second.holds ignoreCase actual expected = true) :
    holdsOfAny op ignoreCase expected reached = true ↔
      holdsOfAny first ignoreCase expected reached = true ∨
        holdsOfAny second ignoreCase expected reached = true := by
  simp only [holdsOfAny_iff comparing.1, holdsOfAny_iff comparing.2.1,
    holdsOfAny_iff comparing.2.2, splits, and_or_left, exists_or]

/-- Values of another type satisfy none of the three. -/
theorem holdsOfAny_single {op : CompareOp} (listed : op ∈ [.less, .equal, .greater]) {actual : Json}
    (single : reached.filter (fun value => value.kind = expected.kind) = [actual]) :
    holdsOfAny op ignoreCase expected reached = true ↔
      op.holds ignoreCase actual expected = true := by
  have ⟨comparing, positive⟩ : op ≠ .present ∧ op ≠ .notEqual := by
    revert listed
    cases op <;> decide
  have among (value : Json) :
      value ∈ reached ∧ value.kind = expected.kind ↔ value = actual := by
    calc value ∈ reached ∧ value.kind = expected.kind
        ↔ value ∈ reached.filter fun value => value.kind = expected.kind := by simp
      _ ↔ value = actual := by rw [single, List.mem_singleton]
  rw [holdsOfAny_iff comparing]
  constructor
  · rintro ⟨value, member, holds⟩
    by_cases same : value.kind = expected.kind
    · rwa [← (among value).mp ⟨member, same⟩]
    · rw [CompareOp.holds_of_kind_ne same, beq_iff_eq] at holds
      exact absurd holds positive
  · exact fun holds => ⟨actual, ((among actual).mpr rfl).1, holds⟩

theorem laws_holdsOfAny (ignoreCase : Bool) (expected : Json) (reached : List Json) :
    CompareOp.Laws (fun op => holdsOfAny op ignoreCase expected reached = true)
      expected reached := by
  constructor
  case present_iff =>
    rw [holdsOfAny_present, holdsOfAny_iff (by decide), holdsOfAny_iff (by decide), ← exists_or]
    refine exists_congr fun actual => ?_
    rw [← and_or_left, CompareOp.holds_notEqual, Bool.not_eq_true',
      and_iff_left (Bool.eq_false_or_eq_true _)]
  case absent =>
    intro absent op holds
    refine absent ?_
    by_cases present : op = .present
    · rwa [← present]
    · obtain ⟨actual, member, _⟩ := (holdsOfAny_iff present).mp holds
      exact holdsOfAny_present.mpr ⟨actual, member⟩
  case greaterEqual_iff =>
    intro ordered
    exact holdsOfAny_or (by decide) (CompareOp.holds_iff_or (by simp [CompareOp.IsOrdering])
      (by decide) (by decide) ordered ignoreCase)
  case lessEqual_iff =>
    intro ordered
    exact holdsOfAny_or (by decide) (CompareOp.holds_iff_or (by simp [CompareOp.IsOrdering])
      (by decide) (by decide) ordered ignoreCase)
  case notEqual_iff =>
    intro ordered
    rw [holdsOfAny_iff (by decide), holdsOfAny_iff (by decide), holdsOfAny_iff (by decide),
      ← exists_or, ← exists_or]
    refine exists_congr fun actual => ?_
    rw [CompareOp.holds_notEqual_iff ordered, and_or_left, and_or_left]
  case affixes =>
    intro text satisfied
    obtain ⟨b, rfl⟩ := Json.exists_string text
    constructor
    · exact holdsOfAny_mono (by decide)
        (fun _ same => (CompareOp.startsWith_of_equal same).1) satisfied
    · exact holdsOfAny_mono (by decide)
        (fun _ same => (CompareOp.startsWith_of_equal same).2) satisfied
  case contained =>
    intro text satisfied
    obtain ⟨b, rfl⟩ := Json.exists_string text
    rcases satisfied with starts | ends
    · exact holdsOfAny_mono (by decide)
        (fun _ affix => CompareOp.contains_of_affix (.inl affix)) starts
    · exact holdsOfAny_mono (by decide)
        (fun _ affix => CompareOp.contains_of_affix (.inr affix)) ends
  case trichotomy =>
    intro ordered actual single
    have same : actual.kind = expected.kind := by
      have member : actual ∈ reached.filter fun value => value.kind = expected.kind := by
        rw [single]
        exact List.mem_singleton_self actual
      exact decide_eq_true_iff.mp (List.mem_filter.mp member).2
    obtain ⟨op, ⟨listed, holds⟩, unique⟩ := CompareOp.existsUnique_holds ordered same ignoreCase
    refine ⟨op, ⟨listed, (holdsOfAny_single listed single).mpr holds⟩, ?_⟩
    rintro other ⟨among, satisfied⟩
    exact unique other ⟨among, (holdsOfAny_single among single).mp satisfied⟩

/-- **The operators are consistent.** Over whatever values a path reaches, none, one or many and of
any types, a comparison with `present` holds just if one with `equal` or one with `notEqual` does,
and without it none; `greaterEqual` and `lessEqual` are what their names say, `notEqual` tells less,
greater and another type apart from `equal`, and a text that is equal starts and ends with what it
contains. -/
theorem operators_lawful (scope : Scope) (path : Path) (fragment expected : Json) :
    (∀ unused, (compare path .present unused).holds scope fragment =
      (compare path .present expected).holds scope fragment) ∧
    CompareOp.Laws (fun op => (compare path op expected).holds scope fragment = true) expected
      (path.select fragment) :=
  ⟨fun _ => rfl, laws_holdsOfAny (ignoresCase (scope.find? path)) expected (path.select fragment)⟩

/-- Of the values of several types one is a text, and it is less. -/
theorem mixedTags_trichotomy :
    ∃! op, op ∈ [CompareOp.less, .equal, .greater] ∧
      (compare ⟨none, [⟨"tags", none⟩]⟩ op (.string "B")).holds (.element { name := "tags" })
        (.object [("tags", .array [.number (.int 3), .string "a", .null, .bool true])]) = true :=
  (operators_lawful (.element { name := "tags" }) ⟨none, [⟨"tags", none⟩]⟩ (.object [("tags",
    .array [.number (.int 3), .string "a", .null, .bool true])]) (.string "B")).2.trichotomy
      (.inl rfl) (.string "a") rfl

end Filter
end Scim
