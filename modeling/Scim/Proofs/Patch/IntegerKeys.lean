import Scim.Proofs.Filter.Operators
import Scim.Proofs.Number.Order
import Scim.Proofs.Patch.RemoveByValue

/-! Comparisons of whole numbers, and removes of elements that have one as their key. Numbers are
compared by their doubles: below 2⁵³ every comparison is exact, from there on different numbers with
one double count as equal. -/
namespace Scim

/-- The relation of whole numbers that an operator names. The operators on texts name none. -/
def CompareOp.relates (op : CompareOp) (m n : Int) : Prop :=
  match op with
  | equal => m = n
  | notEqual => m ≠ n
  | greater => m > n
  | greaterEqual => m ≥ n
  | less => m < n
  | lessEqual => m ≤ n
  | contains | startsWith | endsWith | present => False

theorem CompareOp.admits_compare (op : CompareOp) (m n : Int) :
    op.admits (compare m n) = true ↔ op.relates m n := by
  rcases Int.lt_trichotomy m n with less | rfl | greater
  · rw [compare_lt_iff_lt.mpr less]
    cases op <;> simp [admits, relates] <;> omega
  · rw [compare_eq_iff_eq.mpr rfl]
    cases op <;> simp [admits, relates]
  · rw [compare_gt_iff_gt.mpr greater]
    cases op <;> simp [admits, relates] <;> omega

namespace Filter

variable {scope : Scope} {path : Path} {fragment : Json} {m n : Int} {op : CompareOp}

theorem holds_integer (reached : path.select fragment = [.number (.int m)]) (n : Int)
    (comparing : op ≠ .present) :
    (compare path op (.number (.int n))).holds scope fragment =
      op.admits (Ord.compare (Number.int m).units (Number.int n).units) := by
  rw [holds, reached, holdsOfAny_singleton comparing]
  rfl

theorem holds_integer_of_apart (reached : path.select fragment = [.number (.int m)])
    (comparing : op ≠ .present) (apart : ¬ Number.Merged m n) :
    (compare path op (.number (.int n))).holds scope fragment = true ↔ op.relates m n := by
  rw [holds_integer reached n comparing, Number.compare_units apart, op.admits_compare]

theorem holds_integer_of_merged (reached : path.select fragment = [.number (.int m)])
    (comparing : op ≠ .present) (merged : Number.Merged m n) :
    (compare path op (.number (.int n))).holds scope fragment = true ↔ op.relates n n := by
  rw [holds_integer reached n comparing, merged.2, compare_eq_iff_eq.mpr rfl, ← op.admits_compare,
    compare_eq_iff_eq.mpr rfl]

end Filter

namespace Fields

variable {fields : Fields} {name : String} {element : Json}

theorem mem_keepElements {keep : Json → Bool}
    (member : element ∈ (MultiValued.ofField (fields.find? name)).items)
    (kept : keep element = true) :
    element ∈ (MultiValued.ofField ((fields.keepElements name keep).find? name)).items := by
  unfold keepElements
  split
  next => exact member
  next => exact member
  next value some found =>
    have items : (MultiValued.ofField (Option.some value)).items =
        MultiValued.elementsOf value := by
      cases value with
      | null => exact absurd rfl some
      | _ => rfl
    rw [found, items] at member
    have among := List.mem_filter.mpr ⟨member, kept⟩
    have present := List.isEmpty_eq_false_iff.mpr (List.ne_nil_of_mem among)
    dsimp only
    rw [present, if_neg Bool.false_ne_true, find?_written]
    exact among

/-- A remove through a filter leaves the elements of which it does not hold. -/
theorem mem_removeField {filter : Filter} {scope : Scope}
    (member : element ∈ (MultiValued.ofField (fields.find? name)).items)
    (missed : filter.holds scope element = false) :
    element ∈ (MultiValued.ofField
      ((fields.removeField name (some filter) scope).find? name)).items := by
  rw [removeField_filter]
  exact mem_keepElements member (congrArg Bool.not missed)

end Fields

namespace Filter

variable {path : Path} {fragment : Json} {m : Int}

/-- **Whole numbers are compared exactly up to their doubles.** Different numbers with one double
are compared as if they were equal; these lie at 2⁵³ and beyond, and close to each other. All others
are compared as they are, so of elements with a whole number as key a remove through a filter for
another one, alone or joined to more, leaves all but those whose keys have the same double. -/
theorem integers_compared (reached : path.select fragment = [.number (.int m)]) (n : Int) :
    (∀ (scope : Scope) (op : CompareOp), op ≠ .present →
      (¬ Number.Merged m n →
        ((compare path op (.number (.int n))).holds scope fragment = true ↔ op.relates m n)) ∧
      (Number.Merged m n →
        ((compare path op (.number (.int n))).holds scope fragment = true ↔ op.relates n n))) ∧
    (Number.Merged m n → 2 ^ 53 ≤ m.natAbs ∧ 2 ^ 53 ≤ n.natAbs ∧
      (m.natAbs < 2 ^ 64 → n.natAbs < 2 ^ 64 → (m - n).natAbs ≤ 2 ^ 11)) ∧
    (m ≠ n → ¬ Number.Merged m n → ∀ (definition : Attribute) (filter : Filter),
      (∀ element, filter.holds (.element definition) element = true →
        (compare path .equal (.number (.int n))).holds (.element definition) element = true) →
      ∀ (fields : Fields) (name : String),
        fragment ∈ (MultiValued.ofField (fields.find? name)).items →
        fragment ∈ (MultiValued.ofField
          ((fields.removeField name (some filter) (.element definition)).find? name)).items) := by
  refine ⟨fun scope op comparing => ⟨holds_integer_of_apart reached comparing,
    holds_integer_of_merged reached comparing⟩, fun merged => ⟨merged.le_natAbs,
    merged.symm.le_natAbs, merged.near⟩, ?_⟩
  intro different apart definition filter narrower fields name member
  refine Fields.mem_removeField member ?_
  rw [Bool.eq_false_iff]
  intro holds
  exact different ((holds_integer_of_apart reached (by decide) apart).mp (narrower fragment holds))

end Filter

def numbered (key : Int) : Json := .object [("value", .number (.int key))]

theorem numbered_kept :
    (Filter.compare ⟨none, [⟨"value", none⟩]⟩ .less (.number (.int 9007199254740992))).holds
      (.resource sampleType) (numbered 9007199254740991) = true ∧
    numbered 9007199254740991 ∈ (MultiValued.ofField ((Fields.removeField
      [("emails", .array [numbered 9007199254740991])] "emails"
      (some (.compare ⟨none, [⟨"value", none⟩]⟩ .equal (.number (.int 9007199254740992))))
      (.element { name := "emails", multiValued := true })).find? "emails")).items := by
  have reached : (Path.mk none [⟨"value", none⟩]).select (numbered 9007199254740991) =
      [.number (.int 9007199254740991)] := by decide
  have apart : ¬ Number.Merged 9007199254740991 9007199254740992 :=
    fun merged => absurd merged.le_natAbs (by decide)
  obtain ⟨compared, _, kept⟩ := Filter.integers_compared reached 9007199254740992
  have less : CompareOp.less.relates 9007199254740991 9007199254740992 :=
    show (9007199254740991 : Int) < 9007199254740992 by decide
  refine ⟨((compared _ .less (by decide)).1 apart).mpr less, ?_⟩
  exact kept (by decide) apart _ _ (fun _ holds => holds) _ _ (by decide)

/-- The number behind 2⁵³ has no double of its own. With a filter or by value, a remove for the one
takes the element of the other. -/
theorem numbered_removed :
    (9007199254740993 : Int) ≠ 9007199254740992 ∧
    (Filter.compare ⟨none, [⟨"value", none⟩]⟩ .equal (.number (.int 9007199254740992))).holds
      (.resource sampleType) (numbered 9007199254740993) = true ∧
    (Patch.remove "emails[value eq 9007199254740992]").apply sampleType {}
      ⟨[("emails", .array [numbered 9007199254740993])]⟩ = .done ⟨[]⟩ ∧
    (⟨"remove", "emails", some (.number (.int 9007199254740992))⟩ : Patch).apply sampleType {}
      ⟨[("emails", .array [numbered 9007199254740993])]⟩ = .done ⟨[]⟩ := by
  decide +kernel

end Scim
