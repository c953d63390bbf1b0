import Scim.Proofs.Path.Literals
import Scim.Proofs.Path.Words

/-! The trees that a text can spell, and what reading makes of the text of any tree that can be
printed: the same tree but for numbers past 64 bits. -/
namespace Scim

namespace Filter

/-- Induction over the connectives; the paths of comparisons are not entered. -/
@[induction_eliminator, elab_as_elim]
theorem induct {motive : Filter → Prop}
    (compare : ∀ path op value, motive (.compare path op value))
    (logical : ∀ op left right, motive left → motive right → motive (.logical op left right))
    (not : ∀ inner, motive inner → motive (.not inner)) : ∀ filter, motive filter
  | .compare path op value => compare path op value
  | .logical op left right =>
    logical op left right (induct compare logical not left) (induct compare logical not right)
  | .not inner => not inner (induct compare logical not inner)

/-- Every comparison is of an attribute with a value that a text can spell, and of none with
`pr`. -/
def WellFormed : Filter → Prop
  | .compare path op value =>
    path.IsAttribute ∧ value.IsLiteral ∧ (op = .present → value = .null)
  | .logical _ left right => left.WellFormed ∧ right.WellFormed
  | .not inner => inner.WellFormed

def Printable : Filter → Prop
  | .compare path _ value => path.IsAttribute ∧ value.IsAtom
  | .logical _ left right => left.Printable ∧ right.Printable
  | .not inner => inner.Printable

/-- What is read from the text of a filter; `none` where a number would be infinite. -/
def reread? : Filter → Option Filter
  | .compare path op value =>
    if op = .present then some (.compare path op .null) else value.reread?.map (.compare path op)
  | .logical op left right =>
    left.reread?.bind fun left => right.reread?.map fun right => .logical op left right
  | .not inner => inner.reread?.map .not

theorem WellFormed.printable {filter : Filter} (formed : filter.WellFormed) :
    filter.Printable := by
  induction filter with
  | compare path op value => exact ⟨formed.1, formed.2.1.isAtom⟩
  | logical op left right left_ih right_ih => exact ⟨left_ih formed.1, right_ih formed.2⟩
  | not inner ih => exact ih formed

theorem WellFormed.reread? {filter : Filter} (formed : filter.WellFormed) :
    filter.reread? = some filter := by
  induction filter with
  | compare path op value =>
    simp only [Filter.reread?]
    split
    next present => rw [formed.2.2 present]
    next => rw [Json.reread?_of_isLiteral formed.2.1]; rfl
  | logical op left right left_ih right_ih =>
    rw [Filter.reread?, left_ih formed.1, right_ih formed.2]
    rfl
  | not inner ih =>
    rw [Filter.reread?, ih formed]
    rfl

end Filter

namespace Segment

structure IsNamed (segment : Segment) : Prop where
  some : segment.name ≠ ""
  allowed : ∀ c ∈ segment.name.toList, isNameChar c = true

def reread? (segment : Segment) : Option Segment :=
  match segment.filter with
  | none => some segment
  | some filter => filter.reread?.map fun read => ⟨segment.name, Option.some read⟩

end Segment

namespace Path

def filterCount (segments : List Segment) : Nat := segments.countP (·.filter.isSome)

/-- A path with segments as a text can spell it, but for the values of its filters. -/
structure IsSpelled (path : Path) : Prop where
  some : path.segments ≠ []
  named : ∀ segment ∈ path.segments, segment.IsNamed
  single : filterCount path.segments ≤ 1
  printable : ∀ segment ∈ path.segments, ∀ filter ∈ segment.filter, filter.Printable
  urn : ∀ schema ∈ path.schema, StartsUrn schema.toList ∧ '[' ∉ schema.toList

/-- The root, or a path with segments, at most one of which has a filter. -/
def WellFormed (path : Path) : Prop :=
  path = root ∨ path.IsSpelled ∧
    ∀ segment ∈ path.segments, ∀ filter ∈ segment.filter, filter.WellFormed

def reread? (path : Path) : Option Path :=
  (path.segments.mapM Segment.reread?).map fun segments => ⟨path.schema, segments⟩

end Path
end Scim
