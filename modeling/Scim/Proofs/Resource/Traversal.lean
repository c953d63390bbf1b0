import Mathlib.Data.List.Basic
import Scim.Resource.Navigation

/-! Changes at all places of a document, where one that is refused refuses the whole. Singling
out places within places and then changing them is one change of the outer places; so following
a path level by level over all places is the same as following it to the end from each. -/
namespace Scim

namespace Outcome

variable {ε α β : Type}

def done? (outcome : Outcome ε α) : Option α :=
  match outcome.fault with
  | none => some outcome.value
  | some _ => none

@[simp] theorem done?_done (value : α) : (done value : Outcome ε α).done? = some value := rfl

@[simp] theorem done?_stopped (value : α) (fault : ε) : (stopped value fault).done? = none := rfl

@[simp] theorem done?_map (f : α → β) (outcome : Outcome ε α) :
    (outcome.map f).done? = outcome.done?.map f := by
  cases outcome with
  | mk value fault => cases fault <;> rfl

theorem done?_each (change : α → Outcome ε α) (items : List α) :
    (each change items).done? = items.mapM fun item => (change item).done? := by
  induction items with
  | nil => rfl
  | cons item rest ih =>
    simp only [each, List.mapM_cons]
    cases h : change item with
    | mk changed fault =>
      cases fault with
      | some fault => rfl
      | none =>
        rw [done?_map, ih]
        cases rest.mapM fun item => (change item).done? <;> rfl

theorem done?_eq_some_iff (outcome : Outcome ε α) (value : α) :
    outcome.done? = some value ↔ outcome = .done value := by
  cases outcome with
  | mk found fault => cases fault <;> simp [done?, done]

end Outcome

namespace Focus

mutual

/-- The document with every place changed, if all the changes are allowed. -/
def traverse (change : Json → Option Json) : Focus → Option Json
  | .target value => change value
  | .plain value => some value
  | .member fields key inner =>
    (inner.traverse change).map fun value => .object (Fields.set fields key value)
  | .elements items => (traverseAll change items).map .array

def traverseAll (change : Json → Option Json) : List Focus → Option (List Json)
  | [] => some []
  | item :: rest =>
    (item.traverse change).bind fun value => (traverseAll change rest).map (value :: ·)

end

theorem traverseAll_map (change : Json → Option Json) (f : Json → Focus) (items : List Json) :
    traverseAll change (items.map f) = items.mapM fun item => (f item).traverse change := by
  induction items with
  | nil => rfl
  | cons item rest ih =>
    rw [List.map_cons, traverseAll, ih, List.mapM_cons]
    cases (f item).traverse change with
    | none => rfl
    | some value =>
      cases rest.mapM fun item => (f item).traverse change <;> rfl

mutual

theorem traverse_refine (change : Json → Option Json) (f : Json → Focus) (focus : Focus) :
    (focus.refine f).traverse change = focus.traverse fun value => (f value).traverse change := by
  cases focus with
  | target value => rfl
  | plain value => rfl
  | member fields key inner => simp only [refine, traverse, traverse_refine change f inner]
  | elements items => simp only [refine, traverse, traverseAll_refineAll change f items]

theorem traverseAll_refineAll (change : Json → Option Json) (f : Json → Focus)
    (items : List Focus) :
    traverseAll change (refineAll f items) =
      traverseAll (fun value => (f value).traverse change) items := by
  cases items with
  | nil => rfl
  | cons item rest =>
    simp only [refineAll, traverseAll, traverse_refine change f item,
      traverseAll_refineAll change f rest]

end

mutual

/-- Changes in turn come to the end exactly if each of them does. -/
theorem done?_edit {ε : Type} (change : Json → Outcome ε Json) (focus : Focus) :
    (focus.edit change).done? = focus.traverse fun value => (change value).done? := by
  cases focus with
  | target value => rfl
  | plain value => rfl
  | member fields key inner => simp only [edit, traverse, Outcome.done?_map, done?_edit change inner]
  | elements items => simp only [edit, traverse, Outcome.done?_map, done?_editAll change items]

theorem done?_editAll {ε : Type} (change : Json → Outcome ε Json) (items : List Focus) :
    (editAll change items).done? = traverseAll (fun value => (change value).done?) items := by
  cases items with
  | nil => rfl
  | cons item rest =>
    rw [editAll, traverseAll, ← done?_edit change item, ← done?_editAll change rest]
    cases item.edit change with
    | mk changed fault =>
      cases fault with
      | some fault => rfl
      | none => exact Outcome.done?_map ..

end

mutual

theorem traverse_congr {change other : Json → Option Json} (focus : Focus)
    (same : ∀ value ∈ focus.targets, change value = other value) :
    focus.traverse change = focus.traverse other := by
  cases focus with
  | target value => exact same value (by simp [targets])
  | plain value => rfl
  | member fields key inner => simp only [traverse, traverse_congr inner same]
  | elements items => simp only [traverse, traverseAll_congr items same]

theorem traverseAll_congr {change other : Json → Option Json} (items : List Focus)
    (same : ∀ value ∈ targetsOf items, change value = other value) :
    traverseAll change items = traverseAll other items := by
  cases items with
  | nil => rfl
  | cons item rest =>
    have first := traverse_congr item fun value member => same value (by simp [targetsOf, member])
    have others := traverseAll_congr rest fun value member => same value (by simp [targetsOf, member])
    simp only [traverseAll, first, others]

end

mutual

/-- One place where the change is refused is enough. -/
theorem traverse_eq_none {change : Json → Option Json} {value : Json} (focus : Focus)
    (member : value ∈ focus.targets) (refused : change value = none) :
    focus.traverse change = none := by
  cases focus with
  | target found =>
    obtain rfl : value = found := by simpa [targets] using member
    exact refused
  | plain found => simp [targets] at member
  | member fields key inner => simp [traverse, traverse_eq_none inner member refused]
  | elements items => simp [traverse, traverseAll_eq_none items member refused]

theorem traverseAll_eq_none {change : Json → Option Json} {value : Json} (items : List Focus)
    (member : value ∈ targetsOf items) (refused : change value = none) :
    traverseAll change items = none := by
  cases items with
  | nil => simp [targetsOf] at member
  | cons item rest =>
    rcases List.mem_append.mp member with first | later
    · simp [traverseAll, traverse_eq_none item first refused]
    · cases h : item.traverse change <;> simp [traverseAll, h, traverseAll_eq_none rest later refused]

end

theorem exists_changed {change : Json → Option Json} {focus : Focus} {document place : Json}
    (traversed : focus.traverse change = some document) (member : place ∈ focus.targets) :
    ∃ changed, change place = some changed := by
  cases made : change place with
  | some changed => exact ⟨changed, rfl⟩
  | none =>
    rw [traverse_eq_none focus member made] at traversed
    cases traversed

def entering (create : Bool) (segment : Segment) (definition : Attribute)
    (change : Json → Option Json) (value : Json) : Option Json :=
  ((target value).enter create segment definition).traverse change

theorem traverse_enter (create : Bool) (segment : Segment) (definition : Attribute)
    (change : Json → Option Json) (focus : Focus) :
    (focus.enter create segment definition).traverse change =
      focus.traverse (entering create segment definition change) := by
  unfold entering enter
  cases segment.filter <;> simp only [traverse_refine, refine]

/-- The change of a value on the way: nothing but objects is gone through, and what cannot be
passed refuses it. -/
def passing (path : String) (change : Json → Option Json) (value : Json) : Option Json :=
  if (obstacle? path value).isSome then none else (parents value).traverse change

def following (create : Bool) (path : String) (change : Json → Option Json) :
    List (Segment × Attribute) → Json → Option Json
  | [] => change
  | [(segment, definition)] =>
    entering create segment definition fun value => (present value).traverse change
  | (segment, definition) :: more =>
    entering create segment definition (passing path (following create path change more))

/-- Following segments in all places at once and then changing what is reached is one change of
the places it starts from. -/
theorem follow_traverse (create : Bool) (path : String) (change : Json → Option Json)
    (segments : List (Segment × Attribute)) (focus : Focus) :
    (focus.follow create path segments).done?.bind (·.traverse change) =
      focus.traverse (following create path change segments) := by
  induction segments generalizing focus with
  | nil => rfl
  | cons first more ih =>
    obtain ⟨segment, definition⟩ := first
    cases more with
    | nil =>
      rw [follow, Outcome.done?_done, Option.bind_some, traverse_refine, traverse_enter, following]
    | cons next more =>
      simp only [follow, following, ← traverse_enter]
      cases blocked : (focus.enter create segment definition).targets.findSome? (obstacle? path) with
      | some fault =>
        obtain ⟨value, member, obstacle⟩ := List.exists_of_findSome?_eq_some blocked
        rw [traverse_eq_none _ member (by simp [passing, obstacle])]
        rfl
      | none =>
        rw [ih, traverse_refine]
        apply traverse_congr
        intro value member
        simp [passing, List.findSome?_eq_none_iff.mp blocked value member]

end Focus
end Scim
