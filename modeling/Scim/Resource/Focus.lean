import Scim.Json.Fields
import Scim.Resource.Outcome

/-! A document with some of its places singled out. Places lie side by side and never one within
another, so each can be changed without regard to the others. -/
namespace Scim

inductive Focus where
  /-- A place singled out. -/
  | target (value : Json)
  /-- A value without such places. -/
  | plain (value : Json)
  /-- Places within the value of a field, which is overwritten or added. -/
  | member (fields : List (String × Json)) (key : String) (inner : Focus)
  /-- Places within the items of an array. -/
  | elements (items : List Focus)

namespace Focus

mutual

def document : Focus → Json
  | .target value => value
  | .plain value => value
  | .member fields key inner => .object (Fields.set fields key inner.document)
  | .elements items => .array (documents items)

def documents : List Focus → List Json
  | [] => []
  | item :: rest => item.document :: documents rest

end

mutual

def targets : Focus → List Json
  | .target value => [value]
  | .plain _ => []
  | .member _ _ inner => inner.targets
  | .elements items => targetsOf items

def targetsOf : List Focus → List Json
  | [] => []
  | item :: rest => item.targets ++ targetsOf rest

end

mutual

/-- Singles out places within each place instead. -/
def refine (f : Json → Focus) : Focus → Focus
  | .target value => f value
  | .plain value => .plain value
  | .member fields key inner => .member fields key (inner.refine f)
  | .elements items => .elements (refineAll f items)

def refineAll (f : Json → Focus) : List Focus → List Focus
  | [] => []
  | item :: rest => item.refine f :: refineAll f rest

end

mutual

/-- Changes the value at each place in turn and gives the document. -/
def edit {ε : Type} (change : Json → Outcome ε Json) : Focus → Outcome ε Json
  | .target value => change value
  | .plain value => .done value
  | .member fields key inner =>
    (inner.edit change).map fun value => .object (Fields.set fields key value)
  | .elements items => (editAll change items).map .array

def editAll {ε : Type} (change : Json → Outcome ε Json) : List Focus → Outcome ε (List Json)
  | [] => .done []
  | item :: rest =>
    match item.edit change with
    | ⟨changed, some fault⟩ => .stopped (changed :: documents rest) fault
    | ⟨changed, none⟩ => (editAll change rest).map (changed :: ·)

end

mutual

/-- Refining changes nothing in the document where the places keep their values. -/
theorem document_refine {f : Json → Focus} (keeps : ∀ value, (f value).document = value)
    (focus : Focus) : (focus.refine f).document = focus.document := by
  cases focus with
  | target value => simp [refine, document, keeps]
  | plain value => rfl
  | member fields key inner => simp [refine, document, document_refine keeps inner]
  | elements items => simp [refine, document, documents_refineAll keeps items]

theorem documents_refineAll {f : Json → Focus} (keeps : ∀ value, (f value).document = value)
    (items : List Focus) : documents (refineAll f items) = documents items := by
  cases items with
  | nil => rfl
  | cons item rest =>
    simp [refineAll, documents, document_refine keeps item, documents_refineAll keeps rest]

end

mutual

theorem targets_refine (f : Json → Focus) (focus : Focus) :
    (focus.refine f).targets = focus.targets.flatMap fun value => (f value).targets := by
  cases focus with
  | target value => simp [refine, targets]
  | plain value => rfl
  | member fields key inner => simp [refine, targets, targets_refine f inner]
  | elements items => simp [refine, targets, targetsOf_refineAll f items]

theorem targetsOf_refineAll (f : Json → Focus) (items : List Focus) :
    targetsOf (refineAll f items) = (targetsOf items).flatMap fun value => (f value).targets := by
  cases items with
  | nil => rfl
  | cons item rest =>
    simp [refineAll, targetsOf, targets_refine f item, targetsOf_refineAll f rest]

end

mutual

theorem edit_done {ε : Type} (focus : Focus) :
    focus.edit (ε := ε) .done = .done focus.document := by
  cases focus with
  | target value => rfl
  | plain value => rfl
  | member fields key inner => simp [edit, document, edit_done inner, Outcome.map, Outcome.done]
  | elements items => simp [edit, document, editAll_done items, Outcome.map, Outcome.done]

theorem editAll_done {ε : Type} (items : List Focus) :
    editAll (ε := ε) .done items = .done (documents items) := by
  cases items with
  | nil => rfl
  | cons item rest =>
    simp [editAll, documents, edit_done item, editAll_done rest, Outcome.map, Outcome.done]

end

end Focus
end Scim
