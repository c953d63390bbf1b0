import Scim.Filter.Selection
import Scim.Proofs.Json.Entries

/-! Values in which no object has two keys that are equal but for case. Names in another case lead
to the same parts of them. -/
namespace Scim

namespace Fields

variable {fields : Fields}

theorem key?_of_distinct (distinct : fields.Distinct) (name : String) :
    fields.key? name = fields.keys.find? fun key => decide (Caseless key name) := by
  simp only [key?]
  split
  next member =>
    have apart : (fields.keys.map fun key => key).Pairwise fun a b => ¬ Caseless a b := by
      rwa [List.map_id']
    exact (Caseless.find?_of_mem (fun key => key) apart member).symm
  next => rfl

theorem key?_congr (distinct : fields.Distinct) {a b : String} (same : Caseless a b) :
    fields.key? a = fields.key? b := by
  simp only [key?_of_distinct distinct, same.congr_right]

theorem find?_congr (distinct : fields.Distinct) {a b : String} (same : Caseless a b) :
    fields.find? a = fields.find? b := by
  rw [find?, key?_congr distinct same, find?]

end Fields

namespace Json

mutual

/-- No object within has two keys that are equal but for case. -/
def Unambiguous : Json → Prop
  | .object fields => Fields.Distinct fields ∧ fieldsUnambiguous fields
  | .array items => itemsUnambiguous items
  | _ => True

def itemsUnambiguous : List Json → Prop
  | [] => True
  | item :: rest => item.Unambiguous ∧ itemsUnambiguous rest

def fieldsUnambiguous : List (String × Json) → Prop
  | [] => True
  | (_, value) :: rest => value.Unambiguous ∧ fieldsUnambiguous rest

end

theorem itemsUnambiguous_iff (items : List Json) :
    itemsUnambiguous items ↔ ∀ item ∈ items, item.Unambiguous := by
  induction items with
  | nil => simp [itemsUnambiguous]
  | cons item rest ih => simp [itemsUnambiguous, ih]

theorem fieldsUnambiguous_iff (fields : Fields) :
    fieldsUnambiguous fields ↔ ∀ field ∈ fields, field.2.Unambiguous := by
  induction fields with
  | nil => simp [fieldsUnambiguous]
  | cons field rest ih => simp [fieldsUnambiguous, ih]

@[simp] theorem unambiguous_array (items : List Json) :
    (Json.array items).Unambiguous ↔ ∀ item ∈ items, item.Unambiguous := by
  rw [Unambiguous, itemsUnambiguous_iff]

@[simp] theorem unambiguous_object (fields : Fields) :
    (Json.object fields).Unambiguous ↔
      fields.Distinct ∧ ∀ field ∈ fields, field.2.Unambiguous := by
  rw [Unambiguous, fieldsUnambiguous_iff]

theorem Unambiguous.of_get? {fields : Fields} {key : String} {value : Json}
    (clear : (Json.object fields).Unambiguous) (held : fields.get? key = some value) :
    value.Unambiguous :=
  ((unambiguous_object fields).mp clear).2 _ (Fields.mem_of_get? held)

theorem Unambiguous.of_find? {fields : Fields} {name : String} {value : Json}
    (clear : (Json.object fields).Unambiguous) (held : fields.find? name = some value) :
    value.Unambiguous := by
  obtain ⟨key, _, got⟩ := Option.bind_eq_some_iff.mp held
  exact clear.of_get? got

mutual

theorem children_unambiguous (name : String) {value : Json} (clear : value.Unambiguous) :
    ∀ child ∈ value.children name, child.Unambiguous := by
  intro child member
  cases value with
  | object fields =>
    rw [children, Option.mem_toList] at member
    exact clear.of_find? member
  | array items => exact itemChildren_unambiguous name ((unambiguous_array items).mp clear) child member
  | null => cases member
  | _ =>
    rw [children] at member
    split at member
    · rw [List.mem_singleton.mp member]
      trivial
    · cases member

theorem itemChildren_unambiguous (name : String) {items : List Json}
    (clear : ∀ item ∈ items, item.Unambiguous) :
    ∀ child ∈ itemChildren name items, child.Unambiguous := by
  intro child member
  cases items with
  | nil => cases member
  | cons item rest =>
    rcases List.mem_append.mp member with first | later
    · exact children_unambiguous name (clear item List.mem_cons_self) child first
    · exact itemChildren_unambiguous name
        (fun other among => clear other (List.mem_cons_of_mem _ among)) child later

end

mutual

/-- A name in another case leads to the same values. -/
theorem children_congr {value : Json} (clear : value.Unambiguous) {name other : String}
    (same : Caseless name other) : value.children name = value.children other := by
  have element : Caseless name "value" ↔ Caseless other "value" :=
    ⟨same.symm.trans, same.trans⟩
  cases value with
  | object fields =>
    rw [children, children, Fields.find?_congr ((unambiguous_object fields).mp clear).1 same]
  | array items => exact itemChildren_congr ((unambiguous_array items).mp clear) same
  | null => rfl
  | _ => simp only [children, element]

theorem itemChildren_congr {items : List Json} (clear : ∀ item ∈ items, item.Unambiguous)
    {name other : String} (same : Caseless name other) :
    itemChildren name items = itemChildren other items := by
  cases items with
  | nil => rfl
  | cons item rest =>
    rw [itemChildren, itemChildren, children_congr (clear item List.mem_cons_self) same,
      itemChildren_congr (fun other among => clear other (List.mem_cons_of_mem _ among)) same]

end

end Json
end Scim
