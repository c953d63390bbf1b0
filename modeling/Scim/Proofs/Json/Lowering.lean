import Scim.Proofs.Json.Unambiguous
import Scim.Proofs.Path.Lowering

/-! Values with all their keys in small letters. Where two values are then the same they differ in
the case of keys only. A name leads to the same values in both, but for the case of the keys within
them, where no object has two keys that are equal but for case. -/
namespace Scim

theorem caseless_lowered (a b : String) : Caseless (lowered a) b ↔ Caseless a b :=
  ⟨(lowered_caseless a).symm.trans, (lowered_caseless a).trans⟩

namespace Json

mutual

/-- The value with the keys of all objects within in small letters. -/
def lowered : Json → Json
  | .object fields => .object (loweredFields fields)
  | .array items => .array (loweredItems items)
  | .null => .null
  | .bool value => .bool value
  | .number value => .number value
  | .string text => .string text

def loweredItems : List Json → List Json
  | [] => []
  | item :: rest => item.lowered :: loweredItems rest

def loweredFields : List (String × Json) → List (String × Json)
  | [] => []
  | (key, value) :: rest => (Scim.lowered key, value.lowered) :: loweredFields rest

end

theorem loweredItems_eq_map (items : List Json) : loweredItems items = items.map lowered := by
  induction items with
  | nil => rfl
  | cons item rest ih => rw [loweredItems, ih, List.map_cons]

theorem loweredFields_eq_map (fields : Fields) :
    loweredFields fields = fields.map fun field => (Scim.lowered field.1, field.2.lowered) := by
  induction fields with
  | nil => rfl
  | cons field rest ih => rw [loweredFields, ih, List.map_cons]

@[simp] theorem lowered_array (items : List Json) :
    (Json.array items).lowered = .array (items.map lowered) := by
  rw [lowered, loweredItems_eq_map]

end Json

namespace Fields

def lowered (fields : Fields) : Fields :=
  fields.map fun field => (Scim.lowered field.1, field.2.lowered)

theorem keys_lowered (fields : Fields) : fields.lowered.keys = fields.keys.map Scim.lowered := by
  rw [lowered, keys, keys, List.map_map, List.map_map]
  rfl

theorem distinct_lowered (fields : Fields) : fields.lowered.Distinct ↔ fields.Distinct := by
  simp only [Distinct, keys_lowered, List.pairwise_map, caseless_lowered,
    (lowered_caseless _).congr_right]

theorem find?_of_distinct {fields : Fields} (distinct : fields.Distinct) (name : String) :
    Fields.find? fields name =
      (List.find? (fun field => decide (Caseless field.1 name)) fields).map (·.2) := by
  rw [find?, key?_of_distinct distinct]
  clear distinct
  induction fields with
  | nil => rfl
  | cons field rest ih =>
    obtain ⟨key, value⟩ := field
    by_cases same : Caseless key name
    · simp [keys, same, get?_cons]
    · simp only [keys, List.map_cons, same, decide_false, Bool.false_eq_true, not_false_eq_true,
        List.find?_cons_of_neg] at ih ⊢
      rw [← ih]
      cases spelled : (rest.map (·.1)).find? fun key => decide (Caseless key name) with
      | none => rfl
      | some spelling =>
        -- the key found is another one, for it is equal to the name but for case
        have apart : key ≠ spelling := by
          rintro rfl
          exact same (of_decide_eq_true (List.find?_some spelled :))
        rw [Option.bind_some, Option.bind_some, get?_cons, if_neg apart]

theorem find?_lowered {fields : Fields} (distinct : fields.Distinct) (name : String) :
    fields.lowered.find? name = (Fields.find? fields name).map Json.lowered := by
  rw [find?_of_distinct ((distinct_lowered fields).mpr distinct), find?_of_distinct distinct,
    lowered, List.find?_map, Option.map_map, Option.map_map]
  simp only [Function.comp_def, caseless_lowered]

end Fields

namespace Json

@[simp] theorem lowered_object (fields : Fields) :
    (Json.object fields).lowered = .object fields.lowered := by
  rw [lowered, loweredFields_eq_map, Fields.lowered]

mutual

theorem unambiguous_lowered (value : Json) : value.lowered.Unambiguous ↔ value.Unambiguous := by
  cases value with
  | object fields =>
    rw [lowered_object, Unambiguous, Unambiguous, Fields.distinct_lowered,
      ← fieldsUnambiguous_lowered fields, loweredFields_eq_map, Fields.lowered]
  | array items =>
    rw [lowered, Unambiguous, Unambiguous, itemsUnambiguous_lowered items]
  | _ => rfl

theorem itemsUnambiguous_lowered (items : List Json) :
    itemsUnambiguous (loweredItems items) ↔ itemsUnambiguous items := by
  cases items with
  | nil => rfl
  | cons item rest =>
    rw [loweredItems, itemsUnambiguous, itemsUnambiguous, unambiguous_lowered item,
      itemsUnambiguous_lowered rest]

theorem fieldsUnambiguous_lowered (fields : List (String × Json)) :
    fieldsUnambiguous (loweredFields fields) ↔ fieldsUnambiguous fields := by
  cases fields with
  | nil => rfl
  | cons field rest =>
    obtain ⟨key, value⟩ := field
    rw [loweredFields, fieldsUnambiguous, fieldsUnambiguous, unambiguous_lowered value,
      fieldsUnambiguous_lowered rest]

end

theorem Unambiguous.of_lowered {value other : Json} (clear : value.Unambiguous)
    (same : value.lowered = other.lowered) : other.Unambiguous := by
  rw [← unambiguous_lowered, ← same, unambiguous_lowered]
  exact clear

@[simp] theorem isNull_lowered (value : Json) : value.lowered.isNull = value.isNull := by
  cases value <;> rfl

mutual

/-- A name leads to the same values, but for the case of the keys within them. -/
theorem children_lowered (name : String) {value : Json} (clear : value.Unambiguous) :
    value.lowered.children name = (value.children name).map lowered := by
  cases value with
  | object fields =>
    have distinct := ((unambiguous_object fields).mp clear).1
    rw [lowered_object, children, children, Fields.find?_lowered distinct,
      Option.toList_map]
  | array items =>
    rw [lowered, children, children,
      itemChildren_lowered name ((unambiguous_array items).mp clear)]
  | null => rfl
  | _ =>
    rw [lowered, children]
    split <;> simp [lowered]

theorem itemChildren_lowered (name : String) {items : List Json}
    (clear : ∀ item ∈ items, item.Unambiguous) :
    itemChildren name (loweredItems items) = (itemChildren name items).map lowered := by
  cases items with
  | nil => rfl
  | cons item rest =>
    rw [loweredItems, itemChildren, itemChildren, List.map_append,
      children_lowered name (clear item List.mem_cons_self),
      itemChildren_lowered name fun other among => clear other (List.mem_cons_of_mem _ among)]

end

theorem present_lowered (value : Json) : value.lowered.present = value.present.map lowered := by
  cases value with
  | array items =>
    rw [lowered_array, present, present, List.filter_map]
    simp only [Function.comp_def, isNull_lowered]
  | _ => rfl

end Json
end Scim
