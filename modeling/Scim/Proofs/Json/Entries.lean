import Mathlib.Data.List.Basic
import Scim.Json.Fields
import Scim.Text.Caseless

/-! One entry of an object at a time. Putting an entry leaves every other entry with its
spelling, value and place, and entries of different names are put independently. -/
namespace Scim

namespace Fields

theorem key?_eq_none {fields : Fields} {name : String} (absent : fields.key? name = none) :
    name ∉ fields.keys := by
  intro present
  simp [key?, present] at absent

theorem key?_caseless {fields : Fields} {name key : String} (spelled : fields.key? name = some key) :
    Caseless key name := by
  simp only [key?] at spelled
  split at spelled
  · cases spelled
    exact Caseless.refl _
  · exact of_decide_eq_true (List.find?_some spelled :)

theorem key?_mem {fields : Fields} {name key : String} (spelled : fields.key? name = some key) :
    key ∈ fields.keys := by
  simp only [key?] at spelled
  split at spelled
  next present =>
    cases spelled
    exact present
  next => exact List.mem_of_find?_eq_some spelled

theorem key?_eq_none_iff (fields : Fields) (name : String) :
    fields.key? name = none ↔ ∀ key ∈ fields.keys, ¬ Caseless key name := by
  constructor
  · intro absent key member same
    simp only [key?] at absent
    split at absent
    · cases absent
    · exact List.find?_eq_none.mp absent key member (decide_eq_true same)
  · intro absent
    cases spelled : fields.key? name with
    | none => rfl
    | some key => exact absurd (key?_caseless spelled) (absent key (key?_mem spelled))

theorem keyFor_caseless (fields : Fields) (name : String) : Caseless (fields.keyFor name) name := by
  simp only [keyFor]
  cases spelled : fields.key? name with
  | none => exact Caseless.refl _
  | some key => exact key?_caseless spelled

theorem get?_eq_none_iff (fields : Fields) (key : String) :
    fields.get? key = none ↔ key ∉ fields.keys := by
  simp only [get?, Option.map_eq_none_iff, List.find?_eq_none, keys, List.mem_map, not_exists,
    not_and]
  constructor
  · intro missing field member same
    exact missing field member (by simpa using same)
  · intro missing field member same
    exact missing field member (by simpa using same)

theorem get?_keyFor (fields : Fields) (name : String) :
    fields.get? (fields.keyFor name) = fields.find? name := by
  simp only [keyFor, find?]
  cases spelled : fields.key? name with
  | some key => rfl
  | none => simpa using (get?_eq_none_iff fields name).mpr (key?_eq_none spelled)

theorem find?_eq_none_iff (fields : Fields) (name : String) :
    fields.find? name = none ↔ fields.key? name = none := by
  simp only [find?]
  cases spelled : fields.key? name with
  | none => simp
  | some key =>
    simp only [Option.bind_some, reduceCtorEq, iff_false]
    rw [get?_eq_none_iff]
    exact fun absent => absent (key?_mem spelled)

theorem set_self {fields : Fields} {key : String} {value : Json}
    (held : fields.get? key = some value) : fields.set key value = fields := by
  induction fields with
  | nil => simp at held
  | cons field rest ih =>
    obtain ⟨k, v⟩ := field
    rw [get?_cons] at held
    rw [set]
    split at held
    next same => simp_all
    next other => simp [other, ih held]

theorem erase_of_not_mem {fields : Fields} {key : String} (absent : key ∉ fields.keys) :
    fields.erase key = fields := by
  apply List.filter_eq_self.mpr
  intro field member
  have different : field.1 ≠ key := fun same => absent (same ▸ List.mem_map_of_mem member)
  simpa using different

theorem erase_set (fields : Fields) (key : String) (value : Json) :
    (fields.set key value).erase key = fields.erase key := by
  induction fields with
  | nil => simp [set, erase]
  | cons field rest ih =>
    obtain ⟨k, v⟩ := field
    by_cases same : k = key
    · simp [set, erase, same]
    · simp only [set, same, if_false]
      simp only [erase] at ih ⊢
      simp [same, ih]

theorem set_set (fields : Fields) (key : String) (value other : Json) :
    (fields.set key value).set key other = fields.set key other := by
  induction fields with
  | nil => simp [set]
  | cons field rest ih =>
    obtain ⟨k, v⟩ := field
    by_cases same : k = key
    · simp [set, same]
    · simp [set, same, ih]

/-- What is written under a name is there in the spelling in which the name was there. -/
theorem key?_set_keyFor (fields : Fields) (name : String) (value : Json) :
    (fields.set (fields.keyFor name) value).key? name = some (fields.keyFor name) := by
  cases spelled : fields.key? name with
  | none =>
    rw [keyFor, spelled, Option.getD_none, key?, if_pos]
    rw [keys_set, if_neg (key?_eq_none spelled)]
    exact List.mem_append_right _ List.mem_cons_self
  | some key =>
    rw [keyFor, spelled, Option.getD_some, key?, keys_set, if_pos (key?_mem spelled)]
    exact spelled

theorem keyFor_set_keyFor (fields : Fields) (name : String) (value : Json) :
    (fields.set (fields.keyFor name) value).keyFor name = fields.keyFor name := by
  rw [keyFor, key?_set_keyFor, Option.getD_some]

theorem find?_written (fields : Fields) (name : String) (value : Json) :
    (fields.set (fields.keyFor name) value).find? name = some value := by
  rw [find?, key?_set_keyFor, Option.bind_some, get?_set, if_pos rfl]

theorem set_of_not_mem {fields : Fields} {key : String} (absent : key ∉ fields.keys)
    (value : Json) : fields.set key value = fields ++ [(key, value)] := by
  induction fields with
  | nil => rfl
  | cons field rest ih =>
    obtain ⟨k, v⟩ := field
    simp only [keys, List.map_cons, List.mem_cons, not_or] at absent
    rw [set, if_neg (Ne.symm absent.1), ih absent.2]
    rfl

theorem set_set_of_mem {fields : Fields} {a b : String} (different : a ≠ b)
    (present : a ∈ fields.keys) (v w : Json) :
    (fields.set a v).set b w = (fields.set b w).set a v := by
  induction fields with
  | nil => simp [keys] at present
  | cons field rest ih =>
    obtain ⟨k, u⟩ := field
    by_cases first : k = a
    · subst first
      simp [set, different]
    · have later : a ∈ Fields.keys rest := by simpa [keys, Ne.symm first] using present
      by_cases second : k = b
      · simp [set, second, different.symm]
      · simp only [set, first, second, if_false]
        rw [ih later]

theorem erase_set_comm (fields : Fields) {a b : String} (different : a ≠ b) (w : Json) :
    (fields.erase a).set b w = (fields.set b w).erase a := by
  induction fields with
  | nil => simp [set, erase, different.symm]
  | cons field rest ih =>
    obtain ⟨k, u⟩ := field
    simp only [erase] at ih ⊢
    by_cases first : k = a
    · subst first
      simp only [bne_self_eq_false, Bool.false_eq_true, not_false_eq_true, List.filter_cons_of_neg,
        set, different, if_false]
      exact ih
    · by_cases second : k = b
      · simp [set, second, different.symm]
      · simp [set, first, second, ih]

theorem erase_erase_comm (fields : Fields) (a b : String) :
    (fields.erase a).erase b = (fields.erase b).erase a :=
  List.filter_comm ..

/-- The fields with one entry overwritten or added, or erased. -/
def put (fields : Fields) (key : String) : Option Json → Fields
  | some value => fields.set key value
  | none => fields.erase key

theorem put_some (fields : Fields) (key : String) (value : Json) :
    fields.put key (some value) = fields.set key value := rfl

theorem put_find? (fields : Fields) (name : String) :
    fields.put (fields.keyFor name) (fields.find? name) = fields := by
  cases found : fields.find? name with
  | some value => exact set_self ((get?_keyFor fields name).trans found)
  | none =>
    apply erase_of_not_mem
    rw [← get?_eq_none_iff, get?_keyFor, found]

/-- All other entries keep spelling, value and order. -/
theorem erase_put (fields : Fields) (key : String) (entry : Option Json) :
    (fields.put key entry).erase key = fields.erase key := by
  cases entry with
  | some value => exact erase_set ..
  | none => simp [put, erase]

theorem put_set (fields : Fields) (key : String) (value : Json) (entry : Option Json) :
    (fields.set key value).put key entry = fields.put key entry := by
  cases entry with
  | some other => exact set_set ..
  | none => exact erase_set ..

theorem get?_put (fields : Fields) (key : String) (entry : Option Json) :
    (fields.put key entry).get? key = entry := by
  cases entry with
  | some value => simp [put, get?_set]
  | none => simp [put, get?_erase]

theorem get?_put_other (fields : Fields) {key other : String} (different : key ≠ other)
    (entry : Option Json) : (fields.put key entry).get? other = fields.get? other := by
  cases entry with
  | some value => simp [put, get?_set, different]
  | none => simp [put, get?_erase, different]

theorem keys_erase (fields : Fields) (key : String) :
    (fields.erase key).keys = fields.keys.filter (· != key) := by
  simp only [keys, erase, List.filter_map]
  rfl

/-- Putting an entry does not change under which spelling another name is found. -/
theorem key?_put_other (fields : Fields) {key name : String} (different : ¬ Caseless key name)
    (entry : Option Json) : (fields.put key entry).key? name = fields.key? name := by
  have unequal : name ≠ key := fun same => different (same ▸ Caseless.refl _)
  cases entry with
  | some value =>
    simp only [put, key?, keys_set]
    split
    · rfl
    · simp only [List.mem_append, List.mem_singleton, unequal, or_false, List.find?_append,
        List.find?_singleton, different, decide_false, Bool.false_eq_true, if_false, Option.or_none]
  | none =>
    simp only [put, key?, keys_erase, List.mem_filter, bne_iff_ne, ne_eq, unequal,
      not_false_eq_true, and_true, List.find?_filter]
    congr 2
    funext other
    by_cases same : other = key
    · simp [same, different]
    · simp [same]

theorem keyFor_put_other (fields : Fields) {key name : String} (different : ¬ Caseless key name)
    (entry : Option Json) : (fields.put key entry).keyFor name = fields.keyFor name := by
  rw [keyFor, key?_put_other fields different, keyFor]

theorem find?_put_other (fields : Fields) {key name : String} (different : ¬ Caseless key name)
    (entry : Option Json) : (fields.put key entry).find? name = fields.find? name := by
  unfold find?
  rw [key?_put_other fields different]
  cases spelled : fields.key? name with
  | none => rfl
  | some other =>
    apply get?_put_other
    rintro rfl
    exact different (key?_caseless spelled)

/-- Two results of changing the same fields, equal up to the order in which new keys were
added. -/
def SameUpToNew (fields first second : Fields) : Prop :=
  first.Perm second ∧
    first.filter (fun field => decide (field.1 ∈ fields.keys)) =
      second.filter fun field => decide (field.1 ∈ fields.keys)

theorem sameUpToNew_of_eq {fields first second : Fields} (same : first = second) :
    SameUpToNew fields first second := by
  subst same
  exact ⟨.refl _, rfl⟩

theorem put_comm (fields : Fields) {a b : String} (different : a ≠ b) (v w : Option Json) :
    SameUpToNew fields ((fields.put a v).put b w) ((fields.put b w).put a v) := by
  cases v with
  | none =>
    cases w with
    | none => exact sameUpToNew_of_eq (erase_erase_comm ..)
    | some w => exact sameUpToNew_of_eq (erase_set_comm fields different w)
  | some v =>
    cases w with
    | none => exact sameUpToNew_of_eq (erase_set_comm fields different.symm v).symm
    | some w =>
      by_cases first : a ∈ fields.keys
      · exact sameUpToNew_of_eq (set_set_of_mem different first v w)
      · by_cases second : b ∈ fields.keys
        · exact sameUpToNew_of_eq (set_set_of_mem different.symm second w v).symm
        · -- both keys are new, and each is added behind the other
          have added : ∀ {x y : String} (_ : x ∉ fields.keys) (_ : y ∉ fields.keys) (_ : x ≠ y)
              (p q : Json), (fields.set x p).set y q = fields ++ [(x, p), (y, q)] := by
            intro x y absent missing unequal p q
            rw [set_of_not_mem absent, set_of_not_mem, List.append_assoc]
            · rfl
            · simpa [keys, unequal.symm] using missing
          simp only [put, added first second different, added second first different.symm]
          refine ⟨List.Perm.append_left _ (List.Perm.swap ..), ?_⟩
          simp [List.filter_append, first, second]

end Fields
end Scim
